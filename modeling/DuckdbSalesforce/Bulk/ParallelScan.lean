import Mathlib
import DuckdbSalesforce.Bulk.ResultPages

/-!
# The parallel Bulk scan (salesforce_scan.cpp)

The Bulk path of `ScanFunction`, run by any number of threads. A thread claims
chunks from the shared counter, starts the job of each and streams its pages.
One step is what a thread does up to its next access to shared state, so that
a run is any interleaving of the calls.
-/

namespace DuckdbSalesforce
open PagedStream

/-! ### Threads -/

inductive Phase where
  | idle
  | seeking
  | starting (idx : ℕ)
  | advancing
  | emitting

/-- `returned` is the number of rows of the last call. -/
structure ScanThread where
  phase : Phase
  localState : ScanLocalState
  returned : Option ℕ

def ScanThread.fresh : ScanThread := ⟨.idle, .initial, none⟩

/-- The last call returned no row. -/
def ScanThread.ReportsEnd (th : ScanThread) : Prop := th.phase = .idle ∧ th.returned = some 0

def ScanThread.Unused (th : ScanThread) : Prop := th.phase = .idle ∧ th.returned = none

/-- The chunks and what the service answers: `startJob` is the quota gate and
`BulkStartJob`, and gives the path of the results. -/
structure BulkServer where
  chunkSoqls : List Text
  startJob : ℕ → Text → Except Text Text
  fetch : FetchResultPage

/-- `claims` lists which thread drew which chunk, in the order of the draws. -/
structure ScanWorld (Thread : Type) where
  nextChunk : ℕ
  totalBulkPages : ℕ
  threads : Thread → ScanThread
  claims : List (Thread × ℕ)

section
variable {Thread : Type} [DecidableEq Thread]

def ScanWorld.start : ScanWorld Thread := ⟨0, 0, fun _ => .fresh, []⟩

def ScanWorld.put (w : ScanWorld Thread) (t : Thread) (th : ScanThread) : ScanWorld Thread :=
  { w with threads := Function.update w.threads t th }

/-- The thread after `BulkAdvancePage` has looked at a page. -/
def afterPage (th : ScanThread) (l : ScanLocalState) : ScanThread :=
  if !l.page.isEmpty then { th with phase := .emitting, localState := l }
  else if l.chunkDone then
    { th with phase := .seeking, localState := { l with hasChunk := false } }
  else { th with phase := .advancing, localState := l }

def threadStep (srv : BulkServer) (vectorSize : ℕ) (w : ScanWorld Thread) (t : Thread) :
    Except Text (ScanWorld Thread) :=
  let th := w.threads t
  let l := th.localState
  match th.phase with
  | .idle =>
    .ok (w.put t { th with phase := if l.page.length ≤ l.cursor then .seeking else .emitting })
  | .seeking =>
    if l.hasChunk then .ok (w.put t { th with phase := .advancing })
    else
      let drawn := { w with nextChunk := w.nextChunk + 1 }
      if srv.chunkSoqls.length ≤ w.nextChunk then
        .ok (drawn.put t { th with phase := .idle, returned := some 0 })
      else
        .ok ({ drawn with claims := w.claims ++ [(t, w.nextChunk)] }.put t
          { th with phase := .starting w.nextChunk })
  | .starting idx =>
    match srv.startJob idx (srv.chunkSoqls.getD idx []) with
    | .error e => .error e
    | .ok base => .ok (w.put t { th with phase := .advancing, localState := l.startChunk base })
  | .advancing =>
    if l.chunkDone then
      .ok (w.put t { th with phase := .seeking, localState := { l with hasChunk := false } })
    else
      match bulkFetchPage srv.fetch w.totalBulkPages l with
      | (.error e, _) => .error e
      | (.ok (), l') =>
        .ok ({ w with totalBulkPages := w.totalBulkPages + 1 }.put t (afterPage th l'))
  | .emitting =>
    .ok (w.put t ⟨.idle, l.emit vectorSize, some ((l.page.drop l.cursor).take vectorSize).length⟩)

/-- The worlds that the threads can reach without an error. -/
inductive ScanRun (srv : BulkServer) (vectorSize : ℕ) : ScanWorld Thread → Prop where
  | start : ScanRun srv vectorSize .start
  | step (w w' : ScanWorld Thread) (t : Thread) (hrun : ScanRun srv vectorSize w)
      (hstep : threadStep srv vectorSize w t = .ok w') : ScanRun srv vectorSize w'

/-- Every thread that was called has reported the end, and some thread was. -/
def ScanWorld.Finished (w : ScanWorld Thread) : Prop :=
  (∃ t, (w.threads t).ReportsEnd) ∧ ∀ t, (w.threads t).ReportsEnd ∨ (w.threads t).Unused

def ScanWorld.claimed (w : ScanWorld Thread) (t : Thread) : List ℕ :=
  (w.claims.filter fun c => decide (c.1 = t)).map Prod.snd

end

/-! ### The rows of a chunk -/

/-- The rows of the pages from `path` to the last one. -/
inductive JobRows (fetch : FetchResultPage) (base : Text) : Text → List (List Text) → Prop where
  | last (path : Text) (pg : SalesforceBulkPage) (hfetch : fetch path = .ok pg)
      (hlast : pg.nextLocator = []) : JobRows fetch base path pg.rows
  | next (path : Text) (pg : SalesforceBulkPage) (rest : List (List Text))
      (hfetch : fetch path = .ok pg) (hmore : pg.nextLocator ≠ [])
      (hrest : JobRows fetch base (locatorPath base pg.nextLocator) rest) :
      JobRows fetch base path (pg.rows ++ rest)

def ChunkRows (srv : BulkServer) (idx : ℕ) (rows : List (List Text)) : Prop :=
  ∃ base, srv.startJob idx (srv.chunkSoqls.getD idx []) = .ok base ∧
    JobRows srv.fetch base base rows

theorem jobRows_unique (fetch : FetchResultPage) (base path : Text) (a b : List (List Text))
    (ha : JobRows fetch base path a) (hb : JobRows fetch base path b) : a = b := by
  induction ha generalizing b with
  | last path pg hfetch hlast =>
    cases hb with
    | last _ pg' hfetch' hlast' =>
      rw [Except.ok.inj (hfetch.symm.trans hfetch')]
    | next _ pg' rest hfetch' hmore hrest =>
      rw [← Except.ok.inj (hfetch.symm.trans hfetch')] at hmore
      exact absurd hlast hmore
  | next path pg rest hfetch hmore _ ih =>
    cases hb with
    | last _ pg' hfetch' hlast' =>
      rw [← Except.ok.inj (hfetch.symm.trans hfetch')] at hlast'
      exact absurd hlast' hmore
    | next _ pg' rest' hfetch' hmore' hrest' =>
      have hsame := Except.ok.inj (hfetch.symm.trans hfetch')
      subst hsame
      rw [ih rest' hrest']

theorem chunkRows_unique (srv : BulkServer) (idx : ℕ) (a b : List (List Text))
    (ha : ChunkRows srv idx a) (hb : ChunkRows srv idx b) : a = b := by
  obtain ⟨base, hstart, hrows⟩ := ha
  obtain ⟨base', hstart', hrows'⟩ := hb
  have hsame := Except.ok.inj (hstart.symm.trans hstart')
  subst hsame
  exact jobRows_unique _ _ _ _ _ hrows hrows'

open Classical in
/-- The rows of a chunk whose pages come to an end. -/
noncomputable def chunkRows (srv : BulkServer) (idx : ℕ) : List (List Text) :=
  if h : ∃ rows, ChunkRows srv idx rows then h.choose else []

theorem chunkRows_eq (srv : BulkServer) (idx : ℕ) (rows : List (List Text))
    (h : ChunkRows srv idx rows) : chunkRows srv idx = rows := by
  have hex : ∃ rows, ChunkRows srv idx rows := ⟨rows, h⟩
  rw [chunkRows, dif_pos hex]
  exact chunkRows_unique srv idx _ _ hex.choose_spec h

/-! ### What holds of a thread -/

section
variable (srv : BulkServer)

def ChunksComplete (chunks : List ℕ) : Prop := ∀ c ∈ chunks, ChunkRows srv c (chunkRows srv c)

def Drained (l : ScanLocalState) : Prop := l.page.length ≤ l.cursor

/-- The thread has delivered all rows of the chunks it has claimed. -/
structure NoChunk (mine : List ℕ) (l : ScanLocalState) : Prop where
  free : l.hasChunk = false
  drained : Drained l
  complete : ChunksComplete srv mine
  rows : delivered l.trace = mine.flatMap (chunkRows srv)

/-- How far the chunk at `base` is read when `rows` are fetched of it. -/
def ReadSoFar (base : Text) (rows : List (List Text)) (l : ScanLocalState) : Prop :=
  if l.chunkDone then JobRows srv.fetch base base rows
  else ∀ rest, JobRows srv.fetch base l.pagePath rest → JobRows srv.fetch base base (rows ++ rest)

/-- The thread is at its last chunk, and has delivered all rows of those before. -/
structure InChunk (mine : List ℕ) (l : ScanLocalState) : Prop where
  busy : l.hasChunk = true
  account : ∃ before idx rows, mine = before ++ [idx] ∧ ChunksComplete srv before ∧
    delivered l.trace ++ l.page.drop l.cursor = before.flatMap (chunkRows srv) ++ rows ∧
    srv.startJob idx (srv.chunkSoqls.getD idx []) = .ok l.resultsBase ∧
    ReadSoFar srv l.resultsBase rows l

/-- What holds of a thread at each place of a call; `exhausted` says that all
chunks are drawn. -/
inductive ThreadOk (exhausted : Prop) (mine : List ℕ) : ScanThread → Prop where
  | unused (hmine : mine = []) : ThreadOk exhausted mine .fresh
  | ended (l : ScanLocalState) (hl : NoChunk srv mine l) (hend : exhausted) :
      ThreadOk exhausted mine ⟨.idle, l, some 0⟩
  | between (l : ScanLocalState) (k : ℕ) (hl : InChunk srv mine l) :
      ThreadOk exhausted mine ⟨.idle, l, some (k + 1)⟩
  | free (l : ScanLocalState) (r : Option ℕ) (hl : NoChunk srv mine l) :
      ThreadOk exhausted mine ⟨.seeking, l, r⟩
  | busy (l : ScanLocalState) (r : Option ℕ) (hl : InChunk srv mine l) (hd : Drained l) :
      ThreadOk exhausted mine ⟨.seeking, l, r⟩
  | starting (l : ScanLocalState) (r : Option ℕ) (before : List ℕ) (idx : ℕ)
      (hl : NoChunk srv before l) (hmine : mine = before ++ [idx]) :
      ThreadOk exhausted mine ⟨.starting idx, l, r⟩
  | advancing (l : ScanLocalState) (r : Option ℕ) (hl : InChunk srv mine l) (hd : Drained l) :
      ThreadOk exhausted mine ⟨.advancing, l, r⟩
  | emitting (l : ScanLocalState) (r : Option ℕ) (hl : InChunk srv mine l)
      (hmore : l.cursor < l.page.length) : ThreadOk exhausted mine ⟨.emitting, l, r⟩

variable {srv}

theorem threadOk_mono (a b : Prop) (mine : List ℕ) (th : ScanThread) (hab : a → b)
    (h : ThreadOk srv a mine th) : ThreadOk srv b mine th := by
  cases h with
  | unused hmine => exact .unused hmine
  | ended l hl hend => exact .ended l hl (hab hend)
  | between l k hl => exact .between l k hl
  | free l r hl => exact .free l r hl
  | busy l r hl hd => exact .busy l r hl hd
  | starting l r before idx hl hmine => exact .starting l r before idx hl hmine
  | advancing l r hl hd => exact .advancing l r hl hd
  | emitting l r hl hmore => exact .emitting l r hl hmore

/-! ### Reading a chunk -/

theorem inChunk_start (before : List ℕ) (idx : ℕ) (l : ScanLocalState) (base : Text)
    (hl : NoChunk srv before l)
    (hstart : srv.startJob idx (srv.chunkSoqls.getD idx []) = .ok base) :
    InChunk srv (before ++ [idx]) (l.startChunk base) := by
  refine ⟨rfl, before, idx, [], rfl, hl.complete, ?_, hstart, ?_⟩
  · show delivered l.trace ++ l.page.drop l.cursor = _
    rw [hl.rows, List.drop_eq_nil_of_le hl.drained]
  · intro rest hrest
    exact hrest

theorem noChunk_of_done (mine : List ℕ) (l : ScanLocalState) (hl : InChunk srv mine l)
    (hd : Drained l) (hdone : l.chunkDone = true) :
    NoChunk srv mine { l with hasChunk := false } := by
  obtain ⟨before, idx, rows, hmine, hcomplete, hrows, hstart, hread⟩ := hl.account
  rw [ReadSoFar, if_pos hdone] at hread
  have hchunk : ChunkRows srv idx rows := ⟨l.resultsBase, hstart, hread⟩
  have heq := chunkRows_eq srv idx rows hchunk
  rw [List.drop_eq_nil_of_le hd, List.append_nil] at hrows
  refine ⟨rfl, hd, ?_, ?_⟩
  · intro c hc
    rw [hmine] at hc
    rcases List.mem_append.mp hc with hold | hnew
    · exact hcomplete c hold
    · rw [List.mem_singleton.mp hnew, heq]
      exact hchunk
  · rw [hmine, List.flatMap_append, List.flatMap_singleton, heq]
    exact hrows

theorem inChunk_fetch (total : ℕ) (mine : List ℕ) (l l' : ScanLocalState) (hl : InChunk srv mine l)
    (hd : Drained l) (hopen : l.chunkDone = false)
    (hround : bulkFetchPage srv.fetch total l = (.ok (), l')) :
    InChunk srv mine l' ∧ l'.cursor = 0 := by
  obtain ⟨htrace, hbase, hhas⟩ := bulkFetchPage_frame srv.fetch total l l' _ hround
  obtain ⟨pg, hpage, hrows', hcursor, hstarted, hnext⟩ := bulkFetchPage_ok srv.fetch total l l' hround
  obtain ⟨before, idx, rows, hmine, hcomplete, hrows, hstart, hread⟩ := hl.account
  rw [ReadSoFar, hopen, if_neg Bool.false_ne_true] at hread
  rw [List.drop_eq_nil_of_le hd, List.append_nil] at hrows
  refine ⟨⟨hhas.trans hl.busy, before, idx, rows ++ pg.rows, hmine, hcomplete, ?_, ?_, ?_⟩, hcursor⟩
  · have hdelivered : delivered l'.trace = delivered l.trace := by
      rw [htrace, delivered_append]
      exact List.append_nil _
    rw [hdelivered, hrows', hcursor, List.drop_zero, hrows, List.append_assoc]
  · rw [hbase]
    exact hstart
  · rw [ReadSoFar, hbase]
    rcases hnext with ⟨hlast, hdone⟩ | ⟨hmore, hsame, hloc, _⟩
    · rw [if_pos hdone]
      exact hread pg.rows (.last _ pg hpage hlast)
    · rw [hsame, hopen, if_neg Bool.false_ne_true]
      intro rest hrest
      have hpath : l'.pagePath = locatorPath l.resultsBase pg.nextLocator := by
        rw [ScanLocalState.pagePath, hstarted, if_pos rfl, hbase, hloc]
      rw [hpath] at hrest
      rw [List.append_assoc]
      exact hread (pg.rows ++ rest) (.next _ pg rest hpage hmore hrest)

theorem inChunk_emit (v : ℕ) (mine : List ℕ) (l : ScanLocalState) (hl : InChunk srv mine l) :
    InChunk srv mine (l.emit v) := by
  obtain ⟨before, idx, rows, hmine, hcomplete, hrows, hstart, hread⟩ := hl.account
  exact ⟨hl.busy, before, idx, rows, hmine, hcomplete, (emit_frame l v).2.2.trans hrows, hstart,
    hread⟩

theorem afterPage_ok (exhausted : Prop) (mine : List ℕ) (th : ScanThread) (l : ScanLocalState)
    (hl : InChunk srv mine l) (hcursor : l.cursor = 0) :
    ThreadOk srv exhausted mine (afterPage th l) := by
  unfold afterPage
  by_cases hempty : l.page = []
  · have hd : Drained l := by
      rw [Drained, hempty]
      exact Nat.zero_le _
    rw [if_neg (by simp [hempty])]
    by_cases hdone : l.chunkDone = true
    · rw [if_pos hdone]
      exact .free _ th.returned (noChunk_of_done mine l hl hd hdone)
    · rw [if_neg hdone]
      exact .advancing l th.returned hl hd
  · have hlen : 0 < l.page.length := List.length_pos_iff.mpr hempty
    rw [if_pos (by simp [hempty])]
    exact .emitting l th.returned hl (by omega)

end

/-- Among draws numbered from 0 each number has one owner. -/
theorem drawn_by_one {Thread : Type} (claims : List (Thread × ℕ)) (n : ℕ)
    (hdraws : claims.map Prod.snd = List.range n) (c : ℕ) (hc : c < n) :
    ∃! t, (t, c) ∈ claims := by
  have hmem : c ∈ claims.map Prod.snd := by
    rw [hdraws]
    exact List.mem_range.mpr hc
  have hnodup : (claims.map Prod.snd).Nodup := by
    rw [hdraws]
    exact List.nodup_range
  obtain ⟨⟨t, c'⟩, hclaim, hsame⟩ := List.mem_map.mp hmem
  have hcc : c' = c := hsame
  subst hcc
  refine ⟨t, hclaim, ?_⟩
  intro t' ht'
  exact (Prod.ext_iff.mp (List.inj_on_of_nodup_map hnodup ht' hclaim rfl)).1

/-! ### Steps -/

section
variable {Thread : Type} [DecidableEq Thread] {srv : BulkServer} {v : ℕ}

structure BulkInvariant (srv : BulkServer) (w : ScanWorld Thread) : Prop where
  draws : w.claims.map Prod.snd = List.range (min w.nextChunk srv.chunkSoqls.length)
  threads : ∀ t, ThreadOk srv (srv.chunkSoqls.length ≤ w.nextChunk) (w.claimed t) (w.threads t)

theorem put_self (w : ScanWorld Thread) (t : Thread) (th : ScanThread) :
    (w.put t th).threads t = th := by
  show Function.update w.threads t th t = th
  exact Function.update_self ..

theorem put_other (w : ScanWorld Thread) (t t' : Thread) (th : ScanThread) (h : t' ≠ t) :
    (w.put t th).threads t' = w.threads t' := by
  show Function.update w.threads t th t' = w.threads t'
  exact Function.update_of_ne h ..

/-- A step that draws no chunk keeps the invariant when it keeps that of its thread. -/
theorem put_invariant (w w' : ScanWorld Thread) (t : Thread) (th : ScanThread)
    (h : BulkInvariant srv w) (hclaims : w'.claims = w.claims)
    (hthreads : w'.threads = w.threads) (hmono : w.nextChunk ≤ w'.nextChunk)
    (hnext : w'.nextChunk = w.nextChunk ∨ srv.chunkSoqls.length ≤ w.nextChunk)
    (hth : ThreadOk srv (srv.chunkSoqls.length ≤ w'.nextChunk) (w.claimed t) th) :
    BulkInvariant srv (w'.put t th) := by
  have hclaimed : ∀ t', (w'.put t th).claimed t' = w.claimed t' := by
    intro t'
    show ((w'.claims.filter _).map _) = _
    rw [hclaims]
    rfl
  refine ⟨?_, ?_⟩
  · show w'.claims.map Prod.snd = List.range (min w'.nextChunk srv.chunkSoqls.length)
    rw [hclaims, h.draws]
    congr 1
    omega
  · intro t'
    rw [hclaimed t']
    by_cases hsame : t' = t
    · subst hsame
      rw [put_self]
      exact hth
    · rw [put_other _ _ _ _ hsame, hthreads]
      exact threadOk_mono _ _ _ _ (fun hle => le_trans hle hmono) (h.threads t')

theorem draw_invariant (w : ScanWorld Thread) (t : Thread) (th : ScanThread)
    (h : BulkInvariant srv w) (hmore : w.nextChunk < srv.chunkSoqls.length)
    (hth : ∀ e, ThreadOk srv e (w.claimed t ++ [w.nextChunk]) th) :
    BulkInvariant srv (ScanWorld.put
      { w with nextChunk := w.nextChunk + 1, claims := w.claims ++ [(t, w.nextChunk)] } t th) := by
  refine ⟨?_, ?_⟩
  · show (w.claims ++ [(t, w.nextChunk)]).map Prod.snd =
      List.range (min (w.nextChunk + 1) srv.chunkSoqls.length)
    rw [List.map_append, h.draws, Nat.min_eq_left (Nat.le_of_lt hmore), Nat.min_eq_left hmore,
      List.range_succ]
    rfl
  · intro t'
    have hclaimed : ScanWorld.claimed (ScanWorld.put
        { w with nextChunk := w.nextChunk + 1, claims := w.claims ++ [(t, w.nextChunk)] } t th) t' =
        w.claimed t' ++ if t = t' then [w.nextChunk] else [] := by
      show (((w.claims ++ [(t, w.nextChunk)]).filter _).map _) = _
      rw [List.filter_append, List.map_append]
      by_cases hsame : t = t'
      · simp [hsame, ScanWorld.claimed]
      · simp [hsame, ScanWorld.claimed]
    rw [hclaimed]
    by_cases hsame : t' = t
    · subst hsame
      rw [put_self, if_pos rfl]
      exact hth _
    · rw [put_other _ _ _ _ hsame, if_neg (Ne.symm hsame), List.append_nil]
      exact threadOk_mono _ _ _ _ (fun hle => le_trans hle (Nat.le_succ _)) (h.threads t')

/-- A step that touches its own thread only. -/
theorem keep_invariant (w : ScanWorld Thread) (t : Thread) (th : ScanThread) (h : BulkInvariant srv w)
    (hth : ThreadOk srv (srv.chunkSoqls.length ≤ w.nextChunk) (w.claimed t) th) :
    BulkInvariant srv (w.put t th) :=
  put_invariant w w t th h rfl rfl (le_refl _) (Or.inl rfl) hth

section Places
variable {w w' : ScanWorld Thread} {t : Thread} (h : BulkInvariant srv w) (l : ScanLocalState)
include h

/-- A call begins after rows were returned. -/
theorem between_step (k : ℕ) (hthread : w.threads t = ⟨.idle, l, some (k + 1)⟩)
    (hl : InChunk srv (w.claimed t) l) (hstep : threadStep srv v w t = .ok w') :
    BulkInvariant srv w' := by
  unfold threadStep at hstep
  rw [hthread] at hstep
  simp only at hstep
  by_cases hd : l.page.length ≤ l.cursor
  · rw [if_pos hd] at hstep
    cases hstep
    exact keep_invariant w t _ h (.busy l _ hl hd)
  · rw [if_neg hd] at hstep
    cases hstep
    exact keep_invariant w t _ h (.emitting l _ hl (by omega))

/-- The thread draws a chunk, or finds them all drawn and reports the end. -/
theorem free_step (r : Option ℕ) (hthread : w.threads t = ⟨.seeking, l, r⟩)
    (hl : NoChunk srv (w.claimed t) l) (hstep : threadStep srv v w t = .ok w') :
    BulkInvariant srv w' := by
  unfold threadStep at hstep
  rw [hthread] at hstep
  simp only at hstep
  rw [hl.free, if_neg Bool.false_ne_true] at hstep
  by_cases hend : srv.chunkSoqls.length ≤ w.nextChunk
  · rw [if_pos hend] at hstep
    cases hstep
    exact put_invariant w _ t _ h rfl rfl (Nat.le_succ _) (Or.inr hend)
      (.ended l hl (le_trans hend (Nat.le_succ _)))
  · rw [if_neg hend] at hstep
    cases hstep
    exact draw_invariant w t _ h (by omega) fun e => .starting l r _ _ hl rfl

theorem starting_step (r : Option ℕ) (before : List ℕ) (idx : ℕ)
    (hthread : w.threads t = ⟨.starting idx, l, r⟩) (hl : NoChunk srv before l)
    (hmine : w.claimed t = before ++ [idx]) (hstep : threadStep srv v w t = .ok w') :
    BulkInvariant srv w' := by
  unfold threadStep at hstep
  rw [hthread] at hstep
  simp only at hstep
  cases hjob : srv.startJob idx (srv.chunkSoqls.getD idx []) with
  | error e =>
    rw [hjob] at hstep
    cases hstep
  | ok base =>
    rw [hjob] at hstep
    cases hstep
    refine keep_invariant w t _ h (.advancing _ r ?_ hl.drained)
    rw [hmine]
    exact inChunk_start before idx l base hl hjob

/-- The chunk is at its end, or its next page is fetched. -/
theorem advancing_step (r : Option ℕ) (hthread : w.threads t = ⟨.advancing, l, r⟩)
    (hl : InChunk srv (w.claimed t) l) (hd : Drained l) (hstep : threadStep srv v w t = .ok w') :
    BulkInvariant srv w' := by
  unfold threadStep at hstep
  rw [hthread] at hstep
  simp only at hstep
  by_cases hdone : l.chunkDone = true
  · rw [if_pos hdone] at hstep
    cases hstep
    exact keep_invariant w t _ h (.free _ r (noChunk_of_done _ l hl hd hdone))
  rw [if_neg hdone] at hstep
  cases hround : bulkFetchPage srv.fetch w.totalBulkPages l with
  | mk a l' =>
    rw [hround] at hstep
    cases a with
    | error e => cases hstep
    | ok u =>
      cases hstep
      obtain ⟨hl', hcursor⟩ := inChunk_fetch _ _ l l' hl hd (Bool.eq_false_iff.mpr hdone) hround
      exact put_invariant w _ t _ h rfl rfl (le_refl _) (Or.inl rfl)
        (afterPage_ok _ _ _ l' hl' hcursor)

/-- At least one row is returned. -/
theorem emitting_step (hv : 0 < v) (r : Option ℕ) (hthread : w.threads t = ⟨.emitting, l, r⟩)
    (hl : InChunk srv (w.claimed t) l) (hmore : l.cursor < l.page.length)
    (hstep : threadStep srv v w t = .ok w') : BulkInvariant srv w' := by
  unfold threadStep at hstep
  rw [hthread] at hstep
  cases hstep
  have hrows : ((l.page.drop l.cursor).take v).length ≠ 0 := by
    rw [List.length_take, List.length_drop]
    omega
  obtain ⟨k, hk⟩ := Nat.exists_eq_succ_of_ne_zero hrows
  refine keep_invariant w t _ h ?_
  rw [hk]
  exact .between _ k (inChunk_emit v _ l hl)

end Places

theorem threadStep_invariant (hv : 0 < v) (w w' : ScanWorld Thread) (t : Thread)
    (h : BulkInvariant srv w) (hstep : threadStep srv v w t = .ok w') :
    BulkInvariant srv w' := by
  have hok := h.threads t
  generalize hthread : w.threads t = th at hok
  cases hok with
  | unused hmine =>
    unfold threadStep at hstep
    rw [hthread] at hstep
    cases hstep
    refine keep_invariant w t _ h (.free _ _ ⟨rfl, Nat.le_refl 0, ?_, ?_⟩)
    · rw [hmine]
      intro c hc
      cases hc
    · rw [hmine]
      rfl
  | ended l hl hend =>
    have hd : l.page.length ≤ l.cursor := hl.drained
    unfold threadStep at hstep
    rw [hthread] at hstep
    simp only at hstep
    rw [if_pos hd] at hstep
    cases hstep
    exact keep_invariant w t _ h (.free l _ hl)
  | between l k hl => exact between_step h l k hthread hl hstep
  | free l r hl => exact free_step h l r hthread hl hstep
  | busy l r hl hd =>
    unfold threadStep at hstep
    rw [hthread] at hstep
    simp only at hstep
    rw [if_pos hl.busy] at hstep
    cases hstep
    exact keep_invariant w t _ h (.advancing l r hl hd)
  | starting l r before idx hl hmine => exact starting_step h l r before idx hthread hl hmine hstep
  | advancing l r hl hd => exact advancing_step h l r hthread hl hd hstep
  | emitting l r hl hmore => exact emitting_step h l hv r hthread hl hmore hstep

theorem scanRun_invariant (hv : 0 < v) (w : ScanWorld Thread) (hrun : ScanRun srv v w) :
    BulkInvariant srv w := by
  induction hrun with
  | start =>
    refine ⟨?_, fun t => .unused rfl⟩
    show [] = List.range (min 0 _)
    rw [Nat.zero_min]
    rfl
  | step w w' t hrun hstep ih => exact threadStep_invariant hv w w' t ih hstep

/-! ### Whole scans -/

theorem sum_by_owner {Row : Type} [Fintype Thread] (claims : List (Thread × ℕ))
    (f : ℕ → List Row) :
    ∑ t, ((((claims.filter fun c => decide (c.1 = t)).map Prod.snd).flatMap f : List Row) :
      Multiset Row) = (((claims.map Prod.snd).flatMap f : List Row) : Multiset Row) := by
  induction claims with
  | nil => exact Finset.sum_const_zero
  | cons c claims ih =>
    have hsplit : ∀ t, (((((c :: claims).filter fun c => decide (c.1 = t)).map Prod.snd).flatMap f :
        List Row) : Multiset Row) = (if c.1 = t then ((f c.2 : List Row) : Multiset Row) else 0) +
        ((((claims.filter fun c => decide (c.1 = t)).map Prod.snd).flatMap f : List Row) :
          Multiset Row) := by
      intro t
      by_cases hc : c.1 = t
      · rw [List.filter_cons_of_pos (by simpa using hc), if_pos hc, List.map_cons,
          List.flatMap_cons, Multiset.coe_add]
      · rw [List.filter_cons_of_neg (by simpa using hc), if_neg hc, Multiset.zero_add]
    rw [Finset.sum_congr rfl fun t _ => hsplit t, Finset.sum_add_distrib, ih, Finset.sum_ite_eq,
      if_pos (Finset.mem_univ c.1), List.map_cons, List.flatMap_cons, Multiset.coe_add]

theorem reportsEnd_spec (w : ScanWorld Thread) (t : Thread) (h : BulkInvariant srv w)
    (hend : (w.threads t).ReportsEnd) :
    srv.chunkSoqls.length ≤ w.nextChunk ∧ NoChunk srv (w.claimed t) (w.threads t).localState := by
  have hok := h.threads t
  obtain ⟨hphase, hreturned⟩ := hend
  generalize w.threads t = th at hok hphase hreturned
  cases hok with
  | unused hmine => cases hreturned
  | ended l hl hexhausted => exact ⟨hexhausted, hl⟩
  | between l k hl => cases hreturned
  | free l r hl => cases hphase
  | busy l r hl hd => cases hphase
  | starting l r before idx hl hmine => cases hphase
  | advancing l r hl hd => cases hphase
  | emitting l r hl hmore => cases hphase

theorem unused_spec (w : ScanWorld Thread) (t : Thread) (h : BulkInvariant srv w)
    (hunused : (w.threads t).Unused) :
    w.claimed t = [] ∧ delivered (w.threads t).localState.trace = [] := by
  have hok := h.threads t
  obtain ⟨hphase, hreturned⟩ := hunused
  generalize w.threads t = th at hok hphase hreturned
  cases hok with
  | unused hmine => exact ⟨hmine, rfl⟩
  | ended l hl hexhausted => cases hreturned
  | between l k hl => cases hreturned
  | free l r hl => cases hphase
  | busy l r hl hd => cases hphase
  | starting l r before idx hl hmine => cases hphase
  | advancing l r hl hd => cases hphase
  | emitting l r hl hmore => cases hphase

theorem exhausted_draws (w : ScanWorld Thread) (h : BulkInvariant srv w)
    (hend : srv.chunkSoqls.length ≤ w.nextChunk) :
    w.claims.map Prod.snd = List.range srv.chunkSoqls.length := by
  rw [h.draws, Nat.min_eq_right hend]

/-- The multiset of rows that the threads have delivered so far. -/
def ScanWorld.emitted [Fintype Thread] (w : ScanWorld Thread) : Multiset (List Text) :=
  ∑ t, (delivered (w.threads t).localState.trace : Multiset (List Text))

theorem finished_spec [Fintype Thread] (w : ScanWorld Thread) (h : BulkInvariant srv w)
    (hfinished : w.Finished) :
    w.claims.map Prod.snd = List.range srv.chunkSoqls.length ∧
      (∀ c < srv.chunkSoqls.length, ChunkRows srv c (chunkRows srv c)) ∧
      w.emitted = ((List.range srv.chunkSoqls.length).flatMap (chunkRows srv) : List (List Text)) := by
  obtain ⟨⟨t₀, hend₀⟩, hall⟩ := hfinished
  have hdraws := exhausted_draws w h (reportsEnd_spec w t₀ h hend₀).1
  have hthread : ∀ t, ChunksComplete srv (w.claimed t) ∧
      delivered (w.threads t).localState.trace = (w.claimed t).flatMap (chunkRows srv) := by
    intro t
    rcases hall t with hend | hunused
    · have hspec := (reportsEnd_spec w t h hend).2
      exact ⟨hspec.complete, hspec.rows⟩
    · obtain ⟨hnone, hrows⟩ := unused_spec w t h hunused
      rw [hnone, hrows]
      exact ⟨(fun c hc => nomatch hc), rfl⟩
  refine ⟨hdraws, ?_, ?_⟩
  · intro c hc
    obtain ⟨t, hclaim, _⟩ := drawn_by_one w.claims _ hdraws c hc
    refine (hthread t).1 c (List.mem_map.mpr ⟨(t, c), List.mem_filter.mpr ⟨hclaim, ?_⟩, rfl⟩)
    exact decide_eq_true rfl
  · rw [← hdraws, ← sum_by_owner w.claims (chunkRows srv), ScanWorld.emitted]
    exact Finset.sum_congr rfl fun t _ => by rw [(hthread t).2]; rfl

end

/-- In every run without an error each chunk is drawn by one thread, the rows
delivered are those of all pages of all chunks, and a thread reports the end
only when all chunks are drawn and the rows of its own are delivered. -/
theorem bulk_scan_exactly_once {Thread : Type} [DecidableEq Thread] [Fintype Thread]
    (srv : BulkServer) (v : ℕ) (hv : 0 < v) (w : ScanWorld Thread) (hrun : ScanRun srv v w) :
    (∀ t, (w.threads t).ReportsEnd →
      (∀ c < srv.chunkSoqls.length, ∃ t', (t', c) ∈ w.claims) ∧
        (w.threads t).localState.hasChunk = false ∧ Drained (w.threads t).localState ∧
        delivered (w.threads t).localState.trace = (w.claimed t).flatMap (chunkRows srv)) ∧
    (w.Finished →
      (∀ c < srv.chunkSoqls.length, ∃! t, (t, c) ∈ w.claims) ∧
        w.claims.map Prod.snd = List.range srv.chunkSoqls.length ∧
        (∀ c < srv.chunkSoqls.length, ChunkRows srv c (chunkRows srv c)) ∧
        w.emitted =
          ((List.range srv.chunkSoqls.length).flatMap (chunkRows srv) : List (List Text))) := by
  have h := scanRun_invariant hv w hrun
  refine ⟨?_, ?_⟩
  · intro t hend
    obtain ⟨hexhausted, hspec⟩ := reportsEnd_spec w t h hend
    refine ⟨?_, hspec.free, hspec.drained, hspec.rows⟩
    intro c hc
    exact (drawn_by_one w.claims _ (exhausted_draws w h hexhausted) c hc).exists
  · intro hfinished
    obtain ⟨hdraws, hcomplete, hemitted⟩ := finished_spec w h hfinished
    exact ⟨drawn_by_one w.claims _ hdraws, hdraws, hcomplete, hemitted⟩

/-! ### A run of two threads -/

def scheduled {Thread : Type} [DecidableEq Thread] (srv : BulkServer) (v : ℕ) :
    List Thread → ScanWorld Thread → Except Text (ScanWorld Thread)
  | [], w => .ok w
  | t :: ts, w =>
    match threadStep srv v w t with
    | .error e => .error e
    | .ok w' => scheduled srv v ts w'

theorem scheduled_run {Thread : Type} [DecidableEq Thread] (srv : BulkServer) (v : ℕ)
    (ts : List Thread) (w w' : ScanWorld Thread) (hrun : ScanRun srv v w)
    (h : scheduled srv v ts w = .ok w') : ScanRun srv v w' := by
  induction ts generalizing w with
  | nil =>
    cases h
    exact hrun
  | cons t ts ih =>
    unfold scheduled at h
    cases hstep : threadStep srv v w t with
    | error e =>
      rw [hstep] at h
      cases h
    | ok w₁ =>
      rw [hstep] at h
      exact ih w₁ (.step w w₁ t hrun hstep) h

/-- The pages of the first chunk have an empty one among them. -/
def twoChunks : BulkServer where
  chunkSoqls := ["SELECT Id FROM Account WHERE Id < '002'".toList,
    "SELECT Id FROM Account WHERE Id >= '002'".toList]
  startJob := fun idx _ => .ok (if idx = 0 then "/a".toList else "/b".toList)
  fetch := fun path =>
    if path = "/a".toList then .ok ⟨["Id".toList], [["001".toList]], "L2".toList⟩
    else if path = "/a?locator=L2".toList then .ok ⟨[], [], "L3".toList⟩
    else if path = "/a?locator=L3".toList then .ok ⟨["Id".toList], [["0011".toList]], []⟩
    else .ok ⟨["Id".toList], [["002".toList]], []⟩

/-- The second thread draws and reads the second chunk while the first is reading its own. -/
def twoThreadsTurns : List Bool :=
  [true, true, true, false, false, true, false, true, false, true, false] ++
    List.replicate 8 true ++ List.replicate 4 false

def twoThreads : ScanWorld Bool :=
  match scheduled twoChunks 2048 twoThreadsTurns .start with
  | .ok w => w
  | .error _ => .start

theorem twoThreads_run : ScanRun twoChunks 2048 twoThreads :=
  scheduled_run twoChunks 2048 twoThreadsTurns _ _ .start rfl

theorem twoThreads_finished : twoThreads.Finished := by
  refine ⟨⟨true, rfl, rfl⟩, ?_⟩
  intro t
  cases t with
  | true => exact Or.inl ⟨rfl, rfl⟩
  | false => exact Or.inl ⟨rfl, rfl⟩

theorem twoThreads_exactly_once :
    twoThreads.claims = [(true, 0), (false, 1)] ∧ (∀ c < 2, ∃! t, (t, c) ∈ twoThreads.claims) ∧
      twoThreads.emitted = ((List.range 2).flatMap (chunkRows twoChunks) : List (List Text)) :=
  have h := (bulk_scan_exactly_once twoChunks 2048 (by omega) twoThreads twoThreads_run).2
    twoThreads_finished
  ⟨rfl, h.1, h.2.2.2⟩

end DuckdbSalesforce
