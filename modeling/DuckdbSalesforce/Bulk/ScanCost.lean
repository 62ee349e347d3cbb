import DuckdbSalesforce.Bulk.ParallelScan
import DuckdbSalesforce.Library.SharedWrites
import DuckdbSalesforce.Scan.PushedScan
import DuckdbSalesforce.Scan.QueryCost

/-!
# The cost of a parallel Bulk scan (`salesforce_diag.cpp`, `salesforce_scan.cpp`)

The threads of a Bulk scan write to the one record of `salesforce_query_cost`, each
write under a lock but not together with the work it reports. Rows are added
and come out right in every interleaving. The page count is drawn from a shared
counter and then overwrites, so that a late thread can turn it back. A call that
throws writes what it came to, and its thread does nothing more.
-/

namespace DuckdbSalesforce
open PagedStream SharedWrites TableChunks

/-! ### Writes of a thread -/

/-- What the start of a job reports, also one that throws: the quota gate if it is
on, and each poll. -/
structure JobDiag where
  quota : Option (ℤ × Bool)
  polls : ℕ

def JobDiag.writes (j : JobDiag) : List DiagWrite :=
  (j.quota.toList.map fun q => .setQuota q.1 q.2) ++
    (List.range j.polls).map fun i => .setBulkPolls (i + 1 : ℕ)

section Threads
variable {Thread : Type} [DecidableEq Thread] (srv : BulkServer) (jobs : ℕ → JobDiag) (v : ℕ)

def threadWrites (w : ScanWorld Thread) (t : Thread) : List DiagWrite :=
  let l := (w.threads t).localState
  match (w.threads t).phase with
  | .idle => []
  | .seeking => []
  | .starting idx => (jobs idx).writes
  | .advancing => if l.chunkDone then [] else [.setPages (w.totalBulkPages + 1 : ℕ)]
  | .emitting => [.addRowsEmitted ((l.page.drop l.cursor).take v).length]

/-- The scan, and the threads whose call has thrown. -/
structure CostWorld (Thread : Type) where
  scan : ScanWorld Thread
  thrown : List Thread

def CostWorld.start : CostWorld Thread := ⟨.start, []⟩

/-- Where a call throws, and what is written by then: the quota gate and the job,
the fetch of a page, the page once it is counted, and a cell that does not decode. -/
inductive Throws (w : ScanWorld Thread) (t : Thread) : ScanWorld Thread → List DiagWrite → Prop where
  | job (idx : ℕ) (e : Text) (hphase : (w.threads t).phase = .starting idx)
      (hjob : srv.startJob idx (srv.chunkSoqls.getD idx []) = .error e) :
      Throws w t w (jobs idx).writes
  | fetch (e : Text) (hphase : (w.threads t).phase = .advancing)
      (hopen : (w.threads t).localState.chunkDone = false)
      (hfetch : srv.fetch (w.threads t).localState.pagePath = .error e) : Throws w t w []
  | page (e : Text) (pg : SalesforceBulkPage) (l' : ScanLocalState)
      (hphase : (w.threads t).phase = .advancing)
      (hopen : (w.threads t).localState.chunkDone = false)
      (hfetch : srv.fetch (w.threads t).localState.pagePath = .ok pg)
      (hround : bulkFetchPage srv.fetch w.totalBulkPages (w.threads t).localState = (.error e, l')) :
      Throws w t { w with totalBulkPages := w.totalBulkPages + 1 }
        [.setPages (w.totalBulkPages + 1 : ℕ)]
  | cell (hphase : (w.threads t).phase = .emitting) : Throws w t w []

/-- A step of the scan or a call that throws, and what its thread then has to write. -/
inductive ThreadWork (w : CostWorld Thread) (t : Thread) : CostWorld Thread → List DiagWrite → Prop where
  | step (w' : ScanWorld Thread) (hgoing : t ∉ w.thrown)
      (hstep : threadStep srv v w.scan t = .ok w') :
      ThreadWork w t ⟨w', w.thrown⟩ (threadWrites jobs v w.scan t)
  | throw (w' : ScanWorld Thread) (owed : List DiagWrite) (hgoing : t ∉ w.thrown)
      (hthrow : Throws srv jobs w.scan t w' owed) : ThreadWork w t ⟨w', t :: w.thrown⟩ owed

abbrev CostState (Thread : Type) := SharedWrites.State Thread (CostWorld Thread) DiagWrite ScanCost

/-- What the threads can reach from the record of `ScanInitGlobal`. -/
def CostRun (c : ScanCost) (s : CostState Thread) : Prop :=
  SharedWrites.Run (ThreadWork srv jobs v) ScanCost.write (.start .start c) s

end Threads

def DiagWrite.rows : DiagWrite → ℤ
  | .addRowsEmitted rows => rows
  | _ => 0

theorem write_rows (c : ScanCost) (a : DiagWrite) : (c.write a).rowsEmitted = c.rowsEmitted + a.rows := by
  cases a with
  | addRowsEmitted rows => rfl
  | setPages pages => exact (add_zero c.rowsEmitted).symm
  | setBulkPolls polls => exact (add_zero c.rowsEmitted).symm
  | setQuota remaining allowed => exact (add_zero c.rowsEmitted).symm

theorem job_writes (j : JobDiag) (a : DiagWrite) (h : a ∈ j.writes) :
    (∃ remaining allowed, j.quota = some (remaining, allowed) ∧ a = .setQuota remaining allowed) ∨
      ∃ i < j.polls, a = .setBulkPolls (i + 1 : ℕ) := by
  obtain hquota | hpoll := List.mem_append.mp h
  · obtain ⟨q, hq, rfl⟩ := List.mem_map.mp hquota
    exact Or.inl ⟨q.1, q.2, Option.mem_toList.mp hq, rfl⟩
  · obtain ⟨i, hi, rfl⟩ := List.mem_map.mp hpoll
    exact Or.inr ⟨i, List.mem_range.mp hi, rfl⟩

theorem job_rows (j : JobDiag) : (j.writes.map DiagWrite.rows).sum = 0 := by
  apply List.sum_eq_zero
  intro n hn
  obtain ⟨a, ha, rfl⟩ := List.mem_map.mp hn
  obtain ⟨_, _, _, rfl⟩ | ⟨_, _, rfl⟩ := job_writes j a ha
  · rfl
  · rfl

/-! ### One step -/

section Steps
variable {Thread : Type} [DecidableEq Thread] {srv : BulkServer} {jobs : ℕ → JobDiag} {v : ℕ}
  {w w' : ScanWorld Thread} {t : Thread}

def deliveredBy (w : ScanWorld Thread) (t : Thread) : ℤ :=
  (delivered (w.threads t).localState.trace).length

theorem fetch_delivers_none (fetch : FetchResultPage) (total : ℕ) (l : ScanLocalState) :
    delivered (bulkFetchPage fetch total l).2.trace = delivered l.trace := by
  have htrace : delivered (l.trace ++ [.request l.pagePath]) = delivered l.trace := by
    rw [delivered_append]
    exact List.append_nil _
  unfold bulkFetchPage
  cases fetch l.pagePath with
  | error e => exact htrace
  | ok pg =>
    dsimp only
    split
    · exact htrace
    · split
      · exact htrace
      · split
        · exact htrace
        · exact htrace

theorem afterPage_trace (th : ScanThread) (l : ScanLocalState) :
    (afterPage th l).localState.trace = l.trace := by
  unfold afterPage
  split
  · rfl
  · split
    · rfl
    · rfl

theorem emit_delivers (l : ScanLocalState) :
    delivered (l.emit v).trace = delivered l.trace ++ (l.page.drop l.cursor).take v := by
  unfold ScanLocalState.emit
  dsimp only
  rw [delivered_append, delivered_deliveries]

/-- What the work of a thread does to its own rows and to the counter of pages,
beside what it owes. -/
structure StepTold (jobs : ℕ → JobDiag) (w : ScanWorld Thread) (t : Thread) (w' : ScanWorld Thread)
    (owed : List DiagWrite) : Prop where
  others : ∀ u, u ≠ t → w'.threads u = w.threads u
  rows : deliveredBy w' t = deliveredBy w t + (owed.map DiagWrite.rows).sum
  pages : (w'.totalBulkPages = w.totalBulkPages ∧ ∀ n, .setPages n ∉ owed) ∨
    (w'.totalBulkPages = w.totalBulkPages + 1 ∧ owed = [.setPages (w.totalBulkPages + 1 : ℕ)])

theorem job_silent (j : JobDiag) (n : ℤ) : .setPages n ∉ j.writes := by
  intro hn
  obtain ⟨_, _, _, hquota⟩ | ⟨_, _, hpoll⟩ := job_writes j _ hn
  · cases hquota
  · cases hpoll

/-- A step of `t` that leaves the trace and the pages as they were. -/
theorem told_quietly {w₁ : ScanWorld Thread} {th : ScanThread} {owed : List DiagWrite}
    (hthreads : w₁.threads = w.threads) (hpages : w₁.totalBulkPages = w.totalBulkPages)
    (htrace : th.localState.trace = (w.threads t).localState.trace)
    (hrows : (owed.map DiagWrite.rows).sum = 0) (hsilent : ∀ n, .setPages n ∉ owed) :
    StepTold jobs w t (w₁.put t th) owed where
  others u hu := by
    rw [put_other w₁ t u th hu, hthreads]
  rows := by
    rw [hrows, add_zero, deliveredBy, put_self, htrace]
    rfl
  pages := Or.inl ⟨hpages, hsilent⟩

theorem threadStep_told (hstep : threadStep srv v w t = .ok w') :
    StepTold jobs w t w' (threadWrites jobs v w t) := by
  unfold threadStep at hstep
  dsimp only at hstep
  unfold threadWrites
  cases hphase : (w.threads t).phase with
  | idle =>
    rw [hphase] at hstep
    dsimp only
    cases hstep
    exact told_quietly rfl rfl rfl rfl fun _ => List.not_mem_nil
  | seeking =>
    rw [hphase] at hstep
    dsimp only at hstep ⊢
    split at hstep
    · cases hstep
      exact told_quietly rfl rfl rfl rfl fun _ => List.not_mem_nil
    · split at hstep
      · cases hstep
        exact told_quietly rfl rfl rfl rfl fun _ => List.not_mem_nil
      · cases hstep
        exact told_quietly rfl rfl rfl rfl fun _ => List.not_mem_nil
  | starting idx =>
    rw [hphase] at hstep
    dsimp only at hstep ⊢
    split at hstep
    · cases hstep
    · cases hstep
      exact told_quietly rfl rfl rfl (job_rows (jobs idx)) (job_silent (jobs idx))
  | advancing =>
    rw [hphase] at hstep
    dsimp only at hstep ⊢
    split at hstep
    · rename_i hdone
      cases hstep
      rw [if_pos hdone]
      exact told_quietly rfl rfl rfl rfl fun _ => List.not_mem_nil
    · rename_i hmore
      rw [if_neg hmore]
      have hnone := fetch_delivers_none srv.fetch w.totalBulkPages (w.threads t).localState
      split at hstep
      · cases hstep
      · rename_i l' hfetch
        cases hstep
        rw [hfetch] at hnone
        refine ⟨fun u hu => put_other _ t u _ hu, ?_, Or.inr ⟨rfl, rfl⟩⟩
        rw [deliveredBy, put_self, afterPage_trace, hnone]
        exact (add_zero _).symm
  | emitting =>
    rw [hphase] at hstep
    dsimp only
    cases hstep
    refine ⟨fun u hu => put_other _ t u _ hu, ?_, Or.inl ⟨rfl, ?_⟩⟩
    · rw [deliveredBy, put_self]
      show ((delivered ((w.threads t).localState.emit v).trace).length : ℤ) = _
      rw [emit_delivers, List.length_append, Nat.cast_add]
      exact congrArg _ (add_zero _).symm
    · intro n hn
      cases List.mem_singleton.mp hn

omit [DecidableEq Thread] in
/-- A call that throws leaves the threads as they are. -/
theorem throws_threads {owed : List DiagWrite} (hthrow : Throws srv jobs w t w' owed) :
    w'.threads = w.threads ∧ (w.threads t).phase ≠ .idle := by
  cases hthrow with
  | job idx e hphase hjob =>
    refine ⟨rfl, ?_⟩
    rw [hphase]
    exact Phase.noConfusion
  | fetch e hphase hopen hfetch =>
    refine ⟨rfl, ?_⟩
    rw [hphase]
    exact Phase.noConfusion
  | page e pg l' hphase hopen hfetch hround =>
    refine ⟨rfl, ?_⟩
    rw [hphase]
    exact Phase.noConfusion
  | cell hphase =>
    refine ⟨rfl, ?_⟩
    rw [hphase]
    exact Phase.noConfusion

omit [DecidableEq Thread] in
theorem throws_told {owed : List DiagWrite} (hthrow : Throws srv jobs w t w' owed) :
    StepTold jobs w t w' owed := by
  have hthreads := (throws_threads hthrow).1
  have hrows : (owed.map DiagWrite.rows).sum = 0 := by
    cases hthrow with
    | job idx e hphase hjob => exact job_rows (jobs idx)
    | fetch e hphase hopen hfetch => rfl
    | page e pg l' hphase hopen hfetch hround => rfl
    | cell hphase => rfl
  refine ⟨fun u _ => congrFun hthreads u, ?_, ?_⟩
  · rw [hrows, add_zero, deliveredBy, hthreads]
    rfl
  · cases hthrow with
    | job idx e hphase hjob => exact Or.inl ⟨rfl, job_silent (jobs idx)⟩
    | fetch e hphase hopen hfetch => exact Or.inl ⟨rfl, fun _ => List.not_mem_nil⟩
    | page e pg l' hphase hopen hfetch hround => exact Or.inr ⟨rfl, rfl⟩
    | cell hphase => exact Or.inl ⟨rfl, fun _ => List.not_mem_nil⟩

theorem work_told {w w' : CostWorld Thread} {owed : List DiagWrite}
    (hwork : ThreadWork srv jobs v w t w' owed) : StepTold jobs w.scan t w'.scan owed := by
  cases hwork with
  | step w' hgoing hstep => exact threadStep_told hstep
  | throw w' owed hgoing hthrow => exact throws_told hthrow

end Steps

/-! ### Whole runs -/

/-- The writes a thread may owe: a page that was fetched, a poll or a decision
about a job. -/
def Owes {Thread : Type} (jobs : ℕ → JobDiag) (w : ScanWorld Thread) : DiagWrite → Prop
  | .setPages pages => 1 ≤ pages ∧ pages ≤ w.totalBulkPages
  | .setBulkPolls polls => ∃ idx, 1 ≤ polls ∧ polls ≤ (jobs idx).polls
  | .addRowsEmitted _ => True
  | .setQuota remaining allowed => ∃ idx, (jobs idx).quota = some (remaining, allowed)

/-- What holds of the record whatever the threads have written so far. -/
structure WithinRun {Thread : Type} (c : ScanCost) (jobs : ℕ → JobDiag) (w : ScanWorld Thread)
    (x : ScanCost) : Prop where
  kept : x = { c with
    pagesFetched := x.pagesFetched, rowsEmitted := x.rowsEmitted, bulkPolls := x.bulkPolls,
    quotaConsulted := x.quotaConsulted, quotaRemaining := x.quotaRemaining,
    quotaAllowed := x.quotaAllowed }
  pages : x.pagesFetched = c.pagesFetched ∨ 1 ≤ x.pagesFetched ∧ x.pagesFetched ≤ w.totalBulkPages
  polls : x.bulkPolls = c.bulkPolls ∨ ∃ idx, 1 ≤ x.bulkPolls ∧ x.bulkPolls ≤ (jobs idx).polls
  quota : x.quotaConsulted = c.quotaConsulted ∨
    ∃ idx, (jobs idx).quota = some (x.quotaRemaining, x.quotaAllowed)

theorem emitted_card {Thread : Type} [Fintype Thread] (w : ScanWorld Thread) :
    (w.emitted.card : ℤ) = ∑ t, deliveredBy w t := by
  unfold ScanWorld.emitted deliveredBy
  rw [Multiset.card_sum, Nat.cast_sum]
  rfl

section Runs
variable {Thread : Type} [DecidableEq Thread] {srv : BulkServer} {jobs : ℕ → JobDiag} {v : ℕ}
  {c : ScanCost} {s : CostState Thread}

/-- Without a call that throws the threads run as they do without the record, and
a thread whose call has thrown never reports the end. -/
def ScanGoes (srv : BulkServer) (v : ℕ) (w : CostWorld Thread) : Prop :=
  (w.thrown = [] → ScanRun srv v w.scan) ∧ ∀ t ∈ w.thrown, (w.scan.threads t).phase ≠ .idle

theorem work_goes (w w' : CostWorld Thread) (t : Thread) (owed : List DiagWrite)
    (h : ScanGoes srv v w) (hwork : ThreadWork srv jobs v w t w' owed) : ScanGoes srv v w' := by
  have htold := work_told hwork
  cases hwork with
  | step w' hgoing hstep =>
    refine ⟨fun hnone => .step w.scan w' t (h.1 hnone) hstep, ?_⟩
    intro u hu
    have hother : u ≠ t := fun hsame => hgoing (hsame ▸ hu)
    rw [htold.others u hother]
    exact h.2 u hu
  | throw w' owed hgoing hthrow =>
    obtain ⟨hthreads, hbusy⟩ := throws_threads hthrow
    refine ⟨fun hnone => absurd hnone (List.cons_ne_nil t w.thrown), ?_⟩
    intro u hu
    show (w'.threads u).phase ≠ .idle
    rw [hthreads]
    obtain rfl | hearlier := List.mem_cons.mp hu
    · exact hbusy
    · exact h.2 u hearlier

theorem cost_goes (h : CostRun srv jobs v c s) : ScanGoes srv v s.world :=
  run_world (ScanGoes srv v) ⟨fun _ => .start, fun _ ht => absurd ht List.not_mem_nil⟩
    (fun w t w' owed hw hwork => work_goes w w' t owed hw hwork) h

theorem cost_scanRun (h : CostRun srv jobs v c s) (hfinished : s.world.scan.Finished) :
    ScanRun srv v s.world.scan := by
  obtain ⟨hrun, hbusy⟩ := cost_goes h
  apply hrun
  apply List.eq_nil_iff_forall_not_mem.mpr
  intro t ht
  obtain hend | hunused := hfinished.2 t
  · exact hbusy t ht hend.1
  · exact hbusy t ht hunused.1

omit [DecidableEq Thread] in
theorem job_owed (w : ScanWorld Thread) (idx : ℕ) : ∀ a ∈ (jobs idx).writes, Owes jobs w a := by
  intro a ha
  obtain ⟨remaining, allowed, hquota, rfl⟩ | ⟨i, hi, rfl⟩ := job_writes _ _ ha
  · exact ⟨_, hquota⟩
  · refine ⟨_, ?_, Int.ofNat_le.mpr hi⟩
    omega

/-- Whatever a thread owes after its work, it may owe. -/
theorem work_owed (w w' : CostWorld Thread) (t : Thread) (owed : List DiagWrite)
    (hwork : ThreadWork srv jobs v w t w' owed) : ∀ a ∈ owed, Owes jobs w'.scan a := by
  intro a ha
  have hpages : ∀ n, a = .setPages n → Owes jobs w'.scan a := by
    intro n hn
    subst hn
    obtain hsilent | ⟨hcount, howed⟩ := (work_told hwork).pages
    · exact absurd ha (hsilent.2 n)
    · rw [howed] at ha
      cases List.mem_singleton.mp ha
      show 1 ≤ ((w.scan.totalBulkPages + 1 : ℕ) : ℤ) ∧
        ((w.scan.totalBulkPages + 1 : ℕ) : ℤ) ≤ w'.scan.totalBulkPages
      omega
  cases hwork with
  | step w' hgoing hstep =>
    unfold threadWrites at ha
    dsimp only at ha
    split at ha
    · cases ha
    · cases ha
    · exact job_owed w' _ a ha
    · split at ha
      · cases ha
      · exact hpages _ (List.mem_singleton.mp ha)
    · rw [List.mem_singleton.mp ha]
      trivial
  | throw w' owed hgoing hthrow =>
    cases hthrow with
    | job idx e hphase hjob => exact job_owed w.scan idx a ha
    | fetch e hphase hopen hfetch => cases ha
    | page e pg l' hphase hopen hfetch hround => exact hpages _ (List.mem_singleton.mp ha)
    | cell hphase => cases ha

theorem cost_within (h : CostRun srv jobs v c s) : WithinRun c jobs s.world.scan s.shared := by
  have hmore : ∀ (w : CostWorld Thread) t w' owed, ThreadWork srv jobs v w t w' owed →
      w.scan.totalBulkPages ≤ w'.scan.totalBulkPages := by
    intro w t w' owed hwork
    obtain hsilent | hfetched := (work_told hwork).pages
    · exact hsilent.1.ge
    · omega
  refine (run_bound (fun w => Owes jobs w.scan) (fun w => WithinRun c jobs w.scan)
    ⟨rfl, Or.inl rfl, Or.inl rfl, Or.inl rfl⟩
    ?_ ?_ ?_ ?_ h).1
  · intro w t w' owed a hwork ha
    have hle := hmore w t w' owed hwork
    cases a with
    | setPages pages =>
      refine ⟨ha.1, ?_⟩
      have hpages := ha.2
      omega
    | setBulkPolls polls => exact ha
    | addRowsEmitted rows => exact ha
    | setQuota remaining allowed => exact ha
  · intro w t w' owed hwork
    exact work_owed w w' t owed hwork
  · intro w t w' owed x hwork hx
    have hle := hmore w t w' owed hwork
    refine ⟨hx.kept, hx.pages.imp_right fun hpages => ⟨hpages.1, ?_⟩, hx.polls, hx.quota⟩
    have hbound := hpages.2
    omega
  · intro w a x ha hx
    cases a with
    | setPages pages => exact ⟨congrArg (·.write (.setPages pages)) hx.kept, Or.inr ha, hx.polls, hx.quota⟩
    | setBulkPolls polls =>
      exact ⟨congrArg (·.write (.setBulkPolls polls)) hx.kept, hx.pages, Or.inr ha, hx.quota⟩
    | addRowsEmitted rows =>
      exact ⟨congrArg (·.write (.addRowsEmitted rows)) hx.kept, hx.pages, hx.polls, hx.quota⟩
    | setQuota remaining allowed =>
      exact ⟨congrArg (·.write (.setQuota remaining allowed)) hx.kept, hx.pages, hx.polls, Or.inr ha⟩

/-- Rows are added, so that the order of the writes does not matter. -/
theorem cost_rows [Fintype Thread] (h : CostRun srv jobs v c s) (hquiet : s.Quiet) :
    s.shared.rowsEmitted = c.rowsEmitted + s.world.scan.emitted.card := by
  have hsum := run_quiet (fun w => c.rowsEmitted + ∑ t, deliveredBy w.scan t) ScanCost.rowsEmitted
    DiagWrite.rows ?_ ?_ write_rows h hquiet
  · rw [← hsum, emitted_card]
  · show c.rowsEmitted + ∑ t : Thread, (([] : List (List Text)).length : ℤ) = c.rowsEmitted
    rw [List.length_nil, Nat.cast_zero, Finset.sum_const_zero, add_zero]
  · intro w t w' owed hwork
    have htold := work_told hwork
    have hothers : ∀ u, u ≠ t → deliveredBy w'.scan u = deliveredBy w.scan u := by
      intro u hu
      unfold deliveredBy
      rw [htold.others u hu]
    rw [sum_changed (deliveredBy w.scan) (deliveredBy w'.scan) t hothers, htold.rows]
    ring

theorem writes_keep_pages (ws : List DiagWrite) (x : ScanCost) (h : ∀ n, .setPages n ∉ ws) :
    (ws.foldl ScanCost.write x).pagesFetched = x.pagesFetched := by
  induction ws generalizing x with
  | nil => rfl
  | cons a ws ih =>
    rw [List.foldl_cons, ih _ fun n hn => h n (List.mem_cons_of_mem a hn)]
    cases a with
    | setPages pages => exact absurd List.mem_cons_self (h pages)
    | setBulkPolls polls => rfl
    | addRowsEmitted rows => rfl
    | setQuota remaining allowed => rfl

/-- A thread on its own writes its pages in the order in which it counts them. -/
theorem cost_alone [Subsingleton Thread] (hc : c.pagesFetched = 0) (h : CostRun srv jobs v c s)
    (hquiet : s.Quiet) (t : Thread) : s.shared.pagesFetched = s.world.scan.totalBulkPages := by
  have hagree := run_one (fun w x => x.pagesFetched = (w.scan.totalBulkPages : ℤ)) hc ?_ h t
  · rw [hquiet t] at hagree
    exact hagree
  · intro w u w' owed x hwork hx
    obtain ⟨hcount, hsilent⟩ | ⟨hcount, howed⟩ := (work_told hwork).pages
    · rw [writes_keep_pages _ _ hsilent, hcount]
      exact hx
    · rw [howed, hcount]
      rfl

end Runs

/-! ### Every plan -/

/-- The record of a Bulk scan at any moment, and when the threads are done. -/
structure BulkReported {Thread : Type} [Fintype Thread] (c : ScanCost) (srv : BulkServer)
    (jobs : ℕ → JobDiag) (v : ℕ) (s : CostState Thread) : Prop where
  within : WithinRun c jobs s.world.scan s.shared
  rows : s.Quiet → s.shared.rowsEmitted = s.world.scan.emitted.card
  finished : 0 < v → s.world.scan.Finished → s.Quiet → s.shared.rowsEmitted =
    ((List.range srv.chunkSoqls.length).flatMap (chunkRows srv)).length
  alone : Subsingleton Thread → s.Quiet → ∀ _ : Thread,
    s.shared.pagesFetched = s.world.scan.totalBulkPages

/-- What the record says after any part of a scan by its plan, and over REST after
a call that throws over a cell. -/
def RunReported (c : ScanCost) : ScanPlan → Prop
  | .aggregate state => ∀ casts n, aggregateCost casts (n + 1) state c =
    match scanFunctionAggregate casts state with
    | .error _ => c
    | .ok (_, rows) => c.tally 0 rows.length
  | .countOnly total => ∀ v n, countCost total v n 0 c = c.tally 0 (min (n * v) total.toNat : ℕ)
  | .bulk soqls => ∀ (Thread : Type) (_ : DecidableEq Thread) (_ : Fintype Thread) (srv : BulkServer)
    (jobs : ℕ → JobDiag) (v : ℕ) (s : CostState Thread), srv.chunkSoqls = soqls →
      CostRun srv jobs v c s → BulkReported c srv jobs v s
  | .rest _ => ∀ fetchPage path v n,
    restCost fetchPage v n (.start path) c =
        c.tally (scanCalls fetchPage v n (.start path)).2.pagesFetched
          (delivered (scanCalls fetchPage v n (.start path)).2.trace).length ∧
      (cellThrownWrites fetchPage (scanCalls fetchPage v n (.start path)).2).foldl ScanCost.write
          (restCost fetchPage v n (.start path) c) =
        c.tally (pagesThen fetchPage (scanCalls fetchPage v n (.start path)).2)
          (delivered (scanCalls fetchPage v n (.start path)).2.trace).length

theorem bulk_reported {Thread : Type} [DecidableEq Thread] [Fintype Thread] (c : ScanCost)
    (hpages : c.pagesFetched = 0) (hrows : c.rowsEmitted = 0) (srv : BulkServer)
    (jobs : ℕ → JobDiag) (v : ℕ) (s : CostState Thread) (h : CostRun srv jobs v c s) :
    BulkReported c srv jobs v s where
  within := cost_within h
  rows hquiet := by
    rw [cost_rows h hquiet, hrows, zero_add]
  finished hv hfinished hquiet := by
    have hdone := finished_spec s.world.scan
      (scanRun_invariant hv s.world.scan (cost_scanRun h hfinished)) hfinished
    rw [cost_rows h hquiet, hrows, zero_add, hdone.2.2, Multiset.coe_card]
  alone _ hquiet t := cost_alone hpages h hquiet t

theorem aggregate_reported (c : ScanCost) (hpages : c.pagesFetched = 0) (state : AggregateScanState)
    (casts : CastFunctions) (n : ℕ) :
    aggregateCost casts (n + 1) state c =
      match scanFunctionAggregate casts state with
      | .error _ => c
      | .ok (_, rows) => c.tally 0 rows.length := by
  cases hsent : state.sent with
  | true =>
    rw [scanFunctionAggregate, if_pos hsent, aggregateCost_sent casts _ _ _ hsent]
    show c = { c with pagesFetched := 0, rowsEmitted := c.rowsEmitted + 0 }
    rw [add_zero, ← hpages]
  | false =>
    cases hcall : scanFunctionAggregate casts state with
    | error e => rw [aggregateCost, hsent, if_neg Bool.false_ne_true, hcall]
    | ok r =>
      obtain ⟨hone, hcost⟩ := aggregateCost_counts casts n state r.1 r.2 c hsent hcall
      rw [hcost, hpages]
      show c.tally 0 1 = c.tally 0 r.2.length
      rw [hone]
      rfl

section Schedules
variable {Thread : Type} [DecidableEq Thread] (srv : BulkServer) (jobs : ℕ → JobDiag) (v : ℕ)

/-- The turn of a thread: a write if it owes one, else a step of the scan. -/
def costTurn (s : CostState Thread) (t : Thread) : Option (CostState Thread) :=
  match s.pending t with
  | a :: rest => some (State.owe { s with shared := s.shared.write a } t rest)
  | [] =>
    if t ∈ s.world.thrown then none
    else
      match threadStep srv v s.world.scan t with
      | .error _ => none
      | .ok w' =>
        some (State.owe { s with world := ⟨w', s.world.thrown⟩ } t (threadWrites jobs v s.world.scan t))

def costTurns : List Thread → CostState Thread → Option (CostState Thread)
  | [], s => some s
  | t :: ts, s => (costTurn srv jobs v s t).bind (costTurns ts)

theorem costTurns_run (c : ScanCost) (ts : List Thread) (s s' : CostState Thread)
    (hrun : CostRun srv jobs v c s) (h : costTurns srv jobs v ts s = some s') :
    CostRun srv jobs v c s' := by
  induction ts generalizing s with
  | nil =>
    cases h
    exact hrun
  | cons t ts ih =>
    obtain ⟨s₁, hturn, hrest⟩ := Option.bind_eq_some_iff.mp h
    refine ih s₁ ?_ hrest
    unfold costTurn at hturn
    split at hturn
    · rename_i a rest howed
      cases hturn
      exact .write s t a rest hrun howed
    · rename_i hfree
      split at hturn
      · cases hturn
      · rename_i hgoing
        split at hturn
        · cases hturn
        · rename_i w' hstep
          cases hturn
          exact .work s t _ _ hrun hfree (.step w' hgoing hstep)

end Schedules

def twoChunkSettings : ScanSettings :=
  ⟨some "bulk".toList, none, none, none, none, some 2⟩

def twoChunkAnswers : ScanAnswers :=
  ⟨fun _ => none, fun _ => some (acme.id, upperAcme.id), fun _ => none⟩

def twoChunkStart : ScanStart :=
  match scanInitGlobal namedStart.toSalesforceScanBindData noOverride twoChunkSettings
      twoChunkAnswers [0] with
  | .ok start => start
  | .error _ => ⟨false, .rest []⟩

def twoChunkCost : ScanCost :=
  match scanInitCost namedStart noOverride twoChunkSettings twoChunkAnswers [0] with
  | .ok c => c
  | .error _ => .initial

/-- One page with one row for each chunk. -/
def onePageServer : BulkServer where
  chunkSoqls := match twoChunkStart.plan with
    | .bulk soqls => soqls
    | _ => []
  startJob := fun idx _ => .ok (natText idx)
  fetch := fun _ => .ok ⟨["Name".toList], [["Acme".toList]], []⟩

def onePoll (_ : ℕ) : JobDiag := ⟨none, 1⟩

/-- The first thread has counted its page when the second fetches, counts and
writes its own. -/
def lateState : CostState Bool :=
  (costTurns onePageServer onePoll 2048
    (List.replicate 5 true ++ List.replicate 6 false ++ List.replicate 7 true ++
      List.replicate 6 false) (.start .start twoChunkCost)).getD (.start .start twoChunkCost)

theorem lateState_run : CostRun onePageServer onePoll 2048 twoChunkCost lateState :=
  costTurns_run onePageServer onePoll 2048 twoChunkCost
    (List.replicate 5 true ++ List.replicate 6 false ++ List.replicate 7 true ++
      List.replicate 6 false) _ _ .start rfl

end DuckdbSalesforce
