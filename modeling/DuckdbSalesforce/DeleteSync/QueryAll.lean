import Mathlib
import DuckdbSalesforce.DeleteSync.Coverage
import DuckdbSalesforce.Scan.RestScan
import DuckdbSalesforce.Scan.Transports

/-!
# Deleted ids by queryAll (`salesforce_delete_sync.cpp`)

`LoadViaQueryAll` asks for the deleted records by SOQL, with a lower bound on
their `SystemModstamp`, and what both sources say of one history of deletions.
-/

namespace DuckdbSalesforce
open Calendar ThreeValued CondGrammar JsonText FirstSeen

/-! ### The load -/

def kQueryAllMaxPages : ℕ := 100000

def hexDigit (n : ℕ) : Char := if n < 10 then Char.ofNat (48 + n) else Char.ofNat (55 + n)

/-- `StringUtil::URLEncode`, on bytes. -/
def urlEncode (t : Text) : Text :=
  t.flatMap fun c =>
    if isAlnum c || c ∈ ['_', '-', '~', '.'] then [c]
    else ['%', hexDigit (c.toNat / 16), hexDigit (c.toNat % 16)]

def queryAllSoql (bind : DeletedIdsBindData) : Text :=
  "SELECT Id FROM ".toList ++ bind.object ++
    " WHERE IsDeleted = true AND SystemModstamp >= ".toList ++ bind.since

def queryAllPath (apiVersion : Text) (bind : DeletedIdsBindData) : Text :=
  "/services/data/".toList ++ apiVersion ++ "/queryAll/?q=".toList ++ urlEncode (queryAllSoql bind)

def queryAllPagesError : Text :=
  "salesforce_deleted_ids: queryAll sweep exceeded 100000 pages; ".toList ++
    "narrow the window (source := 'getDeleted' with shorter since/until).".toList

def queryAllLoop (fetchPage : FetchPage) : ℕ → Text → LoadState → Except Text LoadState
  | 0, _, _ => .error queryAllPagesError
  | fuel + 1, next, g =>
    match fetchPage next with
    | .error e => .error e
    | .ok pg =>
      let g := { g with rows := g.rows ++ pg.records.map fun rec => (getString rec "Id".toList, []) }
      if pg.done || pg.nextPath.isEmpty then .ok g
      else queryAllLoop fetchPage fuel pg.nextPath g

def loadViaQueryAll (fetchPage : FetchPage) (apiVersion : Text) (bind : DeletedIdsBindData) :
    Except Text LoadState :=
  queryAllLoop fetchPage kQueryAllMaxPages (queryAllPath apiVersion bind) LoadState.start

/-- The loader of the source. -/
def deletedIdsLoad (p : Platform) (apiVersion : Text) (answer : ℕ → Text → Except Text Text)
    (fetchPage : FetchPage) (bind : DeletedIdsBindData) : Except Text LoadState :=
  if bind.source = "getDeleted".toList then loadViaGetDeleted p apiVersion bind answer
  else loadViaQueryAll fetchPage apiVersion bind

/-! ### Deletions -/

def isDeletedTrue : Predicate := .compare "IsDeleted".toList .eq (.boolean true)

def modstampFrom (width : ℕ) (m : Moment) : Predicate :=
  .compare "SystemModstamp".toList .ge
    (.scalar .timestamp 0 (dateText width m.date ++ 'T' :: clockText m))

/-- An org with the time at which a record was deleted, if it was; that is its
`SystemModstamp` then. -/
structure DeletionHistory (p : Platform) where
  org : Org
  deletedAt : SalesforceRecord → Option ℚ
  systemModstamp : SalesforceRecord → ℚ
  modstamp_deleted : ∀ r t, deletedAt r = some t → systemModstamp r = t
  truth_deleted : ∀ object, ∀ r ∈ org.records object,
    r.truth isDeletedTrue.tokens = .ofBool (deletedAt r).isSome
  truth_modstamp : ∀ object, ∀ r ∈ org.records object, ∀ m : Moment,
    r.truth (modstampFrom p.yearWidth m).tokens = .ofBool (decide ((m.seconds : ℚ) ≤ systemModstamp r))

section History
variable {p : Platform} (h : DeletionHistory p)

def DeletionHistory.DeletedIn (object : Text) (a b : ℚ) (id : Text) : Prop :=
  ∃ r ∈ h.org.records object, ∃ t, h.deletedAt r = some t ∧ a ≤ t ∧ t < b ∧ r.id = id

/-- The body of getDeleted holds the ids deleted from `a` on and before `b`. -/
def DeletionHistory.Holds (object : Text) (a b : ℚ) (body : Text) : Prop :=
  ∃ ans : DeletedAnswer, AnswerText body ans ∧
    ∀ id, (∃ rec ∈ ans.records, rec.id = id) ↔ h.DeletedIn object a b id

end History

/-- The text of a record object that has this Id. -/
def SaysId (rec : Text) (r : SalesforceRecord) : Prop :=
  ∃ lead members, rec = (recordObject lead members).text ∧
    HasText (recordObject lead members) "Id".toList r.id

/-- The pages from this path on hold these records. -/
inductive Delivers (fetchPage : FetchPage) : Text → List SalesforceRecord → Prop
  | last (path : Text) (pg : SalesforceQueryPage) (rs : List SalesforceRecord)
      (hfetch : fetchPage path = .ok pg) (hlast : (pg.done || pg.nextPath.isEmpty) = true)
      (hrs : List.Forall₂ SaysId pg.records rs) : Delivers fetchPage path rs
  | more (path : Text) (pg : SalesforceQueryPage) (rs rest : List SalesforceRecord)
      (hfetch : fetchPage path = .ok pg) (hmore : (pg.done || pg.nextPath.isEmpty) = false)
      (hrs : List.Forall₂ SaysId pg.records rs) (hrest : Delivers fetchPage pg.nextPath rest) :
    Delivers fetchPage path (rs ++ rest)

/-! ### What queryAll collects -/

theorem page_rows (recs : List Text) (rs : List SalesforceRecord) (h : List.Forall₂ SaysId recs rs) :
    recs.map (fun rec => (getString rec "Id".toList, ([] : Text))) = rs.map fun r => (r.id, []) := by
  induction h with
  | nil => rfl
  | cons hid _ ih =>
    obtain ⟨lead, members, rfl, htext⟩ := hid
    rw [List.map_cons, List.map_cons, ih, getString_text _ _ _ htext]

theorem queryAll_rows (fetchPage : FetchPage) (fuel : ℕ) (path : Text) (g g' : LoadState)
    (rs : List SalesforceRecord) (hpages : Delivers fetchPage path rs)
    (h : queryAllLoop fetchPage fuel path g = .ok g') :
    g'.rows = g.rows ++ rs.map fun r => (r.id, []) := by
  induction hpages generalizing fuel g with
  | last path pg rs hfetch hlast hrs =>
    cases fuel with
    | zero => cases h
    | succ fuel =>
      rw [queryAllLoop, hfetch] at h
      simp only at h
      rw [if_pos hlast] at h
      cases h
      rw [page_rows _ _ hrs]
  | more path pg rs rest hfetch hmore hrs _ ih =>
    cases fuel with
    | zero => cases h
    | succ fuel =>
      rw [queryAllLoop, hfetch] at h
      simp only at h
      rw [if_neg (by rw [hmore]; exact Bool.false_ne_true)] at h
      rw [ih fuel _ h, page_rows _ _ hrs, List.map_append, List.append_assoc]

/-! ### What the SOQL selects -/

def deletedClauses (width : ℕ) (m : Moment) : List Clause :=
  [.leaf isDeletedTrue, .leaf (modstampFrom width m)]

theorem isoText_word (width : ℕ) (m : Moment) : isBareToken (isoText width m) = true := by
  have hpadded : ∀ width n, ∀ c ∈ NumberScan.padded width n, isWordChar c = true := by
    intro width n c hc
    exact isWordChar_digit c (NumberScan.padded_digit width n c hc)
  have hyear : ∀ c ∈ yearText width m.date.year, isWordChar c = true := by
    intro c hc
    unfold yearText at hc
    split at hc
    · rcases List.mem_cons.mp hc with hc | hc
      · rw [hc]
        decide
      · exact hpadded _ _ c hc
    · exact hpadded _ _ c hc
  obtain ⟨d, hd⟩ := List.exists_mem_of_ne_nil _ (NumberScan.padded_ne 2 m.date.day)
  apply isBareToken_of_digit _ _ d (NumberScan.padded_digit _ _ d hd)
  · simp only [isoText, dateText, List.mem_append, List.mem_cons]
    exact Or.inl (Or.inr (Or.inr (Or.inr (Or.inr hd))))
  · apply List.all_eq_true.mpr
    intro c hc
    simp only [isoText, dateText, clockText, List.mem_append, List.mem_cons, List.not_mem_nil,
      or_false] at hc
    rcases hc with (hc | hc | hc | hc | hc) | hc | (hc | hc | hc | hc | hc) | hc
    · exact hyear c hc
    · rw [hc]; decide
    · exact hpadded _ _ c hc
    · rw [hc]; decide
    · exact hpadded _ _ c hc
    · rw [hc]; decide
    · exact hpadded _ _ c hc
    · rw [hc]; decide
    · exact hpadded _ _ c hc
    · rw [hc]; decide
    · exact hpadded _ _ c hc
    · rw [hc]; decide

theorem modstamp_literal (width : ℕ) (m : Moment) :
    literalText (.scalar .timestamp 0 (dateText width m.date ++ 'T' :: clockText m)) =
      isoText width m := by
  have hblank : ' ' ∉ dateText width m.date ++ 'T' :: clockText m := by
    rw [List.mem_append, not_or]
    exact ⟨dateText_not_mem ' ' rfl (by decide) _ _,
      List.not_mem_cons_of_ne_of_not_mem (by decide) (clockText_not_mem ' ' rfl (by decide) m)⟩
  rw [literalText, soqlLiteral]
  simp only [blankToT_none _ hblank, Option.getD_some, isoText, List.append_assoc, List.cons_append]
  rfl

theorem deleted_condition (width : ℕ) (m : Moment) :
    parseCondition ("IsDeleted = true AND SystemModstamp >= ".toList ++ isoText width m) =
      some (.mkAll ((deletedClauses width m).map clauseTree)) := by
  have htext : "IsDeleted = true AND SystemModstamp >= ".toList ++ isoText width m =
      joinText " AND ".toList ((deletedClauses width m).map clauseText) := by
    have hfirst : clauseText (.leaf isDeletedTrue) = "IsDeleted = true".toList := by decide
    have hsecond : clauseText (.leaf (modstampFrom width m)) =
        "SystemModstamp >= ".toList ++ isoText width m := by
      rw [clauseText_leaf, modstampFrom, Predicate.text, modstamp_literal]
      rfl
    rw [deletedClauses, List.map_cons, List.map_cons, hfirst, hsecond]
    rfl
  rw [htext]
  apply parse_clauses _ (List.cons_ne_nil _ _)
  intro c hc
  rcases List.mem_cons.mp hc with hc | hc
  · rw [hc]
    refine .leaf _ ⟨?_, ?_⟩
    · show isBareToken "IsDeleted".toList = true
      decide
    · intro v hv
      rw [List.mem_singleton.mp hv]
      show isBareToken "true".toList = true
      decide
  · rw [List.mem_singleton.mp hc]
    refine .leaf _ ⟨?_, ?_⟩
    · show isBareToken "SystemModstamp".toList = true
      decide
    · intro v hv
      rw [List.mem_singleton.mp hv]
      show isBareToken (literalText _) = true
      rw [modstamp_literal]
      exact isoText_word width m

theorem selectText_where (items object w : Text) (hw : w ≠ []) :
    selectText items object w none =
      "SELECT ".toList ++ items ++ " FROM ".toList ++ object ++ (" WHERE ".toList ++ w) := by
  unfold selectText
  rw [if_neg hw]
  exact List.append_nil _

theorem queryAllSoql_text (bind : DeletedIdsBindData) :
    queryAllSoql bind = selectText "Id".toList bind.object
      ("IsDeleted = true AND SystemModstamp >= ".toList ++ bind.since) none := by
  have hhead : "SELECT Id FROM ".toList = "SELECT ".toList ++ "Id".toList ++ " FROM ".toList := by
    decide
  have hwhere : " WHERE IsDeleted = true AND SystemModstamp >= ".toList =
      " WHERE ".toList ++ "IsDeleted = true AND SystemModstamp >= ".toList := by
    decide
  have hne : "IsDeleted = true AND SystemModstamp >= ".toList ≠ [] := by decide
  -- over any texts, as the literals are long to compare
  have hshape : ∀ head cond : Text, cond ≠ [] → ∀ whereCond : Text,
      head = "SELECT ".toList ++ "Id".toList ++ " FROM ".toList → whereCond = " WHERE ".toList ++ cond →
      head ++ bind.object ++ whereCond ++ bind.since =
        selectText "Id".toList bind.object (cond ++ bind.since) none := by
    intro head cond hcond whereCond hhead hwhere
    rw [selectText_where _ _ _ (List.append_ne_nil_of_left_ne_nil hcond _), hhead, hwhere,
      List.append_assoc _ _ bind.since, List.append_assoc _ _ bind.since]
  exact hshape _ _ hne _ hhead hwhere

/-- The statement selects what was deleted from `since` on, whenever. -/
theorem mem_queryAll (p : Platform) (h : DeletionHistory p) (bind : DeletedIdsBindData) (s : ℤ)
    (hsince : bind.since = isoText p.yearWidth (momentOf s)) (hobject : isBareToken bind.object = true)
    (r : SalesforceRecord) :
    r ∈ h.org.selected (queryAllSoql bind) ↔
      r ∈ h.org.records bind.object ∧ ∃ t, h.deletedAt r = some t ∧ (s : ℚ) ≤ t := by
  have hcond := deleted_condition p.yearWidth (momentOf s)
  have htext := queryAllSoql_text bind
  have hid : lex "Id".toList = some [wordAtom "Id".toList] := lex_bare _ (by decide)
  have hplain : ∀ t ∈ [wordAtom "Id".toList], isReserved t = false := by
    intro t ht
    rw [List.mem_singleton.mp ht]
    rfl
  rw [hsince] at htext
  rw [htext, mem_selected_where h.org r _ _ _ _ hid hplain hobject (wellFormedWhere_some _ _ hcond)]
  apply and_congr_right
  intro hmem
  have hfirst : (clauseTree (.leaf isDeletedTrue)).eval r.truth = .ofBool (h.deletedAt r).isSome :=
    h.truth_deleted _ r hmem
  have hsecond : (clauseTree (.leaf (modstampFrom p.yearWidth (momentOf s)))).eval r.truth =
      .ofBool (decide ((s : ℚ) ≤ h.systemModstamp r)) := by
    have htruth := h.truth_modstamp _ r hmem (momentOf s)
    rw [momentOf_seconds] at htruth
    exact htruth
  rw [satisfies_some r _ _ hcond, Cond.eval_mkAll_eq_tt]
  simp only [deletedClauses, List.map_cons, List.map_nil, List.forall_mem_cons, hfirst, hsecond,
    Truth.ofBool_eq_tt, decide_eq_true_eq, List.not_mem_nil, false_implies, implies_true, and_true]
  refine ⟨?_, ?_⟩
  · intro hboth
    obtain ⟨t, ht⟩ := Option.isSome_iff_exists.mp hboth.1
    refine ⟨t, ht, ?_⟩
    rw [← h.modstamp_deleted r t ht]
    exact hboth.2
  · intro hex
    obtain ⟨t, ht, hle⟩ := hex
    refine ⟨Option.isSome_iff_exists.mpr ⟨t, ht⟩, ?_⟩
    rw [h.modstamp_deleted r t ht]
    exact hle

/-! ### What getDeleted collects -/

section Window
variable (p : Platform) (apiVersion : Text) (bind : DeletedIdsBindData)
  (answer : ℕ → Text → Except Text Text) (s u : ℤ)

/-- The slices start in the window, and the first one at its start. -/
theorem slices_start (hwindow : Window p bind s u) (l : LoadState)
    (hload : loadViaGetDeleted p apiVersion bind answer = .ok l) :
    (∀ f ∈ l.fetched, s * p.ticksPerSecond ≤ f.1) ∧
      (s < u → ∃ body, (s * p.ticksPerSecond, body) ∈ l.fetched) := by
  have hloop := window_loop p apiVersion bind answer s u hwindow l hload
  refine ⟨?_, ?_⟩
  · have hall : Collected l ∧ ∀ f ∈ l.fetched, s * p.ticksPerSecond ≤ f.1 := by
      apply loop_rule p apiVersion bind answer (u * p.ticksPerSecond)
        (fun since g => (Collected g ∧ ∀ f ∈ g.fetched, s * p.ticksPerSecond ≤ f.1) ∧
          s * p.ticksPerSecond ≤ since)
        (fun g => Collected g ∧ ∀ f ∈ g.fetched, s * p.ticksPerSecond ≤ f.1)
        (fun _ _ hI => hI.1) ?_ kGetDeletedMaxLoops _ LoadState.start l ?_ hloop
      · intro since g body g' next hI _ _ hafter
        obtain ⟨⟨hcollected, hstart⟩, hsince⟩ := hI
        obtain ⟨hcollected', hfetched⟩ := afterBody_frame p since _ g g' body next hafter hcollected
        have hstart' : ∀ f ∈ g'.fetched, s * p.ticksPerSecond ≤ f.1 := by
          intro f hf
          rw [hfetched, List.mem_append] at hf
          rcases hf with hf | hf
          · exact hstart f hf
          · rw [List.mem_singleton.mp hf]
            exact hsince
        cases next with
        | none => exact ⟨hcollected', hstart'⟩
        | some t =>
          have hlater := afterBody_later p since _ g g' body t hafter
          exact ⟨⟨hcollected', hstart'⟩, by omega⟩
      · exact ⟨⟨⟨fun _ => Iff.rfl, appearances_nil Prod.fst⟩, List.forall_mem_nil _⟩, le_refl _⟩
    exact hall.2
  · intro hsu
    have hticks := p.ticks_ge
    have hlt : s * p.ticksPerSecond < u * p.ticksPerSecond :=
      Int.mul_lt_mul_of_pos_right hsu (by omega)
    obtain ⟨body, g₁, next, _, hafter, hrest⟩ :=
      loop_round p apiVersion bind answer _ 9999 _ LoadState.start l hlt hloop
    obtain ⟨hcollected, hfetched⟩ := afterBody_frame p _ _ LoadState.start g₁ body next hafter
      ⟨fun _ => Iff.rfl, appearances_nil Prod.fst⟩
    have hfirst : (s * p.ticksPerSecond, body) ∈ g₁.fetched := by
      rw [hfetched]
      exact List.mem_append_right _ (List.mem_singleton_self _)
    refine ⟨body, ?_⟩
    cases next with
    | none =>
      rw [hrest]
      exact hfirst
    | some t =>
      -- later rounds only add slices
      have hstay : Collected l ∧ (s * p.ticksPerSecond, body) ∈ l.fetched := by
        apply loop_rule p apiVersion bind answer (u * p.ticksPerSecond)
          (fun _ g => Collected g ∧ (s * p.ticksPerSecond, body) ∈ g.fetched)
          (fun g => Collected g ∧ (s * p.ticksPerSecond, body) ∈ g.fetched)
          (fun _ _ hI => hI) ?_ 9999 t g₁ l ⟨hcollected, hfirst⟩ hrest
        intro since g b g' next hI _ _ hround
        obtain ⟨hc, hf⟩ := afterBody_frame p since _ g g' b next hround hI.1
        have hmem : (s * p.ticksPerSecond, body) ∈ g'.fetched := by
          rw [hf]
          exact List.mem_append_left _ hI.2
        cases next with
        | none => exact ⟨hc, hmem⟩
        | some _ => exact ⟨hc, hmem⟩
      exact hstay.2

/-- A server that answers every request of getDeleted with what was deleted
from its start on and before its end. -/
def Faithful (h : DeletionHistory p) : Prop :=
  ∀ i since body, answer i (getDeletedPath p apiVersion bind since (u * p.ticksPerSecond)) = .ok body →
    h.Holds bind.object (toTimeT p since) u body

theorem mem_getDeleted (h : DeletionHistory p) (hwindow : Window p bind s u)
    (hfaithful : Faithful p apiVersion bind answer u h) (l : LoadState)
    (hload : loadViaGetDeleted p apiVersion bind answer = .ok l) (id : Text) :
    id ∈ l.rows.map Prod.fst ↔ h.DeletedIn bind.object s u id := by
  obtain ⟨until_, huntil, hcollected, hanswered⟩ := load_collects p apiVersion bind answer l hload
  obtain ⟨hstart, hfirst⟩ := slices_start p apiVersion bind answer s u hwindow l hload
  rw [hwindow.until_] at huntil
  have hend := parsed_window p u until_ _ hwindow.until_fits huntil
  rw [hend] at hanswered
  have hholds : ∀ f ∈ l.fetched, ∀ id, id ∈ (bodyRows f.2).map Prod.fst ↔
      h.DeletedIn bind.object (toTimeT p f.1) u id := by
    intro f hf id
    obtain ⟨i, hi⟩ := List.mem_iff_getElem?.mp hf
    obtain ⟨ans, hans, hids⟩ := hfaithful i f.1 f.2 (hanswered i f.1 f.2 hi)
    rw [← hids id, (answer_read f.2 ans hans).1, List.map_map]
    exact List.mem_map
  have hfetched : id ∈ l.rows.map Prod.fst ↔
      ∃ f ∈ l.fetched, h.DeletedIn bind.object (toTimeT p f.1) u id := by
    rw [hcollected.rows.keys id, fetchedRows, List.map_flatMap, List.mem_flatMap]
    exact exists_congr fun f => and_congr_right fun hf => hholds f hf id
  rw [hfetched]
  refine ⟨?_, ?_⟩
  · intro hex
    obtain ⟨f, hf, r, hr, t, ht, hlow, hhigh, hid⟩ := hex
    have hge : (s : ℚ) ≤ (toTimeT p f.1 : ℤ) := by
      exact_mod_cast toTimeT_ge p f.1 s (hstart f hf)
    exact ⟨r, hr, t, ht, le_trans hge hlow, hhigh, hid⟩
  · intro hin
    have hsu : s < u := by
      obtain ⟨_, _, _, _, hlow, hhigh, _⟩ := hin
      exact_mod_cast lt_of_le_of_lt hlow hhigh
    obtain ⟨body, hbody⟩ := hfirst hsu
    refine ⟨_, hbody, ?_⟩
    have hticks := p.ticks_ge
    have hsecond : toTimeT p (s * p.ticksPerSecond) = s := Int.mul_tdiv_cancel s (by omega)
    rw [hsecond]
    exact hin

/-! ### The two sources -/

def bySource (source : String) : DeletedIdsBindData := { bind with source := source.toList }

theorem load_getDeleted (fetchPage : FetchPage) :
    deletedIdsLoad p apiVersion answer fetchPage (bySource bind "getDeleted") =
      loadViaGetDeleted p apiVersion (bySource bind "getDeleted") answer := by
  have hsource : (bySource bind "getDeleted").source = "getDeleted".toList := rfl
  unfold deletedIdsLoad
  exact if_pos hsource

theorem load_queryAll (fetchPage : FetchPage) :
    deletedIdsLoad p apiVersion answer fetchPage (bySource bind "queryAll") =
      queryAllLoop fetchPage kQueryAllMaxPages (queryAllPath apiVersion bind) LoadState.start := by
  have hsource : (bySource bind "queryAll").source ≠ "getDeleted".toList := by
    show "queryAll".toList ≠ "getDeleted".toList
    decide
  have hpath : queryAllPath apiVersion (bySource bind "queryAll") = queryAllPath apiVersion bind := rfl
  unfold deletedIdsLoad
  rw [if_neg hsource, loadViaQueryAll, hpath]

/-- All that the two sources emit is what was deleted in the window. -/
def SourcesAgree (h : DeletionHistory p) (byGetDeleted byQueryAll : List DeletedIdsRow) : Prop :=
  ∀ id, (id ∈ byQueryAll.map DeletedIdsRow.id ↔ id ∈ byGetDeleted.map DeletedIdsRow.id) ∧
    (id ∈ byGetDeleted.map DeletedIdsRow.id ↔ h.DeletedIn bind.object s u id)

/-- What was deleted from `since` on but not before `until` shares its id with
a record deleted in the window. -/
def NoneDeletedAfter (h : DeletionHistory p) : Prop :=
  ∀ r ∈ h.org.records bind.object, ∀ t, h.deletedAt r = some t → (s : ℚ) ≤ t → (u : ℚ) ≤ t →
    h.DeletedIn bind.object s u r.id

theorem outputRow_ids (source latestCovered : Text) (rows : List (Text × Text)) :
    (rows.map (outputRow source latestCovered)).map DeletedIdsRow.id = rows.map Prod.fst := by
  rw [List.map_map]
  rfl

/-- A run by getDeleted emits what was deleted in the window. -/
theorem byGetDeleted_ids (h : DeletionHistory p) (fetchPage : FetchPage)
    (hwindow : Window p bind s u) (hfaithful : Faithful p apiVersion bind answer u h)
    (out : List DeletedIdsRow)
    (hend : EndsWith (deletedIdsLoad p apiVersion answer fetchPage (bySource bind "getDeleted"))
      (bySource bind "getDeleted") out) (id : Text) :
    id ∈ out.map DeletedIdsRow.id ↔ h.DeletedIn bind.object s u id := by
  obtain ⟨l, hload, hrows⟩ := (endsWith_iff _ _ _).mp hend
  rw [load_getDeleted] at hload
  rw [hrows, outputRow_ids]
  exact mem_getDeleted p apiVersion (bySource bind "getDeleted") answer s u h
    ⟨hwindow.since, hwindow.until_, hwindow.since_fits, hwindow.until_fits⟩ hfaithful l hload id

/-- A run by queryAll emits what was deleted from `since` on. -/
theorem byQueryAll_ids (h : DeletionHistory p) (fetchPage : FetchPage)
    (hwindow : Window p bind s u) (hobject : isBareToken bind.object = true)
    (selected : List SalesforceRecord)
    (hselected : ∀ r, r ∈ selected ↔ r ∈ h.org.selected (queryAllSoql bind))
    (hpages : Delivers fetchPage (queryAllPath apiVersion bind) selected) (out : List DeletedIdsRow)
    (hend : EndsWith (deletedIdsLoad p apiVersion answer fetchPage (bySource bind "queryAll"))
      (bySource bind "queryAll") out) (id : Text) :
    id ∈ out.map DeletedIdsRow.id ↔
      ∃ r ∈ h.org.records bind.object, ∃ t, h.deletedAt r = some t ∧ (s : ℚ) ≤ t ∧ r.id = id := by
  obtain ⟨l, hload, hout⟩ := (endsWith_iff _ _ _).mp hend
  rw [load_queryAll] at hload
  have hrows := queryAll_rows fetchPage kQueryAllMaxPages (queryAllPath apiVersion bind)
    LoadState.start l selected hpages hload
  have hids : l.rows.map Prod.fst = selected.map SalesforceRecord.id := by
    rw [hrows, List.map_append, List.map_map]
    rfl
  rw [hout, outputRow_ids, hids, List.mem_map]
  refine ⟨?_, ?_⟩
  · intro hex
    obtain ⟨r, hr, hid⟩ := hex
    obtain ⟨hmem, t, ht, hle⟩ := (mem_queryAll p h bind s hwindow.since hobject r).mp
      ((hselected r).mp hr)
    exact ⟨r, hmem, t, ht, hle, hid⟩
  · intro hex
    obtain ⟨r, hmem, t, ht, hle, hid⟩ := hex
    exact ⟨r, (hselected r).mpr
      ((mem_queryAll p h bind s hwindow.since hobject r).mpr ⟨hmem, t, ht, hle⟩), hid⟩

/-- The sources agree exactly when nothing else was deleted after the window. -/
theorem sources_agree_iff (h : DeletionHistory p) (fetchPage : FetchPage)
    (hwindow : Window p bind s u) (hobject : isBareToken bind.object = true)
    (hfaithful : Faithful p apiVersion bind answer u h) (selected : List SalesforceRecord)
    (hselected : ∀ r, r ∈ selected ↔ r ∈ h.org.selected (queryAllSoql bind))
    (hpages : Delivers fetchPage (queryAllPath apiVersion bind) selected)
    (byGetDeleted byQueryAll : List DeletedIdsRow)
    (hget : EndsWith (deletedIdsLoad p apiVersion answer fetchPage (bySource bind "getDeleted"))
      (bySource bind "getDeleted") byGetDeleted)
    (hquery : EndsWith (deletedIdsLoad p apiVersion answer fetchPage (bySource bind "queryAll"))
      (bySource bind "queryAll") byQueryAll) :
    SourcesAgree p bind s u h byGetDeleted byQueryAll ↔ NoneDeletedAfter p bind s u h := by
  have hgetIds := byGetDeleted_ids p apiVersion bind answer s u h fetchPage hwindow hfaithful
    byGetDeleted hget
  have hqueryIds := byQueryAll_ids p apiVersion bind answer s u h fetchPage hwindow hobject selected
    hselected hpages byQueryAll hquery
  unfold SourcesAgree NoneDeletedAfter
  refine ⟨?_, ?_⟩
  · intro hagree r hr t ht hs _
    have hid := hagree r.id
    rw [hqueryIds r.id, hgetIds r.id] at hid
    exact hid.1.mp ⟨r, hr, t, ht, hs, rfl⟩
  · intro hnone id
    refine ⟨?_, hgetIds id⟩
    rw [hqueryIds id, hgetIds id]
    refine ⟨?_, ?_⟩
    · intro hex
      obtain ⟨r, hr, t, ht, hs, hid⟩ := hex
      by_cases hu : t < u
      · exact ⟨r, hr, t, ht, hs, hu, hid⟩
      · rw [← hid]
        exact hnone r hr t ht hs (not_lt.mp hu)
    · intro hin
      obtain ⟨r, hr, t, ht, hs, _, hid⟩ := hin
      exact ⟨r, hr, t, ht, hs, hid⟩

end Window

/-! ### A lead that is deleted -/

/-- The second that an ISO text names. -/
def isoSeconds (w : Text) : Option ℤ :=
  match NumberScan.scanFormat isoSeparators (scannedText w) with
  | [year, month, day, hour, minute, second] =>
    some (secondsOf (dayNumber year month.toNat day) hour minute second)
  | _ => none

theorem isoSeconds_isoText (width : ℕ) (m : Moment) :
    isoSeconds (isoText width m) = some m.seconds := by
  rw [isoSeconds, isoText, scanned_moment width m 'T' (Or.inl rfl) ['Z'] (Or.inr rfl),
    scan_date _ _ _ (noDigit_of_cons 'T' _ rfl), scan_clock]
  rfl

/-- The predicates on a record that was deleted at this time. -/
def deletedTruth (t : ℚ) : Leaf Atom → Truth
  | [.atom (.word f), .atom (.sym _), .atom (.word w)] =>
    if f = "IsDeleted".toList then .tt
    else match isoSeconds w with
      | some s => .ofBool (decide ((s : ℚ) ≤ t))
      | none => .unknown
  | _ => .ff

def deletedLead (t : ℚ) : SalesforceRecord :=
  .of "00QD000000IRFmaIAH" (by decide) (by decide) (deletedTruth t)

theorem deletedLead_modstamp (t : ℚ) (width : ℕ) (m : Moment) :
    (deletedLead t).truth (modstampFrom width m).tokens = .ofBool (decide ((m.seconds : ℚ) ≤ t)) := by
  have htokens : (modstampFrom width m).tokens = [.atom (.word "SystemModstamp".toList),
      .atom (.sym ">=".toList), .atom (.word (isoText width m))] := by
    rw [← modstamp_literal width m]
    rfl
  have htruth : deletedTruth t (modstampFrom width m).tokens =
      .ofBool (decide ((m.seconds : ℚ) ≤ t)) := by
    rw [htokens, deletedTruth, if_neg (by decide), isoSeconds_isoText]
  exact htruth

def leadHistory (t : ℚ) : DeletionHistory nanoPlatform where
  org := ⟨fun _ => [deletedLead t]⟩
  deletedAt _ := some t
  systemModstamp _ := t
  modstamp_deleted := by
    intro _ t' ht
    exact Option.some.inj ht
  truth_deleted := by
    intro _ r hr
    rw [List.mem_singleton.mp hr]
    rfl
  truth_modstamp := by
    intro _ r hr m
    rw [List.mem_singleton.mp hr]
    exact deletedLead_modstamp t _ m

def deletedElements : JsonText.Elements :=
  .cons .none (.object .none (memberOf "id" (textOf "00QD000000IRFmaIAH") .nil)) .none .nil

/-- The answer to the request for the whole window. -/
def windowAnswer (elements : JsonText.Elements) : ℕ → Text → Except Text Text := fun _ path =>
  if path = getDeletedPath nanoPlatform "v60.0".toList leadBind 1790762400000000000
      1790769600000000000 then .ok (deletedBody elements).text
  else .error []

def leadObject : JsonText.ObjectText :=
  recordObject .none (memberOf "Id" (textOf "00QD000000IRFmaIAH") .nil)

def leadPage : FetchPage := fun _ => .ok ⟨[leadObject.text], true, []⟩

theorem windowAnswer_second (elements : JsonText.Elements) (i : ℕ) (since : ℤ) (body : Text)
    (h : windowAnswer elements i (getDeletedPath nanoPlatform "v60.0".toList leadBind since
      1790769600000000000) = .ok body) :
    toTimeT nanoPlatform since = 1790762400 ∧ (deletedBody elements).text = body := by
  unfold windowAnswer at h
  split at h
  · rename_i hpath
    refine ⟨?_, Except.ok.inj h⟩
    have hiso : toIsoUtc nanoPlatform since = toIsoUtc nanoPlatform 1790762400000000000 :=
      List.append_cancel_left (List.append_cancel_right (List.append_cancel_right hpath))
    have hseconds := congrArg isoSeconds hiso
    have hposix : ∀ tp : ℤ, toIsoUtc nanoPlatform tp =
        isoText nanoPlatform.yearWidth (momentOf (toTimeT nanoPlatform tp)) := by
      intro tp
      rw [toIsoUtc, utcText, if_pos (show nanoPlatform.library.knows _ from trivial)]
    rw [hposix since, hposix 1790762400000000000, isoSeconds_isoText, isoSeconds_isoText,
      momentOf_seconds, momentOf_seconds] at hseconds
    exact Option.some.inj hseconds
  · cases h

theorem lead_selected (t : ℚ) (ht : 1790762400 ≤ t) (r : SalesforceRecord) :
    r ∈ [deletedLead t] ↔ r ∈ (leadHistory t).org.selected (queryAllSoql leadBind) := by
  rw [mem_queryAll nanoPlatform (leadHistory t) leadBind 1790762400 lead_window.since (by decide)]
  refine ⟨?_, fun h => h.1⟩
  intro h
  exact ⟨h, t, rfl, by exact_mod_cast ht⟩

theorem lead_delivered (t : ℚ) :
    Delivers leadPage (queryAllPath "v60.0".toList leadBind) [deletedLead t] := by
  refine .last _ ⟨[leadObject.text], true, []⟩ _ rfl rfl (.cons ⟨_, _, rfl, ?_⟩ .nil)
  refine ⟨JsonText.spell "00QD000000IRFmaIAH".toList, hasMember_of _ _ _ ⟨_, rfl, by decide, rfl⟩,
    by decide, ?_⟩
  show JsonText.unitsOf _ = JsonText.codeUnits "00QD000000IRFmaIAH".toList
  decide

def deletedRow (source : String) : DeletedIdsRow :=
  ⟨"00QD000000IRFmaIAH".toList, none, source.toList, none⟩

theorem lead_queryAll (elements : JsonText.Elements) :
    EndsWith (deletedIdsLoad nanoPlatform "v60.0".toList (windowAnswer elements) leadPage
      (bySource leadBind "queryAll")) (bySource leadBind "queryAll") [deletedRow "queryAll"] := by
  apply (endsWith_iff _ _ _).mpr
  refine ⟨⟨[("00QD000000IRFmaIAH".toList, [])], [], [], 0, []⟩, ?_, by decide⟩
  rw [load_queryAll]
  have hid : getString leadObject.text "Id".toList = "00QD000000IRFmaIAH".toList := by decide
  show Except.ok (⟨[] ++ [(getString leadObject.text "Id".toList, [])], [], [], 0, []⟩ : LoadState) = _
  rw [hid]
  rfl

theorem lead_getDeleted (elements : JsonText.Elements) (l : LoadState) (out : List DeletedIdsRow)
    (hload : loadViaGetDeleted nanoPlatform "v60.0".toList leadBind (windowAnswer elements) = .ok l)
    (hout : out = l.rows.map (outputRow "getDeleted".toList l.latestCovered)) :
    EndsWith (deletedIdsLoad nanoPlatform "v60.0".toList (windowAnswer elements) leadPage
      (bySource leadBind "getDeleted")) (bySource leadBind "getDeleted") out := by
  apply (endsWith_iff _ _ _).mpr
  rw [load_getDeleted]
  exact ⟨l, hload, hout⟩

theorem deletedElements_said :
    AnswerText (deletedBody deletedElements).text ⟨[⟨"00QD000000IRFmaIAH".toList, []⟩], none⟩ := by
  have hid : HasMember (recordObject .none (memberOf "id" (textOf "00QD000000IRFmaIAH") .nil))
      "id".toList (textOf "00QD000000IRFmaIAH") :=
    hasMember_of _ _ _ ⟨_, rfl, by decide, rfl⟩
  have hrecords : HasMember (deletedBody deletedElements) "deletedRecords".toList
      (.array .none deletedElements) :=
    hasMember_of _ _ _ ⟨_, rfl, by decide, rfl⟩
  have hdate : LacksMember (recordObject .none (memberOf "id" (textOf "00QD000000IRFmaIAH") .nil))
      "deletedDate".toList :=
    lacksMember_of _ _ rfl (by decide)
  have hcovered : LacksMember (deletedBody deletedElements) "latestDateCovered".toList :=
    lacksMember_of _ _ rfl (by decide)
  exact ⟨deletedBody deletedElements, rfl, ⟨.none, deletedElements, hrecords,
    .cons .none .none _ .none .nil ⟨"00QD000000IRFmaIAH".toList, []⟩ []
      ⟨JsonText.spell "00QD000000IRFmaIAH".toList, hid, by decide, by decide⟩
      (Or.inr ⟨rfl, hdate⟩) .nil⟩, Or.inl hcovered⟩

/-- A lead deleted within the window comes from both sources. -/
theorem lead_sources_agree :
    SourcesAgree nanoPlatform leadBind 1790762400 1790769600 (leadHistory 1790766000)
      [deletedRow "getDeleted"] [deletedRow "queryAll"] := by
  have hload : loadViaGetDeleted nanoPlatform "v60.0".toList leadBind (windowAnswer deletedElements) =
      .ok ⟨[("00QD000000IRFmaIAH".toList, [])], ["00QD000000IRFmaIAH".toList], [], 0,
        [(1790762400000000000, (deletedBody deletedElements).text)]⟩ := by
    decide +kernel
  have hfaithful : Faithful nanoPlatform "v60.0".toList leadBind (windowAnswer deletedElements)
      1790769600 (leadHistory 1790766000) := by
    intro i since body hbody
    obtain ⟨hsecond, hbody⟩ := windowAnswer_second deletedElements i since body hbody
    rw [← hbody, hsecond]
    refine ⟨_, deletedElements_said, ?_⟩
    intro id
    refine ⟨?_, ?_⟩
    · intro h
      obtain ⟨rec, hrec, hid⟩ := h
      rw [List.mem_singleton.mp hrec] at hid
      exact ⟨_, List.mem_singleton_self _, 1790766000, rfl, by norm_num, by norm_num, hid⟩
    · intro h
      obtain ⟨r, hr, _, _, _, _, hid⟩ := h
      rw [List.mem_singleton.mp hr] at hid
      exact ⟨_, List.mem_singleton_self _, hid⟩
  apply (sources_agree_iff nanoPlatform "v60.0".toList leadBind (windowAnswer deletedElements)
    1790762400 1790769600 (leadHistory 1790766000) leadPage lead_window (by decide) hfaithful
    [deletedLead 1790766000] (lead_selected 1790766000 (by norm_num)) (lead_delivered 1790766000)
    [deletedRow "getDeleted"] [deletedRow "queryAll"]
    (lead_getDeleted deletedElements _ _ hload (by decide)) (lead_queryAll deletedElements)).mpr
  intro r _ t ht _ hlate
  have heq : (1790766000 : ℚ) = t := Option.some.inj ht
  rw [← heq] at hlate
  norm_num at hlate

/-- A lead deleted after the window comes from queryAll all the same. -/
theorem late_lead_emitted :
    ¬ ∀ (p : Platform) (apiVersion : Text) (bind : DeletedIdsBindData)
      (answer : ℕ → Text → Except Text Text) (s u : ℤ) (h : DeletionHistory p) (fetchPage : FetchPage),
      Window p bind s u → isBareToken bind.object = true → Faithful p apiVersion bind answer u h →
      ∀ selected : List SalesforceRecord,
        (∀ r, r ∈ selected ↔ r ∈ h.org.selected (queryAllSoql bind)) →
        Delivers fetchPage (queryAllPath apiVersion bind) selected →
        ∀ byGetDeleted byQueryAll : List DeletedIdsRow,
          EndsWith (deletedIdsLoad p apiVersion answer fetchPage (bySource bind "getDeleted"))
            (bySource bind "getDeleted") byGetDeleted →
          EndsWith (deletedIdsLoad p apiVersion answer fetchPage (bySource bind "queryAll"))
            (bySource bind "queryAll") byQueryAll →
          SourcesAgree p bind s u h byGetDeleted byQueryAll := by
  intro h
  have hload : loadViaGetDeleted nanoPlatform "v60.0".toList leadBind (windowAnswer .nil) =
      .ok ⟨[], [], [], 0, [(1790762400000000000, (deletedBody .nil).text)]⟩ := by
    decide +kernel
  have hfaithful : Faithful nanoPlatform "v60.0".toList leadBind (windowAnswer .nil) 1790769600
      (leadHistory 1790800000) := by
    intro i since body hbody
    obtain ⟨_, hbody⟩ := windowAnswer_second .nil i since body hbody
    rw [← hbody]
    refine ⟨_, noneDeleted_said, ?_⟩
    intro id
    refine ⟨?_, ?_⟩
    · intro hex
      obtain ⟨rec, hrec, _⟩ := hex
      cases hrec
    · intro hin
      obtain ⟨_, _, t, ht, _, hlt, _⟩ := hin
      have heq : (1790800000 : ℚ) = t := Option.some.inj ht
      rw [← heq] at hlt
      norm_num at hlt
  have hagree := h nanoPlatform "v60.0".toList leadBind (windowAnswer .nil) 1790762400 1790769600
    (leadHistory 1790800000) leadPage lead_window (by decide) hfaithful [deletedLead 1790800000]
    (lead_selected 1790800000 (by norm_num)) (lead_delivered 1790800000) [] [deletedRow "queryAll"]
    (lead_getDeleted .nil _ _ hload rfl) (lead_queryAll .nil) "00QD000000IRFmaIAH".toList
  have hmem := hagree.1.mp (List.mem_singleton_self _)
  cases hmem

end DuckdbSalesforce
