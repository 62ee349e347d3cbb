import DuckdbSalesforce.DeleteSync.GetDeleted
import DuckdbSalesforce.Json.HasMember

/-!
# The records of getDeleted

What a JSON body of getDeleted says and what the load reads of it, and that
every id comes out once.
-/

namespace DuckdbSalesforce
open JsonText FirstSeen

/-! ### Bodies -/

structure DeletedRecord where
  id : Text
  deletedDate : Text

/-- A body without a date covered has none. -/
structure DeletedAnswer where
  records : List DeletedRecord
  covered : Option Text

/-- The elements are objects that hold the records; a date may be missing. -/
inductive HoldRecords : Elements → List DeletedRecord → Prop
  | nil : HoldRecords .nil []
  | cons (pre lead : Blank) (members : Members) (trail : Blank) (rest : Elements)
      (r : DeletedRecord) (rs : List DeletedRecord)
      (id : HasText (recordObject lead members) "id".toList r.id)
      (date : HasText (recordObject lead members) "deletedDate".toList r.deletedDate ∨
        r.deletedDate = [] ∧ LacksMember (recordObject lead members) "deletedDate".toList)
      (more : HoldRecords rest rs) :
    HoldRecords (.cons pre (.object lead members) trail rest) (r :: rs)

/-- The body is a JSON object that says this. -/
structure AnswerText (body : Text) (a : DeletedAnswer) : Prop where
  object : ∃ o : ObjectText, body = o.text ∧
    (∃ lead elements, HasMember o "deletedRecords".toList (.array lead elements) ∧
      HoldRecords elements a.records) ∧
    match a.covered with
    | none => LacksMember o "latestDateCovered".toList ∨
        HasMember o "latestDateCovered".toList .null
    | some t => HasText o "latestDateCovered".toList t

/-! ### Reading them -/

def answerRow (r : DeletedRecord) : Text × Text := (r.id, normalizeDeletedDate r.deletedDate)

theorem records_read (elements : Elements) (rs : List DeletedRecord) (h : HoldRecords elements rs) :
    AllObjects elements ∧ (elementTexts elements).map recordRow = rs.map answerRow := by
  induction h with
  | nil => exact ⟨trivial, rfl⟩
  | cons pre lead members trail rest r rs id date _ ih =>
    have hid := getString_text _ _ _ id
    have hdate : getString (recordObject lead members).text "deletedDate".toList = r.deletedDate := by
      rcases date with date | ⟨hempty, hlacks⟩
      · exact getString_text _ _ _ date
      · rw [getString_lacking _ _ hlacks, hempty]
    have hrow : recordRow (Json.object lead members).render = answerRow r := by
      rw [recordRow, ← recordObject_text, hid, hdate, answerRow]
    refine ⟨⟨⟨lead, members, rfl⟩, ih.1⟩, ?_⟩
    rw [elementTexts, List.map_cons, List.map_cons, hrow, ih.2]

theorem answer_read (body : Text) (a : DeletedAnswer) (h : AnswerText body a) :
    bodyRows body = a.records.map answerRow ∧
      getString body "latestDateCovered".toList = a.covered.getD [] := by
  obtain ⟨o, rfl, ⟨lead, elements, hmember, hrecords⟩, hcovered⟩ := h.object
  obtain ⟨hobjects, hrows⟩ := records_read elements a.records hrecords
  refine ⟨?_, ?_⟩
  · rw [bodyRows, getObjectArray_member o _ lead elements hobjects hmember, hrows]
  · cases hc : a.covered with
    | some t =>
      rw [hc] at hcovered
      exact getString_text o _ t hcovered
    | none =>
      rw [hc] at hcovered
      rcases hcovered with hlacks | hnull
      · exact getString_lacking o _ hlacks
      · obtain ⟨_, _, _, _, hread⟩ := member_found o _ _ hnull
        exact hread

theorem answers_read (bodies : List Text) (answers : List DeletedAnswer)
    (h : List.Forall₂ AnswerText bodies answers) :
    bodies.flatMap bodyRows = answers.flatMap fun a => a.records.map answerRow := by
  induction h with
  | nil => rfl
  | cons hbody _ ih =>
    rw [List.flatMap_cons, List.flatMap_cons, (answer_read _ _ hbody).1, ih]

/-! ### Every id once -/

section Once
variable (p : Platform) (apiVersion : Text) (bind : DeletedIdsBindData)
  (answer : ℕ → Text → Except Text Text)

/-- What was fetched is what the server answered, request by request. -/
def Answered (until_ : ℤ) (g : LoadState) : Prop :=
  ∀ i since body, g.fetched[i]? = some (since, body) →
    answer i (getDeletedPath p apiVersion bind since until_) = .ok body

theorem answered_more (until_ since : ℤ) (g g' : LoadState) (body : Text)
    (hg : Answered p apiVersion bind answer until_ g)
    (hbody : answer g.fetched.length (getDeletedPath p apiVersion bind since until_) = .ok body)
    (hg' : g'.fetched = g.fetched ++ [(since, body)]) :
    Answered p apiVersion bind answer until_ g' := by
  intro i s b hi
  rw [hg'] at hi
  by_cases hlt : i < g.fetched.length
  · rw [List.getElem?_append_left hlt] at hi
    exact hg i s b hi
  · rw [List.getElem?_append_right (by omega)] at hi
    have hlast : i - g.fetched.length = 0 := by
      by_contra hne
      rw [List.getElem?_eq_none (by rw [List.length_singleton]; omega)] at hi
      cases hi
    have hlen : i = g.fetched.length := by omega
    rw [hlast] at hi
    cases hi
    rw [hlen]
    exact hbody

theorem load_collects (g : LoadState) (h : loadViaGetDeleted p apiVersion bind answer = .ok g) :
    ∃ until_, parseIsoUtc p bind.until_ "until".toList = .ok until_ ∧ Collected g ∧
      Answered p apiVersion bind answer until_ g := by
  obtain ⟨since, until_, _, huntil, hloop⟩ := load_cases p apiVersion bind answer g h
  refine ⟨until_, huntil, ?_⟩
  apply loop_rule p apiVersion bind answer until_
    (fun _ g => Collected g ∧ Answered p apiVersion bind answer until_ g)
    (fun g => Collected g ∧ Answered p apiVersion bind answer until_ g) (fun _ _ h => h) ?_
    kGetDeletedMaxLoops since LoadState.start g ?_ hloop
  · intro since g body g' next hg _ hbody hafter
    obtain ⟨hcollected, hfetched⟩ := afterBody_frame p since until_ g g' body next hafter hg.1
    have hanswered := answered_more p apiVersion bind answer until_ since g g' body hg.2 hbody hfetched
    cases next with
    | none => exact ⟨hcollected, hanswered⟩
    | some t => exact ⟨hcollected, hanswered⟩
  · refine ⟨⟨fun _ => Iff.rfl, appearances_nil Prod.fst⟩, ?_⟩
    intro i since body hi
    cases hi

def emptyToNull (row : Text × Text) : Text × Option Text := (row.1, nullIfEmpty row.2)

def rowItem (r : DeletedIdsRow) : Text × Option Text := (r.id, r.deletedDate)

theorem rowItem_output (source latestCovered : Text) (rows : List (Text × Text)) :
    (rows.map (outputRow source latestCovered)).map rowItem = rows.map emptyToNull := by
  rw [List.map_map]
  rfl

/-- A run that ends normally emits, for each id in what was fetched, its first
appearance. -/
theorem deleted_ids_once (l : LoadState) (out : List DeletedIdsRow)
    (hload : loadViaGetDeleted p apiVersion bind answer = .ok l)
    (hend : EndsWith (loadViaGetDeleted p apiVersion bind answer) bind out) :
    (∃ until_, parseIsoUtc p bind.until_ "until".toList = .ok until_ ∧
        Answered p apiVersion bind answer until_ l) ∧
      FirstAppearances Prod.fst ((fetchedRows l).map emptyToNull) (out.map rowItem) ∧
      ∀ answers, List.Forall₂ AnswerText (l.fetched.map Prod.snd) answers →
        FirstAppearances Prod.fst
          (answers.flatMap fun a => a.records.map fun r => emptyToNull (answerRow r))
          (out.map rowItem) := by
  obtain ⟨l', hl', hout⟩ := (endsWith_iff _ bind out).mp hend
  rw [hload] at hl'
  cases hl'
  obtain ⟨until_, huntil, hcollected, hanswered⟩ := load_collects p apiVersion bind answer l hload
  have hrows : FirstAppearances Prod.fst ((fetchedRows l).map emptyToNull) (out.map rowItem) := by
    rw [hout, rowItem_output]
    exact appearances_map Prod.fst emptyToNull Prod.fst (fun _ => rfl) _ _ hcollected.rows
  refine ⟨⟨until_, huntil, hanswered⟩, hrows, ?_⟩
  intro answers hanswers
  have hread := answers_read _ answers hanswers
  have hfetched : fetchedRows l = (l.fetched.map Prod.snd).flatMap bodyRows := by
    rw [fetchedRows, List.flatMap_map]
  rw [hfetched, hread, List.map_flatMap] at hrows
  simp only [List.map_map] at hrows
  exact hrows

end Once

/-- Two slices, the record 00Q2 in both. -/
def twoSlices : ℕ → Text → Except Text Text
  | 0, _ => .ok ("\x7b\"deletedRecords\":[\x7b\"id\":\"00Q1\",".toList ++
      "\"deletedDate\":\"2026-09-30T10:00:00.000Z\"\x7d,\x7b\"id\":\"00Q2\"\x7d],".toList ++
      "\"latestDateCovered\":\"2026-09-30T11:00:00.000Z\"\x7d".toList)
  | _, _ => .ok ("\x7b\"deletedRecords\":[\x7b\"id\":\"00Q2\",".toList ++
      "\"deletedDate\":\"2026-09-30T11:00:00.000Z\"\x7d,\x7b\"id\":\"00Q3\"\x7d],".toList ++
      "\"latestDateCovered\":\"2026-09-30T12:00:00.000Z\"\x7d".toList)

def leadBind : DeletedIdsBindData where
  object := "LEAD".toList
  since := "2026-09-30T10:00:00Z".toList
  until_ := "2026-09-30T12:00:00Z".toList
  source := "getDeleted".toList

def leadRows : List DeletedIdsRow :=
  [("00Q1".toList, "2026-09-30T10:00:00".toList), ("00Q2".toList, []), ("00Q3".toList, [])].map
    (outputRow "getDeleted".toList "2026-09-30T12:00:00".toList)

theorem lead_load :
    ∃ l, loadViaGetDeleted nanoPlatform "v60.0".toList leadBind twoSlices = .ok l ∧
      leadRows = l.rows.map (outputRow leadBind.source l.latestCovered) := by
  have hrun : (loadViaGetDeleted nanoPlatform "v60.0".toList leadBind twoSlices).map
      (fun l => l.rows.map (outputRow leadBind.source l.latestCovered)) = .ok leadRows := by
    decide +kernel
  cases hload : loadViaGetDeleted nanoPlatform "v60.0".toList leadBind twoSlices with
  | error e =>
    rw [hload] at hrun
    cases hrun
  | ok l =>
    rw [hload] at hrun
    exact ⟨l, rfl, (Except.ok.inj hrun).symm⟩

/-- 00Q2 comes out once, with what the first slice says of it. -/
theorem lead_ids_once :
    ∃ l, loadViaGetDeleted nanoPlatform "v60.0".toList leadBind twoSlices = .ok l ∧
      FirstAppearances Prod.fst ((fetchedRows l).map emptyToNull) (leadRows.map rowItem) := by
  obtain ⟨l, hload, hrows⟩ := lead_load
  have hend := (endsWith_iff (loadViaGetDeleted nanoPlatform "v60.0".toList leadBind twoSlices)
    leadBind leadRows).mpr ⟨l, hload, hrows⟩
  exact ⟨l, hload,
    (deleted_ids_once nanoPlatform "v60.0".toList leadBind twoSlices l leadRows hload hend).2.1⟩

end DuckdbSalesforce
