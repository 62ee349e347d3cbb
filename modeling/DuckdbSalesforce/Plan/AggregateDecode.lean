import DuckdbSalesforce.Json.Compact
import DuckdbSalesforce.Plan.AggregateRows
import DuckdbSalesforce.Plan.Meaning
import DuckdbSalesforce.Scan.AggregateScan

/-!
# The aggregate record, decoded

The service reads the aggregate statement, evaluates its calls and writes one
record; the scan finds every alias in it and decodes the value. Up to the
vector size the cells are those of the meaning of the plan.
-/

namespace DuckdbSalesforce
open JsonText SqlAggregates

/-! ### The service's record -/

def spellCell (spell : Value → Json) : Cell → Json
  | none => .null
  | some v => spell v

def attributesMember : Text × Json :=
  ("attributes".toList,
    .object .none (compactMembers [("type".toList, .string (spell "AggregateResult".toList))]))

def aggregateMembers (spell : Value → Json) (cells : List (Text × Cell)) : List (Text × Json) :=
  attributesMember :: cells.map fun c => (c.1, spellCell spell c.2)

/-- The record for an aggregate statement over the records it selects. -/
def answerAggregate (ex : Execution) (spell : Value → Json) (records : List ScanRecord)
    (soql : Text) : Option Text :=
  match parseSelect soql with
  | none => none
  | some st => (parseCalls st.items).map fun calls =>
    (compactObject (aggregateMembers spell (calls.map fun c =>
      (c.resultName, answerCall ex.key c.func c.field records)))).text

def DecodedCell.ofCell : Cell → DecodedCell
  | none => .null
  | some v => .value v

/-- DuckDB casts back what the service writes: the values of the columns that
MIN and MAX are pushed for, and the counts of up to that many records. -/
structure CastsBack (casts : CastFunctions) (spell : Value → Json) (bind : SalesforceScanBindData)
    (records : List ScanRecord) : Prop where
  column : ∀ field ∈ bind.fields, aggPushableMinMaxType field.duckdbType = true →
    ∀ r ∈ records, ∀ v, r field.name = some v → Spells casts field.duckdbType v (spell v)
  count : ∀ n ≤ records.length, ∀ v, bigintCell n = some v → Spells casts .bigint v (spell v)

/-! ### The aliases -/

theorem aliasText_plain (i : ℕ) : PlainName (aliasText i) := by
  refine ⟨List.cons_ne_nil 'a' _, ?_⟩
  intro c hc
  rcases List.mem_cons.mp hc with rfl | hc
  · rfl
  · have hdigit := (natText_digits i).2 c hc
    simp [isAlnum, Char.isAlphanum, hdigit]

theorem aliasText_letter (i : ℕ) : ∃ c ∈ aliasText i, isStampChar c = false :=
  ⟨'a', List.mem_cons_self, rfl⟩

theorem aliasText_injective (i j : ℕ) (h : aliasText i = aliasText j) : i = j :=
  natText_injective i j (List.cons.inj h).2

theorem aliasText_ne (i : ℕ) (c d : Char) (t : Text) (hd : d.isDigit = false) :
    c :: d :: t ≠ aliasText i := by
  intro h
  have hmem : d ∈ natText i := by
    have htail : d :: t = natText i := (List.cons.inj h).2
    rw [← htail]
    exact List.mem_cons_self
  rw [(natText_digits i).2 d hmem] at hd
  cases hd

theorem attributes_avoid (i : ℕ) : Avoids (aliasText i) (memberText attributesMember) := by
  have hkey := aliasText_plain i
  have htext : memberText attributesMember =
      '"' :: ("attributes".toList ++ ['"', ':']) ++ (['{'] ++ ('"' :: ("type".toList ++ ['"', ':']) ++
        ('"' :: ("AggregateResult".toList ++ ['"', '}']) ++ [',']))) := rfl
  rw [htext]
  have hplain : ∀ t ∈ ["attributes".toList, "type".toList, "AggregateResult".toList], '"' ∉ t := by
    decide
  refine avoids_append _ _ _ (avoids_quoted _ _ _ hkey (hplain _ (by decide)) ?_ rfl (by decide)) ?_
  · exact aliasText_ne i 'a' 't' _ rfl
  refine avoids_append _ _ _ (avoids_unquoted _ _ (by decide)) ?_
  refine avoids_append _ _ _ (avoids_quoted _ _ _ hkey (hplain _ (by decide)) ?_ rfl (by decide)) ?_
  · exact aliasText_ne i 't' 'y' _ rfl
  refine avoids_append _ _ _ (avoids_quoted _ _ _ hkey (hplain _ (by decide)) ?_ rfl (by decide)) ?_
  · exact aliasText_ne i 'A' 'g' _ rfl
  exact avoids_unquoted _ _ (by decide)

/-! ### Reading the record -/

/-- The cell of a term is NULL or spelled so that it is read back. -/
def CellReads (casts : CastFunctions) (spell : Value → Json) (type : LogicalType) (c : Cell) :
    Prop :=
  ∀ v, c = some v → Spells casts type v (spell v)

theorem spellCell_scalar (casts : CastFunctions) (spell : Value → Json) (type : LogicalType)
    (c : Cell) (h : CellReads casts spell type c) : (spellCell spell c).isCompound = false := by
  cases c with
  | none => rfl
  | some v =>
    have hv := h v rfl
    show (spell v).isCompound = false
    generalize spell v = json at hv
    cases hv <;> rfl

theorem spellCell_avoids (casts : CastFunctions) (spell : Value → Json) (type : LogicalType)
    (c : Cell) (i : ℕ) (h : CellReads casts spell type c) :
    Avoids (aliasText i) ((spellCell spell c).render ++ [',']) := by
  cases c with
  | none =>
    have hnull : '"' ∉ "null,".toList := by decide
    exact avoids_unquoted _ _ hnull
  | some v => exact avoids_spelled casts type v _ _ (aliasText_plain i) (aliasText_letter i) (h v rfl)

/-- The pushed terms with their cells: aliases in order, cells that are read
back, and no NULL count. -/
structure TermsRead (casts : CastFunctions) (spell : Value → Json)
    (pushed : List SalesforcePushedAggregate) (cell : SalesforcePushedAggregate → Cell) : Prop where
  name : ∀ (i : ℕ) (pa : SalesforcePushedAggregate), pushed[i]? = some pa → pa.emit.name = aliasText i
  flat : ∀ pa ∈ pushed, pa.emit.isRelationship = false
  reads : ∀ pa ∈ pushed, CellReads casts spell pa.emit.duckdbType (cell pa)
  counted : ∀ pa ∈ pushed, isCountTerm pa = true → cell pa ≠ none

def termMembers (spell : Value → Json) (pushed : List SalesforcePushedAggregate)
    (cell : SalesforcePushedAggregate → Cell) : List (Text × Json) :=
  aggregateMembers spell (pushed.map fun pa => (pa.emit.name, cell pa))

theorem getValue_term (casts : CastFunctions) (spell : Value → Json)
    (pushed : List SalesforcePushedAggregate) (cell : SalesforcePushedAggregate → Cell)
    (h : TermsRead casts spell pushed cell) (pa : SalesforcePushedAggregate) (hpa : pa ∈ pushed) :
    getValue (compactObject (termMembers spell pushed cell)).text pa.emit.name =
      readValue (spellCell spell (cell pa)) := by
  obtain ⟨i, hi⟩ := List.mem_iff_getElem?.mp hpa
  have hname := h.name i pa hi
  let member : SalesforcePushedAggregate → Text × Json :=
    fun pb => (pb.emit.name, spellCell spell (cell pb))
  obtain ⟨hlt, hget⟩ := List.getElem?_eq_some_iff.mp hi
  have hsplit : pushed = pushed.take i ++ pa :: pushed.drop (i + 1) := by
    rw [← hget, ← List.drop_eq_getElem_cons hlt, List.take_append_drop]
  have hmembers : termMembers spell pushed cell =
      (attributesMember :: (pushed.take i).map member) ++
        (aliasText i, spellCell spell (cell pa)) :: (pushed.drop (i + 1)).map member := by
    unfold termMembers aggregateMembers
    rw [List.map_map]
    conv_lhs => rw [hsplit]
    rw [List.map_append, List.map_cons, ← hname]
    rfl
  rw [hmembers, hname]
  refine getValue_compact _ _ _ _ (aliasText_plain i) ?_ (spellCell_scalar casts spell _ _ (h.reads pa hpa))
  intro m hm
  rcases List.mem_cons.mp hm with rfl | hm
  · exact attributes_avoid i
  · obtain ⟨pb, hpb, rfl⟩ := List.mem_map.mp hm
    obtain ⟨j, hj⟩ := List.mem_iff_getElem?.mp hpb
    have hjlt : j < i := by
      have hlen := (List.getElem?_eq_some_iff.mp hj).1
      rw [List.length_take] at hlen
      omega
    rw [List.getElem?_take, if_pos hjlt] at hj
    have hbname := h.name j pb hj
    refine avoids_member _ _ _ (aliasText_plain i) ?_ ?_
      (spellCell_avoids casts spell _ _ i (h.reads pb (List.mem_of_getElem? hj)))
    · show ∀ c ∈ pb.emit.name, _
      rw [hbname]
      exact (aliasText_plain j).unquoted
    · show pb.emit.name ≠ _
      rw [hbname]
      intro heq
      have hij := aliasText_injective j i heq
      omega

theorem appendJsonValue_term (casts : CastFunctions) (spell : Value → Json)
    (pushed : List SalesforcePushedAggregate) (cell : SalesforcePushedAggregate → Cell)
    (h : TermsRead casts spell pushed cell) (pa : SalesforcePushedAggregate) (hpa : pa ∈ pushed) :
    appendJsonValue casts pa.emit (compactObject (termMembers spell pushed cell)).text =
      .ok (.ofCell (cell pa)) := by
  rw [appendJsonValue_flat casts _ _ (h.flat pa hpa), appendMember,
    getValue_term casts spell pushed cell h pa hpa]
  cases hc : cell pa with
  | none => rfl
  | some v =>
    obtain ⟨hfound, hnull, hcell⟩ := spells_read casts pa.emit v (spell v) (h.reads pa hpa v hc)
    simp only [spellCell, hfound, hnull, Bool.not_true, Bool.or_self, Bool.false_eq_true, if_false]
    exact hcell

theorem appendEntries_ok {α : Type} (casts : CastFunctions) (record : Text)
    (field : α → SalesforceField) (cell : α → DecodedCell) (xs : List α)
    (h : ∀ x ∈ xs, appendJsonValue casts (field x) record = .ok (cell x)) :
    appendEntries casts (xs.map field) record = .ok (xs.map cell) := by
  induction xs with
  | nil => rfl
  | cons x xs ih =>
    rw [List.map_cons, appendEntries, h x List.mem_cons_self,
      ih fun y hy => h y (List.mem_cons_of_mem _ hy)]
    rfl

/-- The scan emits the cells of its terms once, as far as a vector reaches. -/
theorem aggregate_scan_emits (casts : CastFunctions) (spell : Value → Json)
    (bind : SalesforceScanBindData) (cell : SalesforcePushedAggregate → Cell)
    (query : Text → Option Text) (h : TermsRead casts spell bind.pushedAggregates cell)
    (hquery : query (aggregateSoql bind) =
      some (compactObject (termMembers spell bind.pushedAggregates cell)).text) :
    ∃ s s', scanInitAggregate bind query = .ok s ∧
      scanFunctionAggregate casts s = .ok (s',
        [(bind.pushedAggregates.take standardVectorSize).map fun pa => .ofCell (cell pa)]) ∧
      scanFunctionAggregate casts s' = .ok (s', []) := by
  have hcounts : bind.pushedAggregates.find? (fun pa => isCountTerm pa && isMissingOrNull
      (compactObject (termMembers spell bind.pushedAggregates cell)).text pa.emit.name) = none := by
    rw [List.find?_eq_none]
    intro pa hpa hbad
    rw [Bool.and_eq_true] at hbad
    obtain ⟨hcount, hnull⟩ := hbad
    rw [isMissingOrNull, getValue_term casts spell _ cell h pa hpa] at hnull
    cases hc : cell pa with
    | none => exact h.counted pa hpa hcount hc
    | some v =>
      obtain ⟨hfound, hno, _⟩ := spells_read casts pa.emit v (spell v) (h.reads pa hpa v hc)
      rw [hc] at hnull
      simp [spellCell, hfound, hno] at hnull
  let s : AggregateScanState :=
    ⟨(compactObject (termMembers spell bind.pushedAggregates cell)).text,
      bind.pushedAggregates.map SalesforcePushedAggregate.emit, false⟩
  refine ⟨s, { s with sent := true }, ?_, ?_, rfl⟩
  · unfold scanInitAggregate
    rw [hquery]
    simp only [hcounts]
    rfl
  · have hcells := appendEntries_ok casts
      (compactObject (termMembers spell bind.pushedAggregates cell)).text
      SalesforcePushedAggregate.emit (fun pa => DecodedCell.ofCell (cell pa))
      (bind.pushedAggregates.take standardVectorSize) fun pa hpa =>
        appendJsonValue_term casts spell _ cell h pa (List.mem_of_mem_take hpa)
    rw [List.map_take] at hcells
    unfold scanFunctionAggregate
    simp only [s, Bool.false_eq_true, if_false, hcells]

theorem answer_aggregateSoql (ex : Execution) (spell : Value → Json) (records : List ScanRecord)
    (bind : SalesforceScanBindData) (cond : Option SoqlCond) (hne : bind.pushedAggregates ≠ [])
    (hplain : ∀ pa ∈ bind.pushedAggregates, pa.call.Plain) (hobj : isBareToken bind.object = true)
    (hw : WhereReads bind.pushedWhere cond) :
    answerAggregate ex spell records (aggregateSoql bind) =
      some (compactObject (termMembers spell bind.pushedAggregates fun pa =>
        serviceAggregate ex pa records)).text := by
  have hparse := parse_aggregateSoql bind cond hplain hobj hw
  rw [← aggregateSoql_eq] at hparse
  have hcalls := parseCalls_tokens (bind.pushedAggregates.map SalesforcePushedAggregate.call)
    (by simpa using hne)
  unfold answerAggregate
  rw [hparse]
  simp only [hcalls, Option.map_some, List.map_map]
  rfl

end DuckdbSalesforce
