import Mathlib
import DuckdbSalesforce.Json.Decode
import DuckdbSalesforce.Json.Member
import DuckdbSalesforce.Json.StringDecode
import DuckdbSalesforce.Scan.BindData

/-!
# Parent STRUCTs over both transports

`AppendBulkStruct` (salesforce_scan.cpp) fills a parent STRUCT from CSV columns
with dotted headers, `AppendRelationshipStruct` (salesforce_value.cpp) from a
nested JSON object. Both are compared with one decoder of nested data.
-/

namespace DuckdbSalesforce
open JsonText

def DecodedCell.isNull : DecodedCell → Bool
  | .null => true
  | _ => false

/-! ### The Bulk decoder -/

/-- The cell under the first column with the header, or an empty one. -/
def bulkCell (header : Text) (cells columns : List Text) : Text :=
  match columns.findIdx? fun c => ciEquals c header with
  | none => []
  | some k => cells.getD k []

section Bulk
variable (casts : CastFunctions)

def appendBulkCell (field : SalesforceField) (header : Text) (cells columns : List Text) :
    Except Text DecodedCell :=
  let cell := bulkCell header cells columns
  if cell = [] then .ok .null else appendTypedCell casts field cell

/-- The parent, NULL when all its entries are. -/
def bulkStruct (entries : List DecodedCell) : DecodedCell :=
  if entries.any fun e => !e.isNull then .struct entries else .null

mutual
def appendBulkStruct (path : Text) (cells columns : List Text) :
    SalesforceField → Except Text DecodedCell
  | ⟨_, _, _, _, _, _, _, children⟩ =>
    (appendBulkEntries path cells columns children).map bulkStruct

def appendBulkEntries (path : Text) (cells columns : List Text) :
    List SalesforceField → Except Text (List DecodedCell)
  | [] => .ok []
  | c :: cs =>
    match (if c.isRelationship then
        appendBulkStruct (path ++ ".".toList ++ c.name) cells columns c
      else appendBulkCell casts c (path ++ ".".toList ++ c.name) cells columns) with
    | .error e => .error e
    | .ok cell => (appendBulkEntries path cells columns cs).map (cell :: ·)
end

end Bulk

/-! ### Nested data -/

/-- What a record holds below a field: nothing, the text of a scalar, or the
entries of a parent. -/
inductive Nested where
  | null
  | text (raw : Text)
  | object (entries : List Nested)

def Nested.entries : Nested → List Nested
  | .object entries => entries
  | _ => []

section Nested
variable (casts : CastFunctions)

def decodeScalar (field : SalesforceField) : Nested → Except Text DecodedCell
  | .text raw => appendTypedCell casts field raw
  | _ => .ok .null

mutual
def decodeNested : SalesforceField → Nested → Except Text DecodedCell
  | ⟨name, sfType, type, filterable, sortable, relationshipName, isRelationship, children⟩, data =>
    if isRelationship then
      match data with
      | .object entries => (decodeEntries children entries).map .struct
      | _ => .ok .null
    else decodeScalar casts ⟨name, sfType, type, filterable, sortable, relationshipName,
      isRelationship, children⟩ data

def decodeEntries : List SalesforceField → List Nested → Except Text (List DecodedCell)
  | [], _ => .ok []
  | c :: cs, ds =>
    match decodeNested c (ds.headD .null) with
    | .error e => .error e
    | .ok cell => (decodeEntries cs ds.tail).map (cell :: ·)
end

end Nested

mutual
/-- The cells below a field in a CSV row: NULL and a missing parent are empty. -/
def rowCells : SalesforceField → Nested → List Text
  | ⟨_, _, _, _, _, _, isRelationship, children⟩, data =>
    if isRelationship then rowEntries children data.entries
    else match data with
      | .text raw => [raw]
      | _ => [[]]

def rowEntries : List SalesforceField → List Nested → List Text
  | [], _ => []
  | c :: cs, ds => rowCells c (ds.headD .null) ++ rowEntries cs ds.tail
end

mutual
/-- There is a scalar that is not NULL at or below the field. -/
def hasValue : SalesforceField → Nested → Bool
  | ⟨_, _, _, _, _, _, isRelationship, children⟩, data =>
    match data with
    | .object entries => isRelationship && anyValue children entries
    | .text _ => !isRelationship
    | .null => false

def anyValue : List SalesforceField → List Nested → Bool
  | [], _ => false
  | c :: cs, ds => hasValue c (ds.headD .null) || anyValue cs ds.tail
end

mutual
/-- No string is empty, and every parent that is there has a value below it. -/
def CsvTells : SalesforceField → Nested → Prop
  | ⟨_, _, _, _, _, _, isRelationship, children⟩, data =>
    if isRelationship then
      match data with
      | .object entries => anyValue children entries = true ∧ CsvTellsEach children entries
      | _ => True
    else data ≠ .text []

def CsvTellsEach : List SalesforceField → List Nested → Prop
  | [], _ => True
  | c :: cs, ds => CsvTells c (ds.headD .null) ∧ CsvTellsEach cs ds.tail
end

/-! ### JSON records -/

/-- A scalar of a JSON text and what it says. -/
inductive ScalarText : Json → Text → Prop where
  | string (items : List StringItem) (raw : Text) (hunits : codeUnits raw = unitsOf items) :
      ScalarText (.string items) raw
  | number (n : JsonNumber) : ScalarText (.number n) n.render
  | bool (b : Bool) : ScalarText (.bool b) (boolText b)

def IsNullMember (v : Option Json) : Prop := v = none ∨ v = some .null

mutual
/-- The data a record holds below a field, where looking its members up finds
the right ones. A parent is named like its relationship. -/
inductive RecordHolds : SalesforceField → ObjectText → Nested → Prop where
  | null (f : SalesforceField) (o : ObjectText) (hleaf : f.isRelationship = false)
      (hlookup : MemberFound o f.name)
      (hnull : IsNullMember ((o.find f.name).map Found.value)) : RecordHolds f o .null
  | text (f : SalesforceField) (o : ObjectText) (m : Found) (raw : Text)
      (hleaf : f.isRelationship = false) (hlookup : MemberFound o f.name)
      (hfind : o.find f.name = some m) (hraw : ScalarText m.value raw) : RecordHolds f o (.text raw)
  | absent (f : SalesforceField) (o : ObjectText) (hrel : f.isRelationship = true)
      (hname : f.name = f.relationshipName) (hlookup : MemberFound o f.relationshipName)
      (hnull : IsNullMember ((o.find f.relationshipName).map Found.value)) :
      RecordHolds f o .null
  | parent (f : SalesforceField) (o : ObjectText) (m : Found) (lead : Blank) (members : Members)
      (entries : List Nested) (hrel : f.isRelationship = true)
      (hname : f.name = f.relationshipName) (hlookup : MemberFound o f.relationshipName)
      (hfind : o.find f.relationshipName = some m) (hvalue : m.value = .object lead members)
      (hentries : EntriesHold f.children ⟨.none, lead, members, .none⟩ entries) :
      RecordHolds f o (.object entries)

inductive EntriesHold : List SalesforceField → ObjectText → List Nested → Prop where
  | nil (o : ObjectText) : EntriesHold [] o []
  | cons (c : SalesforceField) (cs : List SalesforceField) (o : ObjectText) (d : Nested)
      (ds : List Nested) (hhead : RecordHolds c o d) (htail : EntriesHold cs o ds) :
      EntriesHold (c :: cs) o (d :: ds)
end

mutual
/-- No string at or below the field is written with `\b`, `\f` or `\u`. -/
def PlainBelow : SalesforceField → ObjectText → Prop
  | ⟨name, _, _, _, _, relationshipName, isRelationship, children⟩, o =>
    if isRelationship then
      ∀ m lead members, o.find relationshipName = some m → m.value = .object lead members →
        PlainEach children ⟨.none, lead, members, .none⟩
    else PlainMember o name

def PlainEach : List SalesforceField → ObjectText → Prop
  | [], _ => True
  | c :: cs, o => PlainBelow c o ∧ PlainEach cs o
end

theorem plainBelow_leaf (f : SalesforceField) (o : ObjectText) (h : f.isRelationship = false) :
    PlainBelow f o ↔ PlainMember o f.name := by
  obtain ⟨name, sfType, type, filterable, sortable, relationshipName, isRelationship, children⟩ := f
  have hleaf : isRelationship = false := h
  subst hleaf
  exact Iff.rfl

theorem plainBelow_parent (f : SalesforceField) (o : ObjectText) (h : f.isRelationship = true) :
    PlainBelow f o ↔ ∀ m lead members, o.find f.relationshipName = some m →
      m.value = .object lead members → PlainEach f.children ⟨.none, lead, members, .none⟩ := by
  obtain ⟨name, sfType, type, filterable, sortable, relationshipName, isRelationship, children⟩ := f
  have hrel : isRelationship = true := h
  subst hrel
  exact Iff.rfl

theorem plainBelow_found (f : SalesforceField) (o : ObjectText) (m : Found) (lead : Blank)
    (members : Members) (hrel : f.isRelationship = true)
    (hfind : o.find f.relationshipName = some m) (hvalue : m.value = .object lead members) :
    PlainBelow f o ↔ PlainEach f.children ⟨.none, lead, members, .none⟩ := by
  rw [plainBelow_parent f o hrel]
  constructor
  · exact fun h => h m lead members hfind hvalue
  · intro h m' lead' members' hfind' hvalue'
    rw [hfind, Option.some.injEq] at hfind'
    rw [← hfind', hvalue] at hvalue'
    cases hvalue'
    exact h

/-- What the reader returns for a scalar. -/
def scalarRead : Json → Text
  | .string items => readItems items
  | .number n => n.render
  | .bool b => boolText b
  | _ => []

theorem scalarRead_eq_iff (v : Json) (raw : Text) (hraw : ScalarText v raw) :
    scalarRead v = raw ↔ ∀ items, v = .string items → ∀ x ∈ items, plainlyEscaped x = true := by
  cases hraw with
  | string items raw hunits =>
    have hright := readItems_right_iff items
    rw [← hunits] at hright
    constructor
    · intro h items' heq
      rw [← Json.string.inj heq]
      exact hright.mp (congrArg codeUnits h)
    · intro h
      exact codeUnits_injective _ _ (hright.mpr (h items rfl))
  | number n => exact iff_of_true rfl fun _ h => nomatch h
  | bool b => exact iff_of_true rfl fun _ h => nomatch h

section
variable (casts : CastFunctions)

theorem appendMember_null (f : SalesforceField) (o : ObjectText) (hlookup : MemberFound o f.name)
    (hnull : IsNullMember ((o.find f.name).map Found.value)) :
    appendMember casts f o.text = .ok .null := by
  cases hfind : o.find f.name with
  | none =>
    have hread : getValue o.text f.name = ⟨[], false, false⟩ := by
      rw [MemberFound, hfind] at hlookup
      rw [getValue, hlookup]
      rfl
    rw [appendMember, hread]
    rfl
  | some m =>
    rw [hfind] at hnull
    have hvalue : m.value = .null := by
      rcases hnull with h | h
      · cases h
      · exact Option.some.inj h
    have hfinds := lookupFinds_member o f.name hlookup
    rw [hfind, Option.map_some] at hfinds
    have hread := getValue_finds o.text f.name m.value hfinds (by rw [hvalue]; rfl)
    rw [appendMember, hread, hvalue]
    rfl

theorem appendMember_text (f : SalesforceField) (o : ObjectText) (m : Found) (raw : Text)
    (hlookup : MemberFound o f.name) (hfind : o.find f.name = some m)
    (hraw : ScalarText m.value raw) :
    appendMember casts f o.text = appendTypedCell casts f (scalarRead m.value) := by
  have hscalar : m.value.isCompound = false := by
    generalize m.value = v at hraw
    cases hraw <;> rfl
  have hfinds := lookupFinds_member o f.name hlookup
  rw [hfind, Option.map_some] at hfinds
  have hread := getValue_finds o.text f.name m.value hfinds hscalar
  rw [appendMember, hread]
  generalize m.value = v at hraw
  cases hraw <;> rfl

theorem decodeNested_leaf (f : SalesforceField) (d : Nested) (h : f.isRelationship = false) :
    decodeNested casts f d = decodeScalar casts f d := by
  obtain ⟨name, sfType, type, filterable, sortable, relationshipName, isRelationship, children⟩ := f
  have hleaf : isRelationship = false := h
  subst hleaf
  rfl

theorem decodeNested_parent (f : SalesforceField) (entries : List Nested)
    (h : f.isRelationship = true) :
    decodeNested casts f (.object entries) =
      (decodeEntries casts f.children entries).map .struct := by
  obtain ⟨name, sfType, type, filterable, sortable, relationshipName, isRelationship, children⟩ := f
  have hrel : isRelationship = true := h
  subst hrel
  rfl

theorem decodeNested_null (f : SalesforceField) : decodeNested casts f .null = .ok .null := by
  obtain ⟨name, sfType, type, filterable, sortable, relationshipName, isRelationship, children⟩ := f
  cases isRelationship <;> rfl

theorem appendJsonValue_parent (f : SalesforceField) (record : Text)
    (h : f.isRelationship = true) :
    appendJsonValue casts f record = appendRelationshipStruct
      (fun nested => appendEntries casts f.children nested) f.relationshipName record := by
  obtain ⟨name, sfType, type, filterable, sortable, relationshipName, isRelationship, children⟩ := f
  have hrel : isRelationship = true := h
  subst hrel
  rfl

theorem extract_null (o : ObjectText) (key : Text) (hlookup : MemberFound o key)
    (hnull : IsNullMember ((o.find key).map Found.value)) : extractObject o.text key = [] := by
  rw [extractObject_finds o.text key _ (lookupFinds_member o key hlookup)]
  rcases hnull with h | h <;> rw [h] <;> rfl

theorem extract_parent (o : ObjectText) (key : Text) (m : Found) (lead : Blank) (members : Members)
    (hlookup : MemberFound o key) (hfind : o.find key = some m)
    (hvalue : m.value = .object lead members) :
    extractObject o.text key = (⟨.none, lead, members, .none⟩ : ObjectText).text ∧
      extractObject o.text key ≠ [] := by
  have hobject := extractObject_finds o.text key _ (lookupFinds_member o key hlookup)
  rw [hfind, Option.map_some, hvalue] at hobject
  have htext : (⟨.none, lead, members, .none⟩ : ObjectText).text = (Json.object lead members).render :=
    List.append_nil _
  rw [htext, hobject]
  exact ⟨rfl, List.cons_ne_nil _ _⟩

theorem appendJsonValue_absent (f : SalesforceField) (o : ObjectText)
    (hrel : f.isRelationship = true) (hlookup : MemberFound o f.relationshipName)
    (hnull : IsNullMember ((o.find f.relationshipName).map Found.value)) :
    appendJsonValue casts f o.text = .ok .null := by
  rw [appendJsonValue_parent casts f o.text hrel, appendRelationshipStruct,
    extract_null o _ hlookup hnull]
  rfl

theorem appendJsonValue_present (f : SalesforceField) (o : ObjectText) (m : Found) (lead : Blank)
    (members : Members) (hrel : f.isRelationship = true)
    (hlookup : MemberFound o f.relationshipName) (hfind : o.find f.relationshipName = some m)
    (hvalue : m.value = .object lead members) :
    appendJsonValue casts f o.text = (appendEntries casts f.children
      (⟨.none, lead, members, .none⟩ : ObjectText).text).map .struct := by
  obtain ⟨htext, hne⟩ := extract_parent o _ m lead members hlookup hfind hvalue
  rw [appendJsonValue_parent casts f o.text hrel, appendRelationshipStruct, if_neg hne, htext]

mutual
theorem appendJsonValue_holds : (f : SalesforceField) → (o : ObjectText) → (d : Nested) →
    RecordHolds f o d → PlainBelow f o → appendJsonValue casts f o.text = decodeNested casts f d
  | _, _, _, .null f o hleaf hlookup hnull, _ => by
    rw [appendJsonValue_flat casts f o.text hleaf, appendMember_null casts f o hlookup hnull,
      decodeNested_null]
  | _, _, _, .text f o m raw hleaf hlookup hfind hraw, hplain => by
    have hread := (scalarRead_eq_iff m.value raw hraw).mpr
      ((plainMember_found o f.name m hfind).mp ((plainBelow_leaf f o hleaf).mp hplain))
    rw [appendJsonValue_flat casts f o.text hleaf,
      appendMember_text casts f o m raw hlookup hfind hraw, hread, decodeNested_leaf casts f _ hleaf]
    rfl
  | _, _, _, .absent f o hrel hname hlookup hnull, _ => by
    rw [appendJsonValue_absent casts f o hrel hlookup hnull, decodeNested_null]
  | _, _, _, .parent f o m lead members entries hrel hname hlookup hfind hvalue hentries, hplain => by
    have hrest := appendEntries_hold _ _ _ hentries
      ((plainBelow_found f o m lead members hrel hfind hvalue).mp hplain)
    rw [appendJsonValue_present casts f o m lead members hrel hlookup hfind hvalue, hrest,
      decodeNested_parent casts f entries hrel]

theorem appendEntries_hold : (cs : List SalesforceField) → (o : ObjectText) → (ds : List Nested) →
    EntriesHold cs o ds → PlainEach cs o → appendEntries casts cs o.text = decodeEntries casts cs ds
  | _, _, _, .nil o, _ => rfl
  | _, _, _, .cons c cs o d ds hhead htail, hplain => by
    have hc := appendJsonValue_holds c o d hhead hplain.1
    have hcs := appendEntries_hold cs o ds htail hplain.2
    rw [appendEntries, decodeEntries, hc, hcs]
    rfl
end

/-! ### CSV rows -/

theorem decodeEntries_none (cs : List SalesforceField) :
    ∃ cells, decodeEntries casts cs [] = .ok cells ∧
      (cells.any fun e => !e.isNull) = false := by
  induction cs with
  | nil => exact ⟨[], rfl, rfl⟩
  | cons c cs ih =>
    obtain ⟨cells, hcells, hnull⟩ := ih
    refine ⟨.null :: cells, ?_, hnull⟩
    rw [decodeEntries, List.headD_nil, decodeNested_null, List.tail_nil, hcells]
    rfl

theorem appendTypedCell_value (f : SalesforceField) (raw : Text) (cell : DecodedCell)
    (h : appendTypedCell casts f raw = .ok cell) : cell.isNull = false := by
  unfold appendTypedCell at h
  split at h
  · cases h
    rfl
  · split at h
    · cases h
      rfl
    · split at h <;> cases h
  · split at h
    · cases h
      rfl
    · cases h

/-- A decoded cell is NULL exactly when there is nothing below it. -/
theorem decodeNested_isNull (f : SalesforceField) (d : Nested) (cell : DecodedCell)
    (htells : CsvTells f d) (h : decodeNested casts f d = .ok cell) :
    (!cell.isNull) = hasValue f d := by
  obtain ⟨name, sfType, type, filterable, sortable, relationshipName, isRelationship, children⟩ := f
  cases isRelationship with
  | false =>
    cases d with
    | null =>
      cases h
      rfl
    | text raw =>
      have hvalue := appendTypedCell_value casts _ raw cell h
      rw [hvalue]
      rfl
    | object entries =>
      cases h
      rfl
  | true =>
    cases d with
    | null =>
      cases h
      rfl
    | text raw =>
      cases h
      rfl
    | object entries =>
      have hany : anyValue children entries = true := htells.1
      rw [decodeNested_parent casts _ entries rfl] at h
      cases hentries : decodeEntries casts children entries with
      | error e =>
        rw [hentries] at h
        cases h
      | ok cells =>
        rw [hentries] at h
        cases h
        exact hany.symm

theorem decodeEntries_any (cs : List SalesforceField) (ds : List Nested) (cells : List DecodedCell)
    (htells : CsvTellsEach cs ds) (h : decodeEntries casts cs ds = .ok cells) :
    (cells.any fun e => !e.isNull) = anyValue cs ds := by
  induction cs generalizing ds cells with
  | nil =>
    cases h
    rfl
  | cons c cs ih =>
    rw [decodeEntries] at h
    cases hc : decodeNested casts c (ds.headD .null) with
    | error e =>
      rw [hc] at h
      cases h
    | ok cell =>
      rw [hc] at h
      cases hcs : decodeEntries casts cs ds.tail with
      | error e =>
        rw [hcs] at h
        cases h
      | ok rest =>
        rw [hcs] at h
        cases h
        rw [List.any_cons, decodeNested_isNull casts c _ cell htells.1 hc,
          ih ds.tail rest htells.2 hcs]
        rfl

end

/-! ### The columns of a row -/

/-- The headers a field takes up. -/
def headersOf (path : Text) (f : SalesforceField) : List Text :=
  if f.isRelationship then emitRelationshipSoql path f else [path]

/-- No two headers differ in letter case only. -/
def DistinctHeaders (columns : List Text) : Prop :=
  columns.Pairwise fun a b => ciEquals a b = false

theorem bulkCell_at (header cell : Text) (pre post preCells postCells : List Text)
    (hlen : preCells.length = pre.length) (hdistinct : DistinctHeaders (pre ++ header :: post)) :
    bulkCell header (preCells ++ cell :: postCells) (pre ++ header :: post) = cell := by
  have hpre : pre.findIdx? (fun c => ciEquals c header) = none := by
    rw [List.findIdx?_eq_none_iff]
    intro c hc
    exact (List.pairwise_append.mp hdistinct).2.2 c hc header List.mem_cons_self
  have hself : ciEquals header header = true := beq_self_eq_true _
  have hfind : (pre ++ header :: post).findIdx? (fun c => ciEquals c header) = some pre.length := by
    rw [List.findIdx?_append, hpre, List.findIdx?_cons, hself]
    simp
  rw [bulkCell, hfind]
  show (preCells ++ cell :: postCells).getD pre.length [] = cell
  rw [← hlen, List.getD_append_right _ _ _ _ (le_refl _), Nat.sub_self, List.getD_cons_zero]

theorem emitChildren_cons (path : Text) (c : SalesforceField) (cs : List SalesforceField) :
    emitChildren path (c :: cs) =
      headersOf (path ++ ".".toList ++ c.name) c ++ emitChildren path cs := rfl

mutual
theorem rowCells_length : (f : SalesforceField) → (path : Text) → (d : Nested) →
    (rowCells f d).length = (headersOf path f).length
  | ⟨_, _, _, _, _, _, false, _⟩, _, d => by cases d <;> rfl
  | ⟨_, _, _, _, _, _, true, children⟩, path, d => rowEntries_length children path d.entries

theorem rowEntries_length : (cs : List SalesforceField) → (path : Text) → (ds : List Nested) →
    (rowEntries cs ds).length = (emitChildren path cs).length
  | [], _, _ => rfl
  | c :: cs, path, ds => by
    rw [rowEntries, emitChildren_cons, List.length_append, List.length_append,
      rowCells_length c (path ++ ".".toList ++ c.name), rowEntries_length cs path ds.tail]
end

theorem csvTells_none (f : SalesforceField) : CsvTells f .null := by
  obtain ⟨name, sfType, type, filterable, sortable, relationshipName, isRelationship, children⟩ := f
  cases isRelationship with
  | false =>
    intro h
    cases h
  | true => exact True.intro

theorem csvTellsEach_none (cs : List SalesforceField) : CsvTellsEach cs [] := by
  induction cs with
  | nil => exact True.intro
  | cons c cs ih => exact ⟨csvTells_none c, ih⟩

section
variable (casts : CastFunctions)

theorem bulkStruct_entries (f : SalesforceField) (d : Nested) (hrel : f.isRelationship = true)
    (htells : CsvTells f d) :
    (decodeEntries casts f.children d.entries).map bulkStruct = decodeNested casts f d := by
  obtain ⟨name, sfType, type, filterable, sortable, relationshipName, isRelationship, children⟩ := f
  have htrue : isRelationship = true := hrel
  subst htrue
  have hnone : (decodeEntries casts children []).map bulkStruct = .ok .null := by
    obtain ⟨cells, hcells, hnull⟩ := decodeEntries_none casts children
    rw [hcells]
    show Except.ok (bulkStruct cells) = _
    rw [bulkStruct, hnull]
    rfl
  cases d with
  | null => exact hnone
  | text raw => exact hnone
  | object entries =>
    obtain ⟨hany, heach⟩ := htells
    rw [decodeNested_parent casts _ entries rfl]
    show (decodeEntries casts children entries).map bulkStruct =
      (decodeEntries casts children entries).map .struct
    cases hcells : decodeEntries casts children entries with
    | error e => rfl
    | ok cells =>
      have hsome := decodeEntries_any casts children entries cells heach hcells
      rw [hany] at hsome
      show Except.ok (bulkStruct cells) = _
      rw [bulkStruct, if_pos hsome]
      rfl

theorem appendBulkCell_decodes (f : SalesforceField) (path : Text) (d : Nested)
    (pre post preCells postCells : List Text) (hleaf : f.isRelationship = false)
    (hlen : preCells.length = pre.length) (hdistinct : DistinctHeaders (pre ++ path :: post))
    (htells : CsvTells f d) :
    appendBulkCell casts f path (preCells ++ rowCells f d ++ postCells) (pre ++ path :: post) =
      decodeNested casts f d := by
  rw [decodeNested_leaf casts f d hleaf]
  obtain ⟨name, sfType, type, filterable, sortable, relationshipName, isRelationship, children⟩ := f
  have hfalse : isRelationship = false := hleaf
  subst hfalse
  unfold appendBulkCell
  rw [List.append_assoc]
  cases d with
  | null =>
    have hcell := bulkCell_at path [] pre post preCells postCells hlen hdistinct
    simp only [rowCells, Bool.false_eq_true, if_false, List.singleton_append, hcell]
    rfl
  | text raw =>
    have hcell := bulkCell_at path raw pre post preCells postCells hlen hdistinct
    have hraw : raw ≠ [] := fun hnil => htells (by rw [hnil])
    simp only [rowCells, Bool.false_eq_true, if_false, List.singleton_append, hcell, if_neg hraw]
    rfl
  | object entries =>
    have hcell := bulkCell_at path [] pre post preCells postCells hlen hdistinct
    simp only [rowCells, Bool.false_eq_true, if_false, List.singleton_append, hcell]
    rfl

mutual
theorem appendBulkStruct_decodes : (f : SalesforceField) → (path : Text) → (d : Nested) →
    (pre post preCells postCells : List Text) → f.isRelationship = true →
    preCells.length = pre.length →
    DistinctHeaders (pre ++ (emitRelationshipSoql path f ++ post)) → CsvTells f d →
    appendBulkStruct casts path (preCells ++ (rowCells f d ++ postCells))
      (pre ++ (emitRelationshipSoql path f ++ post)) f = decodeNested casts f d
  | ⟨_, _, _, _, _, _, false, _⟩, _, _, _, _, _, _, hrel, _, _, _ => nomatch hrel
  | ⟨name, sfType, type, filterable, sortable, relationshipName, true, children⟩, path, d,
      pre, post, preCells, postCells, _, hlen, hdistinct, htells => by
    have heach : CsvTellsEach children d.entries := by
      cases d with
      | null => exact csvTellsEach_none children
      | text raw => exact csvTellsEach_none children
      | object entries => exact htells.2
    have hentries := appendBulkEntries_decodes children path d.entries pre post preCells postCells
      hlen hdistinct heach
    have hstruct := bulkStruct_entries casts ⟨name, sfType, type, filterable, sortable,
      relationshipName, true, children⟩ d rfl htells
    rw [← hstruct]
    exact congrArg (Except.map bulkStruct) hentries

theorem appendBulkEntries_decodes : (cs : List SalesforceField) → (path : Text) →
    (ds : List Nested) → (pre post preCells postCells : List Text) →
    preCells.length = pre.length → DistinctHeaders (pre ++ (emitChildren path cs ++ post)) →
    CsvTellsEach cs ds →
    appendBulkEntries casts path (preCells ++ (rowEntries cs ds ++ postCells))
      (pre ++ (emitChildren path cs ++ post)) cs = decodeEntries casts cs ds
  | [], _, _, _, _, _, _, _, _, _ => rfl
  | c :: cs, path, ds, pre, post, preCells, postCells, hlen, hdistinct, htells => by
    have hcolumns : emitChildren path (c :: cs) ++ post =
        headersOf (path ++ ".".toList ++ c.name) c ++ (emitChildren path cs ++ post) := by
      rw [emitChildren_cons, List.append_assoc]
    have hcells : rowEntries (c :: cs) ds ++ postCells =
        rowCells c (ds.headD .null) ++ (rowEntries cs ds.tail ++ postCells) := by
      rw [rowEntries, List.append_assoc]
    rw [hcolumns] at hdistinct ⊢
    rw [hcells]
    have htail := appendBulkEntries_decodes cs path ds.tail
      (pre ++ headersOf (path ++ ".".toList ++ c.name) c) post
      (preCells ++ rowCells c (ds.headD .null)) postCells
      (by rw [List.length_append, List.length_append, hlen, rowCells_length])
      (by rw [List.append_assoc]; exact hdistinct) htells.2
    rw [List.append_assoc, List.append_assoc] at htail
    rw [appendBulkEntries, decodeEntries, htail]
    cases hrel : c.isRelationship with
    | true =>
      have hheaders : headersOf (path ++ ".".toList ++ c.name) c =
          emitRelationshipSoql (path ++ ".".toList ++ c.name) c := by rw [headersOf, if_pos hrel]
      rw [hheaders] at hdistinct ⊢
      rw [if_pos rfl, appendBulkStruct_decodes c _ _ pre _ preCells _ hrel hlen hdistinct htells.1]
    | false =>
      have hheaders : headersOf (path ++ ".".toList ++ c.name) c =
          [path ++ ".".toList ++ c.name] := by
        rw [headersOf, hrel]
        rfl
      rw [hheaders, List.singleton_append] at hdistinct ⊢
      rw [if_neg Bool.false_ne_true, ← List.append_assoc preCells,
        appendBulkCell_decodes casts c _ _ pre _ preCells _ hrel hlen hdistinct htells.1]
end

end

/-! ### Strings that are read back -/

/-- The types whose cast is given the text itself. -/
def castsText : LogicalType → Bool
  | .varchar => true
  | type => castsUnchanged type

mutual
/-- No field below goes through a decoder of the extension. -/
def castsTexts : SalesforceField → Bool
  | ⟨_, _, type, _, _, _, isRelationship, children⟩ =>
    if isRelationship then castsEach children else castsText type

def castsEach : List SalesforceField → Bool
  | [] => true
  | c :: cs => castsTexts c && castsEach cs
end

theorem castsTexts_leaf (f : SalesforceField) (hleaf : f.isRelationship = false)
    (h : castsTexts f = true) : castsText f.duckdbType = true := by
  obtain ⟨name, sfType, type, filterable, sortable, relationshipName, isRelationship, children⟩ := f
  have hfalse : isRelationship = false := hleaf
  subst hfalse
  exact h

theorem castsTexts_parent (f : SalesforceField) (hrel : f.isRelationship = true)
    (h : castsTexts f = true) : castsEach f.children = true := by
  obtain ⟨name, sfType, type, filterable, sortable, relationshipName, isRelationship, children⟩ := f
  have htrue : isRelationship = true := hrel
  subst htrue
  exact h

/-- A cast that keeps every text. -/
def keepCasts : CastFunctions := ⟨fun _ t => some (.varchar t), fun _ => []⟩

theorem keepCasts_cell (f : SalesforceField) (raw : Text) (h : castsText f.duckdbType = true) :
    appendTypedCell keepCasts f raw = .ok (.value (.varchar raw)) := by
  unfold appendTypedCell
  generalize f.duckdbType = type at h
  cases type <;> first | rfl | cases h

theorem plainMember_null (o : ObjectText) (key : Text)
    (hnull : IsNullMember ((o.find key).map Found.value)) : PlainMember o key := by
  intro m items hfind hvalue
  rw [hfind, Option.map_some, hvalue] at hnull
  rcases hnull with h | h <;> cases h

mutual
/-- Where texts are kept both decoders succeed, and a string that is misread
shows in what they return. -/
theorem appendJsonValue_kept : (f : SalesforceField) → (o : ObjectText) → (d : Nested) →
    RecordHolds f o d → castsTexts f = true →
    ∃ read told, appendJsonValue keepCasts f o.text = .ok read ∧
      decodeNested keepCasts f d = .ok told ∧ (read = told → PlainBelow f o)
  | _, _, _, .null f o hleaf hlookup hnull, _ => by
    refine ⟨.null, .null, ?_, decodeNested_null keepCasts f, fun _ => ?_⟩
    · rw [appendJsonValue_flat keepCasts f o.text hleaf,
        appendMember_null keepCasts f o hlookup hnull]
    · exact (plainBelow_leaf f o hleaf).mpr (plainMember_null o f.name hnull)
  | _, _, _, .text f o m raw hleaf hlookup hfind hraw, hkept => by
    have htype := castsTexts_leaf f hleaf hkept
    refine ⟨.value (.varchar (scalarRead m.value)), .value (.varchar raw), ?_, ?_, fun heq => ?_⟩
    · rw [appendJsonValue_flat keepCasts f o.text hleaf,
        appendMember_text keepCasts f o m raw hlookup hfind hraw, keepCasts_cell f _ htype]
    · rw [decodeNested_leaf keepCasts f _ hleaf]
      exact keepCasts_cell f raw htype
    · have hread : scalarRead m.value = raw := by
        cases heq
        rfl
      exact (plainBelow_leaf f o hleaf).mpr ((plainMember_found o f.name m hfind).mpr
        ((scalarRead_eq_iff m.value raw hraw).mp hread))
  | _, _, _, .absent f o hrel hname hlookup hnull, _ => by
    refine ⟨.null, .null, appendJsonValue_absent keepCasts f o hrel hlookup hnull,
      decodeNested_null keepCasts f, fun _ => ?_⟩
    refine (plainBelow_parent f o hrel).mpr fun m lead members hfind hvalue => ?_
    rw [hfind, Option.map_some, hvalue] at hnull
    rcases hnull with h | h <;> cases h
  | _, _, _, .parent f o m lead members entries hrel hname hlookup hfind hvalue hentries, hkept => by
    obtain ⟨reads, tolds, hreads, htolds, hplain⟩ :=
      appendEntries_kept _ _ _ hentries (castsTexts_parent f hrel hkept)
    refine ⟨.struct reads, .struct tolds, ?_, ?_, fun heq => ?_⟩
    · rw [appendJsonValue_present keepCasts f o m lead members hrel hlookup hfind hvalue, hreads]
      rfl
    · rw [decodeNested_parent keepCasts f entries hrel, htolds]
      rfl
    · exact (plainBelow_found f o m lead members hrel hfind hvalue).mpr
        (hplain (DecodedCell.struct.inj heq))

theorem appendEntries_kept : (cs : List SalesforceField) → (o : ObjectText) → (ds : List Nested) →
    EntriesHold cs o ds → castsEach cs = true →
    ∃ reads tolds, appendEntries keepCasts cs o.text = .ok reads ∧
      decodeEntries keepCasts cs ds = .ok tolds ∧ (reads = tolds → PlainEach cs o)
  | _, _, _, .nil o, _ => ⟨[], [], rfl, rfl, fun _ => True.intro⟩
  | _, _, _, .cons c cs o d ds hhead htail, hkept => by
    obtain ⟨hc, hcs⟩ := Bool.and_eq_true_iff.mp hkept
    obtain ⟨read, told, hread, htold, hplain⟩ := appendJsonValue_kept c o d hhead hc
    obtain ⟨reads, tolds, hreads, htolds, hrest⟩ := appendEntries_kept cs o ds htail hcs
    refine ⟨read :: reads, told :: tolds, ?_, ?_, fun heq => ?_⟩
    · rw [appendEntries, hread, hreads]
      rfl
    · rw [decodeEntries, List.headD_cons, List.tail_cons, htold, htolds]
      rfl
    · obtain ⟨hone, hmore⟩ := List.cons.inj heq
      exact ⟨hplain hone, hrest hmore⟩
end

/-- A parent STRUCT from the JSON record, and from the CSV row under the headers
the scan selects. -/
def DecodedAlike (casts : CastFunctions) (f : SalesforceField) (o : ObjectText) (d : Nested) :
    Prop :=
  appendJsonValue casts f o.text = appendBulkStruct casts f.relationshipName (rowCells f d)
    (emitRelationshipSoql f.relationshipName f) f

theorem decodedAlike_iff (casts : CastFunctions) (f : SalesforceField) (o : ObjectText) (d : Nested)
    (hrel : f.isRelationship = true) (htells : CsvTells f d)
    (hdistinct : DistinctHeaders (emitRelationshipSoql f.relationshipName f)) :
    DecodedAlike casts f o d ↔ appendJsonValue casts f o.text = decodeNested casts f d := by
  have hcolumns : [] ++ (emitRelationshipSoql f.relationshipName f ++ []) =
      emitRelationshipSoql f.relationshipName f := List.append_nil _
  have hbulk := appendBulkStruct_decodes casts f f.relationshipName d [] [] [] [] hrel rfl
    (by rw [hcolumns]; exact hdistinct) htells
  rw [hcolumns, List.append_nil, List.nil_append] at hbulk
  rw [DecodedAlike, hbulk]

def ownerField : SalesforceField :=
  ⟨"Owner".toList, "reference".toList, .struct, false, false, "Owner".toList, true,
    [.flat "Alias".toList "string".toList .varchar true true]⟩

def accountField : SalesforceField :=
  ⟨"Account".toList, "reference".toList, .struct, false, false, "Account".toList, true,
    [.flat "Name".toList "string".toList .varchar true true, ownerField]⟩

def ownerMembers : Members := memberOf "Alias" (textOf "ana") .nil

def accountMembers (name : List StringItem) : Members :=
  memberOf "Name" (.string name) (memberOf "Owner" (.object .none ownerMembers) .nil)

/-- `{"Account":{"Name":"..","Owner":{"Alias":"ana"}}}`. -/
def contactRecord (name : List StringItem) : ObjectText :=
  ⟨.none, .none, memberOf "Account" (.object .none (accountMembers name)) .nil, .none⟩

def contactData (name : Text) : Nested := .object [.text name, .object [.text "ana".toList]]

def accountObject (name : List StringItem) : ObjectText :=
  ⟨.none, .none, accountMembers name, .none⟩

def ownerObject : ObjectText := ⟨.none, .none, ownerMembers, .none⟩

/-- `café`, its last letter written as `\u00e9`. -/
def cafe : List StringItem := spell "caf".toList ++ eAcute

theorem owner_holds (name : List StringItem) (h : name ∈ [spell "Acme".toList, cafe]) :
    RecordHolds ownerField (accountObject name) (.object [.text "ana".toList]) := by
  have halias : RecordHolds (.flat "Alias".toList "string".toList .varchar true true) ownerObject
      (.text "ana".toList) :=
    .text _ _ _ _ rfl (by unfold MemberFound; decide) rfl
      (.string (spell "ana".toList) _ (unitsOf_spell _).symm)
  have hlookup : MemberFound (accountObject name) "Owner".toList := by
    unfold MemberFound
    rcases List.mem_pair.mp h with rfl | rfl <;> decide
  exact .parent _ _ _ .none ownerMembers _ rfl rfl hlookup rfl rfl (.cons _ _ _ _ _ halias (.nil _))

theorem contact_holds (name : List StringItem) (raw : Text)
    (h : name ∈ [spell "Acme".toList, cafe]) (hraw : codeUnits raw = unitsOf name) :
    RecordHolds accountField (contactRecord name) (contactData raw) := by
  have hname : RecordHolds (.flat "Name".toList "string".toList .varchar true true)
      (accountObject name) (.text raw) := by
    refine .text _ _ _ _ rfl ?_ rfl (.string name raw hraw)
    unfold MemberFound
    rcases List.mem_pair.mp h with rfl | rfl <;> decide
  have hlookup : MemberFound (contactRecord name) "Account".toList := by
    unfold MemberFound
    rcases List.mem_pair.mp h with rfl | rfl <;> decide
  exact .parent _ _ _ .none (accountMembers name) _ rfl rfl hlookup rfl rfl
    (.cons _ _ _ _ _ hname (.cons _ _ _ _ _ (owner_holds name h) (.nil _)))

theorem contact_tells (raw : Text) (h : raw ≠ []) : CsvTells accountField (contactData raw) :=
  ⟨rfl, fun hnil => h (Nested.text.inj hnil), ⟨rfl, (fun hnil => nomatch hnil), True.intro⟩,
    True.intro⟩

theorem contact_headers :
    DistinctHeaders (emitRelationshipSoql "Account".toList accountField) := by
  unfold DistinctHeaders
  decide

/-- The alias is plain, so all depends on the name. -/
theorem contact_plain_iff (name : List StringItem) :
    PlainBelow accountField (contactRecord name) ↔ ∀ x ∈ name, plainlyEscaped x = true := by
  have halias : PlainMember ownerObject "Alias".toList :=
    (plainMember_found ownerObject _ _ rfl).mpr fun items hitems => by
      cases hitems
      decide
  have howner : PlainBelow ownerField (accountObject name) :=
    (plainBelow_found ownerField _ _ .none ownerMembers rfl rfl rfl).mpr
      ⟨(plainBelow_leaf _ _ rfl).mpr halias, True.intro⟩
  rw [plainBelow_found accountField _ _ .none (accountMembers name) rfl rfl rfl]
  constructor
  · intro h
    exact (plainMember_found (accountObject name) "Name".toList _ rfl).mp
      ((plainBelow_leaf _ _ rfl).mp h.1) name rfl
  · intro h
    refine ⟨(plainBelow_leaf _ _ rfl).mpr ?_, howner, True.intro⟩
    refine (plainMember_found (accountObject name) "Name".toList _ rfl).mpr fun items hitems => ?_
    cases hitems
    exact h

end DuckdbSalesforce
