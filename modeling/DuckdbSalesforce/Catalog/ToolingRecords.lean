import DuckdbSalesforce.Catalog.ObjectDescribe
import DuckdbSalesforce.Json.BraceCount
import DuckdbSalesforce.Json.HasMember
import DuckdbSalesforce.Json.MemberArrays
import DuckdbSalesforce.Library.NumberScan

/-!
# Records of FieldDefinition (`ToolingDescribe`, `salesforce_session.cpp`)

A record nests the object under `EntityDefinition` and names the field beside
it. The block is cut out by counting braces before the field is read.
-/

namespace DuckdbSalesforce
open JsonText

/-! ### Data types (`salesforce_types.cpp`) -/

def trimWs (s : Text) : Text := ((s.dropWhile isTrimBlank).reverse.dropWhile isTrimBlank).reverse

/-- `std::stoll`, which throws without digits and out of range. -/
def stoll (s : Text) : Option ℤ :=
  let t := s.dropWhile isSpace
  let negative := t.head? = some '-'
  let rest := if t.head? = some '-' ∨ t.head? = some '+' then t.tail else t
  let digits := rest.takeWhile Char.isDigit
  if digits = [] then none
  else if inInt64 (signed negative (decimal digits)) then some (signed negative (decimal digits))
  else none

/-- Precision and scale of `Number(18,2)` or `Number(18)`. -/
def parseToolingPrecision (dataType : Text) : Option (ℤ × ℤ) :=
  match dataType.dropWhile (· != '(') with
  | [] => none
  | _ :: tail =>
    let inner := tail.takeWhile (· != ')')
    let s := match inner.dropWhile (· != ',') with
      | [] => ['0']
      | _ :: s => s
    match stoll (trimWs (inner.takeWhile (· != ','))), stoll (trimWs s) with
    | some p, some s => if 0 < p then some (p, s) else none
    | _, _ => none

def toolingTexts : List Text :=
  ["text".toList, "text area".toList, "long text area".toList, "rich text area".toList,
    "email".toList, "phone".toList, "url".toList, "picklist".toList, "multipicklist".toList,
    "combobox".toList, "lookup".toList, "master-detail".toList, "hierarchy".toList,
    "external lookup".toList, "indirect lookup".toList, "id".toList, "reference".toList,
    "auto number".toList, "encrypted text".toList, "data category group reference".toList]

def mapToolingDataType (dataType : Text) : LogicalType × Bool :=
  let t := lower (trimWs (dataType.takeWhile (· != '(')))
  if t ∈ toolingTexts then (.varchar, true)
  else if t = "checkbox".toList then (.boolean, true)
  else if t = "date".toList then (.date, true)
  else if t = "date/time".toList then (.timestamp, true)
  else if t = "time".toList then (.time, true)
  else if t = "number".toList ∨ t = "currency".toList ∨ t = "percent".toList then
    match parseToolingPrecision dataType with
    | some (p, s) => (decimalType p s, true)
    | none => (.double, true)
  else (.varchar, false)

/-! ### One record -/

structure FieldDefinition where
  object : Text
  name : Text
  dataType : Text
  isCompound : Bool
  isFilterable : Bool
  deriving DecidableEq, Repr

def kEntity : Text := "EntityDefinition".toList
def kApiName : Text := "QualifiedApiName".toList

/-- The record without the nested object and its name. -/
def withoutEntity (rec : Text) : Text :=
  match findText (quoted kEntity) rec with
  | none => rec
  | some ep =>
    match (rec.drop ep).dropWhile (· != '{') with
    | [] => rec
    | block => rec.take ep ++ block.drop (braceLength 0 block)

/-- The object is named in the nested block, the field in the record. -/
def readFieldDefinition (rec : Text) : FieldDefinition :=
  let ent := extractObject rec kEntity
  let flat := withoutEntity rec
  ⟨if ent = [] then [] else getString ent kApiName, getString flat kApiName,
    getString flat "DataType".toList,
    getBool flat "IsCompound".toList false, getBool flat "IsFilterable".toList false⟩

def FieldDefinition.isKept (d : FieldDefinition) : Bool :=
  !(d.object == [] || d.name == []) && !d.isCompound

def toolingField (d : FieldDefinition) : DescribedField :=
  let type := mapToolingDataType d.dataType
  { name := d.name
    sfType := d.dataType
    duckdbType := type.1
    filterable := d.isFilterable
    sortable := false
    relationshipName := []
    isRelationship := false
    children := []
    unknownType := !type.2 }

def addDefinition (out : MetadataMap SalesforceDescribe) (d : FieldDefinition) :
    MetadataMap SalesforceDescribe :=
  if d.isKept then
    let desc := (out.lookup (lower d.object)).getD ⟨[], []⟩
    out.insert (lower d.object)
      ⟨if desc.objectName = [] then d.object else desc.objectName, desc.fields ++ [toolingField d]⟩
  else out

/-! ### What a record says -/

/-- The object of a field, when there is one. -/
def entityOf (o : ObjectText) : Option ObjectText := nestedObject o kEntity

/-- The record spells out this definition. -/
structure SpellsOut (o : ObjectText) (d : FieldDefinition) : Prop where
  object : codeUnits d.object =
    match entityOf o with
    | none => []
    | some e => stringUnits (valueOf e kApiName)
  name : codeUnits d.name = stringUnits (valueOf o kApiName)
  dataType : codeUnits d.dataType = stringUnits (valueOf o "DataType".toList)
  isCompound : d.isCompound = boolOr false (valueOf o "IsCompound".toList)
  isFilterable : d.isFilterable = boolOr false (valueOf o "IsFilterable".toList)

/-- A field of its own right: not compound, and its object and itself named. -/
def FieldDefinition.IsField (d : FieldDefinition) : Prop :=
  d.object ≠ [] ∧ d.name ≠ [] ∧ d.isCompound = false

instance (d : FieldDefinition) : Decidable d.IsField := inferInstanceAs (Decidable (_ ∧ _))

/-- The members read behind the block. -/
def definitionKeys : List Text :=
  [kApiName, "DataType".toList, "IsCompound".toList, "IsFilterable".toList]

/-- Each lookup finds its member: in the record, in the block, and in what is
left of the record without the block. -/
structure DefinitionLookups (o : ObjectText) : Prop where
  entity : MemberFound o kEntity
  object : ∀ e, entityOf o = some e → MemberFound e kApiName
  rest : ∀ m lead members, o.find kEntity = some m → m.value = .object lead members →
    ∀ key ∈ definitionKeys, LookupFinds (m.before ++ m.after) key (valueOf o key)

/-- The braces in the strings of the block balance, and no name and no type is
written with `\b`, `\f` or `\u`. -/
structure DefinitionPlain (o : ObjectText) : Prop where
  braces : ∀ m lead members, o.find kEntity = some m → m.value = .object lead members →
    BracesBalance (Json.object lead members).render
  object : ∀ e, entityOf o = some e → PlainMember e kApiName
  name : PlainMember o kApiName
  dataType : PlainMember o "DataType".toList

/-- The cut takes out the name and the block, and nothing else. -/
theorem withoutEntity_found (o : ObjectText) (m : Found) (lead : Blank) (members : Members)
    (hlookup : MemberFound o kEntity) (hfind : o.find kEntity = some m)
    (hvalue : m.value = .object lead members)
    (hbraces : BracesBalance (Json.object lead members).render) :
    withoutEntity o.text = m.before ++ m.after := by
  obtain ⟨htext, hname, _⟩ := o.find_spec kEntity m hfind
  rw [MemberFound, hfind, ← htext] at hlookup
  obtain ⟨hspelled, hfirst⟩ := (findValue_found_iff m kEntity hname).mp hlookup
  have hquoted : renderString m.name = quoted kEntity := by
    rw [renderString, hspelled, quoted]
  have hrecord : m.text = m.before ++ (quoted kEntity ++ m.mid.text ++ ':' :: m.post.text ++
      ((Json.object lead members).render ++ m.after)) := by
    rw [Found.text, Found.head, hquoted, hvalue]
    simp
  have hpos : findText (quoted kEntity) m.text = some m.before.length := by
    have hne : quoted kEntity ≠ [] := List.cons_ne_nil _ _
    rw [findText_some _ _ _ hne]
    refine ⟨?_, hfirst⟩
    rw [hrecord, List.drop_left]
    simp only [List.append_assoc]
    exact List.prefix_append _ _
  obtain ⟨u, hu⟩ : ∃ u, (Json.object lead members).render = '{' :: u := ⟨_, rfl⟩
  have hquiet : ∀ c ∈ quoted kEntity ++ m.mid.text ++ ':' :: m.post.text, (c != '{') = true := by
    have hkey : (quoted kEntity).all (· != '{') = true := rfl
    have hblank : ∀ b : Blank, ∀ c ∈ b.text, (c != '{') = true := by
      intro b c hc
      have hneutral := blank_neutral b c hc
      simp only [isNeutral, Bool.and_eq_true] at hneutral
      exact hneutral.1.2
    intro c hc
    rcases List.mem_append.mp hc with hc | hc
    · rcases List.mem_append.mp hc with hc | hc
      · exact List.all_eq_true.mp hkey c hc
      · exact hblank m.mid c hc
    · rcases List.mem_cons.mp hc with rfl | hc
      · rfl
      · exact hblank m.post c hc
  have hblock : (m.text.drop m.before.length).dropWhile (· != '{') =
      (Json.object lead members).render ++ m.after := by
    rw [hrecord, List.drop_left]
    refine NumberScan.dropWhile_stop _ _ _ hquiet fun c hc => ?_
    rw [hu] at hc
    rw [← Option.some.inj hc]
    rfl
  have hlen := braceLength_balanced u m.after (hu ▸ hbraces)
  rw [← htext, withoutEntity]
  simp only [hpos]
  rw [hblock, hu]
  show m.text.take m.before.length ++ ('{' :: u ++ m.after).drop
    (braceLength 0 ('{' :: u ++ m.after)) = _
  rw [hlen, List.drop_left, hrecord, List.take_left]

/-- With an object named, all five members are read right. -/
theorem readFieldDefinition_found (o e : ObjectText) (d : FieldDefinition) (hspelled : SpellsOut o d)
    (hlookups : DefinitionLookups o) (hplain : DefinitionPlain o) (he : entityOf o = some e) :
    readFieldDefinition o.text = d := by
  obtain ⟨m, lead, members, hfind, hvalue, rfl⟩ := nestedObject_some o e kEntity he
  have hflat := withoutEntity_found o m lead members hlookups.entity hfind hvalue
    (hplain.braces m lead members hfind hvalue)
  have hent : extractObject o.text kEntity = (recordObject lead members).text := by
    have hnested : nestedObject o kEntity = some (recordObject lead members) := he
    rw [extractObject_nested o kEntity hlookups.entity, hnested]
    rfl
  have hne : (recordObject lead members).text ≠ [] := by
    rw [recordObject_text]
    exact List.cons_ne_nil _ _
  have hrest := hlookups.rest m lead members hfind hvalue
  have hobject : getString (recordObject lead members).text kApiName = d.object := by
    apply codeUnits_injective
    have hsaid := hspelled.object
    rw [he] at hsaid
    rw [hsaid]
    exact getString_plain _ _ (hlookups.object _ he) (hplain.object _ he)
  have hname : getString (m.before ++ m.after) kApiName = d.name := by
    apply codeUnits_injective
    rw [hspelled.name]
    exact getString_units _ _ _ (hrest _ (by simp [definitionKeys]))
      (plainMember_value _ _ hplain.name)
  have htype : getString (m.before ++ m.after) "DataType".toList = d.dataType := by
    apply codeUnits_injective
    rw [hspelled.dataType]
    exact getString_units _ _ _ (hrest _ (by simp [definitionKeys]))
      (plainMember_value _ _ hplain.dataType)
  have hcompound := getBool_finds _ _ false _ (hrest "IsCompound".toList (by simp [definitionKeys]))
  have hfilterable :=
    getBool_finds _ _ false _ (hrest "IsFilterable".toList (by simp [definitionKeys]))
  rw [readFieldDefinition]
  simp only [hent, hflat, if_neg hne, hobject, hname, htype, hcompound, hfilterable,
    ← hspelled.isCompound, ← hspelled.isFilterable]

theorem readFieldDefinition_lost (o : ObjectText) (hlookups : DefinitionLookups o)
    (he : entityOf o = none) : (readFieldDefinition o.text).object = [] := by
  have hent : extractObject o.text kEntity = [] := by
    have hnested : nestedObject o kEntity = none := he
    rw [extractObject_nested o kEntity hlookups.entity, hnested]
    rfl
  rw [readFieldDefinition]
  simp only [hent, if_true]

theorem isKept_iff (d : FieldDefinition) : d.isKept = true ↔ d.IsField := by
  simp [FieldDefinition.isKept, FieldDefinition.IsField, and_assoc]

/-- A record is taken for a field exactly when it says one, and then the field
is the one it says. -/
theorem record_read (o : ObjectText) (d : FieldDefinition) (hspelled : SpellsOut o d)
    (hlookups : DefinitionLookups o) (hplain : DefinitionPlain o) :
    ((readFieldDefinition o.text).isKept = true ↔ d.IsField) ∧
      (d.IsField → readFieldDefinition o.text = d) := by
  cases he : entityOf o with
  | some e =>
    have hread := readFieldDefinition_found o e d hspelled hlookups hplain he
    rw [hread, isKept_iff]
    exact ⟨Iff.rfl, fun _ => rfl⟩
  | none =>
    have hlost := readFieldDefinition_lost o hlookups he
    have hnone : d.object = [] := by
      have hsaid := hspelled.object
      rw [he] at hsaid
      exact codeUnits_eq_nil _ hsaid
    have hno : ¬ d.IsField := fun h => h.1 hnone
    rw [isKept_iff]
    exact ⟨iff_of_false (fun h => h.1 hlost) hno, fun h => absurd h hno⟩

end DuckdbSalesforce
