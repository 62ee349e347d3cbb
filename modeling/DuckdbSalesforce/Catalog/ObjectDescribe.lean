import DuckdbSalesforce.Catalog.SchemaEntry
import DuckdbSalesforce.Json.StringArray

/-!
# Describing an object (`salesforce_describe.cpp`, `salesforce_types.cpp`)

`ParseDescribe` and the type of a field. `length`, the picklist values and the
label of a type are diagnostics and are left out.
-/

namespace DuckdbSalesforce

structure ObjectField extends DescribedField where
  nillable : Bool
  referenceTo : List Text

structure SalesforceChildRelationship where
  childObject : Text
  field : Text
  relationshipName : Text

structure ObjectDescribe where
  objectName : Text
  fields : List ObjectField
  childRelationships : List SalesforceChildRelationship

/-- What the schema entry keeps of a describe. -/
def ObjectDescribe.toDescribe (d : ObjectDescribe) : SalesforceDescribe :=
  ⟨d.objectName, d.fields.map ObjectField.toDescribedField⟩

/-! ### Types -/

def varcharTypes : List Text :=
  ["string".toList, "textarea".toList, "id".toList, "reference".toList, "picklist".toList,
    "multipicklist".toList, "phone".toList, "email".toList, "url".toList,
    "encryptedstring".toList, "combobox".toList, "anytype".toList, "address".toList,
    "datacategorygroupreference".toList, "complexvalue".toList]

/-- A decimal of the described precision, if DuckDB has it. -/
def decimalType (precision scale : ℤ) : LogicalType :=
  if 0 < precision ∧ precision ≤ 38 then
    .decimal precision.toNat
      (if scale < 0 then 0 else if scale > precision then precision else scale).toNat
  else .double

/-- `MapSalesforceType`, with the `unknown` flag. -/
def mapSalesforceType (sfType : Text) (precision scale : ℤ) : LogicalType × Bool :=
  let t := lower sfType
  if t ∈ varcharTypes then (.varchar, false)
  else if t = "boolean".toList then (.boolean, false)
  else if t = "int".toList then (.bigint, false)
  else if t = "double".toList then (.double, false)
  else if t = "currency".toList ∨ t = "percent".toList then (decimalType precision scale, false)
  else if t = "date".toList then (.date, false)
  else if t = "datetime".toList then (.timestamp, false)
  else if t = "time".toList then (.time, false)
  else if t = "base64".toList then (.blob, false)
  else (.varchar, true)

/-! ### ParseDescribe -/

/-- One element of `fields`; an entry without a name is skipped. -/
def parseField (obj : Text) : Option ObjectField :=
  let name := getString obj "name".toList
  let sfType := getString obj "type".toList
  let type := mapSalesforceType sfType (getInt obj "precision".toList 0) (getInt obj "scale".toList 0)
  if name = [] then none
  else some {
    name := name
    sfType := sfType
    duckdbType := type.1
    filterable := getBool obj "filterable".toList false
    sortable := getBool obj "sortable".toList false
    relationshipName := getString obj "relationshipName".toList
    isRelationship := false
    children := []
    unknownType := type.2
    nillable := getBool obj "nillable".toList true
    referenceTo := getStringArray obj "referenceTo".toList }

def parseChildRelationship (cr : Text) : Option SalesforceChildRelationship :=
  let childObject := getString cr "childSObject".toList
  if childObject = [] then none
  else some ⟨childObject, getString cr "field".toList, getString cr "relationshipName".toList⟩

def parseDescribe (json fallbackObject : Text) : ObjectDescribe :=
  let name := getString json "name".toList
  ⟨if name = [] then fallbackObject else name,
    (getObjectArray json "fields".toList).filterMap parseField,
    (getObjectArray json "childRelationships".toList).filterMap parseChildRelationship⟩

/-- `SalesforceSession::Describe`: the object is the one asked for. -/
def describeFrom (body object : Text) : ObjectDescribe :=
  { parseDescribe body object with objectName := object }

theorem parseField_flat (obj : Text) (f : ObjectField) (h : parseField obj = some f) :
    f.name ≠ [] ∧ f.isRelationship = false ∧ f.children = [] := by
  unfold parseField at h
  simp only at h
  split at h
  · cases h
  · rename_i hne
    cases h
    exact ⟨hne, rfl, rfl⟩

theorem parseDescribe_flat (json fallbackObject : Text) (f : ObjectField)
    (h : f ∈ (parseDescribe json fallbackObject).fields) :
    f.name ≠ [] ∧ f.isRelationship = false ∧ f.children = [] := by
  obtain ⟨obj, _, hf⟩ := List.mem_filterMap.mp h
  exact parseField_flat obj f hf

end DuckdbSalesforce
