import DuckdbSalesforce.Catalog.ObjectDescribe

/-!
# The metadata engine (`salesforce_metadata_engine.cpp`)

The describes of an org as the engine answers them: by lower-case name, and once
for all, since it keeps what it has been answered.
-/

namespace DuckdbSalesforce

/-- `describe` takes the lower-case name of an object. -/
structure MetadataEngine where
  describe : Text → Except Text ObjectDescribe
  globalInfos : Except Text (List SalesforceObjectInfo)

namespace MetadataEngine
variable (eng : MetadataEngine)

def getObjectDescribe (object : Text) : Except Text ObjectDescribe := eng.describe (lower object)

def globalObjects : Except Text (List Text) :=
  eng.globalInfos.map fun infos =>
    (infos.filter SalesforceObjectInfo.queryable).map SalesforceObjectInfo.name

def isQueryable (object : Text) : Except Text Bool :=
  eng.globalObjects.map fun names => names.any fun n => ciEquals n object

end MetadataEngine

/-! ### Tokens of reports -/

def builtinReportTokens : List (Text × Text) :=
  [("ID".toList, "Id".toList), ("NAME".toList, "Name".toList),
    ("FIRST_NAME".toList, "FirstName".toList), ("LAST_NAME".toList, "LastName".toList),
    ("EMAIL".toList, "Email".toList), ("PHONE".toList, "Phone".toList),
    ("CREATED_DATE".toList, "CreatedDate".toList)]

/-- Empty where the token is not known. -/
def builtinReportToken (token : Text) : Text :=
  match builtinReportTokens.find? fun m => ciEquals token m.1 with
  | some m => m.2
  | none => []

/-- Words between underscores, each with its first letter capital. -/
def snakeLoop : Bool → Text → Text
  | _, [] => []
  | start, c :: t =>
    if c = '_' then snakeLoop true t
    else (if start then c.toUpper else c.toLower) :: snakeLoop false t

def normalizeSnakeToken (token : Text) : Text := snakeLoop true token

namespace MetadataEngine
variable (eng : MetadataEngine)

/-- The first of the candidate names a field has. -/
def matchField (fields : List ObjectField) (cands : List Text) : Option ObjectField :=
  cands.findSome? fun c => fields.find? fun f => lower f.name == lower c

def fieldCandidates (token : Text) : List Text :=
  let mapped := builtinReportToken token
  token :: (if mapped = [] then [] else [mapped]) ++ [normalizeSnakeToken token]

/-- The real name and whether the field is filterable. -/
def resolveField (object token : Text) : Except Text (Option (Text × Bool)) :=
  (eng.getObjectDescribe object).map fun desc =>
    (matchField desc.fields (fieldCandidates token)).map fun f => (f.name, f.filterable)

/-- The target and the real relationship name. -/
def resolveRelationship (object relationshipName : Text) : Except Text (Option (Text × Text)) :=
  (eng.getObjectDescribe object).bind fun desc =>
    match desc.fields.find? fun f =>
      f.relationshipName != [] && ciEquals f.relationshipName relationshipName with
    | none => .ok none
    | some f =>
      match f.referenceTo with
      | [target] => (eng.isQueryable target).map fun queryable =>
          if queryable then some (target, f.relationshipName) else none
      | _ => .ok none

end MetadataEngine
end DuckdbSalesforce
