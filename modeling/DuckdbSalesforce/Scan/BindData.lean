import DuckdbSalesforce.Soql.Translate
import DuckdbSalesforce.Scan.IdChunks

/-!
# The statements of a scan (`salesforce_scan.cpp`)

What `ScanInitGlobal` builds from the bind data: the row query, the COUNT()
query, the Bulk chunk queries and the aggregate query. Settings and the
transport decision choose between them and are left out.
-/

namespace DuckdbSalesforce

structure SalesforcePushedAggregate where
  func : Text
  field : Text
  outName : Text
  emit : SalesforceField

structure SalesforceScanBindData where
  object : Text
  fields : List SalesforceField
  pushedWhere : Text
  rawWhere : Text
  residualFilterCount : ℤ
  pushedAggregates : List SalesforcePushedAggregate

mutual
/-- The dotted paths below a relationship, nested ones included. -/
def emitRelationshipSoql (path : Text) : SalesforceField → List Text
  | ⟨_, _, _, _, _, _, _, children⟩ => emitChildren path children

def emitChildren (path : Text) : List SalesforceField → List Text
  | [] => []
  | c :: cs =>
    (if c.isRelationship then emitRelationshipSoql (path ++ ".".toList ++ c.name) c
      else [path ++ ".".toList ++ c.name]) ++ emitChildren path cs
end

section Init
variable (bind : SalesforceScanBindData)

/-- The select list; a column id past the fields is virtual. -/
def selectFields (columnIds : List ℕ) : List Text :=
  let out := columnIds.flatMap fun col =>
    match bind.fields[col]? with
    | none => []
    | some f => if f.isRelationship then emitRelationshipSoql f.relationshipName f else [f.name]
  if out = [] then (bind.fields.take 1).map SalesforceField.name else out

def combinedWhere : Text :=
  if bind.rawWhere = [] then bind.pushedWhere
  else if bind.pushedWhere = [] then bind.rawWhere
  else bind.pushedWhere ++ " AND ".toList ++ bind.rawWhere

def rowSoql (columnIds : List ℕ) : Text :=
  buildSelectSoql bind.object (selectFields bind columnIds) (combinedWhere bind) none

def appendWhere (soql w : Text) : Text := if w = [] then soql else soql ++ " WHERE ".toList ++ w

def countSoql : Text :=
  appendWhere ("SELECT COUNT() FROM ".toList ++ bind.object) (combinedWhere bind)

def aggregateItem (pa : SalesforcePushedAggregate) : Text :=
  pa.func ++ "(".toList ++ pa.field ++ ") ".toList ++ pa.emit.name

def aggregateSoql : Text :=
  appendWhere ("SELECT ".toList ++ joinText ", ".toList (bind.pushedAggregates.map aggregateItem) ++
    " FROM ".toList ++ bind.object) bind.pushedWhere

def minMaxSoql (object w : Text) : Text :=
  appendWhere ("SELECT MIN(Id) mn, MAX(Id) mx FROM ".toList ++ object) w

/-- `TryMinMaxId`, over the decoded answer of the service. -/
def tryMinMaxId (answer : Text → Option (Text × Text)) (object w : Text) : Option (Text × Text) :=
  match answer (minMaxSoql object w) with
  | none => none
  | some (mn, mx) => if mn = [] ∨ mx = [] then none else if mn < mx then some (mn, mx) else none

/-- The `chunks` setting, clamped. -/
def chunkCount (chunks : ℤ) : ℕ := if chunks < 1 then 1 else if chunks > 8 then 8 else chunks.toNat

def bulkWheres (answer : Text → Option (Text × Text)) (chunks : ℤ) : List Text :=
  let wheres :=
    if chunkCount chunks > 1 then
      match tryMinMaxId answer bind.object bind.pushedWhere with
      | some (mn, mx) => buildIdRangeWheres bind.pushedWhere mn mx (chunkCount chunks)
      | none => []
    else []
  if wheres = [] then [bind.pushedWhere] else wheres

def bulkChunkSoqls (answer : Text → Option (Text × Text)) (chunks : ℤ) (columnIds : List ℕ) :
    List Text :=
  (bulkWheres bind answer chunks).map fun w =>
    buildSelectSoql bind.object (selectFields bind columnIds) w none

end Init

theorem chunkCount_bounds (chunks : ℤ) : 1 ≤ chunkCount chunks ∧ chunkCount chunks ≤ 8 := by
  unfold chunkCount
  split
  · omega
  · split
    · omega
    · omega

end DuckdbSalesforce
