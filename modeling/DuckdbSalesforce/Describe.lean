import DuckdbSalesforce.Text

/-!
# Described fields (`salesforce_describe.hpp`)

The members of `SalesforceField` that the scan, the pushdown and the plan
rewrite read. `length`, `precision`, `scale` and `picklist_values` are
diagnostics there and are left out.
-/

namespace DuckdbSalesforce

/-- DuckDB's `LogicalType`, as far as the extension names its types. -/
inductive LogicalType where
  | boolean
  | tinyint
  | smallint
  | integer
  | bigint
  | hugeint
  | utinyint
  | usmallint
  | uinteger
  | ubigint
  | float
  | double
  | decimal (width scale : ℕ)
  | date
  | time
  | timestamp
  | timestampTz
  | varchar
  | blob
  | struct
  | other
  deriving DecidableEq, Repr

structure SalesforceField where
  name : Text
  sfType : Text
  duckdbType : LogicalType
  filterable : Bool
  sortable : Bool
  relationshipName : Text
  isRelationship : Bool
  children : List SalesforceField

/-- A flat field: no synthesised parent STRUCT. -/
def SalesforceField.flat (name sfType : Text) (duckdbType : LogicalType)
    (filterable sortable : Bool) : SalesforceField :=
  ⟨name, sfType, duckdbType, filterable, sortable, [], false, []⟩

end DuckdbSalesforce
