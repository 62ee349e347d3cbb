import DuckdbSalesforce.Scan.BindData
import DuckdbSalesforce.Soql.Expression

/-!
# Logical plans

The part of DuckDB's logical plan that the aggregate pushdown matches on and
rebuilds. A node of any other kind is `other` and keeps its children.
-/

namespace DuckdbSalesforce

structure ColumnBinding where
  tableIndex : ℕ
  columnIndex : ℕ
  deriving DecidableEq, Repr

/-- An expression without aggregates, with its return type. -/
inductive ScalarExpression where
  | columnRef (returnType : LogicalType) (binding : ColumnBinding)
  | constant (v : Value)
  | function (name : Text) (returnType : LogicalType) (children : List ScalarExpression)
  deriving Repr

def ScalarExpression.returnType : ScalarExpression → LogicalType
  | .columnRef t _ => t
  | .constant v => v.type
  | .function _ t _ => t

/-- `name` is what `GetName()` gives. -/
structure BoundAggregateExpression where
  functionName : Text
  distinct : Bool
  filter : Option ScalarExpression
  orderBys : Option (List ScalarExpression)
  children : List ScalarExpression
  returnType : LogicalType
  name : Text

inductive Expression where
  | boundAggregate (bag : BoundAggregateExpression)
  | scalar (e : ScalarExpression)

def Expression.returnType : Expression → LogicalType
  | .boundAggregate bag => bag.returnType
  | .scalar e => e.returnType

/-- The bind data of a table function: that of this extension or another's. -/
inductive FunctionData where
  | salesforceScan (bind : SalesforceScanBindData)
  | foreign

/-- A column id is the primary index of DuckDB's `ColumnIndex`. -/
structure LogicalGet where
  tableIndex : ℕ
  functionName : Text
  bindData : Option FunctionData
  columnIds : List ℕ
  projectionIds : List ℕ
  tableFilters : List (ℕ × ScalarExpression)
  returnedTypes : List LogicalType
  names : List Text

structure LogicalAggregate where
  groupIndex : ℕ
  aggregateIndex : ℕ
  groups : List ScalarExpression
  groupingSets : List (List ℕ)
  groupingFunctions : List (List ℕ)
  expressions : List Expression

inductive LogicalOperator where
  | get (get : LogicalGet) (children : List LogicalOperator)
  | aggregate (agg : LogicalAggregate) (children : List LogicalOperator)
  | projection (tableIndex : ℕ) (expressions : List ScalarExpression)
      (children : List LogicalOperator)
  | other (name : Text) (expressions : List ScalarExpression) (children : List LogicalOperator)

mutual
def LogicalOperator.nodes : LogicalOperator → List LogicalOperator
  | .get g children => .get g children :: nodesList children
  | .aggregate agg children => .aggregate agg children :: nodesList children
  | .projection t es children => .projection t es children :: nodesList children
  | .other name es children => .other name es children :: nodesList children

def nodesList : List LogicalOperator → List LogicalOperator
  | [] => []
  | op :: ops => op.nodes ++ nodesList ops
end

theorem nodes_self (op : LogicalOperator) : op ∈ op.nodes := by
  cases op <;> exact List.mem_cons_self

end DuckdbSalesforce
