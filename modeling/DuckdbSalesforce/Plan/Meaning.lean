import DuckdbSalesforce.Library.SqlAggregates
import DuckdbSalesforce.Plan.AggOptimizer

/-!
# The rows of a plan

What a plan yields when it runs. A cell is a value or NULL, a row gives every
column binding a cell, and a binding that the row does not have is NULL.
-/

namespace DuckdbSalesforce
open SqlAggregates

abbrev Cell := Option Value
abbrev Row := ColumnBinding → Cell

/-- A fetched record: the cell of each field. -/
abbrev ScanRecord := Text → Cell

/-- What the meaning of a plan takes from outside: DuckDB's other functions and
operators, the records that a scan is about, whatever terms are pushed, and the
service's equality, given as the key that equal values share. -/
structure Execution where
  scalarFunction : Text → LogicalType → List Cell → Cell
  otherAggregate : BoundAggregateExpression → List Row → Cell
  otherOperator : Text → List ScalarExpression → List (List Row) → List Row
  foreignScan : LogicalGet → List Row
  records : SalesforceScanBindData → List ScanRecord
  records_of_scan : ∀ bind pushed, records { bind with pushedAggregates := pushed } = records bind
  key : Value → Value

def bigintCell (n : ℕ) : Cell := some (.scalar .bigint n (natText n))

def valueLess : Value → Value → Bool
  | .varchar s, .varchar t => decide (s < t)
  | .boolean b, .boolean c => !b && c
  | .scalar _ j _, .scalar _ k _ => decide (j < k)
  | _, _ => false

/-- The service's answer to `func(field)` over these records. -/
def answerCall (key : Value → Value) (func field : Text) (records : List ScanRecord) : Cell :=
  let column := records.map fun r => r field
  if func = "COUNT".toList then bigintCell (count column)
  else if func = "COUNT_DISTINCT".toList then bigintCell (countDistinct key column)
  else if func = "MIN".toList then least valueLess column
  else if func = "MAX".toList then greatest valueLess column
  else none

section Meaning
variable (ex : Execution)

mutual
def ScalarExpression.eval (row : Row) : ScalarExpression → Cell
  | .columnRef _ b => row b
  | .constant v => if v.isNull then none else some v
  | .function name t args => ex.scalarFunction name t (evalList row args)

def evalList (row : Row) : List ScalarExpression → List Cell
  | [] => []
  | e :: es => e.eval row :: evalList row es
end

/-! ### Aggregates -/

def filteredRows (bag : BoundAggregateExpression) (rows : List Row) : List Row :=
  match bag.filter with
  | none => rows
  | some f => rows.filter fun row => f.eval ex row == some (.boolean true)

/-- The arguments are all non-NULL; COUNT(*) has none. -/
def argsPresent (bag : BoundAggregateExpression) (row : Row) : Bool :=
  bag.children.all fun e => (e.eval ex row).isSome

def argColumn (bag : BoundAggregateExpression) (rows : List Row) : List Cell :=
  rows.flatMap fun row => bag.children.map fun e => e.eval ex row

def evalCount (bag : BoundAggregateExpression) (rows : List Row) : Cell :=
  if bag.distinct then
    bigintCell ((rows.filter (argsPresent ex bag)).map fun row =>
      bag.children.map fun e => e.eval ex row).dedup.length
  else bigintCell (rows.filter (argsPresent ex bag)).length

def evalAggregate (bag : BoundAggregateExpression) (rows : List Row) : Cell :=
  let rows := filteredRows ex bag rows
  if lower bag.functionName = "count".toList then evalCount ex bag rows
  else if lower bag.functionName = "min".toList then least valueLess (argColumn ex bag rows)
  else if lower bag.functionName = "max".toList then greatest valueLess (argColumn ex bag rows)
  else ex.otherAggregate bag rows

def Expression.evalOver (rows : List Row) : Expression → Cell
  | .boundAggregate bag => evalAggregate ex bag rows
  | .scalar _ => none

/-- The groups of one grouping set; a column outside of the set is NULL, and
the empty set has one group even without rows. -/
def groupKey (agg : LogicalAggregate) (set : List ℕ) (row : Row) : List Cell :=
  agg.groups.zipIdx.map fun (e, i) => if i ∈ set then e.eval ex row else none

def groupsOf (agg : LogicalAggregate) (set : List ℕ) (rows : List Row) : List (List Cell) :=
  if set = [] then [agg.groups.map fun _ => none] else (rows.map (groupKey ex agg set)).dedup

/-- Without grouping sets there is one, of all groups. -/
def groupingSetsOf (agg : LogicalAggregate) : List (List ℕ) :=
  if agg.groupingSets = [] then [List.range agg.groups.length] else agg.groupingSets

def aggregateRow (agg : LogicalAggregate) (key : List Cell) (rows : List Row) : Row := fun b =>
  if b.tableIndex = agg.aggregateIndex ∧ b.columnIndex < agg.expressions.length then
    (agg.expressions[b.columnIndex]?.map (Expression.evalOver ex rows)).getD none
  else if b.tableIndex = agg.groupIndex then key[b.columnIndex]?.getD none
  else none

def aggregateRows (agg : LogicalAggregate) (rows : List Row) : List Row :=
  (groupingSetsOf agg).flatMap fun set => (groupsOf ex agg set rows).map fun key =>
    aggregateRow ex agg key (rows.filter fun row => groupKey ex agg set row = key)

/-! ### Scans -/

/-- The service's answer for one pushed term over these records. -/
def serviceAggregate (pa : SalesforcePushedAggregate) (records : List ScanRecord) : Cell :=
  answerCall ex.key pa.func pa.field records

/-- The row of a scan with these output cells. -/
def emitRow (get : LogicalGet) (cells : List Cell) : Row := fun b =>
  if b.tableIndex = get.tableIndex then cells[b.columnIndex]?.getD none else none

def recordCells (get : LogicalGet) (bind : SalesforceScanBindData) (r : ScanRecord) : List Cell :=
  get.columnIds.map fun i => (bind.fields[i]?.map fun f => r f.name).getD none

/-- A scan pages records, or emits the one aggregate row. -/
def scanRows (get : LogicalGet) : List Row :=
  match get.bindData with
  | some (.salesforceScan bind) =>
    if bind.pushedAggregates = [] then
      (ex.records bind).map fun r => emitRow get (recordCells get bind r)
    else
      [emitRow get (bind.pushedAggregates.map fun pa => serviceAggregate ex pa (ex.records bind))]
  | _ => ex.foreignScan get

def projectRow (tableIndex : ℕ) (es : List ScalarExpression) (row : Row) : Row := fun b =>
  if b.tableIndex = tableIndex then (es[b.columnIndex]?.map (ScalarExpression.eval ex row)).getD none
  else none

mutual
def LogicalOperator.rows : LogicalOperator → List Row
  | .get get _ => scanRows ex get
  | .aggregate agg children => aggregateRows ex agg (childRows children).flatten
  | .projection t es children => (childRows children).flatten.map (projectRow ex t es)
  | .other name es children => ex.otherOperator name es (childRows children)

def childRows : List LogicalOperator → List (List Row)
  | [] => []
  | op :: ops => op.rows :: childRows ops
end

end Meaning

end DuckdbSalesforce
