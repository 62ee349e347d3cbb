import DuckdbSalesforce.Json.Decode
import DuckdbSalesforce.Scan.BindData

/-!
# The aggregate scan (`salesforce_scan.cpp`)

A scan with pushed terms sends one statement and emits one row. Init runs the
statement and refuses a COUNT that is missing or NULL, the scan function
decodes the record.
-/

namespace DuckdbSalesforce

/-- STANDARD_VECTOR_SIZE. -/
def standardVectorSize : ℕ := 2048

/-- `agg_record`, `agg_emit_fields` and `agg_sent`. -/
structure AggregateScanState where
  record : Text
  emitFields : List SalesforceField
  sent : Bool

def isCountTerm (pa : SalesforcePushedAggregate) : Bool :=
  pa.func == "COUNT".toList || pa.func == "COUNT_DISTINCT".toList

def isMissingOrNull (record name : Text) : Bool :=
  let read := getValue record name
  !read.found || read.isNull

section Init
variable (bind : SalesforceScanBindData)

def aggregateFailedError : Text :=
  "aggregate pushdown query failed for '".toList ++ bind.object ++ "' (SOQL: ".toList ++
    aggregateSoql bind ++
    ("); retry with sf_aggregate_pushdown = false to scan rows and aggregate locally " ++
      "instead.").toList

def aggregateNullError (pa : SalesforcePushedAggregate) : Text :=
  "aggregate pushdown returned a null ".toList ++ pa.func ++ " for '".toList ++ bind.object ++
    "' (SOQL: ".toList ++ aggregateSoql bind ++
    "); retry with sf_aggregate_pushdown = false.".toList

/-- The aggregate branch of `ScanInitGlobal`, over `TryAggregateQuery`. -/
def scanInitAggregate (tryAggregateQuery : Text → Option Text) : Except Text AggregateScanState :=
  match tryAggregateQuery (aggregateSoql bind) with
  | none => .error (aggregateFailedError bind)
  | some record =>
    match bind.pushedAggregates.find? fun pa =>
        isCountTerm pa && isMissingOrNull record pa.emit.name with
    | some pa => .error (aggregateNullError bind pa)
    | none => .ok ⟨record, bind.pushedAggregates.map SalesforcePushedAggregate.emit, false⟩

end Init

/-- One call of `ScanFunction` and the rows it emits. Columns past the vector
size are not written. -/
def scanFunctionAggregate (casts : CastFunctions) (s : AggregateScanState) :
    Except Text (AggregateScanState × List (List DecodedCell)) :=
  if s.sent then .ok (s, [])
  else
    match appendEntries casts (s.emitFields.take standardVectorSize) s.record with
    | .error e => .error e
    | .ok cells => .ok ({ s with sent := true }, [cells])

end DuckdbSalesforce
