import DuckdbSalesforce.Json.Reader
import DuckdbSalesforce.Library.Fallible
import DuckdbSalesforce.Report.ReportMetadata
import DuckdbSalesforce.Scan.ScanRows

/-!
# Explicit aggregates (salesforce_aggregate.cpp)

`salesforce_aggregate(catalog, object, aggregates [, filter [, group_by]])`.
The arguments are checked piece by piece; the group fields are written anew,
the aggregates and the filter are sent as they came.
-/

namespace DuckdbSalesforce
open Fallible

/-! ### The checks -/

def kMaxArgLen : ℕ := 4000

def explicitFns : List Text :=
  ["COUNT".toList, "COUNT_DISTINCT".toList, "SUM".toList, "AVG".toList, "MIN".toList, "MAX".toList]

def isAggregateFn (fnUpper : Text) : Bool := explicitFns.contains fnUpper

def isIdentifier : Text → Bool
  | [] => false
  | c :: s => (c.isAlpha || c == '_') && (c :: s).all fun d => isAlnum d || d == '_'

def aggregateError (text : Text) : Text := "salesforce_aggregate: ".toList ++ text

def rejectUnsafe (what v : Text) : Except Text Unit :=
  if kMaxArgLen < v.length then
    .error (aggregateError (what ++ " is too long (max ".toList ++ natText kMaxArgLen ++
      " chars).".toList))
  else if ';' ∈ v then .error (aggregateError (what ++ " must not contain ';'.".toList))
  else if "SELECT".toList <:+: upper v then
    .error (aggregateError (what ++ " must not contain a nested SELECT.".toList))
  else .ok ()

/-- The pieces, with the piece read so far and the parentheses open in it. -/
def splitCommas : ℕ → Text → Text → List Text
  | _, piece, [] => [piece]
  | depth, piece, c :: rest =>
    if c = '(' then splitCommas (depth + 1) (piece ++ [c]) rest
    else if c = ')' then splitCommas (depth - 1) (piece ++ [c]) rest
    else if c = ',' ∧ depth = 0 then piece :: splitCommas 0 [] rest
    else splitCommas depth (piece ++ [c]) rest

def splitTopLevelCommas (s : Text) : List Text := splitCommas 0 [] s

/-! ### Terms -/

/-- A term around the parentheses of its call. -/
structure AggTerm where
  before : Text
  argument : Text
  after : Text

def AggTerm.func (t : AggTerm) : Text := trim t.before

/-- The name is introduced by an `AS`, which is dropped. -/
def AggTerm.introduced (t : AggTerm) : Bool :=
  3 ≤ (trim t.after).length && upper ((trim t.after).take 3) == "AS ".toList

def AggTerm.resultName (t : AggTerm) : Text :=
  if t.introduced then trim ((trim t.after).drop 3) else trim t.after

/-- What is inside the parentheses of a call and what follows them; `depth`
parentheses are open inside. -/
def closeCall : ℕ → Text → Text → Option (Text × Text)
  | _, _, [] => none
  | depth, inside, c :: rest =>
    if c = '(' then closeCall (depth + 1) (inside ++ [c]) rest
    else if c = ')' then
      match depth with
      | 0 => some (inside, rest)
      | depth + 1 => closeCall depth (inside ++ [c]) rest
    else closeCall depth (inside ++ [c]) rest

def cutTerm (term : Text) : Except Text AggTerm :=
  match term.dropWhile (· != '(') with
  | [] => .error (aggregateError ('\'' :: term ++ ("' is not an aggregate — each term must be " ++
      "MIN/MAX/SUM/AVG/COUNT/COUNT_DISTINCT(field).").toList))
  | _ :: rest =>
    let before := term.takeWhile (· != '(')
    if !isAggregateFn (upper (trim before)) then
      .error (aggregateError ('\'' :: upper (trim before) ++
        ("' is not a supported aggregate function " ++
          "(use MIN, MAX, SUM, AVG, COUNT, or COUNT_DISTINCT).").toList))
    else match closeCall 0 [] rest with
      | none => .error (aggregateError ("unbalanced parentheses in '".toList ++ term ++ "'.".toList))
      | some (argument, after) => .ok ⟨before, argument, after⟩

structure AggColumn where
  name : Text
  key : Text
  deriving DecidableEq

def unaliasedName (n : ℕ) : Text := "expr".toList ++ natText n

/-- The column of a term, and the count of the terms without a name after it. -/
def parseTerm (termRaw : Text) (unaliased : ℕ) : Except Text (AggColumn × ℕ) :=
  if trim termRaw = [] then .error (aggregateError "empty aggregate term.".toList)
  else (cutTerm (trim termRaw)).bind fun t =>
    if t.resultName = [] then
      .ok (⟨unaliasedName unaliased, unaliasedName unaliased⟩, unaliased + 1)
    else if isIdentifier t.resultName then .ok (⟨t.resultName, t.resultName⟩, unaliased)
    else .error (aggregateError ("alias '".toList ++ t.resultName ++
      "' is not a valid identifier.".toList))

def parseTerms : List Text → ℕ → Except Text (List AggColumn)
  | [], _ => .ok []
  | term :: rest, unaliased =>
    (parseTerm term unaliased).bind fun p => (parseTerms rest p.2).map (p.1 :: ·)

/-! ### `AggBind` -/

/-- The arguments, trimmed; one that is not given is empty. -/
structure AggArguments where
  catalog : Text
  object : Text
  aggregates : Text
  filter : Text
  groupBy : Text

def rejectNulls : ℕ → List (Option Text) → Except Text (List Text)
  | _, [] => .ok []
  | i, none :: _ =>
    .error (aggregateError ("argument ".toList ++ natText (i + 1) ++ " must not be NULL.".toList))
  | i, some t :: rest => (rejectNulls (i + 1) rest).map (t :: ·)

def readAggArguments (inputs : List (Option Text)) : Except Text AggArguments :=
  if inputs.length < 3 ∨ 5 < inputs.length then
    .error ("salesforce_aggregate(catalog, object, aggregates [, filter [, " ++
      "group_by]]) takes 3 to 5 arguments.").toList
  else (rejectNulls 0 inputs).map fun args =>
    ⟨trim (args.getD 0 []), trim (args.getD 1 []), trim (args.getD 2 []), trim (args.getD 3 []),
      trim (args.getD 4 [])⟩

def groupField (g : Text) : Except Text Text :=
  if isIdentifier (trim g) then .ok (trim g)
  else .error (aggregateError ("group_by '".toList ++ trim g ++ ("' must be a simple field " ++
    "identifier (no dotted fields, functions, ROLLUP/CUBE/HAVING).").toList))

def groupFields (groupBy : Text) : Except Text (List Text) :=
  if groupBy = [] then .ok []
  else (rejectUnsafe "group_by".toList groupBy).bind fun _ =>
    collect groupField (splitTopLevelCommas groupBy)

/-- The columns are the output columns, all `VARCHAR`. -/
structure AggBindData where
  soql : Text
  columns : List AggColumn
  config : SalesforceConfig
  token : SalesforceTokenSet

def aggregateText (args : AggArguments) (groups : List Text) : Text :=
  "SELECT ".toList ++ (if groups = [] then [] else joinText ", ".toList groups ++ ", ".toList) ++
    args.aggregates ++ " FROM ".toList ++ args.object ++
    (if args.filter = [] then [] else " WHERE ".toList ++ args.filter) ++
    (if groups = [] then [] else " GROUP BY ".toList ++ joinText ", ".toList groups)

def bindArguments (credentials : Text → Except Text (SalesforceConfig × SalesforceTokenSet))
    (args : AggArguments) : Except Text AggBindData :=
  if !isIdentifier args.object then
    .error (aggregateError ("object '".toList ++ args.object ++
      "' is not a valid sObject name.".toList))
  else if args.aggregates = [] then
    .error (aggregateError "'aggregates' must not be empty.".toList)
  else (rejectUnsafe "aggregates".toList args.aggregates).bind fun _ =>
    (if args.filter = [] then .ok () else rejectUnsafe "filter".toList args.filter).bind fun _ =>
      (groupFields args.groupBy).bind fun groups =>
        (parseTerms (splitTopLevelCommas args.aggregates) 0).bind fun columns =>
          (credentials args.catalog).map fun c =>
            ⟨aggregateText args groups, groups.map (fun g => ⟨g, g⟩) ++ columns, c.1, c.2⟩

/-- `credentials` is `GetSalesforceCatalogCredentials`. -/
def aggBind (credentials : Text → Except Text (SalesforceConfig × SalesforceTokenSet))
    (inputs : List (Option Text)) : Except Text AggBindData :=
  (readAggArguments inputs).bind (bindArguments credentials)

/-! ### A row -/

def aggCell (record key : Text) : Option Text :=
  let read := getValue record key
  if !read.found || read.isNull then none else some read.out

def AggBindData.row (bind : AggBindData) (record : Text) : List (Option Text) :=
  bind.columns.map fun column => aggCell record column.key

end DuckdbSalesforce
