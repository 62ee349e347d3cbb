import DuckdbSalesforce.Json.StringArray
import DuckdbSalesforce.Report.TypeMetadata
import DuckdbSalesforce.Soql.Translate

/-!
# What is read of a report (`salesforce_report.cpp`)

The metadata of a report as `ReportSoqlBind` reads it, and the pure functions that
decide about its type, operators, values and names.
-/

namespace DuckdbSalesforce

structure ReportFilter where
  field : Text
  op : Text
  value : Text
  deriving DecidableEq, Repr

structure ReportMetadata where
  name : Text
  reportType : Text
  format : Text
  columns : List Text
  filters : List ReportFilter
  crossFilters : List Text
  booleanFilter : Text
  /-- The object that the columns of the report type name. -/
  typeObject : Text

def readFilter (f : Text) : ReportFilter :=
  ⟨getString f "column".toList, getString f "operator".toList, getString f "value".toList⟩

def readReportMetadata (body : Text) : ReportMetadata :=
  let metadata := extractObject body "reportMetadata".toList
  { name := getString metadata "name".toList
    reportType := getString (extractObject metadata "reportType".toList) "type".toList
    format := getString metadata "reportFormat".toList
    columns := getStringArray metadata "detailColumns".toList
    filters := (getObjectArray metadata "reportFilters".toList).map readFilter
    crossFilters := getObjectArray metadata "crossFilters".toList
    booleanFilter := getString metadata "reportBooleanFilter".toList
    typeObject := firstCategoryUniqueObject body }

/-! ### Operators and values -/

def safeOperator (op : Text) : Option (Text × Bool) :=
  if op = "equals".toList then some ("=".toList, false)
  else if op = "notEqual".toList then some ("!=".toList, false)
  else if op = "lessThan".toList then some ("<".toList, false)
  else if op = "greaterThan".toList then some (">".toList, false)
  else if op = "contains".toList then some ("LIKE".toList, true)
  else none

/-- The quoting is that of the pushdown. -/
def soqlStr (s : Text) : Text := soqlString s

/-- The loop behind the sign: whether there was a digit, and a point. -/
def numericLoop : Bool → Bool → Text → Bool
  | digit, _, [] => digit
  | digit, dot, c :: t =>
    if c.isDigit then numericLoop true dot t
    else if c = '.' ∧ dot = false then numericLoop digit true t
    else false

def isNumericLiteral (s : Text) : Bool :=
  if s = [] then false
  else numericLoop false false (if s.head? = some '-' ∨ s.head? = some '+' then s.tail else s)

/-- A word for a truth value or null, or four digits and a dash. -/
def isAmbiguousLiteral (v : Text) : Bool :=
  ["true".toList, "false".toList, "null".toList].contains (lower v) ||
    (decide (8 ≤ v.length) && v[4]? == some '-' && (v.take 4).all Char.isDigit)

/-! ### Names -/

def isNameChar (c : Char) : Bool := isAlnum c || c == '_'

def validSeg (seg : Text) : Bool :=
  match seg with
  | [] => false
  | c :: _ => c.isAlpha && seg.all isNameChar

/-- The segments from here on, `seg` being read. -/
def safeSegments (seg : Text) : Text → Bool
  | [] => validSeg seg
  | c :: t => if c = '.' then validSeg seg && safeSegments [] t else safeSegments (seg ++ [c]) t

def isSafeIdentifier (s : Text) : Bool := if s = [] then false else safeSegments [] s

/-! ### The object of a report -/

def builtinReportTypes : List (Text × Text) :=
  [("ContactList".toList, "Contact".toList), ("AccountList".toList, "Account".toList),
    ("OpportunityList".toList, "Opportunity".toList)]

/-- Empty where the type is not known. -/
def builtinReportTypeObject (reportType : Text) : Text :=
  match builtinReportTypes.find? fun m => ciEquals reportType m.1 with
  | some m => m.2
  | none => []

def dominantColumnPrefix (columns : List Text) (filters : List ReportFilter) : Text :=
  match ((columns ++ filters.map ReportFilter.field).filterMap beforeDot).dedup with
  | [p] => p
  | _ => []

def afterDollar (reportType : Text) : Option Text :=
  if '$' ∈ reportType then some (reportType.reverse.takeWhile (· != '$')).reverse else none

inductive BaseSource where
  | customEntitySuffix
  | reportTypeMetadata
  | builtinReportTypeMap
  | columnPrefix
  deriving DecidableEq, Repr

def BaseSource.text : BaseSource → Text
  | .customEntitySuffix => "custom_entity_suffix".toList
  | .reportTypeMetadata => "report_type_metadata".toList
  | .builtinReportTypeMap => "builtin_report_type_map".toList
  | .columnPrefix => "column_prefix".toList

structure BaseCandidate where
  obj : Text
  source : BaseSource

def candidate (obj : Text) (source : BaseSource) : List BaseCandidate :=
  if obj = [] then [] else [⟨obj, source⟩]

/-- In the order they are tried. The suffix counts even when it is empty. -/
def baseCandidates (m : ReportMetadata) : List BaseCandidate :=
  (match afterDollar m.reportType with
    | some suffix => [⟨suffix, .customEntitySuffix⟩]
    | none => candidate m.typeObject .reportTypeMetadata ++
        candidate (builtinReportTypeObject m.reportType) .builtinReportTypeMap) ++
    candidate (dominantColumnPrefix m.columns m.filters) .columnPrefix

/-! ### Compound tokens -/

/-- `StringUtil::Trim`. -/
def trim (s : Text) : Text := ((s.dropWhile isSpace).reverse.dropWhile isSpace).reverse

structure TokenEntry where
  object : Text
  token : Text
  field : Text

/-- The map kept in the source has no entry. -/
def realTokens : List TokenEntry := []

/-- `object:token=field`; another text is no entry. -/
def parseTokenEntry (entry : Text) : Option TokenEntry :=
  match findText [':'] entry with
  | none => none
  | some colon =>
    match findText ['='] (entry.drop colon) with
    | none => none
    | some n =>
      if n ≤ 1 then none
      else some ⟨trim (entry.take colon), trim ((entry.drop (colon + 1)).take (n - 1)),
        trim (entry.drop (colon + n + 1))⟩

/-- `StringUtil::Split` at semicolons, the item `t` being read. -/
def splitSemicolons (t : Text) : Text → List Text
  | [] => if t = [] then [] else [t]
  | c :: rest =>
    if c = ';' then t :: splitSemicolons [] rest else splitSemicolons (t ++ [c]) rest

/-- The candidate field of a token; empty where none is known. `spec` is the
setting `sf_mock_report_token_map`, empty when it is not set. -/
def resolveReportTokenCandidate (spec base token : Text) : Text :=
  match (realTokens ++ (splitSemicolons [] spec).filterMap parseTokenEntry).find? fun e =>
      ciEquals base e.object && ciEquals token e.token with
  | some e => e.field
  | none => []

end DuckdbSalesforce
