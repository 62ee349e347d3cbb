import DuckdbSalesforce.Catalog.MetadataEngine
import DuckdbSalesforce.Library.Fallible
import DuckdbSalesforce.Library.Precedence
import DuckdbSalesforce.Report.BooleanFilter
import DuckdbSalesforce.Report.ReportMetadata

/-!
# The candidate SOQL of a report (`ReportSoqlBind`, `salesforce_report.cpp`)

A report is translated when nothing blocks it. Each block has a reason, and the
one that is shown is the first by rank.
-/

namespace DuckdbSalesforce

inductive BlockReason where
  | reportShape
  | crossFilter
  | baseObject
  | projectedField
  | relationship
  | filterField
  | filterability
  | operator
  | literal
  | booleanFilter
  deriving DecidableEq, Repr

def BlockReason.text : BlockReason → Text
  | .reportShape => "report_shape".toList
  | .crossFilter => "cross_filter".toList
  | .baseObject => "base_object".toList
  | .projectedField => "projected_field".toList
  | .relationship => "relationship".toList
  | .filterField => "filter_field".toList
  | .filterability => "filterability".toList
  | .operator => "operator".toList
  | .literal => "literal".toList
  | .booleanFilter => "boolean_filter".toList

/-- `block_rank`. -/
def BlockReason.rank : BlockReason → ℕ
  | .reportShape => 1
  | .crossFilter => 2
  | .baseObject => 3
  | .projectedField => 4
  | .relationship => 5
  | .filterField => 6
  | .filterability => 7
  | .operator => 8
  | .literal => 9
  | .booleanFilter => 10

/-- What the bind has come to; `blockedBy` is empty as long as nothing blocks. -/
structure SoqlBinding where
  baseObject : Text
  resolvedBy : Text
  translatable : Bool
  blockedBy : Option BlockReason
  caveats : List Text
  unresolvedColumns : List Text
  unresolvedFilters : List Text
  soqlFields : List Text
  clauses : List Text
  wildcardCaveat : Bool

namespace SoqlBinding
variable (s : SoqlBinding)

/-- `set_block`. -/
def block (reason : BlockReason) : SoqlBinding :=
  { s with translatable := false, blockedBy := Precedence.keep BlockReason.rank s.blockedBy reason }

def caveat (text : Text) : SoqlBinding := { s with caveats := s.caveats ++ [text] }

end SoqlBinding

/-! ### Fields -/

structure ReportField where
  field : Text
  filterable : Bool
  /-- The related object; empty for a field of the base. -/
  related : Text

section Resolve
variable (eng : MetadataEngine) (tokenMap : Text)

/-- A token without a dot: a field of the base, by its own name or by the one the
token map has. -/
def resolvePlain (base token : Text) : Except Text (Option ReportField) :=
  (eng.resolveField base token).bind fun own =>
    match own with
    | some (name, filterable) => .ok (some ⟨name, filterable, []⟩)
    | none =>
      let candidate := resolveReportTokenCandidate tokenMap base token
      if candidate = [] then .ok none
      else (eng.resolveField base candidate).map fun other =>
        other.map fun r => ⟨r.1, r.2, []⟩

/-- A field of the object that the base's relationship leads to. -/
def resolveRelated (base relationship rest : Text) : Except Text (Option ReportField) :=
  (eng.resolveRelationship base relationship).bind fun rel =>
    match rel with
    | none => .ok none
    | some (target, realRel) =>
      (eng.resolveField target rest).map fun final =>
        final.map fun r => ⟨realRel ++ '.' :: r.1, r.2, target⟩

/-- `resolve_field`: whether a relationship was meant, and the field. -/
def resolveReportField (base token : Text) : Except Text (Bool × Option ReportField) :=
  match findText ['.'] token with
  | none => (resolvePlain eng tokenMap base token).map fun r => (false, r)
  | some dot =>
    let relationship := token.take dot
    let rest := token.drop (dot + 1)
    let meant := !ciEquals relationship base
    if '.' ∈ rest then .ok (meant, none)
    else if ciEquals relationship base then
      (eng.resolveField base rest).map fun own => (meant, own.map fun r => ⟨r.1, r.2, []⟩)
    else (resolveRelated eng base relationship rest).map fun r => (meant, r)

end Resolve

/-! ### The bind -/

def quotedName (t : Text) : Text := '\'' :: t ++ ['\'']

def emptyBinding (m : ReportMetadata) : SoqlBinding where
  baseObject := match (baseCandidates m).find? fun c => isSafeIdentifier c.obj with
    | some c => c.obj
    | none => m.reportType
  resolvedBy := "unresolved".toList
  translatable := true
  blockedBy := none
  caveats := []
  unresolvedColumns := []
  unresolvedFilters := []
  soqlFields := []
  clauses := []
  wildcardCaveat := false

def checkFormat (m : ReportMetadata) (s : SoqlBinding) : SoqlBinding :=
  if ciEquals m.format "TABULAR".toList then s
  else (s.block .reportShape).caveat ("report format ".toList ++ quotedName m.format ++
    (" is not translatable in this cut (summary/matrix and " ++
      "grouped/aggregated reports are unsupported)").toList)

def checkCrossFilters (m : ReportMetadata) (s : SoqlBinding) : SoqlBinding :=
  if m.crossFilters = [] then s
  else (s.block .crossFilter).caveat ("report has cross filters (semi-/anti-join) which are not " ++
    "supported in this cut").toList

def BaseSource.label : BaseSource → Text
  | .customEntitySuffix => "CustomEntity suffix (custom_entity_suffix)".toList
  | .builtinReportTypeMap => "builtin report type map (builtin_report_type_map)".toList
  | _ => "column prefix (column_prefix, low confidence)".toList

/-- A column prefix is a hint only. -/
def BaseSource.resolvedBy (source : BaseSource) : Text :=
  if source = .columnPrefix then "column_prefix_hint".toList else source.text

def acceptBinding (m : ReportMetadata) (c : BaseCandidate) (s : SoqlBinding) : SoqlBinding :=
  let found := { s with baseObject := c.obj, resolvedBy := c.source.resolvedBy }.caveat
    ("base object resolved from ".toList ++ c.source.label ++ ": ".toList ++
      quotedName m.reportType ++ " -> ".toList ++ quotedName c.obj)
  if c.source = .columnPrefix then
    (found.block .baseObject).caveat ("base object inferred from column prefix only; " ++
      "not enough to guarantee the report root object").toList
  else found

section Bind
variable (eng : MetadataEngine) (tokenMap : Text)

def acceptBase : List BaseCandidate → Except Text (Option BaseCandidate)
  | [] => .ok none
  | c :: cs =>
    if isSafeIdentifier c.obj then
      (eng.isQueryable c.obj).bind fun queryable => if queryable then .ok (some c) else acceptBase cs
    else acceptBase cs

/-- The base object is validated unless the report is blocked before; what is
thrown meanwhile is caught. -/
def validateBase (m : ReportMetadata) (s : SoqlBinding) : SoqlBinding × Option Text :=
  if s.translatable then
    if (baseCandidates m).isEmpty then
      ((s.block .baseObject).caveat ("could not derive a base object from report type ".toList ++
        quotedName m.reportType), none)
    else
      match acceptBase eng (baseCandidates m) with
      | .error _ => ((s.block .baseObject).caveat ("could not validate the base object against the " ++
          "org describe").toList, none)
      | .ok none => ((s.block .baseObject).caveat (("base object could not be resolved to a queryable " ++
          "object in Describe Global (report type ").toList ++ quotedName m.reportType ++ [')']), none)
      | .ok (some c) => (acceptBinding m c s, some c.obj)
  else (s, none)

def notOn (what base : Text) (token : Text) : Text :=
  what ++ quotedName token ++ " does not resolve to a field on ".toList ++ quotedName base

def columnStep (base : Text) (s : SoqlBinding) (column : Text) : Except Text SoqlBinding :=
  (resolveReportField eng tokenMap base column).map fun r =>
    match r.2 with
    | some f => { s with soqlFields := s.soqlFields ++ [f.field] }
    | none =>
      { s.block (if r.1 then .relationship else .projectedField) with
        unresolvedColumns := s.unresolvedColumns ++ [column] }.caveat
          (notOn "column ".toList base column)

def projectColumns (m : ReportMetadata) (validated : Option Text) (s : SoqlBinding) :
    Except Text SoqlBinding :=
  match validated with
  | none => .ok s
  | some base =>
    (Fallible.run (columnStep eng tokenMap base) s m.columns).map fun s =>
      if s.soqlFields.isEmpty && m.columns.isEmpty then
        (s.block .projectedField).caveat "report has no projectable columns".toList
      else s

def addClause (f : ReportFilter) (field op : Text) (isLike : Bool) (s : SoqlBinding) : SoqlBinding :=
  if isLike then
    { s with
      clauses := s.clauses ++ [field ++ " LIKE ".toList ++ soqlStr ('%' :: f.value ++ ['%'])]
      wildcardCaveat := true }
  else if isNumericLiteral f.value then
    { s with clauses := s.clauses ++ [field ++ " ".toList ++ op ++ " ".toList ++ f.value] }
  else if isAmbiguousLiteral f.value then
    (s.block .literal).caveat ("filter value ".toList ++ quotedName f.value ++
      " (date/boolean/null) is not auto-translated; write the SOQL literal manually".toList)
  else { s with clauses := s.clauses ++ [field ++ " ".toList ++ op ++ " ".toList ++ soqlStr f.value] }

def filterStep (validated : Option Text) (s : SoqlBinding) (f : ReportFilter) :
    Except Text SoqlBinding :=
  match safeOperator f.op with
  | none => .ok ((s.block .operator).caveat ("unsupported filter operator ".toList ++ quotedName f.op))
  | some (op, isLike) =>
    match validated with
    | none => .ok s
    | some base =>
      (resolveReportField eng tokenMap base f.field).map fun r =>
        match r.2 with
        | none =>
          { s.block (if r.1 then .relationship else .filterField) with
            unresolvedFilters := s.unresolvedFilters ++ [f.field] }.caveat
              (notOn "filter field ".toList base f.field)
        | some field =>
          if field.filterable then addClause f field.field op isLike s
          else (s.block .filterability).caveat ("filter field ".toList ++ quotedName f.field ++
            " is not filterable on ".toList ++
              (if field.related = [] then quotedName base
              else "related object ".toList ++ quotedName field.related))

def checkBooleanFilter (m : ReportMetadata) (s : SoqlBinding) : SoqlBinding :=
  if booleanFilterAndOnly m.booleanFilter m.filters.length then s
  else (s.block .booleanFilter).caveat ("report filter logic ".toList ++ quotedName m.booleanFilter ++
    (" uses OR/NOT/grouping (or an out-of-range index) that " ++
      "is not supported in this cut").toList)

end Bind

structure ReportSoqlBindData where
  reportId : Text
  reportName : Text
  reportType : Text
  baseObject : Text
  columns : List Text
  filters : List ReportFilter
  soql : Text
  translatable : Bool
  caveats : Text
  baseObjectResolvedBy : Text
  blockedBy : Text
  unresolvedColumns : List Text
  unresolvedFilters : List Text

def candidateText (base : Text) (s : SoqlBinding) : Text :=
  "SELECT ".toList ++ joinText ", ".toList s.soqlFields ++ " FROM ".toList ++ base ++
    (if s.clauses.isEmpty then [] else " WHERE ".toList ++ joinText " AND ".toList s.clauses)

def finishBinding (m : ReportMetadata) (reportId : Text) (validated : Option Text) (s : SoqlBinding) :
    ReportSoqlBindData :=
  let wildcard := if s.wildcardCaveat then
    [("contains was mapped to a broad LIKE '%...%' wildcard, " ++
      "which can be slow/non-selective on large objects").toList] else []
  let contract := if s.translatable then
    [("candidate SOQL is best-effort and NOT an equivalence contract: base object and field API " ++
      "names are derived from report metadata — validate against a salesforce_report() sample " ++
      "before scaling").toList] else []
  { reportId := reportId
    reportName := m.name
    reportType := m.reportType
    baseObject := s.baseObject
    columns := m.columns
    filters := m.filters
    soql := if s.translatable then candidateText (validated.getD []) s else []
    translatable := s.translatable
    caveats := joinText "; ".toList (s.caveats ++ wildcard ++ contract)
    baseObjectResolvedBy := s.resolvedBy
    blockedBy := if s.translatable then "none".toList
      else (s.blockedBy.map BlockReason.text).getD "none".toList
    unresolvedColumns := s.unresolvedColumns
    unresolvedFilters := s.unresolvedFilters }

def bindMetadata (eng : MetadataEngine) (tokenMap reportId : Text) (m : ReportMetadata) :
    Except Text ReportSoqlBindData :=
  let checked := checkCrossFilters m (checkFormat m (emptyBinding m))
  let (s, validated) := validateBase eng m checked
  (projectColumns eng tokenMap m validated s).bind fun s =>
    (Fallible.run (filterStep eng tokenMap validated) s m.filters).map fun s =>
      finishBinding m reportId validated (checkBooleanFilter m s)

/-- `body` is the report's describe. -/
def reportSoqlBind (eng : MetadataEngine) (tokenMap reportId body : Text) :
    Except Text ReportSoqlBindData :=
  bindMetadata eng tokenMap reportId (readReportMetadata body)

end DuckdbSalesforce
