import Mathlib
import DuckdbSalesforce.Library.Fallible
import DuckdbSalesforce.Scan.RelationshipStructs
import DuckdbSalesforce.Scan.TransportGuard
import DuckdbSalesforce.Session.AuthorizedSend

/-!
# The rows of a scan (`salesforce_scan.cpp`)

`SalesforceScanBindData` with all of its members, and the rows of a scan over
it: what `ScanInitGlobal` starts, `ScanFunction` decodes. The org answers every
statement as it likes, by who asks and in which mode.
-/

namespace DuckdbSalesforce
open Fallible

/-! ### The bind data -/

inductive SalesforceAuthMethod where
  | refreshToken
  | jwt
  deriving DecidableEq

structure SalesforceConfig where
  org : Text
  authMethod : SalesforceAuthMethod
  clientId : Text
  clientSecret : Text
  refreshToken : Text
  username : Text
  privateKey : Text
  loginUrl : Text
  apiVersion : Text
  queryMode : Text
  transport : Text
  bulkChunks : ℤ

abbrev SalesforceConfig.overrides (c : SalesforceConfig) : ScanConfig :=
  ⟨c.transport, c.queryMode, c.bulkChunks⟩

structure ScanMember.DiagExplainItem where
  role : Text
  field : Text
  fieldKnown : Bool
  pushed : Bool
  residual : Bool
  relationshipName : Text
  referenceTo : List Text

/-- The columns are named by the fields, and the optimizer pushes SOQL function
names and API names. -/
structure SalesforceScanFunctionData extends SalesforceScanBindData where
  config : SalesforceConfig
  token : SalesforceTokenSet
  columnNames : List Text
  columnTypes : List LogicalType
  pushedFilterCount : ℤ
  catalogAlias : Text
  explainFilters : List ScanMember.DiagExplainItem
  explainCaptured : Bool
  named : columnNames = fields.map SalesforceField.name
  termsPlain : ∀ pa ∈ pushedAggregates, '(' ∉ pa.func ∧ ')' ∉ pa.field

def SalesforceScanFunctionData.copy (a : SalesforceScanFunctionData) :
    SalesforceScanFunctionData where
  config := a.config
  token := a.token
  object := a.object
  fields := a.fields
  columnNames := a.columnNames
  columnTypes := a.columnTypes
  pushedWhere := a.pushedWhere
  pushedFilterCount := a.pushedFilterCount
  residualFilterCount := a.residualFilterCount
  catalogAlias := a.catalogAlias
  explainFilters := a.explainFilters
  explainCaptured := a.explainCaptured
  pushedAggregates := a.pushedAggregates
  rawWhere := a.rawWhere
  named := a.named
  termsPlain := a.termsPlain

def SalesforceScanFunctionData.equals (a other : SalesforceScanFunctionData) : Bool :=
  a.object == other.object && a.columnNames == other.columnNames

/-! ### The org -/

/-- What `AcquireToken` sends. -/
inductive TokenGrant where
  | refreshToken (clientId clientSecret refreshToken : Text)
  | jwt (clientId username privateKey : Text)
  deriving DecidableEq

/-- What the requests of a session are made of. -/
structure Connection where
  apiVersion : Text
  loginUrl : Text
  grant : TokenGrant
  accessToken : Text
  instanceUrl : Text
  deriving DecidableEq

def SalesforceConfig.grant (c : SalesforceConfig) : TokenGrant :=
  if c.authMethod = .jwt then .jwt c.clientId c.username c.privateKey
  else .refreshToken c.clientId c.clientSecret c.refreshToken

def SalesforceScanFunctionData.connection (a : SalesforceScanFunctionData) : Connection where
  apiVersion := a.config.apiVersion
  loginUrl := trimTrailingSlash a.config.loginUrl
  grant := a.config.grant
  accessToken := a.token.accessToken
  instanceUrl := trimTrailingSlash a.token.instanceUrl

/-- What a connection is answered, in the mode `query` or `queryAll`: the probes
of init, the records of a REST query, and of a Bulk query the header with the
rows. -/
structure OrgContent where
  answers : Connection → Bool → ScanAnswers
  records : Connection → Bool → Text → Except Text (List Text)
  bulkRows : Connection → Bool → Text → Except Text (List Text × List (List Text))

/-! ### Rows -/

section Rows
variable (casts : CastFunctions)

/-- A column past the fields is NULL. -/
def jsonCell (record : Text) : Option SalesforceField → Except Text DecodedCell
  | none => .ok .null
  | some f => appendJsonValue casts f record

def jsonRow (columns : List (Option SalesforceField)) (record : Text) :
    Except Text (List DecodedCell) :=
  collect (jsonCell casts record) columns

def csvCell (header cells : List Text) : Option SalesforceField → Except Text DecodedCell
  | none => .ok .null
  | some f =>
    if f.isRelationship then appendBulkStruct casts f.relationshipName cells header f
    else appendBulkCell casts f f.name cells header

/-- The chunks in turn; the first header that is not empty names the columns of
all of them. -/
def csvRows (bulkRows : Text → Except Text (List Text × List (List Text)))
    (columns : List (Option SalesforceField)) (header : List Text) :
    List Text → Except Text (List (List DecodedCell))
  | [] => .ok []
  | soql :: soqls =>
    (bulkRows soql).bind fun (names, rows) =>
      let header := if header = [] then names else header
      (collect (fun cells => collect (csvCell casts header cells) columns) rows).bind fun decoded =>
        (csvRows bulkRows columns header soqls).map (decoded ++ ·)

/-- What `ScanFunction` emits once init has started the scan. -/
def planRows (org : OrgContent) (connection : Connection) (queryAll : Bool)
    (columns : List (Option SalesforceField)) : ScanPlan → Except Text (List (List DecodedCell))
  | .aggregate s => (scanFunctionAggregate casts s).map Prod.snd
  | .countOnly total => .ok (List.replicate total.toNat (columns.map fun _ => .null))
  | .bulk soqls => csvRows casts (org.bulkRows connection queryAll) columns [] soqls
  | .rest soql => (org.records connection queryAll soql).bind (collect (jsonRow casts columns))

end Rows

section Scan
variable (a : SalesforceScanFunctionData) (settings : ScanSettings) (columnIds : List ℕ)

/-- `query_all`. -/
def SalesforceScanFunctionData.queryAll : Bool :=
  match scanQueryMode a.config.overrides settings with
  | .error _ => false
  | .ok mode => mode == "queryall".toList

def SalesforceScanFunctionData.columns : List (Option SalesforceField) :=
  columnIds.map fun col => a.fields[col]?

/-- A scan from init to its last row. -/
def scannedRows (casts : CastFunctions) (org : OrgContent) : Except Text (List (List DecodedCell)) :=
  (scanInitGlobal a.toSalesforceScanBindData a.config.overrides settings
      (org.answers a.connection (a.queryAll settings)) columnIds).bind fun start =>
    planRows casts org a.connection start.queryAll (a.columns columnIds) start.plan

end Scan

/-! ### What is read of a field -/

def base64Mark (sfType : Text) : Text :=
  if lower sfType = "base64".toList then "base64".toList else []

mutual
/-- A field without the members that a scan does not read. -/
def SalesforceField.readMembers : SalesforceField → SalesforceField
  | ⟨name, sfType, type, _, _, relationshipName, isRelationship, children⟩ =>
    if isRelationship then
      ⟨name, [], .struct, false, false, relationshipName, true, readChildren children⟩
    else
      ⟨name, base64Mark sfType, type, false, false, [], false, []⟩

def readChildren : List SalesforceField → List SalesforceField
  | [] => []
  | c :: cs => c.readMembers :: readChildren cs
end

theorem base64Mark_iff (sfType : Text) :
    lower (base64Mark sfType) = "base64".toList ↔ lower sfType = "base64".toList := by
  unfold base64Mark
  split
  · rename_i h
    exact iff_of_true (by decide) h
  · rename_i h
    exact iff_of_false (by decide) h

theorem readMembers_isRelationship (f : SalesforceField) :
    f.readMembers.isRelationship = f.isRelationship := by
  obtain ⟨name, sfType, type, filterable, sortable, relationshipName, isRelationship, children⟩ := f
  cases isRelationship <;> rfl

theorem readMembers_name (f : SalesforceField) : f.readMembers.name = f.name := by
  obtain ⟨name, sfType, type, filterable, sortable, relationshipName, isRelationship, children⟩ := f
  cases isRelationship <;> rfl

theorem readMembers_relationshipName (f : SalesforceField) (h : f.isRelationship = true) :
    f.readMembers.relationshipName = f.relationshipName := by
  obtain ⟨name, sfType, type, filterable, sortable, relationshipName, isRelationship, children⟩ := f
  cases isRelationship with
  | true => rfl
  | false => cases h

mutual
theorem emitRelationship_read (path : Text) : (f : SalesforceField) → f.isRelationship = true →
    emitRelationshipSoql path f.readMembers = emitRelationshipSoql path f
  | ⟨_, _, _, _, _, _, true, children⟩, _ => emitChildren_read path children

theorem emitChildren_read (path : Text) :
    (cs : List SalesforceField) → emitChildren path (readChildren cs) = emitChildren path cs
  | [] => rfl
  | c :: cs => by
    rw [readChildren, emitChildren, emitChildren, emitChildren_read path cs,
      readMembers_isRelationship, readMembers_name]
    by_cases hrel : c.isRelationship = true
    · rw [if_pos hrel, if_pos hrel, emitRelationship_read _ c hrel]
    · rw [if_neg hrel, if_neg hrel]
end

mutual
theorem findBase64_read (pre : Text) :
    (f : SalesforceField) → findProjectedBase64 pre f.readMembers = findProjectedBase64 pre f
  | ⟨_, _, _, _, _, relationshipName, true, children⟩ =>
    findChild_read (pre ++ relationshipName ++ ".".toList) children
  | ⟨_, sfType, _, _, _, _, false, _⟩ =>
    if_congr (base64Mark_iff sfType) rfl rfl

theorem findChild_read (pre : Text) :
    (cs : List SalesforceField) → findBase64Child pre (readChildren cs) = findBase64Child pre cs
  | [] => rfl
  | c :: cs => by
    rw [readChildren, findBase64Child, findBase64Child, findBase64_read pre c,
      findChild_read pre cs]
end

/-! ### Rows are made of what is read -/

section Decode
variable (casts : CastFunctions)

theorem appendTypedCell_read (f : SalesforceField) (h : f.isRelationship = false) (raw : Text) :
    Same (appendTypedCell casts f raw) (appendTypedCell casts f.readMembers raw) := by
  obtain ⟨name, sfType, type, filterable, sortable, relationshipName, isRelationship, children⟩ := f
  have hrel : isRelationship = false := h
  subst hrel
  unfold appendTypedCell SalesforceField.readMembers
  simp only [Bool.false_eq_true, if_false]
  split
  · rfl
  · split
    · rfl
    · split <;> rfl
  · split <;> rfl

theorem appendMember_read (f : SalesforceField) (h : f.isRelationship = false) (record : Text) :
    Same (appendMember casts f record) (appendMember casts f.readMembers record) := by
  unfold appendMember
  rw [readMembers_name]
  dsimp only
  split
  · rfl
  · exact appendTypedCell_read casts f h _

mutual
theorem appendJsonValue_read : (f : SalesforceField) → (record : Text) →
    Same (appendJsonValue casts f record) (appendJsonValue casts f.readMembers record)
  | ⟨_, _, _, _, _, relationshipName, true, children⟩, record => by
    have hentries := appendEntries_read children
    unfold SalesforceField.readMembers
    simp only [if_true]
    unfold appendJsonValue appendRelationshipStruct
    simp only [if_true]
    split
    · rfl
    · exact (hentries _).map DecodedCell.struct
  | ⟨name, sfType, type, filterable, sortable, relationshipName, false, children⟩, record =>
    appendMember_read casts
      ⟨name, sfType, type, filterable, sortable, relationshipName, false, children⟩ rfl record

theorem appendEntries_read : (cs : List SalesforceField) → (nested : Text) →
    Same (appendEntries casts cs nested) (appendEntries casts (readChildren cs) nested)
  | [], _ => rfl
  | c :: cs, nested => by
    have hc := appendJsonValue_read c nested
    have hcs := appendEntries_read cs nested
    rw [readChildren, appendEntries, appendEntries]
    rcases hc.cases with ⟨cell, hl, hr⟩ | ⟨e, e', hl, hr⟩
    · rw [hl, hr]
      exact hcs.map (cell :: ·)
    · rw [hl, hr]
      rfl
end

theorem appendBulkCell_read (f : SalesforceField) (h : f.isRelationship = false) (header : Text)
    (cells columns : List Text) : Same (appendBulkCell casts f header cells columns)
      (appendBulkCell casts f.readMembers header cells columns) := by
  unfold appendBulkCell
  dsimp only
  split
  · rfl
  · exact appendTypedCell_read casts f h _

mutual
theorem appendBulkStruct_read (path : Text) (cells columns : List Text) : (f : SalesforceField) →
    f.isRelationship = true → Same (appendBulkStruct casts path cells columns f)
      (appendBulkStruct casts path cells columns f.readMembers)
  | ⟨_, _, _, _, _, _, true, children⟩, _ =>
    (appendBulkEntries_read path cells columns children).map bulkStruct

theorem appendBulkEntries_read (path : Text) (cells columns : List Text) :
    (cs : List SalesforceField) → Same (appendBulkEntries casts path cells columns cs)
      (appendBulkEntries casts path cells columns (readChildren cs))
  | [] => rfl
  | c :: cs => by
    have hcs := appendBulkEntries_read path cells columns cs
    have hc : Same (if c.isRelationship then
          appendBulkStruct casts (path ++ ".".toList ++ c.name) cells columns c
        else appendBulkCell casts c (path ++ ".".toList ++ c.name) cells columns)
        (if c.readMembers.isRelationship then
          appendBulkStruct casts (path ++ ".".toList ++ c.readMembers.name) cells columns
            c.readMembers
        else appendBulkCell casts c.readMembers (path ++ ".".toList ++ c.readMembers.name) cells
          columns) := by
      rw [readMembers_isRelationship, readMembers_name]
      by_cases hrel : c.isRelationship = true
      · rw [if_pos hrel, if_pos hrel]
        exact appendBulkStruct_read _ cells columns c hrel
      · rw [if_neg hrel, if_neg hrel]
        exact appendBulkCell_read casts c (by simpa using hrel) _ cells columns
    rw [readChildren, appendBulkEntries, appendBulkEntries]
    rcases hc.cases with ⟨cell, hl, hr⟩ | ⟨e, e', hl, hr⟩
    · rw [hl, hr]
      exact hcs.map (cell :: ·)
    · rw [hl, hr]
      rfl
end

theorem jsonCell_read (record : Text) (c : Option SalesforceField) :
    Same (jsonCell casts record c) (jsonCell casts record (c.map SalesforceField.readMembers)) := by
  cases c with
  | none => rfl
  | some f => exact appendJsonValue_read casts f record

theorem csvCell_read (header cells : List Text) (c : Option SalesforceField) :
    Same (csvCell casts header cells c)
      (csvCell casts header cells (c.map SalesforceField.readMembers)) := by
  cases c with
  | none => rfl
  | some f =>
    rw [Option.map_some, csvCell, csvCell, readMembers_isRelationship, readMembers_name]
    by_cases hrel : f.isRelationship = true
    · rw [if_pos hrel, if_pos hrel, readMembers_relationshipName f hrel]
      exact appendBulkStruct_read casts _ cells header f hrel
    · rw [if_neg hrel, if_neg hrel]
      exact appendBulkCell_read casts f (by simpa using hrel) _ cells header

theorem csvRows_read (bulkRows : Text → Except Text (List Text × List (List Text)))
    (columns : List (Option SalesforceField)) (header soqls : List Text) :
    Same (csvRows casts bulkRows columns header soqls)
      (csvRows casts bulkRows (columns.map (Option.map SalesforceField.readMembers)) header soqls) := by
  induction soqls generalizing header with
  | nil => rfl
  | cons soql soqls ih =>
    apply (Same.refl (bulkRows soql)).bind
    intro h
    obtain ⟨names, rows⟩ := h
    refine (Same.collect (fun cells => ?_) rows).bind fun decoded => (ih _).map (decoded ++ ·)
    rw [collect_map]
    exact Same.collect (csvCell_read casts _ cells) columns

theorem jsonRows_read (columns : List (Option SalesforceField)) (records : List Text) :
    Same (collect (jsonRow casts columns) records)
      (collect (jsonRow casts (columns.map (Option.map SalesforceField.readMembers))) records) := by
  refine Same.collect (fun record => ?_) records
  rw [jsonRow, jsonRow, collect_map]
  exact Same.collect (jsonCell_read casts record) columns

theorem readChildren_map (cs : List SalesforceField) :
    readChildren cs = cs.map SalesforceField.readMembers := by
  induction cs with
  | nil => rfl
  | cons c cs ih => rw [readChildren, ih, List.map_cons]

end Decode

end DuckdbSalesforce
