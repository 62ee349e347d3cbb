import DuckdbSalesforce.Library.Fallible
import DuckdbSalesforce.Catalog.ObjectDescribe
import DuckdbSalesforce.Scan.TransportGuard
import DuckdbSalesforce.Scan.WhereBound

/-!
# The flat schema of an object

`BuildUserScanBindData` (salesforce_scan_user.cpp) and the columns of the
catalog table (salesforce_storage.cpp) are derived from the same describe, each
in its own way.
-/

namespace DuckdbSalesforce
open Fallible

/-! ### The user scan -/

/-- The arguments and named parameters of a call, `none` when NULL or unset. -/
structure UserScanInput where
  inputs : List (Option Text)
  filter : Option Text
  queryMode : Option Text
  transport : Option Text
  chunks : Option ℤ

structure UserScanBindData where
  config : ScanConfig
  object : Text
  fields : List ObjectField
  columnNames : List Text
  columnTypes : List LogicalType
  rawWhere : Text

def userScanError (message : Text) : BinderException := ⟨"salesforce_scan".toList ++ message⟩

def userScanTarget (input : UserScanInput) : Except BinderException (Text × Text) :=
  match input.inputs with
  | [some catalog, some object] =>
    if upper object ≠ [] ∧ (upper object).all fun c => isAlnum c || c == '_' then
      .ok (lower catalog, upper object)
    else .error (userScanError (": '".toList ++ upper object ++
      "' is not a valid sObject name.".toList))
  | [_, _] => .error (userScanError ": arguments must not be NULL.".toList)
  | _ => .error (userScanError ("(catalog, object) takes exactly 2 arguments ".toList ++
      "(where/query_mode/transport/chunks are named parameters).".toList))

/-- A named parameter in lower case, which must be one of its values. -/
def scanOverride (name allowed : Text) (values : List Text) (dflt : Text) :
    Option Text → Except BinderException Text
  | none => .ok dflt
  | some v =>
    if lower v ∈ values then .ok (lower v)
    else .error (userScanError (": ".toList ++ name ++ " must be ".toList ++ allowed ++
      " (got '".toList ++ v ++ "').".toList))

def userQueryMode (config : ScanConfig) (queryMode : Option Text) : Except BinderException Text :=
  (scanOverride "query_mode".toList "'query' or 'queryAll'".toList
    ["query".toList, "queryall".toList] config.queryMode queryMode).map fun v =>
      if queryMode ≠ none ∧ v = "queryall".toList then "queryAll".toList else v

def userTransport (config : ScanConfig) (transport : Option Text) : Except BinderException Text :=
  scanOverride "transport".toList "'rest', 'bulk' or 'auto'".toList
    ["rest".toList, "bulk".toList, "auto".toList] config.transport transport

def userChunks (config : ScanConfig) : Option ℤ → Except BinderException ℤ
  | none => .ok config.bulkChunks
  | some n =>
    if n < 1 ∨ 8 < n then .error (userScanError ": chunks must be between 1 and 8.".toList)
    else .ok n

def userFilter : Option Text → Except BinderException Text
  | none => .ok []
  | some w => (rejectUnsafeWhere w).map fun _ => w

/-- `BuildUserScanBindData`; `credentials` is the config of an attached catalog
and `describeJson` what the org answers to a describe. -/
def buildUserScanBindData (credentials : Text → Except BinderException ScanConfig)
    (describeJson : Text → Except BinderException Text) (input : UserScanInput) :
    Except BinderException UserScanBindData :=
  (userScanTarget input).bind fun target =>
    (userFilter input.filter).bind fun rawWhere =>
    (credentials target.1).bind fun config =>
    (userQueryMode config input.queryMode).bind fun queryMode =>
    (userTransport config input.transport).bind fun transport =>
    (userChunks config input.chunks).bind fun chunks =>
    (describeJson target.2).map fun body =>
      let describe := describeFrom body target.2
      { config := ⟨transport, queryMode, chunks⟩
        object := target.2
        fields := describe.fields
        columnNames := describe.fields.map fun f : ObjectField => f.name
        columnTypes := describe.fields.map fun f : ObjectField => f.duckdbType
        rawWhere := rawWhere }

/-! ### The columns of both -/

def UserScanBindData.columns (bind : UserScanBindData) : List (Text × LogicalType) :=
  bind.columnNames.zip bind.columnTypes

def SalesforceTableEntry.columns (entry : SalesforceTableEntry) : List (Text × LogicalType) :=
  entry.fields.map fun f => (f.name, f.duckdbType)

theorem userScan_columns (credentials : Text → Except BinderException ScanConfig) (body : Text)
    (input : UserScanInput) (bind : UserScanBindData)
    (h : buildUserScanBindData credentials (fun _ => .ok body) input = .ok bind) :
    bind.columns = (parseDescribe body []).fields.map fun f => (f.name, f.duckdbType) := by
  unfold buildUserScanBindData at h
  obtain ⟨target, _, h⟩ := bind_ok h
  obtain ⟨rawWhere, _, h⟩ := bind_ok h
  obtain ⟨config, _, h⟩ := bind_ok h
  obtain ⟨queryMode, _, h⟩ := bind_ok h
  obtain ⟨transport, _, h⟩ := bind_ok h
  obtain ⟨chunks, _, h⟩ := bind_ok h
  obtain ⟨_, hbody, rfl⟩ := map_ok h
  cases hbody
  exact List.zip_map' ..

theorem table_columns (ctx : MetadataContext) (object body : Text) {Body : Type}
    (s : SchemaEntry Body) (hfresh : lower object ∉ s.tables) (htooling : ctx.usesTooling = false)
    (hoff : ctx.expandsParents = false)
    (hbody : ctx.describeFields object = .ok (describeFrom body object).toDescribe.fields) :
    ∃ entry, (SchemaEntry.lookupEntry .tableEntry (some ctx) object s).1 = .ok (some entry) ∧
      entry.columns = ((parseDescribe body []).fields.filter fun f =>
        SchemaEntry.isQueryableField f.toDescribedField).map fun f => (f.name, f.duckdbType) := by
  have hnone : s.tables.lookup (lower object) = none := AList.lookup_eq_none.mpr hfresh
  have hwarm : SchemaEntry.warmTooling ctx object s = (.ok none, s) := by
    rw [SchemaEntry.warmTooling, htooling]
    rfl
  have hdescribe : ctx.describe object = .ok (describeFrom body object).toDescribe := by
    rw [MetadataContext.describe, hbody]
    rfl
  refine ⟨SchemaEntry.buildEntry (describeFrom body object).toDescribe, ?_, ?_⟩
  · unfold SchemaEntry.lookupEntry
    simp only [hnone, hwarm]
    unfold SchemaEntry.describeObject
    rw [hdescribe]
    simp only [hoff]
    rfl
  · show (((parseDescribe body []).fields.map ObjectField.toDescribedField).filter
      SchemaEntry.isQueryableField).map _ = _
    rw [List.filter_map, List.map_map]
    rfl

/-- Both have the same columns exactly when the describe has no compound field. -/
theorem flat_schema_iff (credentials : Text → Except BinderException ScanConfig)
    (ctx : MetadataContext) (object body : Text) {Body : Type} (s : SchemaEntry Body)
    (input : UserScanInput) (bind : UserScanBindData)
    (hfresh : lower object ∉ s.tables) (htooling : ctx.usesTooling = false)
    (hoff : ctx.expandsParents = false)
    (hbody : ctx.describeFields object = .ok (describeFrom body object).toDescribe.fields)
    (hscan : buildUserScanBindData credentials (fun _ => .ok body) input = .ok bind) :
    ∃ entry, (SchemaEntry.lookupEntry .tableEntry (some ctx) object s).1 = .ok (some entry) ∧
      (bind.columns = entry.columns ↔ ∀ f ∈ (parseDescribe body []).fields,
        SchemaEntry.isQueryableField f.toDescribedField = true) := by
  obtain ⟨entry, hentry, hcolumns⟩ := table_columns ctx object body s hfresh htooling hoff hbody
  refine ⟨entry, hentry, ?_⟩
  rw [userScan_columns credentials body input bind hscan, hcolumns, ← List.filter_eq_self]
  constructor
  · intro h
    have hlen := congrArg List.length h
    rw [List.length_map, List.length_map] at hlen
    exact List.filter_sublist.eq_of_length hlen.symm
  · intro h
    rw [h]

/-! ### An account with an address -/

def accountBody (type : String) : Text :=
  ("\x7b\"fields\":[\x7b\"name\":\"Id\",\"type\":\"id\"\x7d,\x7b\"name\":\"Site\",\"type\":\"" ++
    type ++ "\"\x7d]\x7d").toList

/-- Describes every object with one body, expansion off. -/
def describingContext (body : Text) : MetadataContext where
  schemaSource := none
  relationships := none
  relationshipDepth := none
  sobjects := .ok []
  toolingDescribe := fun _ => .ok none
  describeFields := fun object => .ok (describeFrom body object).toDescribe.fields
  expandParents := fun _ _ cache => ([], cache)

def accountCall : UserScanInput :=
  ⟨[some "sf".toList, some "Account".toList], none, none, none, none⟩

def anyCredentials : Text → Except BinderException ScanConfig := fun _ => .ok ⟨[], [], 0⟩

def accountBind (type : String) : UserScanBindData :=
  let describe := describeFrom (accountBody type) "ACCOUNT".toList
  ⟨⟨[], [], 0⟩, "ACCOUNT".toList, describe.fields,
    describe.fields.map fun f : ObjectField => f.name,
    describe.fields.map fun f : ObjectField => f.duckdbType, []⟩

theorem accountBind_scan (type : String) :
    buildUserScanBindData anyCredentials (fun _ => .ok (accountBody type)) accountCall =
      .ok (accountBind type) := rfl

theorem accountRecord_fields (type : String) (t : Text)
    (h : (parseDescribe (accountBody type) []).fields.map (fun f : ObjectField => f.sfType) =
      ["id".toList, t]) (f : ObjectField)
    (hf : f ∈ (parseDescribe (accountBody type) []).fields) : f.sfType ∈ ["id".toList, t] := by
  rw [← h]
  exact List.mem_map_of_mem hf

theorem string_account_flat :
    ∃ entry, (SchemaEntry.lookupEntry .tableEntry (some (describingContext (accountBody "string")))
        "Account".toList (SchemaEntry.empty : SchemaEntry Text)).1 = .ok (some entry) ∧
      (accountBind "string").columns = entry.columns := by
  obtain ⟨entry, hentry, hiff⟩ := flat_schema_iff anyCredentials
    (describingContext (accountBody "string")) "Account".toList (accountBody "string")
    (SchemaEntry.empty : SchemaEntry Text) accountCall (accountBind "string")
    (AList.notMem_empty _) (by decide) (by decide) rfl (accountBind_scan "string")
  refine ⟨entry, hentry, hiff.mpr ?_⟩
  intro f hf
  have htype := accountRecord_fields "string" "string".toList (by decide) f hf
  unfold SchemaEntry.isQueryableField
  simp only [List.mem_cons, List.not_mem_nil, or_false] at htype
  rcases htype with h | h <;> rw [h] <;> decide

/-- The scan offers the address, the table has no such column. -/
theorem address_offered :
    ¬ ∀ (ctx : MetadataContext) (object body : Text) (s : SchemaEntry Text) (input : UserScanInput)
      (bind : UserScanBindData) (entry : SalesforceTableEntry), lower object ∉ s.tables →
      ctx.usesTooling = false → ctx.expandsParents = false →
      ctx.describeFields object = .ok (describeFrom body object).toDescribe.fields →
      buildUserScanBindData anyCredentials (fun _ => .ok body) input = .ok bind →
      (SchemaEntry.lookupEntry .tableEntry (some ctx) object s).1 = .ok (some entry) →
      bind.columns = entry.columns := by
  intro h
  obtain ⟨entry, hentry, hcolumns⟩ := table_columns (describingContext (accountBody "address"))
    "Account".toList (accountBody "address") (SchemaEntry.empty : SchemaEntry Text)
    (AList.notMem_empty _) (by decide) (by decide) rfl
  have hsame := h (describingContext (accountBody "address")) "Account".toList
    (accountBody "address") SchemaEntry.empty accountCall (accountBind "address") entry
    (AList.notMem_empty _) (by decide) (by decide) rfl (accountBind_scan "address") hentry
  have hlen := congrArg List.length hsame
  rw [userScan_columns anyCredentials (accountBody "address") accountCall _
    (accountBind_scan "address"), hcolumns, List.length_map, List.length_map] at hlen
  have htwo : (parseDescribe (accountBody "address") []).fields.length = 2 := by decide
  have hone : ((parseDescribe (accountBody "address") []).fields.filter fun f =>
      SchemaEntry.isQueryableField f.toDescribedField).length = 1 := by decide
  rw [htwo, hone] at hlen
  cases hlen

end DuckdbSalesforce
