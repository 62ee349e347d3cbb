import DuckdbSalesforce.Scan.AggregateScan

/-!
# The transport of a scan (`salesforce_scan.cpp`)

`ScanInitGlobal` decides what a scan sends: one aggregate statement, one
COUNT(), Bulk chunks or REST pages. Bulk has no base64 fields, which a guard
looks for in the projection.
-/

namespace DuckdbSalesforce

/-! ### The guard -/

mutual
/-- The path of the first base64 field at or below the field, or nothing. -/
def findProjectedBase64 (pre : Text) : SalesforceField → Text
  | ⟨name, sfType, _, _, _, relationshipName, isRelationship, children⟩ =>
    if isRelationship then findBase64Child (pre ++ relationshipName ++ ".".toList) children
    else if lower sfType = "base64".toList then pre ++ name
    else []

def findBase64Child (pre : Text) : List SalesforceField → Text
  | [] => []
  | c :: cs =>
    if findProjectedBase64 pre c = [] then findBase64Child pre cs else findProjectedBase64 pre c
end

/-! ### Init -/

/-- Session settings, `none` when unset or NULL. -/
structure ScanSettings where
  forceTransport : Option Text
  queryMode : Option Text
  autoProbe : Option Bool
  autoBulkThreshold : Option ℤ
  bulkRequirePredicate : Option Bool
  bulkChunks : Option ℤ

/-- What ATTACH can override, each empty or 0 when it does not. -/
structure ScanConfig where
  transport : Text
  queryMode : Text
  bulkChunks : ℤ

/-- The answers of the session: `TryEstimateCount`, `TryMinMaxId` and
`TryAggregateQuery`. -/
structure ScanAnswers where
  estimateCount : Text → Option ℤ
  minMaxId : Text → Option (Text × Text)
  aggregateQuery : Text → Option Text

inductive ScanPlan where
  | aggregate (s : AggregateScanState)
  | countOnly (total : ℤ)
  | bulk (chunkSoqls : List Text)
  | rest (soql : Text)

structure ScanStart where
  queryAll : Bool
  plan : ScanPlan

def settingError (setting allowed value : Text) : Text :=
  setting ++ " must be ".toList ++ allowed ++ " (got '".toList ++ value ++ "').".toList

/-- A setting in lower case, which must be one of its values, and the override. -/
def textSetting (setting allowed : Text) (values : List Text) (dflt : Text) (set : Option Text)
    (override : Text) : Except Text Text :=
  let value := (set.map lower).getD dflt
  if value ∉ values then .error (settingError setting allowed value)
  else .ok (if override = [] then value else lower override)

def scanTransport (config : ScanConfig) (settings : ScanSettings) : Except Text Text :=
  textSetting "sf_force_transport".toList "'rest', 'bulk' or 'auto'".toList
    ["rest".toList, "bulk".toList, "auto".toList] "rest".toList settings.forceTransport
    config.transport

def scanQueryMode (config : ScanConfig) (settings : ScanSettings) : Except Text Text :=
  textSetting "sf_query_mode".toList "'query' or 'queryAll'".toList
    ["query".toList, "queryall".toList] "query".toList settings.queryMode config.queryMode

section Init
variable (bind : SalesforceScanBindData)

/-- The first base64 field of the projection. -/
def projectedBase64 : List ℕ → Text
  | [] => []
  | col :: cols =>
    match bind.fields[col]? with
    | none => projectedBase64 cols
    | some f =>
      if findProjectedBase64 [] f = [] then projectedBase64 cols else findProjectedBase64 [] f

/-- No real column is asked for. -/
def aggregateOnly (columnIds : List ℕ) : Bool :=
  columnIds.all fun col => decide (bind.fields.length ≤ col)

/-- `auto` is resolved once, by the row count. -/
def effectiveTransport (settings : ScanSettings) (answers : ScanAnswers) (columnIds : List ℕ)
    (transport : Text) : Text :=
  if transport = "auto".toList then
    if aggregateOnly bind columnIds then "rest".toList
    else if settings.autoProbe.getD true then
      match answers.estimateCount (countSoql bind) with
      | none => "rest".toList
      | some n =>
        if n > settings.autoBulkThreshold.getD 50000 then "bulk".toList else "rest".toList
    else "rest".toList
  else transport

def base64Error (path : Text) : Text :=
  "projected base64 field '".toList ++ path ++
    "' is not supported by Bulk API 2.0 CSV; use 'rest' or 'auto'.".toList

def predicateError : Text :=
  "Bulk read on '".toList ++ bind.object ++
    "' has no pushed predicate (full-object extraction). ".toList ++
    "sf_bulk_require_predicate is on: add a server-filterable WHERE — e.g. a ".toList ++
    "CreatedDate/SystemModstamp range — or disable the guard to proceed.".toList

/-- A forced `bulk` on a base64 field is an error, `auto` falls back. -/
def guardedTransport (path transport effective : Text) : Except Text Text :=
  if path = [] then .ok effective
  else if transport = "bulk".toList then .error (base64Error path)
  else .ok (if effective = "bulk".toList then "rest".toList else effective)

def countPushdown (answers : ScanAnswers) (columnIds : List ℕ) (effective : Text) : Option ℤ :=
  if aggregateOnly bind columnIds ∧ bind.residualFilterCount = 0 ∧ effective ≠ "bulk".toList then
    answers.estimateCount (countSoql bind)
  else none

/-- The row scan, once the transport is known. -/
def scanPlan (config : ScanConfig) (settings : ScanSettings) (answers : ScanAnswers)
    (columnIds : List ℕ) (effective : Text) : Except Text ScanPlan :=
  if effective = "bulk".toList ∧ combinedWhere bind = [] ∧ settings.bulkRequirePredicate = some true then
    .error (predicateError bind)
  else
    match countPushdown bind answers columnIds effective with
    | some n => .ok (.countOnly n)
    | none =>
      if effective = "bulk".toList then
        .ok (.bulk (bulkChunkSoqls bind answers.minMaxId
          (if config.bulkChunks > 0 then config.bulkChunks else settings.bulkChunks.getD 1) columnIds))
      else .ok (.rest (rowSoql bind columnIds))

def scanInitGlobal (config : ScanConfig) (settings : ScanSettings) (answers : ScanAnswers)
    (columnIds : List ℕ) : Except Text ScanStart :=
  match scanTransport config settings with
  | .error e => .error e
  | .ok transport =>
    match scanQueryMode config settings with
    | .error e => .error e
    | .ok mode =>
      let queryAll := mode == "queryall".toList
      if bind.pushedAggregates ≠ [] then
        match scanInitAggregate bind answers.aggregateQuery with
        | .error e => .error e
        | .ok s => .ok ⟨queryAll, .aggregate s⟩
      else
        match guardedTransport (projectedBase64 bind columnIds) transport
            (effectiveTransport bind settings answers columnIds transport) with
        | .error e => .error e
        | .ok effective =>
          match scanPlan bind config settings answers columnIds effective with
          | .error e => .error e
          | .ok plan => .ok ⟨queryAll, plan⟩

end Init

/-! ### What the select list denotes -/

mutual
/-- `emitRelationshipSoql`, each path with its field. -/
def relationshipItems (path : Text) : SalesforceField → List (Text × SalesforceField)
  | ⟨_, _, _, _, _, _, _, children⟩ => childItems path children

def childItems (path : Text) : List SalesforceField → List (Text × SalesforceField)
  | [] => []
  | c :: cs =>
    (if c.isRelationship then relationshipItems (path ++ ".".toList ++ c.name) c
      else [(path ++ ".".toList ++ c.name, c)]) ++ childItems path cs
end

def fieldItems (path : Text) (f : SalesforceField) : List (Text × SalesforceField) :=
  if f.isRelationship then relationshipItems path f else [(path, f)]

/-- What a column puts into the select list. -/
def columnItems (f : SalesforceField) : List (Text × SalesforceField) :=
  fieldItems (if f.isRelationship then f.relationshipName else f.name) f

section Items
variable (bind : SalesforceScanBindData) (columnIds : List ℕ)

def projected : List SalesforceField := columnIds.filterMap fun col => bind.fields[col]?

def projectedItems : List (Text × SalesforceField) := (projected bind columnIds).flatMap columnItems

/-- The select list, each item with the field it denotes. -/
def selectItems : List (Text × SalesforceField) :=
  if (projectedItems bind columnIds).isEmpty then (bind.fields.take 1).map fun f => (f.name, f)
  else projectedItems bind columnIds

end Items

mutual
theorem relationshipItems_texts (path : Text) :
    (f : SalesforceField) → (relationshipItems path f).map Prod.fst = emitRelationshipSoql path f
  | ⟨_, _, _, _, _, _, _, children⟩ => childItems_texts path children

theorem childItems_texts (path : Text) :
    (cs : List SalesforceField) → (childItems path cs).map Prod.fst = emitChildren path cs
  | [] => rfl
  | c :: cs => by
    rw [childItems, emitChildren, List.map_append, childItems_texts path cs]
    by_cases hrel : c.isRelationship = true
    · rw [if_pos hrel, if_pos hrel, relationshipItems_texts]
    · rw [if_neg hrel, if_neg hrel]
      rfl
end

def columnTexts (bind : SalesforceScanBindData) (col : ℕ) : List Text :=
  match bind.fields[col]? with
  | none => []
  | some f => if f.isRelationship then emitRelationshipSoql f.relationshipName f else [f.name]

theorem columnItems_texts (f : SalesforceField) : (columnItems f).map Prod.fst =
    if f.isRelationship then emitRelationshipSoql f.relationshipName f else [f.name] := by
  unfold columnItems fieldItems
  by_cases hrel : f.isRelationship = true
  · rw [if_pos hrel, if_pos hrel, if_pos hrel, relationshipItems_texts]
  · rw [if_neg hrel, if_neg hrel, if_neg hrel]
    rfl

theorem projectedItems_texts (bind : SalesforceScanBindData) (columnIds : List ℕ) :
    (projectedItems bind columnIds).map Prod.fst = columnIds.flatMap (columnTexts bind) := by
  unfold projectedItems projected
  induction columnIds with
  | nil => rfl
  | cons col cols ih =>
    rw [List.flatMap_cons, ← ih, columnTexts]
    cases hf : bind.fields[col]? with
    | none => rw [List.filterMap_cons_none hf, List.nil_append]
    | some f =>
      rw [List.filterMap_cons_some hf, List.flatMap_cons, List.map_append, columnItems_texts f]

theorem selectItems_texts (bind : SalesforceScanBindData) (columnIds : List ℕ) :
    (selectItems bind columnIds).map Prod.fst = selectFields bind columnIds := by
  have hselect : selectFields bind columnIds = if columnIds.flatMap (columnTexts bind) = [] then
      (bind.fields.take 1).map SalesforceField.name else columnIds.flatMap (columnTexts bind) := rfl
  rw [hselect, ← projectedItems_texts, selectItems]
  by_cases hnone : projectedItems bind columnIds = []
  · rw [hnone, List.isEmpty_nil, if_pos rfl, List.map_nil, if_pos rfl, List.map_map]
    rfl
  · rw [if_neg (by rw [List.isEmpty_iff]; exact hnone), if_neg (by rw [List.map_eq_nil_iff]; exact hnone)]

/-! ### What the guard sees -/

def isBase64 (f : SalesforceField) : Bool := lower f.sfType == "base64".toList

mutual
/-- The field is no STRUCT, or one with such a field somewhere below. -/
def hasScalar : SalesforceField → Bool
  | ⟨_, _, _, _, _, _, isRelationship, children⟩ => if isRelationship then anyScalar children else true

def anyScalar : List SalesforceField → Bool
  | [] => false
  | c :: cs => hasScalar c || anyScalar cs
end

mutual
theorem fieldItems_nil (path : Text) :
    (f : SalesforceField) → (fieldItems path f = [] ↔ hasScalar f = false)
  | ⟨_, _, _, _, _, _, true, children⟩ => childItems_nil path children
  | ⟨_, _, _, _, _, _, false, _⟩ => iff_of_false (List.cons_ne_nil _ _) Bool.noConfusion

theorem childItems_nil (path : Text) :
    (cs : List SalesforceField) → (childItems path cs = [] ↔ anyScalar cs = false)
  | [] => iff_of_true rfl rfl
  | c :: cs => by
    have hc := fieldItems_nil (path ++ ".".toList ++ c.name) c
    have hcs := childItems_nil path cs
    rw [childItems, List.append_eq_nil_iff, anyScalar, Bool.or_eq_false_iff, ← hc, ← hcs]
    rfl
end

/-- None of the items denotes a base64 field. -/
def NoBase64 (items : List (Text × SalesforceField)) : Prop := ∀ item ∈ items, isBase64 item.2 = false

theorem noBase64_single (path : Text) (f : SalesforceField) :
    NoBase64 [(path, f)] ↔ ¬ lower f.sfType = "base64".toList := by
  rw [NoBase64, List.forall_mem_singleton, isBase64, beq_eq_false_iff_ne]

mutual
/-- Behind some text the guard finds nothing exactly when there is nothing. -/
theorem find_nil_iff (pre path : Text) (hpre : pre ≠ []) :
    (f : SalesforceField) → (findProjectedBase64 pre f = [] ↔ NoBase64 (fieldItems path f))
  | ⟨_, _, _, _, _, relationshipName, true, children⟩ =>
    findChild_nil_iff (pre ++ relationshipName ++ ".".toList) path (by simp) children
  | ⟨name, sfType, type, filterable, sortable, relationshipName, false, children⟩ => by
    have hitem := noBase64_single path
      ⟨name, sfType, type, filterable, sortable, relationshipName, false, children⟩
    rw [fieldItems, if_neg Bool.false_ne_true, hitem, findProjectedBase64, if_neg Bool.false_ne_true]
    by_cases hbase : lower sfType = "base64".toList
    · rw [if_pos hbase]
      refine iff_of_false ?_ fun h => h hbase
      intro hnil
      exact hpre (List.append_eq_nil_iff.mp hnil).1
    · rw [if_neg hbase]
      exact iff_of_true rfl hbase

theorem findChild_nil_iff (pre path : Text) (hpre : pre ≠ []) :
    (cs : List SalesforceField) → (findBase64Child pre cs = [] ↔ NoBase64 (childItems path cs))
  | [] => iff_of_true rfl (List.forall_mem_nil _)
  | c :: cs => by
    have hc := find_nil_iff pre (path ++ ".".toList ++ c.name) hpre c
    have hcs := findChild_nil_iff pre path hpre cs
    have hsplit : NoBase64 (childItems path (c :: cs)) ↔
        NoBase64 (fieldItems (path ++ ".".toList ++ c.name) c) ∧ NoBase64 (childItems path cs) :=
      List.forall_mem_append
    rw [hsplit, ← hc, ← hcs, findBase64Child]
    by_cases hnil : findProjectedBase64 pre c = []
    · rw [if_pos hnil]
      exact (and_iff_right hnil).symm
    · rw [if_neg hnil]
      exact iff_of_false hnil fun h => hnil h.1
end

section Guard
variable (bind : SalesforceScanBindData)

/-- At the top nothing stands before a name, so that a field without one is
missed. -/
theorem findTop_nil_iff (f : SalesforceField) :
    findProjectedBase64 [] f = [] ↔
      (NoBase64 (columnItems f) ∨ f.isRelationship = false ∧ f.name = []) := by
  obtain ⟨name, sfType, type, filterable, sortable, relationshipName, isRelationship, children⟩ := f
  cases isRelationship with
  | true =>
    have hchild := findChild_nil_iff ([] ++ relationshipName ++ ".".toList) relationshipName (by simp)
      children
    refine ⟨fun h => Or.inl (hchild.mp h), ?_⟩
    intro h
    rcases h with h | h
    · exact hchild.mpr h
    · exact absurd h.1 Bool.noConfusion
  | false =>
    have hitem := noBase64_single name
      ⟨name, sfType, type, filterable, sortable, relationshipName, false, children⟩
    rw [columnItems, fieldItems, if_neg Bool.false_ne_true, if_neg Bool.false_ne_true, hitem,
      findProjectedBase64, if_neg Bool.false_ne_true]
    by_cases hbase : lower sfType = "base64".toList
    · rw [if_pos hbase, List.nil_append]
      refine ⟨fun h => Or.inr ⟨rfl, h⟩, ?_⟩
      intro h
      rcases h with h | h
      · exact absurd hbase h
      · exact h.2
    · rw [if_neg hbase]
      exact iff_of_true rfl (Or.inl hbase)

theorem projectedBase64_nil_iff (columnIds : List ℕ) :
    projectedBase64 bind columnIds = [] ↔
      ∀ f ∈ projected bind columnIds, findProjectedBase64 [] f = [] := by
  unfold projected
  induction columnIds with
  | nil => exact iff_of_true rfl (List.forall_mem_nil _)
  | cons col cols ih =>
    rw [projectedBase64]
    cases hf : bind.fields[col]? with
    | none => rw [List.filterMap_cons_none hf, ← ih]
    | some f =>
      rw [List.filterMap_cons_some hf, List.forall_mem_cons, ← ih]
      simp only
      by_cases hnil : findProjectedBase64 [] f = []
      · rw [if_pos hnil]
        exact (and_iff_right hnil).symm
      · rw [if_neg hnil]
        exact iff_of_false hnil fun h => hnil h.1

/-- What a start was decided by. -/
theorem scanInitGlobal_ok (config : ScanConfig) (settings : ScanSettings) (answers : ScanAnswers)
    (columnIds : List ℕ) (start : ScanStart)
    (h : scanInitGlobal bind config settings answers columnIds = .ok start) :
    ∃ transport mode, scanTransport config settings = .ok transport ∧
      scanQueryMode config settings = .ok mode ∧ start.queryAll = (mode == "queryall".toList) ∧
      ((bind.pushedAggregates ≠ [] ∧
          ∃ s, scanInitAggregate bind answers.aggregateQuery = .ok s ∧ start.plan = .aggregate s) ∨
        (bind.pushedAggregates = [] ∧
          ∃ effective, guardedTransport (projectedBase64 bind columnIds) transport
              (effectiveTransport bind settings answers columnIds transport) = .ok effective ∧
            scanPlan bind config settings answers columnIds effective = .ok start.plan)) := by
  unfold scanInitGlobal at h
  cases htransport : scanTransport config settings with
  | error e =>
    rw [htransport] at h
    cases h
  | ok transport =>
    cases hmode : scanQueryMode config settings with
    | error e =>
      rw [htransport, hmode] at h
      cases h
    | ok mode =>
      rw [htransport, hmode] at h
      dsimp only at h
      refine ⟨transport, mode, rfl, rfl, ?_⟩
      by_cases hagg : bind.pushedAggregates ≠ []
      · rw [if_pos hagg] at h
        cases hinit : scanInitAggregate bind answers.aggregateQuery with
        | error e =>
          rw [hinit] at h
          cases h
        | ok s =>
          rw [hinit] at h
          cases h
          exact ⟨rfl, .inl ⟨hagg, s, rfl, rfl⟩⟩
      · rw [if_neg hagg] at h
        cases hguard : guardedTransport (projectedBase64 bind columnIds) transport
            (effectiveTransport bind settings answers columnIds transport) with
        | error e =>
          rw [hguard] at h
          cases h
        | ok effective =>
          rw [hguard] at h
          dsimp only at h
          cases hplan : scanPlan bind config settings answers columnIds effective with
          | error e =>
            rw [hplan] at h
            cases h
          | ok plan =>
            rw [hplan] at h
            cases h
            exact ⟨rfl, .inr ⟨not_not.mp hagg, effective, rfl, hplan⟩⟩

/-- The plan follows the transport: REST where it is not Bulk, or a COUNT(). -/
theorem scanPlan_ok (config : ScanConfig) (settings : ScanSettings) (answers : ScanAnswers)
    (columnIds : List ℕ) (effective : Text) (plan : ScanPlan)
    (h : scanPlan bind config settings answers columnIds effective = .ok plan) :
    (effective = "bulk".toList ∧ plan = .bulk (bulkChunkSoqls bind answers.minMaxId
        (if config.bulkChunks > 0 then config.bulkChunks else settings.bulkChunks.getD 1) columnIds)) ∨
      (effective ≠ "bulk".toList ∧ (plan = .rest (rowSoql bind columnIds) ∨
        ∃ n, countPushdown bind answers columnIds effective = some n ∧ plan = .countOnly n)) := by
  unfold scanPlan at h
  split at h
  · cases h
  · cases hcount : countPushdown bind answers columnIds effective with
    | some n =>
      rw [hcount] at h
      have hnot : effective ≠ "bulk".toList := by
        intro hbulk
        rw [countPushdown, if_neg fun hall => hall.2.2 hbulk] at hcount
        cases hcount
      exact .inr ⟨hnot, .inr ⟨n, rfl, (Except.ok.inj h).symm⟩⟩
    | none =>
      rw [hcount] at h
      dsimp only at h
      by_cases hbulk : effective = "bulk".toList
      · rw [if_pos hbulk] at h
        exact .inl ⟨hbulk, (Except.ok.inj h).symm⟩
      · rw [if_neg hbulk] at h
        exact .inr ⟨hbulk, .inl (Except.ok.inj h).symm⟩

theorem guardedTransport_ok (path transport effective guarded : Text)
    (h : guardedTransport path transport effective = .ok guarded) :
    (path = [] ∧ guarded = effective) ∨ (path ≠ [] ∧ transport ≠ "bulk".toList ∧
      guarded = if effective = "bulk".toList then "rest".toList else effective) := by
  unfold guardedTransport at h
  by_cases hpath : path = []
  · rw [if_pos hpath] at h
    exact .inl ⟨hpath, (Except.ok.inj h).symm⟩
  · rw [if_neg hpath] at h
    by_cases hbulk : transport = "bulk".toList
    · rw [if_pos hbulk] at h
      cases h
    · rw [if_neg hbulk] at h
      exact .inr ⟨hpath, hbulk, (Except.ok.inj h).symm⟩

/-- Bulk is used only when the guard finds nothing. -/
theorem bulk_guarded (config : ScanConfig) (settings : ScanSettings) (answers : ScanAnswers)
    (columnIds : List ℕ) (queryAll : Bool) (soqls : List Text)
    (h : scanInitGlobal bind config settings answers columnIds = .ok ⟨queryAll, .bulk soqls⟩) :
    projectedBase64 bind columnIds = [] ∧
      ∃ chunks, soqls = bulkChunkSoqls bind answers.minMaxId chunks columnIds := by
  obtain ⟨transport, mode, -, -, -, hstart⟩ :=
    scanInitGlobal_ok bind config settings answers columnIds _ h
  obtain ⟨-, s, -, hplan⟩ | ⟨-, effective, hguard, hplan⟩ := hstart
  · cases hplan
  · obtain ⟨hbulk, hsoqls⟩ | ⟨-, hrest | ⟨n, -, hcount⟩⟩ :=
      scanPlan_ok bind config settings answers columnIds effective _ hplan
    · refine ⟨?_, _, ScanPlan.bulk.inj hsoqls⟩
      obtain ⟨hpath, -⟩ | ⟨-, -, hguarded⟩ := guardedTransport_ok _ _ _ _ hguard
      · exact hpath
      · -- the guard has turned Bulk into REST
        rw [hbulk] at hguarded
        split at hguarded
        · exact absurd hguarded (by decide)
        · rename_i hnot
          exact absurd hguarded.symm hnot
    · cases hrest
    · cases hcount

theorem selectItems_iff (columnIds : List ℕ) (hguard : projectedBase64 bind columnIds = []) :
    NoBase64 (selectItems bind columnIds) ↔
      ((∀ f ∈ projected bind columnIds, hasScalar f = false) → ∀ f ∈ bind.fields.head?, isBase64 f = false) ∧
        ∀ f ∈ projected bind columnIds, f.isRelationship = false → f.name = [] → isBase64 f = false := by
  have hscalar : projectedItems bind columnIds = [] ↔
      ∀ f ∈ projected bind columnIds, hasScalar f = false := by
    rw [projectedItems, List.flatMap_eq_nil_iff]
    exact forall₂_congr fun f _ => fieldItems_nil _ f
  have hseen := (projectedBase64_nil_iff bind columnIds).mp hguard
  have hnameless : NoBase64 (projectedItems bind columnIds) ↔
      ∀ f ∈ projected bind columnIds, f.isRelationship = false → f.name = [] → isBase64 f = false := by
    have hcolumns : NoBase64 (projectedItems bind columnIds) ↔
        ∀ f ∈ projected bind columnIds, NoBase64 (columnItems f) := by
      unfold NoBase64 projectedItems
      rw [List.forall_mem_flatMap]
    rw [hcolumns]
    apply forall₂_congr
    intro f hf
    have hone : f.isRelationship = false → (NoBase64 (columnItems f) ↔ isBase64 f = false) := by
      intro hrel
      have hitems : columnItems f = [(f.name, f)] := by
        rw [columnItems, fieldItems, if_neg (by rw [hrel]; exact Bool.false_ne_true),
          if_neg (by rw [hrel]; exact Bool.false_ne_true)]
      rw [hitems, NoBase64, List.forall_mem_singleton]
    refine ⟨fun h hrel _ => (hone hrel).mp h, ?_⟩
    intro h
    rcases (findTop_nil_iff f).mp (hseen f hf) with hnone | ⟨hrel, hname⟩
    · exact hnone
    · exact (hone hrel).mpr (h hrel hname)
  rw [← hscalar]
  by_cases hnone : projectedItems bind columnIds = []
  · have hselect : selectItems bind columnIds = (bind.fields.take 1).map fun f => (f.name, f) := by
      rw [selectItems, hnone, List.isEmpty_nil, if_pos rfl]
    have hvacuous : NoBase64 (projectedItems bind columnIds) := by
      rw [hnone]
      exact List.forall_mem_nil _
    rw [hselect, ← hnameless, and_iff_left hvacuous, forall_prop_of_true hnone]
    cases hfields : bind.fields with
    | nil => exact iff_of_true (List.forall_mem_nil _) (by intro f hf; cases hf)
    | cons f fs =>
      rw [List.take_succ_cons, List.take_zero, List.map_singleton, NoBase64, List.forall_mem_singleton]
      simp
  · have hselect : selectItems bind columnIds = projectedItems bind columnIds := by
      rw [selectItems, if_neg (by rw [List.isEmpty_iff]; exact hnone)]
    rw [hselect, hnameless]
    exact ⟨fun h => ⟨fun hnil => absurd hnil hnone, h⟩, fun h => h.2⟩

/-- A projected column holds a scalar, or else the first field, which stands in,
is not base64; and no projected base64 column is without a name. -/
structure GuardCovers (columnIds : List ℕ) : Prop where
  first : (∀ f ∈ projected bind columnIds, hasScalar f = false) →
    ∀ f ∈ bind.fields.head?, isBase64 f = false
  named : ∀ f ∈ projected bind columnIds, f.isRelationship = false → f.name = [] → isBase64 f = false

/-- The statements of a Bulk scan select no base64 field exactly when the guard
covers their select list. -/
theorem base64_off_bulk_iff (config : ScanConfig) (settings : ScanSettings) (answers : ScanAnswers)
    (columnIds : List ℕ) (queryAll : Bool) (soqls : List Text)
    (h : scanInitGlobal bind config settings answers columnIds = .ok ⟨queryAll, .bulk soqls⟩) :
    (∀ soql ∈ soqls, ∃ w, soql =
        buildSelectSoql bind.object ((selectItems bind columnIds).map Prod.fst) w none) ∧
      (NoBase64 (selectItems bind columnIds) ↔ GuardCovers bind columnIds) := by
  obtain ⟨hguard, chunks, hsoqls⟩ := bulk_guarded bind config settings answers columnIds queryAll soqls h
  refine ⟨?_, ?_⟩
  · intro soql hsoql
    rw [hsoqls] at hsoql
    obtain ⟨w, _, hw⟩ := List.mem_map.mp hsoql
    exact ⟨w, by rw [selectItems_texts, ← hw]⟩
  · rw [selectItems_iff bind columnIds hguard]
    exact ⟨fun h => ⟨h.1, h.2⟩, fun h => ⟨h.first, h.named⟩⟩

end Guard

/-! ### Forced Bulk -/

def blobBind (names : List (String × String)) : SalesforceScanBindData where
  object := "X".toList
  fields := names.map fun n => .flat n.1.toList n.2.toList .varchar true true
  pushedWhere := []
  rawWhere := []
  residualFilterCount := 0
  pushedAggregates := []

def forcedBulk : ScanSettings := ⟨some "bulk".toList, none, none, none, none, none⟩

def noOverride : ScanConfig := ⟨[], [], 0⟩

def noAnswers : ScanAnswers := ⟨fun _ => none, fun _ => none, fun _ => none⟩

/-- The Id is asked for, the blob is not. -/
theorem id_off_base64 :
    NoBase64 (selectItems (blobBind [("Id", "id"), ("Blob", "base64")]) [0]) := by
  apply (base64_off_bulk_iff (blobBind [("Id", "id"), ("Blob", "base64")]) noOverride forcedBulk noAnswers
    [0] false ["SELECT Id FROM X".toList] rfl).2.mpr
  refine ⟨?_, ?_⟩
  · intro hnone
    exact absurd (hnone _ (List.mem_singleton_self _)) (by decide)
  · intro f hf _ hname
    rw [List.mem_singleton.mp hf] at hname
    cases hname

/-- `COUNT(*)` by forced Bulk selects the first field, whatever it is. -/
theorem blob_counted :
    ¬ ∀ (bind : SalesforceScanBindData) (config : ScanConfig) (settings : ScanSettings)
      (answers : ScanAnswers) (columnIds : List ℕ) (queryAll : Bool) (soqls : List Text),
      scanInitGlobal bind config settings answers columnIds = .ok ⟨queryAll, .bulk soqls⟩ →
        NoBase64 (selectItems bind columnIds) := by
  intro h
  have hblob := h (blobBind [("Blob", "base64"), ("Name", "string")]) noOverride forcedBulk noAnswers
    [18446744073709551615] false ["SELECT Blob FROM X".toList] rfl _ (List.mem_singleton_self _)
  exact absurd hblob (by decide)

end DuckdbSalesforce
