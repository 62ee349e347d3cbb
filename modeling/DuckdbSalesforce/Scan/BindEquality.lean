import Mathlib
import DuckdbSalesforce.Scan.ScanRequest

/-!
# Equal bind data (`salesforce_scan.cpp`)

`Equals` compares the object and the column names. Whether two scans ask for the
same and read it alike is decided by the other members that a scan reads.
-/

namespace DuckdbSalesforce

/-! ### The members that are read -/

def isFree (f : SalesforceField) : Bool := findProjectedBase64 [] f == []

section Members
variable (a : SalesforceScanFunctionData)

/-- The transport of ATTACH; `auto` never leaves REST when every field is
base64. -/
def SalesforceScanFunctionData.transportOverride : Option ScanTransport :=
  if a.config.transport = [] then none
  else if ScanTransport.ofText (lower a.config.transport) = .auto ∧ a.fields.any isFree = false then
    some .rest
  else some (.ofText (lower a.config.transport))

def SalesforceScanFunctionData.queryModeOverride : Option Bool :=
  if a.config.queryMode = [] then none else some (lower a.config.queryMode == "queryall".toList)

def SalesforceScanFunctionData.chunkOverride : Option ℕ :=
  if a.config.bulkChunks > 0 then some (chunkCount a.config.bulkChunks) else none

/-- The columns, without those that a forced Bulk scan refuses. -/
def SalesforceScanFunctionData.columnReads : List (Option SalesforceField) :=
  a.fields.map fun f =>
    if a.transportOverride = some .bulk ∧ isFree f = false then none else some f.readMembers

def termReads (pa : SalesforcePushedAggregate) : Text × Text × SalesforceField :=
  (pa.func, pa.field, pa.emit.readMembers)

end Members

/-- Two row scans read the same: what REST sends is the combined predicate, what
Bulk sends the pushed one. -/
structure SameRowReads (a b : SalesforceScanFunctionData) : Prop where
  transport : a.transportOverride = b.transportOverride
  columns : a.columnReads = b.columnReads
  rest : a.transportOverride ≠ some .bulk →
    combinedWhere a.toSalesforceScanBindData = combinedWhere b.toSalesforceScanBindData ∧
      (a.residualFilterCount = 0 ↔ b.residualFilterCount = 0)
  bulk : a.transportOverride ≠ some .rest → a.pushedWhere = b.pushedWhere ∧
    (combinedWhere a.toSalesforceScanBindData = [] ↔ combinedWhere b.toSalesforceScanBindData = []) ∧
      a.chunkOverride = b.chunkOverride

structure SameReads (a b : SalesforceScanFunctionData) : Prop where
  connection : a.connection = b.connection
  queryMode : a.queryModeOverride = b.queryModeOverride
  aggregates : a.pushedAggregates = [] ↔ b.pushedAggregates = []
  terms : a.pushedAggregates ≠ [] → a.pushedWhere = b.pushedWhere ∧
    a.pushedAggregates.map termReads = b.pushedAggregates.map termReads
  rows : a.pushedAggregates = [] → SameRowReads a b

/-- For every projection, every setting and every org: the same request, read
alike. -/
def SameScans (a b : SalesforceScanFunctionData) : Prop :=
  ∀ settings columnIds org, scanRequest a settings columnIds org = scanRequest b settings columnIds org

/-! ### Overrides and settings -/

theorem scanTransport_override (config : ScanConfig) (settings : ScanSettings) :
    scanTransport config settings = (scanTransport noOverride settings).map fun v =>
      if config.transport = [] then v else lower config.transport := by
  unfold scanTransport textSetting
  dsimp only
  split <;> rfl

theorem scanQueryMode_override (config : ScanConfig) (settings : ScanSettings) :
    scanQueryMode config settings = (scanQueryMode noOverride settings).map fun v =>
      if config.queryMode = [] then v else lower config.queryMode := by
  unfold scanQueryMode textSetting
  dsimp only
  split <;> rfl

section Override
variable (a : SalesforceScanFunctionData) (settings : ScanSettings) (columnIds : List ℕ)

theorem probeExceeds_real (answers : ScanAnswers)
    (h : probeExceeds a.toSalesforceScanBindData settings answers columnIds = true)
    (hfree : projectedBase64 a.toSalesforceScanBindData columnIds = []) :
    a.fields.any isFree = true := by
  unfold probeExceeds aggregateOnly at h
  simp only [Bool.and_eq_true, Bool.not_eq_true', List.all_eq_false] at h
  obtain ⟨⟨⟨col, hcol, hreal⟩, -⟩, -⟩ := h
  rw [decide_eq_true_eq, Nat.not_le] at hreal
  rw [List.any_eq_true]
  refine ⟨a.fields[col], List.getElem_mem hreal, ?_⟩
  rw [isFree, beq_iff_eq]
  apply (projectedBase64_nil_iff a.toSalesforceScanBindData columnIds).mp hfree
  rw [projected, List.mem_filterMap]
  exact ⟨col, hcol, List.getElem?_eq_getElem hreal⟩

/-- The override as it decides the plan. -/
theorem rowPlan_override (answers : ScanAnswers) (v : Text) :
    rowPlan a.toSalesforceScanBindData a.config.overrides settings answers columnIds
        (.ofText (if a.config.transport = [] then v else lower a.config.transport)) =
      rowPlan a.toSalesforceScanBindData a.config.overrides settings answers columnIds
        (a.transportOverride.getD (.ofText v)) := by
  unfold SalesforceScanFunctionData.transportOverride
  by_cases hset : a.config.transport = []
  · rw [if_pos hset, if_pos hset]
    rfl
  · rw [if_neg hset, if_neg hset]
    by_cases hauto : ScanTransport.ofText (lower a.config.transport) = .auto ∧
        a.fields.any isFree = false
    · rw [if_pos hauto, hauto.1, Option.getD_some, rowPlan, rowPlan, if_neg]
      intro h
      obtain ⟨hprobe, hfree⟩ := h
      rw [probeExceeds_real a settings columnIds answers hprobe hfree] at hauto
      cases hauto.2
    · rw [if_neg hauto, Option.getD_some]

theorem scanRequest_override (org : OrgContent) : scanRequest a settings columnIds org =
    (scanTransport noOverride settings).toOption.bind fun v =>
      (scanQueryMode noOverride settings).toOption.bind fun m =>
        let queryAll := a.queryModeOverride.getD (m == "queryall".toList)
        if a.pushedAggregates ≠ [] then
          some ⟨a.connection, queryAll, .aggregate (aggregateSoql a.toSalesforceScanBindData)
            (aggregateTerms a.toSalesforceScanBindData), []⟩
        else
          (rowPlan a.toSalesforceScanBindData a.config.overrides settings
              (org.answers a.connection queryAll) columnIds (a.transportOverride.getD (.ofText v))).map
            fun p => ⟨a.connection, queryAll, .plan p,
              (a.columns columnIds).map (Option.map SalesforceField.readMembers)⟩ := by
  have hmode : ∀ m : Text,
      ((if a.config.queryMode = [] then m else lower a.config.queryMode) == "queryall".toList) =
        a.queryModeOverride.getD (m == "queryall".toList) := by
    intro m
    unfold SalesforceScanFunctionData.queryModeOverride
    split <;> rfl
  unfold scanRequest
  rw [scanTransport_override, scanQueryMode_override]
  cases scanTransport noOverride settings with
  | error e => rfl
  | ok v =>
    cases scanQueryMode noOverride settings with
    | error e => rfl
    | ok m =>
      dsimp only [Except.map, Except.toOption, Option.bind_some, SalesforceConfig.overrides]
      rw [hmode m, ← rowPlan_override]

end Override

/-! ### What the statements are made of -/

theorem columnTexts_read (f : SalesforceField) :
    (if f.isRelationship then emitRelationshipSoql f.relationshipName f else [f.name]) =
      if f.readMembers.isRelationship then
        emitRelationshipSoql f.readMembers.relationshipName f.readMembers
      else [f.readMembers.name] := by
  rw [readMembers_isRelationship, readMembers_name]
  by_cases hrel : f.isRelationship = true
  · rw [if_pos hrel, if_pos hrel, readMembers_relationshipName f hrel, emitRelationship_read _ f hrel]
  · rw [if_neg hrel, if_neg hrel]

theorem isFree_read (f : SalesforceField) : isFree f.readMembers = isFree f := by
  rw [isFree, isFree, findBase64_read]

section Alike
variable {a b : SalesforceScanFunctionData}

theorem equals_iff : a.equals b = true ↔ a.object = b.object ∧ a.columnNames = b.columnNames := by
  rw [SalesforceScanFunctionData.equals, Bool.and_eq_true, beq_iff_eq, beq_iff_eq]

theorem equals_names (h : a.equals b = true) :
    a.fields.map SalesforceField.name = b.fields.map SalesforceField.name := by
  rw [← a.named, ← b.named]
  exact (equals_iff.mp h).2

/-- What two options agree on carries over to all that it decides. -/
theorem map_alike {α β γ : Type} {x y : Option α} {k : α → γ} (h : x.map k = y.map k) (φ : α → β)
    (hφ : ∀ u v, x = some u → y = some v → k u = k v → φ u = φ v) : x.map φ = y.map φ := by
  cases x with
  | none => rw [Option.map_eq_none_iff.mp h.symm]
  | some u =>
    cases y with
    | none => cases h
    | some v => exact congrArg some (hφ u v rfl rfl (Option.some.inj h))

/-- A column is free of base64 in both or in neither. -/
theorem columns_free (htransport : a.transportOverride = b.transportOverride)
    (h : a.columnReads = b.columnReads) (col : ℕ) :
    (a.fields[col]?).map isFree = (b.fields[col]?).map isFree := by
  have hcol := congrArg (fun l => l[col]?) h
  simp only [SalesforceScanFunctionData.columnReads, List.getElem?_map, ← htransport] at hcol
  refine map_alike hcol isFree fun f g _ _ hread => ?_
  rw [← isFree_read f, ← isFree_read g]
  split at hread
  · rename_i hblocked
    split at hread
    · rename_i hblocked'
      rw [isFree_read, isFree_read, hblocked.2, hblocked'.2]
    · cases hread
  · split at hread
    · cases hread
    · rw [Option.some.inj hread]

/-- A column that a scan can get at is read alike. -/
theorem readColumns_alike (htransport : a.transportOverride = b.transportOverride)
    (h : a.columnReads = b.columnReads) (col : ℕ)
    (hopen : a.transportOverride ≠ some .bulk ∨ ∀ f, a.fields[col]? = some f → isFree f = true) :
    (a.fields[col]?).map SalesforceField.readMembers =
      (b.fields[col]?).map SalesforceField.readMembers := by
  have hfree := columns_free htransport h col
  have hcol := congrArg (fun l => l[col]?) h
  simp only [SalesforceScanFunctionData.columnReads, List.getElem?_map, ← htransport] at hcol
  refine map_alike hcol SalesforceField.readMembers fun f g hf hg hread => ?_
  rw [hf, hg, Option.map_some, Option.map_some, Option.some.injEq] at hfree
  have hnot : ¬ (a.transportOverride = some .bulk ∧ isFree f = false) := by
    intro hgiven
    obtain ⟨hbulk, hblocked⟩ := hgiven
    rcases hopen with hopen | hopen
    · exact hopen hbulk
    · rw [hopen f hf] at hblocked
      cases hblocked
  rw [if_neg hnot, if_neg (by rw [← hfree]; exact hnot)] at hread
  exact Option.some.inj hread

theorem free_iff (bind : SalesforceScanBindData) (columnIds : List ℕ) :
    projectedBase64 bind columnIds = [] ↔
      ∀ col ∈ columnIds, ∀ f, bind.fields[col]? = some f → isFree f = true := by
  rw [projectedBase64_nil_iff, projected]
  constructor
  · intro h col hcol f hf
    rw [isFree, beq_iff_eq]
    exact h f (List.mem_filterMap.mpr ⟨col, hcol, hf⟩)
  · intro h f hf
    obtain ⟨col, hcol, hf⟩ := List.mem_filterMap.mp hf
    have hfree := h col hcol f hf
    rw [isFree, beq_iff_eq] at hfree
    exact hfree

theorem aggregateOnly_alike (h : a.equals b = true) (columnIds : List ℕ) :
    aggregateOnly a.toSalesforceScanBindData columnIds =
      aggregateOnly b.toSalesforceScanBindData columnIds := by
  have hlength := congrArg List.length (equals_names h)
  rw [List.length_map, List.length_map] at hlength
  rw [aggregateOnly, aggregateOnly, hlength]

theorem free_alike (htransport : a.transportOverride = b.transportOverride)
    (h : a.columnReads = b.columnReads) (columnIds : List ℕ) :
    projectedBase64 a.toSalesforceScanBindData columnIds = [] ↔
      projectedBase64 b.toSalesforceScanBindData columnIds = [] := by
  have hmap : ∀ x : Option SalesforceField, (∀ f, x = some f → isFree f = true) ↔
      ∀ t, x.map isFree = some t → t = true := by
    intro x
    cases x with
    | none => simp
    | some f => simp
  rw [free_iff, free_iff]
  refine forall₂_congr fun col _ => ?_
  rw [hmap, hmap, columns_free htransport h col]

/-- The projection can be scanned. -/
def Open (a : SalesforceScanFunctionData) (columnIds : List ℕ) : Prop :=
  a.transportOverride ≠ some .bulk ∨ projectedBase64 a.toSalesforceScanBindData columnIds = []

theorem open_read (htransport : a.transportOverride = b.transportOverride)
    (h : a.columnReads = b.columnReads) (columnIds : List ℕ) (hopen : Open a columnIds) :
    ∀ col ∈ columnIds, (a.fields[col]?).map SalesforceField.readMembers =
      (b.fields[col]?).map SalesforceField.readMembers := by
  intro col hcol
  apply readColumns_alike htransport h
  rcases hopen with hopen | hopen
  · exact Or.inl hopen
  · exact Or.inr ((free_iff _ _).mp hopen col hcol)

theorem columns_alike (htransport : a.transportOverride = b.transportOverride)
    (h : a.columnReads = b.columnReads) (columnIds : List ℕ) (hopen : Open a columnIds) :
    (a.columns columnIds).map (Option.map SalesforceField.readMembers) =
      (b.columns columnIds).map (Option.map SalesforceField.readMembers) := by
  unfold SalesforceScanFunctionData.columns
  rw [List.map_map, List.map_map]
  exact List.map_congr_left (open_read htransport h columnIds hopen)

theorem columnTexts_alike (col : ℕ) (h : (a.fields[col]?).map SalesforceField.readMembers =
    (b.fields[col]?).map SalesforceField.readMembers) :
    columnTexts a.toSalesforceScanBindData col = columnTexts b.toSalesforceScanBindData col := by
  unfold columnTexts
  cases hf : a.fields[col]? with
  | none =>
    rw [hf] at h
    rw [Option.map_eq_none_iff.mp h.symm]
  | some f =>
    cases hg : b.fields[col]? with
    | none =>
      rw [hf, hg] at h
      cases h
    | some g =>
      rw [hf, hg, Option.map_some, Option.map_some, Option.some.injEq] at h
      dsimp only
      rw [columnTexts_read f, columnTexts_read g, h]

theorem selectFields_alike (heq : a.equals b = true) (columnIds : List ℕ)
    (h : ∀ col ∈ columnIds, (a.fields[col]?).map SalesforceField.readMembers =
      (b.fields[col]?).map SalesforceField.readMembers) :
    selectFields a.toSalesforceScanBindData columnIds =
      selectFields b.toSalesforceScanBindData columnIds := by
  have hnames : (a.fields.take 1).map SalesforceField.name =
      (b.fields.take 1).map SalesforceField.name := by
    rw [List.map_take, List.map_take, equals_names heq]
  have htexts : columnIds.flatMap (columnTexts a.toSalesforceScanBindData) =
      columnIds.flatMap (columnTexts b.toSalesforceScanBindData) := by
    rw [List.flatMap_def, List.flatMap_def]
    exact congrArg List.flatten (List.map_congr_left fun col hcol => columnTexts_alike col (h col hcol))
  have hselect : ∀ bind : SalesforceScanBindData, selectFields bind columnIds =
      if columnIds.flatMap (columnTexts bind) = [] then
        (bind.fields.take 1).map SalesforceField.name
      else columnIds.flatMap (columnTexts bind) := fun _ => rfl
  rw [hselect, hselect, htexts, hnames]

end Alike

/-! ### The same members, the same requests -/

section Enough
variable {a b : SalesforceScanFunctionData}

theorem chunks_override (a : SalesforceScanFunctionData) (settings : ScanSettings) :
    chunkCount (if a.config.overrides.bulkChunks > 0 then a.config.overrides.bulkChunks
      else settings.bulkChunks.getD 1) =
      a.chunkOverride.getD (chunkCount (settings.bulkChunks.getD 1)) := by
  unfold SalesforceScanFunctionData.chunkOverride
  by_cases hset : a.config.bulkChunks > 0
  · rw [if_pos hset, if_pos hset, Option.getD_some]
  · rw [if_neg hset, if_neg hset, Option.getD_none]

theorem bulkWheres_alike (hobject : a.object = b.object) (hpushed : a.pushedWhere = b.pushedWhere)
    (minMax : Text → Option (Text × Text)) (m n : ℤ) (h : chunkCount m = chunkCount n) :
    bulkWheres a.toSalesforceScanBindData minMax m =
      bulkWheres b.toSalesforceScanBindData minMax n := by
  unfold bulkWheres
  rw [hobject, hpushed, h]

theorem bulkPlan_alike (heq : a.equals b = true) (h : SameRowReads a b)
    (hbulk : a.transportOverride ≠ some .rest) (settings : ScanSettings) (answers : ScanAnswers)
    (columnIds : List ℕ) (hfields : selectFields a.toSalesforceScanBindData columnIds =
      selectFields b.toSalesforceScanBindData columnIds) :
    bulkPlan a.toSalesforceScanBindData a.config.overrides settings answers columnIds =
      bulkPlan b.toSalesforceScanBindData b.config.overrides settings answers columnIds := by
  obtain ⟨hpushed, hcombined, hchunks⟩ := h.bulk hbulk
  have hobject := (equals_iff.mp heq).1
  have hcount : chunkCount (if a.config.overrides.bulkChunks > 0 then a.config.overrides.bulkChunks
      else settings.bulkChunks.getD 1) =
      chunkCount (if b.config.overrides.bulkChunks > 0 then b.config.overrides.bulkChunks
        else settings.bulkChunks.getD 1) := by
    rw [chunks_override, chunks_override, hchunks]
  unfold bulkPlan bulkChunkSoqls
  rw [bulkWheres_alike hobject hpushed answers.minMaxId _ _ hcount, hfields, hobject]
  exact if_congr (and_congr_left' hcombined) rfl rfl

theorem restPlan_alike (heq : a.equals b = true) (h : SameRowReads a b)
    (hrest : a.transportOverride ≠ some .bulk) (answers : ScanAnswers) (columnIds : List ℕ)
    (hfields : selectFields a.toSalesforceScanBindData columnIds =
      selectFields b.toSalesforceScanBindData columnIds) :
    restPlan a.toSalesforceScanBindData answers columnIds =
      restPlan b.toSalesforceScanBindData answers columnIds := by
  obtain ⟨hcombined, hresidual⟩ := h.rest hrest
  have hobject := (equals_iff.mp heq).1
  have hcount : countSoql a.toSalesforceScanBindData = countSoql b.toSalesforceScanBindData := by
    rw [countSoql, countSoql, hobject, hcombined]
  have hrow : rowSoql a.toSalesforceScanBindData columnIds =
      rowSoql b.toSalesforceScanBindData columnIds := by
    rw [rowSoql, rowSoql, hobject, hfields, hcombined]
  unfold restPlan countPushdown
  rw [hrow, hcount, aggregateOnly_alike heq, if_congr (and_congr_right' (and_congr_left' hresidual))
    rfl rfl]

theorem probeExceeds_alike (heq : a.equals b = true) (h : SameRowReads a b)
    (hrest : a.transportOverride ≠ some .bulk) (settings : ScanSettings) (answers : ScanAnswers)
    (columnIds : List ℕ) : probeExceeds a.toSalesforceScanBindData settings answers columnIds =
      probeExceeds b.toSalesforceScanBindData settings answers columnIds := by
  have hcount : countSoql a.toSalesforceScanBindData = countSoql b.toSalesforceScanBindData := by
    rw [countSoql, countSoql, (equals_iff.mp heq).1, (h.rest hrest).1]
  rw [probeExceeds, probeExceeds, aggregateOnly_alike heq, hcount]

/-- The row plan, where the projection can be scanned. -/
theorem rowPlan_alike (heq : a.equals b = true) (h : SameRowReads a b) (settings : ScanSettings)
    (answers : ScanAnswers) (columnIds : List ℕ) (dflt : ScanTransport) :
    rowPlan a.toSalesforceScanBindData a.config.overrides settings answers columnIds
        (a.transportOverride.getD dflt) =
      rowPlan b.toSalesforceScanBindData b.config.overrides settings answers columnIds
        (b.transportOverride.getD dflt) := by
  have hfree := free_alike h.transport h.columns columnIds
  have hfields : Open a columnIds → selectFields a.toSalesforceScanBindData columnIds =
      selectFields b.toSalesforceScanBindData columnIds := fun hopen =>
    selectFields_alike heq columnIds (open_read h.transport h.columns columnIds hopen)
  rw [← h.transport]
  cases htr : a.transportOverride.getD dflt with
  | rest =>
    have hnot : a.transportOverride ≠ some .bulk := by
      intro hbulk
      rw [hbulk] at htr
      cases htr
    rw [rowPlan, rowPlan, restPlan_alike heq h hnot answers columnIds (hfields (Or.inl hnot))]
  | bulk =>
    have hnot : a.transportOverride ≠ some .rest := by
      intro hrest
      rw [hrest] at htr
      cases htr
    rw [rowPlan, rowPlan]
    by_cases hopen : projectedBase64 a.toSalesforceScanBindData columnIds = []
    · rw [if_pos hopen, if_pos (hfree.mp hopen)]
      exact bulkPlan_alike heq h hnot settings answers columnIds (hfields (Or.inr hopen))
    · rw [if_neg hopen, if_neg fun hb => hopen (hfree.mpr hb)]
  | auto =>
    have hnot : a.transportOverride ≠ some .bulk ∧ a.transportOverride ≠ some .rest := by
      constructor <;> intro hset <;> rw [hset] at htr <;> cases htr
    have hopen : Open a columnIds := Or.inl hnot.1
    rw [rowPlan, rowPlan, probeExceeds_alike heq h hnot.1 settings answers columnIds,
      restPlan_alike heq h hnot.1 answers columnIds (hfields hopen),
      bulkPlan_alike heq h hnot.2 settings answers columnIds (hfields hopen)]
    exact if_congr (and_congr_right' hfree) rfl rfl

theorem aggregate_alike (heq : a.equals b = true) (hpushed : a.pushedWhere = b.pushedWhere)
    (h : a.pushedAggregates.map termReads = b.pushedAggregates.map termReads) :
    aggregateSoql a.toSalesforceScanBindData = aggregateSoql b.toSalesforceScanBindData ∧
      aggregateTerms a.toSalesforceScanBindData = aggregateTerms b.toSalesforceScanBindData := by
  have hitems : ∀ bind : SalesforceScanBindData, bind.pushedAggregates.map aggregateItem =
      (bind.pushedAggregates.map termReads).map fun t =>
        t.1 ++ "(".toList ++ t.2.1 ++ ") ".toList ++ t.2.2.name := by
    intro bind
    rw [List.map_map]
    apply List.map_congr_left
    intro pa _
    rw [Function.comp_apply, termReads, readMembers_name]
    rfl
  have hterms : ∀ bind : SalesforceScanBindData, aggregateTerms bind =
      (bind.pushedAggregates.map termReads).map fun t =>
        (t.1 == "COUNT".toList || t.1 == "COUNT_DISTINCT".toList, t.2.2) := by
    intro bind
    rw [List.map_map]
    rfl
  rw [aggregateSoql, aggregateSoql, hitems, hitems, hterms, hterms, h, hpushed, (equals_iff.mp heq).1]
  exact ⟨rfl, rfl⟩

theorem sameReads_scans (heq : a.equals b = true) (h : SameReads a b) : SameScans a b := by
  intro settings columnIds org
  rw [scanRequest_override, scanRequest_override, h.queryMode, h.connection]
  cases scanTransport noOverride settings with
  | error e => rfl
  | ok v =>
    cases scanQueryMode noOverride settings with
    | error e => rfl
    | ok m =>
      dsimp only [Except.toOption, Option.bind_some]
      by_cases hagg : a.pushedAggregates = []
      · have hrows := h.rows hagg
        rw [if_neg (not_not_intro hagg), if_neg (not_not_intro (h.aggregates.mp hagg)),
          rowPlan_alike heq hrows]
        by_cases hopen : Open a columnIds
        · rw [columns_alike hrows.transport hrows.columns columnIds hopen]
        · -- a forced Bulk scan of a base64 column
          obtain ⟨hbulk, hblocked⟩ := not_or.mp hopen
          rw [not_not, hrows.transport] at hbulk
          rw [free_alike hrows.transport hrows.columns] at hblocked
          rw [hbulk, Option.getD_some, rowPlan, if_neg hblocked]
          rfl
      · obtain ⟨hpushed, hterms⟩ := h.terms hagg
        obtain ⟨hsoql, hread⟩ := aggregate_alike heq hpushed hterms
        rw [if_pos hagg, if_pos (mt h.aggregates.mpr hagg), hsoql, hread]

end Enough

theorem copy_eq (a : SalesforceScanFunctionData) : a.copy = a := rfl

/-! ### Members that differ are seen -/

def settingsWith (transport queryMode : Option Text) (requirePredicate : Option Bool)
    (chunks : Option ℤ) : ScanSettings :=
  ⟨transport, queryMode, none, some 0, requirePredicate, chunks⟩

def orgAnswering (answers : ScanAnswers) : OrgContent where
  answers := fun _ _ => answers
  records := fun _ _ _ => .ok []
  bulkRows := fun _ _ _ => .ok ([], [])

section Seen
variable {a b : SalesforceScanFunctionData}

theorem rowPlan_empty (a : SalesforceScanFunctionData) (settings : ScanSettings)
    (answers : ScanAnswers) (transport : ScanTransport) (h : settings.bulkRequirePredicate = none) :
    ∃ p, rowPlan a.toSalesforceScanBindData a.config.overrides settings answers [] transport =
      some p := by
  have hbulk : ∃ p, bulkPlan a.toSalesforceScanBindData a.config.overrides settings answers [] =
      some p := by
    unfold bulkPlan
    rw [h, if_neg fun hguard => nomatch hguard.2]
    exact ⟨_, rfl⟩
  cases transport with
  | rest => exact ⟨_, rfl⟩
  | bulk => exact hbulk
  | auto => exact ⟨_, rfl⟩

/-- The request of a scan that projects nothing. -/
theorem empty_request (a : SalesforceScanFunctionData) (queryMode : Option Text) (m : Text)
    (hmode : scanQueryMode noOverride (settingsWith none queryMode none none) = .ok m) :
    ∃ work columns,
      scanRequest a (settingsWith none queryMode none none) [] (orgAnswering noAnswers) =
        some ⟨a.connection, a.queryModeOverride.getD (m == "queryall".toList), work, columns⟩ ∧
      (a.pushedAggregates = [] ↔ ∃ p, work = .plan p) := by
  have htransport : scanTransport noOverride (settingsWith none queryMode none none) =
      .ok "rest".toList := rfl
  rw [scanRequest_override, htransport, hmode]
  dsimp only [Except.toOption, Option.bind_some]
  by_cases hagg : a.pushedAggregates = []
  · obtain ⟨p, hp⟩ := rowPlan_empty a (settingsWith none queryMode none none) noAnswers
      (a.transportOverride.getD (.ofText "rest".toList)) rfl
    rw [if_neg (not_not_intro hagg), orgAnswering, hp]
    exact ⟨_, _, rfl, iff_of_true hagg ⟨p, rfl⟩⟩
  · rw [if_pos hagg]
    refine ⟨_, _, rfl, iff_of_false hagg ?_⟩
    intro h
    obtain ⟨p, hp⟩ := h
    cases hp

theorem seen_session (h : SameScans a b) : a.connection = b.connection ∧
    a.queryModeOverride = b.queryModeOverride ∧
      (a.pushedAggregates = [] ↔ b.pushedAggregates = []) := by
  have hseen : ∀ (queryMode : Option Text) (m : Text),
      scanQueryMode noOverride (settingsWith none queryMode none none) = .ok m →
      a.connection = b.connection ∧ a.queryModeOverride.getD (m == "queryall".toList) =
        b.queryModeOverride.getD (m == "queryall".toList) ∧
        (a.pushedAggregates = [] ↔ b.pushedAggregates = []) := by
    intro queryMode m hmode
    obtain ⟨work, columns, hreq, hplan⟩ := empty_request a queryMode m hmode
    obtain ⟨work', columns', hreq', hplan'⟩ := empty_request b queryMode m hmode
    have hsame := h (settingsWith none queryMode none none) [] (orgAnswering noAnswers)
    rw [hreq, hreq', Option.some.injEq, ScanRequest.mk.injEq] at hsame
    obtain ⟨hconnection, hmode', hwork, -⟩ := hsame
    refine ⟨hconnection, hmode', ?_⟩
    rw [hplan, hplan', hwork]
  obtain ⟨hconnection, hquery, haggregates⟩ := hseen none "query".toList rfl
  obtain ⟨-, hall, -⟩ := hseen (some "queryall".toList) "queryall".toList rfl
  refine ⟨hconnection, ?_, haggregates⟩
  revert hquery hall
  have hno : ("query".toList == "queryall".toList) = false := by decide
  have hyes : ("queryall".toList == "queryall".toList) = true := by decide
  rw [hno, hyes]
  generalize a.queryModeOverride = x
  generalize b.queryModeOverride = y
  revert x y
  decide

/-- What the row scans are seen to do. -/
theorem seen_plans (h : SameScans a b) (hagg : a.pushedAggregates = [])
    (settings : ScanSettings) (v : Text) (hv : scanTransport noOverride settings = .ok v)
    (hm : ∃ m, scanQueryMode noOverride settings = .ok m) (answers : ScanAnswers)
    (columnIds : List ℕ) :
    (rowPlan a.toSalesforceScanBindData a.config.overrides settings answers columnIds
        (a.transportOverride.getD (.ofText v))).map
      (fun p => (p, (a.columns columnIds).map (Option.map SalesforceField.readMembers))) =
    (rowPlan b.toSalesforceScanBindData b.config.overrides settings answers columnIds
        (b.transportOverride.getD (.ofText v))).map
      fun p => (p, (b.columns columnIds).map (Option.map SalesforceField.readMembers)) := by
  obtain ⟨m, hm⟩ := hm
  have hagg' := (seen_session h).2.2.mp hagg
  have hsame := h settings columnIds (orgAnswering answers)
  rw [scanRequest_override, scanRequest_override, hv, hm] at hsame
  dsimp only [Except.toOption, Option.bind_some, orgAnswering] at hsame
  rw [if_neg (not_not_intro hagg), if_neg (not_not_intro hagg')] at hsame
  revert hsame
  generalize rowPlan a.toSalesforceScanBindData a.config.overrides settings answers columnIds
    (a.transportOverride.getD (.ofText v)) = x
  generalize rowPlan b.toSalesforceScanBindData b.config.overrides settings answers columnIds
    (b.transportOverride.getD (.ofText v)) = y
  intro hsame
  cases x with
  | none =>
    cases y with
    | none => rfl
    | some q => cases hsame
  | some p =>
    cases y with
    | none => cases hsame
    | some q =>
      simp only [Option.map_some, Option.some.injEq, ScanRequest.mk.injEq, ScanWork.plan.injEq]
        at hsame
      simp only [Option.map_some, Option.some.injEq, Prod.mk.injEq]
      exact ⟨hsame.2.2.1, hsame.2.2.2⟩

def ScanPlan.IsBulk (p : ScanPlan) : Prop := ∃ soqls, p = .bulk soqls

theorem restPlan_notBulk (bind : SalesforceScanBindData) (answers : ScanAnswers)
    (columnIds : List ℕ) : ¬ (restPlan bind answers columnIds).IsBulk := by
  intro hgiven
  obtain ⟨soqls, h⟩ := hgiven
  unfold restPlan at h
  split at h <;> cases h

theorem empty_isBulk (a : SalesforceScanFunctionData) (settings : ScanSettings)
    (answers : ScanAnswers) (transport : ScanTransport) (p : ScanPlan)
    (h : rowPlan a.toSalesforceScanBindData a.config.overrides settings answers [] transport =
      some p) : p.IsBulk ↔ transport = .bulk := by
  have hrest := restPlan_notBulk a.toSalesforceScanBindData answers []
  cases transport with
  | rest =>
    rw [← Option.some.inj h]
    exact iff_of_false hrest (by decide)
  | bulk =>
    refine iff_of_true ?_ rfl
    have hplan : bulkPlan a.toSalesforceScanBindData a.config.overrides settings answers [] =
      some p := h
    unfold bulkPlan at hplan
    split at hplan
    · cases hplan
    · exact ⟨_, (Option.some.inj hplan).symm⟩
  | auto =>
    have hplan : some (restPlan a.toSalesforceScanBindData answers []) = some p := h
    rw [← Option.some.inj hplan]
    exact iff_of_false hrest (by decide)

theorem seen_empty (h : SameScans a b) (hagg : a.pushedAggregates = []) (v : Text)
    (transport : Option Text)
    (hv : scanTransport noOverride (settingsWith transport none none none) = .ok v) :
    a.transportOverride.getD (.ofText v) = .bulk ↔ b.transportOverride.getD (.ofText v) = .bulk := by
  have hsame := seen_plans h hagg _ v hv ⟨"query".toList, rfl⟩ noAnswers []
  obtain ⟨p, hp⟩ := rowPlan_empty a (settingsWith transport none none none) noAnswers
    (a.transportOverride.getD (.ofText v)) rfl
  obtain ⟨q, hq⟩ := rowPlan_empty b (settingsWith transport none none none) noAnswers
    (b.transportOverride.getD (.ofText v)) rfl
  rw [← empty_isBulk a _ _ _ p hp, ← empty_isBulk b _ _ _ q hq]
  rw [hp, hq, Option.map_some, Option.map_some, Option.some.injEq, Prod.mk.injEq] at hsame
  rw [hsame.1]

/-- An org with one row, and two answers to the MIN and MAX probe. -/
def oneRow (minMax : Text → Option (Text × Text)) : ScanAnswers :=
  ⟨fun _ => some 1, minMax, fun _ => none⟩

theorem free_single (bind : SalesforceScanBindData) (i : ℕ) (f : SalesforceField)
    (hf : bind.fields[i]? = some f) : projectedBase64 bind [i] = [] ↔ isFree f = true := by
  rw [free_iff, List.forall_mem_singleton, hf]
  simp

theorem auto_single (a : SalesforceScanFunctionData) (i : ℕ) (f : SalesforceField)
    (hf : a.fields[i]? = some f) (hfree : isFree f = true) (transport : Option Text)
    (requirePredicate : Option Bool) (chunks : Option ℤ) (minMax : Text → Option (Text × Text)) :
    rowPlan a.toSalesforceScanBindData a.config.overrides
        (settingsWith transport none requirePredicate chunks) (oneRow minMax) [i] .auto =
      bulkPlan a.toSalesforceScanBindData a.config.overrides
        (settingsWith transport none requirePredicate chunks) (oneRow minMax) [i] := by
  have hreal : aggregateOnly a.toSalesforceScanBindData [i] = false := by
    have hlt : i < a.fields.length := (List.getElem?_eq_some_iff.mp hf).1
    simp [aggregateOnly, hlt]
  have hprobe : probeExceeds a.toSalesforceScanBindData
      (settingsWith transport none requirePredicate chunks) (oneRow minMax) [i] = true := by
    rw [probeExceeds, hreal]
    rfl
  rw [rowPlan, if_pos ⟨hprobe, (free_single _ i f hf).mpr hfree⟩]

theorem auto_free (a : SalesforceScanFunctionData) (h : a.transportOverride = some .auto) :
    ∃ (i : ℕ) (f : SalesforceField), a.fields[i]? = some f ∧ isFree f = true := by
  unfold SalesforceScanFunctionData.transportOverride at h
  split at h
  · cases h
  · split at h
    · cases h
    · rename_i hnot
      rw [Option.some.injEq] at h
      have hany : a.fields.any isFree = true := by
        by_contra hnone
        exact hnot ⟨h, by simpa using hnone⟩
      obtain ⟨f, hf, hfree⟩ := List.any_eq_true.mp hany
      obtain ⟨i, hi⟩ := List.mem_iff_getElem?.mp hf
      exact ⟨i, f, hi, hfree⟩

theorem bulkPlan_some (a : SalesforceScanFunctionData) (transport : Option Text)
    (chunks : Option ℤ) (answers : ScanAnswers) (columnIds : List ℕ) :
    bulkPlan a.toSalesforceScanBindData a.config.overrides
        (settingsWith transport none none chunks) answers columnIds =
      some (.bulk (bulkChunkSoqls a.toSalesforceScanBindData answers.minMaxId
        (if a.config.overrides.bulkChunks > 0 then a.config.overrides.bulkChunks
          else chunks.getD 1) columnIds)) := by
  unfold bulkPlan
  rw [if_neg fun hguard => nomatch hguard.2]
  rfl

theorem seen_auto (h : SameScans a b) (hagg : a.pushedAggregates = [])
    (hauto : a.transportOverride = some .auto) : b.transportOverride ≠ some .rest := by
  intro hrest
  obtain ⟨i, f, hf, hfree⟩ := auto_free a hauto
  have hsame := seen_plans h hagg (settingsWith none none none none) "rest".toList rfl
    ⟨"query".toList, rfl⟩ (oneRow fun _ => none) [i]
  rw [hauto, hrest, Option.getD_some, Option.getD_some, auto_single a i f hf hfree, bulkPlan_some,
    rowPlan, Option.map_some, Option.map_some, Option.some.injEq, Prod.mk.injEq] at hsame
  exact restPlan_notBulk _ _ _ ⟨_, hsame.1.symm⟩

theorem SameScans.symm (h : SameScans a b) : SameScans b a :=
  fun settings columnIds org => (h settings columnIds org).symm

theorem seen_transport (h : SameScans a b) (hagg : a.pushedAggregates = []) :
    a.transportOverride = b.transportOverride := by
  have hagg' := (seen_session h).2.2.mp hagg
  have hrest := seen_empty h hagg "rest".toList none rfl
  have hbulk := seen_empty h hagg "bulk".toList (some "bulk".toList) rfl
  have hauto := seen_auto h hagg
  have hauto' := seen_auto h.symm hagg'
  have hclass : ScanTransport.ofText "rest".toList = .rest := by decide
  have hclass' : ScanTransport.ofText "bulk".toList = .bulk := by decide
  rw [hclass] at hrest
  rw [hclass'] at hbulk
  revert hrest hbulk hauto hauto'
  generalize a.transportOverride = x
  generalize b.transportOverride = y
  rcases x with _ | _ | _ | _ <;> rcases y with _ | _ | _ | _ <;> decide

/-- A column that can be scanned is scanned by a scan of it alone. -/
theorem single_plan (a : SalesforceScanFunctionData) (i : ℕ) (f : SalesforceField)
    (hf : a.fields[i]? = some f) :
    (∃ p, rowPlan a.toSalesforceScanBindData a.config.overrides (settingsWith none none none none)
        noAnswers [i] (a.transportOverride.getD .rest) = some p) ↔
      ¬ (a.transportOverride = some .bulk ∧ isFree f = false) := by
  have hone := free_single a.toSalesforceScanBindData i f hf
  have hprobe : probeExceeds a.toSalesforceScanBindData (settingsWith none none none none) noAnswers
      [i] = false := by
    unfold probeExceeds
    exact Bool.and_false _
  rcases a.transportOverride with _ | _ | _ | _
  · exact iff_of_true ⟨_, rfl⟩ fun h => by cases h.1
  · exact iff_of_true ⟨_, rfl⟩ fun h => by cases h.1
  · rw [Option.getD_some, rowPlan]
    by_cases hfree : isFree f = true
    · rw [if_pos (hone.mpr hfree), bulkPlan_some]
      refine iff_of_true ⟨_, rfl⟩ ?_
      rw [hfree]
      exact fun h => by cases h.2
    · rw [if_neg (mt hone.mp hfree)]
      refine iff_of_false (by rintro ⟨p, hp⟩; cases hp) ?_
      exact not_not_intro ⟨rfl, by simpa using hfree⟩
  · rw [Option.getD_some, rowPlan, hprobe, if_neg fun h => by cases h.1]
    exact iff_of_true ⟨_, rfl⟩ fun h => by cases h.1

theorem seen_columns (heq : a.equals b = true) (h : SameScans a b) (hagg : a.pushedAggregates = []) :
    a.columnReads = b.columnReads := by
  have htransport := seen_transport h hagg
  have hlength := congrArg List.length (equals_names heq)
  rw [List.length_map, List.length_map] at hlength
  apply List.ext_getElem?
  intro i
  simp only [SalesforceScanFunctionData.columnReads, List.getElem?_map]
  cases hf : a.fields[i]? with
  | none =>
    have hb : b.fields[i]? = none := by
      rw [List.getElem?_eq_none_iff] at hf ⊢
      omega
    rw [hb]
    rfl
  | some f =>
    cases hg : b.fields[i]? with
    | none =>
      rw [List.getElem?_eq_none_iff] at hg
      have hlt := (List.getElem?_eq_some_iff.mp hf).1
      omega
    | some g =>
      have hplan := single_plan a i f hf
      have hplan' := single_plan b i g hg
      have hsame := seen_plans h hagg (settingsWith none none none none) "rest".toList rfl
        ⟨"query".toList, rfl⟩ noAnswers [i]
      have hclass : ScanTransport.ofText "rest".toList = .rest := by decide
      have hcolumns : a.columns [i] = [some f] ∧ b.columns [i] = [some g] := by
        simp [SalesforceScanFunctionData.columns, hf, hg]
      rw [hclass, hcolumns.1, hcolumns.2] at hsame
      rw [Option.map_some, Option.map_some, Option.some.injEq]
      generalize rowPlan a.toSalesforceScanBindData a.config.overrides
        (settingsWith none none none none) noAnswers [i] (a.transportOverride.getD .rest) = x
        at hplan hsame
      generalize rowPlan b.toSalesforceScanBindData b.config.overrides
        (settingsWith none none none none) noAnswers [i] (b.transportOverride.getD .rest) = y
        at hplan' hsame
      cases x with
      | none =>
        cases y with
        | some q => cases hsame
        | none =>
          rw [if_pos (not_not.mp (mt hplan.mpr fun h => nomatch h)),
            if_pos (not_not.mp (mt hplan'.mpr fun h => nomatch h))]
      | some p =>
        cases y with
        | none => cases hsame
        | some q =>
          rw [if_neg (hplan.mp ⟨p, rfl⟩), if_neg (hplan'.mp ⟨q, rfl⟩)]
          simp only [Option.map_some, Option.some.injEq, Prod.mk.injEq, List.map_cons, List.map_nil,
            List.cons.injEq, and_true] at hsame
          rw [hsame.2]

theorem whereText_inj (w w' : Text)
    (h : (if w = [] then [] else " WHERE ".toList ++ w) =
      if w' = [] then [] else " WHERE ".toList ++ w') : w = w' := by
  by_cases hw : w = []
  · by_cases hw' : w' = []
    · rw [hw, hw']
    · rw [if_pos hw, if_neg hw'] at h
      cases h
  · by_cases hw' : w' = []
    · rw [if_neg hw, if_pos hw'] at h
      cases h
    · rw [if_neg hw, if_neg hw', List.append_cancel_left_eq] at h
      exact h

theorem selectSoql_inj (object : Text) (items : List Text) (w w' : Text)
    (h : buildSelectSoql object items w none = buildSelectSoql object items w' none) : w = w' := by
  unfold buildSelectSoql at h
  rw [List.append_cancel_right_eq, List.append_cancel_left_eq] at h
  exact whereText_inj w w' h

theorem seen_rest (heq : a.equals b = true) (h : SameScans a b) (hagg : a.pushedAggregates = [])
    (hrest : a.transportOverride ≠ some .bulk) :
    combinedWhere a.toSalesforceScanBindData = combinedWhere b.toSalesforceScanBindData ∧
      (a.residualFilterCount = 0 ↔ b.residualFilterCount = 0) := by
  have htransport := seen_transport h hagg
  have hclass : ScanTransport.ofText "rest".toList = .rest := by decide
  have hplan : ∀ (c : SalesforceScanFunctionData) (answers : ScanAnswers),
      c.transportOverride = a.transportOverride →
      rowPlan c.toSalesforceScanBindData c.config.overrides (settingsWith none none none none)
        answers [] (c.transportOverride.getD .rest) =
        some (restPlan c.toSalesforceScanBindData answers []) := by
    intro c answers hc
    rw [hc]
    revert hrest
    rcases a.transportOverride with _ | _ | _ | _
    · exact fun _ => rfl
    · exact fun _ => rfl
    · exact fun hnot => absurd rfl hnot
    · exact fun _ => rfl
  have hsame : ∀ answers, restPlan a.toSalesforceScanBindData answers [] =
      restPlan b.toSalesforceScanBindData answers [] := by
    intro answers
    have hseen := seen_plans h hagg (settingsWith none none none none) "rest".toList rfl
      ⟨"query".toList, rfl⟩ answers []
    rw [hclass, hplan a answers rfl, hplan b answers htransport.symm, Option.map_some,
      Option.map_some, Option.some.injEq, Prod.mk.injEq] at hseen
    exact hseen.1
  have hcount : ∀ (bind : SalesforceScanBindData) (answers : ScanAnswers),
      restPlan bind answers [] =
        (if bind.residualFilterCount = 0 then answers.estimateCount (countSoql bind)
          else none).elim (.rest (rowSoql bind [])) .countOnly := by
    intro bind answers
    have hopen : countPushdown bind answers [] "rest".toList =
        if bind.residualFilterCount = 0 then answers.estimateCount (countSoql bind) else none := by
      simp [countPushdown, aggregateOnly]
    rw [← hopen, restPlan]
    cases countPushdown bind answers [] "rest".toList with
    | none => rfl
    | some n => rfl
  constructor
  · have hquiet := hsame noAnswers
    rw [hcount, hcount, show noAnswers.estimateCount (countSoql a.toSalesforceScanBindData) = none
      from rfl, show noAnswers.estimateCount (countSoql b.toSalesforceScanBindData) = none from rfl,
      ite_self, ite_self] at hquiet
    have hrow := ScanPlan.rest.inj hquiet
    have hfields : selectFields a.toSalesforceScanBindData [] =
        selectFields b.toSalesforceScanBindData [] :=
      selectFields_alike heq [] (by simp)
    rw [rowSoql, rowSoql, hfields, (equals_iff.mp heq).1] at hrow
    exact selectSoql_inj _ _ _ _ hrow
  · have hone := hsame (oneRow fun _ => none)
    rw [hcount, hcount] at hone
    by_cases ha : a.residualFilterCount = 0
    · by_cases hb : b.residualFilterCount = 0
      · exact iff_of_true ha hb
      · rw [if_pos ha, if_neg hb] at hone
        cases hone
    · by_cases hb : b.residualFilterCount = 0
      · rw [if_neg ha, if_pos hb] at hone
        cases hone
      · exact iff_of_false ha hb

/-- Two Ids as far apart as Ids get. -/
def wideIds (_ : Text) : Option (Text × Text) :=
  some ("000000000000000".toList, "zzzzzzzzzzzzzzz".toList)

theorem wideIds_chunks (bind : SalesforceScanBindData) (chunks : ℤ) :
    (bulkWheres bind wideIds chunks).length = chunkCount chunks := by
  obtain ⟨hlow, hhigh⟩ := chunkCount_bounds chunks
  have hids : tryMinMaxId wideIds bind.object bind.pushedWhere =
      some ("000000000000000".toList, "zzzzzzzzzzzzzzz".toList) := by
    unfold tryMinMaxId wideIds
    dsimp only
    rw [if_neg (by decide), if_pos (by decide)]
  have hranges : ∀ n, 1 < n → n ≤ 8 →
      (idRanges "000000000000000".toList "zzzzzzzzzzzzzzz".toList n).length = n := by
    intro n hn hle
    interval_cases n <;> decide +kernel
  unfold bulkWheres
  rw [hids]
  dsimp only
  by_cases hmany : chunkCount chunks > 1
  · have hlength := hranges (chunkCount chunks) hmany hhigh
    have hwheres : (buildIdRangeWheres bind.pushedWhere "000000000000000".toList
        "zzzzzzzzzzzzzzz".toList (chunkCount chunks)).length = chunkCount chunks := by
      rw [buildIdRangeWheres, List.length_map, hlength]
    rw [if_pos hmany, if_neg, hwheres]
    intro hnil
    rw [hnil, List.length_nil] at hwheres
    omega
  · rw [if_neg hmany, if_pos rfl, List.length_singleton]
    omega

theorem bulk_context (htransport : a.transportOverride = b.transportOverride)
    (hcolumns : a.columnReads = b.columnReads) (hbulk : a.transportOverride ≠ some .rest) :
    ∃ columnIds, Open a columnIds ∧
      ∀ c : SalesforceScanFunctionData, c = a ∨ c = b →
        ∀ (requirePredicate : Option Bool) (chunks : Option ℤ)
          (minMax : Text → Option (Text × Text)),
        rowPlan c.toSalesforceScanBindData c.config.overrides
            (settingsWith (some "bulk".toList) none requirePredicate chunks) (oneRow minMax)
            columnIds (c.transportOverride.getD .bulk) =
          bulkPlan c.toSalesforceScanBindData c.config.overrides
            (settingsWith (some "bulk".toList) none requirePredicate chunks) (oneRow minMax)
            columnIds := by
  by_cases hauto : a.transportOverride = some .auto
  · obtain ⟨i, f, hf, hfree⟩ := auto_free a hauto
    have hsame := columns_free htransport hcolumns i
    rw [hf, Option.map_some, hfree] at hsame
    obtain ⟨g, hg, hgfree⟩ := Option.map_eq_some_iff.mp hsame.symm
    refine ⟨[i], Or.inl (by rw [hauto]; decide), ?_⟩
    intro c h requirePredicate chunks minMax
    rcases h with rfl | rfl
    · rw [hauto]
      exact auto_single c i f hf hfree _ _ _ _
    · rw [← htransport, hauto]
      exact auto_single c i g hg hgfree _ _ _ _
  · refine ⟨[], Or.inr rfl, ?_⟩
    have hforced : a.transportOverride.getD .bulk = .bulk := by
      revert hbulk hauto
      rcases a.transportOverride with _ | _ | _ | _ <;> decide
    intro c h requirePredicate chunks minMax
    rcases h with rfl | rfl
    · rw [hforced]
      rfl
    · rw [← htransport, hforced]
      rfl

/-- A Bulk plan over columns that both scans can open is the same for both. -/
theorem seen_bulkPlan (h : SameScans a b) (hagg : a.pushedAggregates = []) (columnIds : List ℕ)
    (hcontext : ∀ c : SalesforceScanFunctionData, c = a ∨ c = b →
      ∀ (requirePredicate : Option Bool) (chunks : Option ℤ) (minMax : Text → Option (Text × Text)),
        rowPlan c.toSalesforceScanBindData c.config.overrides
            (settingsWith (some "bulk".toList) none requirePredicate chunks) (oneRow minMax)
            columnIds (c.transportOverride.getD .bulk) =
          bulkPlan c.toSalesforceScanBindData c.config.overrides
            (settingsWith (some "bulk".toList) none requirePredicate chunks) (oneRow minMax)
            columnIds)
    (requirePredicate : Option Bool) (chunks : Option ℤ) (minMax : Text → Option (Text × Text)) :
    bulkPlan a.toSalesforceScanBindData a.config.overrides
        (settingsWith (some "bulk".toList) none requirePredicate chunks) (oneRow minMax) columnIds =
      bulkPlan b.toSalesforceScanBindData b.config.overrides
        (settingsWith (some "bulk".toList) none requirePredicate chunks) (oneRow minMax)
        columnIds := by
  have hclass : ScanTransport.ofText "bulk".toList = .bulk := by decide
  have hseen := seen_plans h hagg
    (settingsWith (some "bulk".toList) none requirePredicate chunks) "bulk".toList rfl
    ⟨"query".toList, rfl⟩ (oneRow minMax) columnIds
  rw [hclass, hcontext a (Or.inl rfl), hcontext b (Or.inr rfl)] at hseen
  revert hseen
  generalize bulkPlan a.toSalesforceScanBindData a.config.overrides
    (settingsWith (some "bulk".toList) none requirePredicate chunks) (oneRow minMax) columnIds = x
  generalize bulkPlan b.toSalesforceScanBindData b.config.overrides
    (settingsWith (some "bulk".toList) none requirePredicate chunks) (oneRow minMax) columnIds = y
  intro hseen
  cases x with
  | none =>
    cases y with
    | none => rfl
    | some q => cases hseen
  | some p =>
    cases y with
    | none => cases hseen
    | some q =>
      rw [Option.map_some, Option.map_some, Option.some.injEq, Prod.mk.injEq] at hseen
      rw [hseen.1]

/-- Where there are no Ids to split by, there is one job. -/
theorem one_job (bind : SalesforceScanBindData) (chunks : ℤ) (columnIds : List ℕ) :
    bulkChunkSoqls bind (fun _ => none) chunks columnIds =
      [buildSelectSoql bind.object (selectFields bind columnIds) bind.pushedWhere none] := by
  have hwheres : bulkWheres bind (fun _ => none) chunks = [bind.pushedWhere] := by
    unfold bulkWheres tryMinMaxId
    dsimp only
    rw [ite_self, if_pos rfl]
  rw [bulkChunkSoqls, hwheres, List.map_singleton]

/-- With the guard on, a Bulk plan is refused for want of a condition only. -/
theorem bulk_refused_iff (bind : SalesforceScanBindData) (config : ScanConfig) (columnIds : List ℕ) :
    bulkPlan bind config (settingsWith (some "bulk".toList) none (some true) none)
      (oneRow fun _ => none) columnIds = none ↔ combinedWhere bind = [] := by
  unfold bulkPlan
  by_cases hnil : combinedWhere bind = []
  · rw [if_pos ⟨hnil, rfl⟩]
    exact iff_of_true rfl hnil
  · rw [if_neg fun hb => hnil hb.1]
    exact iff_of_false (fun hb => nomatch hb) hnil

theorem seen_bulk (heq : a.equals b = true) (h : SameScans a b) (hagg : a.pushedAggregates = [])
    (hbulk : a.transportOverride ≠ some .rest) : a.pushedWhere = b.pushedWhere ∧
      (combinedWhere a.toSalesforceScanBindData = [] ↔
        combinedWhere b.toSalesforceScanBindData = []) ∧ a.chunkOverride = b.chunkOverride := by
  have htransport := seen_transport h hagg
  have hcolumns := seen_columns heq h hagg
  obtain ⟨columnIds, hopen, hcontext⟩ := bulk_context htransport hcolumns hbulk
  have hfields := selectFields_alike heq columnIds (open_read htransport hcolumns columnIds hopen)
  have hsame := seen_bulkPlan h hagg columnIds hcontext
  have hsoqls : ∀ (chunks : Option ℤ) (minMax : Text → Option (Text × Text)),
      bulkChunkSoqls a.toSalesforceScanBindData minMax
          (if a.config.overrides.bulkChunks > 0 then a.config.overrides.bulkChunks
            else chunks.getD 1) columnIds =
        bulkChunkSoqls b.toSalesforceScanBindData minMax
          (if b.config.overrides.bulkChunks > 0 then b.config.overrides.bulkChunks
            else chunks.getD 1) columnIds := by
    intro chunks minMax
    have hplan := hsame none chunks minMax
    rw [bulkPlan_some, bulkPlan_some] at hplan
    exact ScanPlan.bulk.inj (Option.some.inj hplan)
  refine ⟨?_, ?_, ?_⟩
  · have hquiet := hsoqls none fun _ => none
    rw [one_job, one_job, List.cons.injEq, hfields, (equals_iff.mp heq).1] at hquiet
    exact selectSoql_inj _ _ _ _ hquiet.1
  · rw [← bulk_refused_iff a.toSalesforceScanBindData a.config.overrides columnIds,
      hsame (some true) none fun _ => none, bulk_refused_iff]
  · have hcount : ∀ n : ℤ, a.chunkOverride.getD (chunkCount n) = b.chunkOverride.getD (chunkCount n) := by
      intro n
      have hlength := congrArg List.length (hsoqls (some n) wideIds)
      rw [bulkChunkSoqls, bulkChunkSoqls, List.length_map, List.length_map, wideIds_chunks,
        wideIds_chunks] at hlength
      exact (chunks_override a (settingsWith none none none (some n))).symm.trans
        (hlength.trans (chunks_override b (settingsWith none none none (some n))))
    have hone := hcount 1
    have htwo := hcount 2
    have hvalues : chunkCount 1 = 1 ∧ chunkCount 2 = 2 := by decide
    rw [hvalues.1] at hone
    rw [hvalues.2] at htwo
    revert hone htwo
    cases a.chunkOverride <;> cases b.chunkOverride <;> simp <;> omega

theorem append_mark_inj {c : Char} {f f' t t' : Text} (hf : c ∉ f) (hf' : c ∉ f')
    (h : f ++ c :: t = f' ++ c :: t') : f = f' ∧ t = t' := by
  induction f generalizing f' with
  | nil =>
    cases f' with
    | nil => exact ⟨rfl, (List.cons.inj h).2⟩
    | cons d f' => exact absurd (List.mem_cons.mpr (Or.inl (List.cons.inj h).1)) hf'
  | cons d f ih =>
    cases f' with
    | nil => exact absurd (List.mem_cons.mpr (Or.inl (List.cons.inj h).1.symm)) hf
    | cons d' f' =>
      obtain ⟨rfl, htail⟩ := List.cons.inj h
      obtain ⟨rfl, hrest⟩ := ih (fun hm => hf (List.mem_cons_of_mem _ hm))
        (fun hm => hf' (List.mem_cons_of_mem _ hm)) htail
      exact ⟨rfl, hrest⟩

theorem aggregateItem_inj {pa pa' : SalesforcePushedAggregate} {t t' : Text}
    (hplain : '(' ∉ pa.func ∧ ')' ∉ pa.field) (hplain' : '(' ∉ pa'.func ∧ ')' ∉ pa'.field)
    (hread : pa.emit.readMembers = pa'.emit.readMembers)
    (h : aggregateItem pa ++ t = aggregateItem pa' ++ t') :
    termReads pa = termReads pa' ∧ t = t' := by
  have hname : pa.emit.name = pa'.emit.name := by
    rw [← readMembers_name, hread, readMembers_name]
  have hitem : ∀ (x : SalesforcePushedAggregate) (u : Text), aggregateItem x ++ u =
      x.func ++ '(' :: (x.field ++ ')' :: (' ' :: (x.emit.name ++ u))) := by
    intro x u
    simp [aggregateItem]
  rw [hitem, hitem] at h
  obtain ⟨hfunc, hrest⟩ := append_mark_inj hplain.1 hplain'.1 h
  obtain ⟨hfield, htail⟩ := append_mark_inj hplain.2 hplain'.2 hrest
  rw [List.cons.injEq, hname, List.append_cancel_left_eq] at htail
  rw [termReads, termReads, hfunc, hfield, hread]
  exact ⟨rfl, htail.2⟩

/-- The select list tells its terms apart, once their columns are known. -/
theorem aggregateItems_inj (xs ys : List SalesforcePushedAggregate) (t t' : Text)
    (hplain : ∀ pa ∈ xs, '(' ∉ pa.func ∧ ')' ∉ pa.field)
    (hplain' : ∀ pa ∈ ys, '(' ∉ pa.func ∧ ')' ∉ pa.field)
    (hread : xs.map (fun pa => pa.emit.readMembers) = ys.map fun pa => pa.emit.readMembers)
    (h : joinText ", ".toList (xs.map aggregateItem) ++ t =
      joinText ", ".toList (ys.map aggregateItem) ++ t') :
    xs.map termReads = ys.map termReads ∧ t = t' := by
  induction xs generalizing ys with
  | nil =>
    rw [List.map_nil] at hread
    rw [List.map_eq_nil_iff.mp hread.symm] at h ⊢
    exact ⟨rfl, h⟩
  | cons x xs ih =>
    cases ys with
    | nil => cases hread
    | cons y ys =>
      rw [List.map_cons, List.map_cons, List.cons.injEq] at hread
      rw [List.forall_mem_cons] at hplain hplain'
      cases xs with
      | nil =>
        rw [List.map_nil] at hread
        rw [List.map_eq_nil_iff.mp hread.2.symm] at h ⊢
        obtain ⟨hterm, htail⟩ := aggregateItem_inj hplain.1 hplain'.1 hread.1 h
        exact ⟨by rw [List.map_singleton, List.map_singleton, hterm], htail⟩
      | cons x' xs =>
        cases ys with
        | nil => cases hread.2
        | cons y' ys =>
          rw [List.map_cons, List.map_cons, List.map_cons, List.map_cons, joinText_cons,
            joinText_cons, ← List.map_cons, ← List.map_cons] at h
          simp only [List.append_assoc] at h
          obtain ⟨hterm, htail⟩ := aggregateItem_inj hplain.1 hplain'.1 hread.1 h
          rw [List.append_cancel_left_eq] at htail
          obtain ⟨hterms, hrest⟩ := ih (y' :: ys) hplain.2 hplain'.2 hread.2 htail
          exact ⟨congrArg₂ List.cons hterm hterms, hrest⟩

theorem seen_terms (heq : a.equals b = true) (h : SameScans a b) (hagg : a.pushedAggregates ≠ []) :
    a.pushedWhere = b.pushedWhere ∧
      a.pushedAggregates.map termReads = b.pushedAggregates.map termReads := by
  have hagg' : b.pushedAggregates ≠ [] := mt (seen_session h).2.2.mpr hagg
  have hsame := h (settingsWith none none none none) [] (orgAnswering noAnswers)
  have htransport : scanTransport noOverride (settingsWith none none none none) =
      .ok "rest".toList := rfl
  have hmode : scanQueryMode noOverride (settingsWith none none none none) =
      .ok "query".toList := rfl
  rw [scanRequest_override, scanRequest_override, htransport, hmode] at hsame
  dsimp only [Except.toOption, Option.bind_some] at hsame
  rw [if_pos hagg, if_pos hagg', Option.some.injEq, ScanRequest.mk.injEq] at hsame
  obtain ⟨hsoql, hterms⟩ := ScanWork.aggregate.inj hsame.2.2.1
  have hread : a.pushedAggregates.map (fun pa => pa.emit.readMembers) =
      b.pushedAggregates.map fun pa => pa.emit.readMembers := by
    have hsnd := congrArg (List.map Prod.snd) hterms
    rw [aggregateTerms, aggregateTerms, List.map_map, List.map_map] at hsnd
    exact hsnd
  have htext : ∀ c : SalesforceScanFunctionData, aggregateSoql c.toSalesforceScanBindData =
      "SELECT ".toList ++ (joinText ", ".toList (c.pushedAggregates.map aggregateItem) ++
        (" FROM ".toList ++ (c.object ++
          if c.pushedWhere = [] then [] else " WHERE ".toList ++ c.pushedWhere))) := by
    intro c
    unfold aggregateSoql appendWhere
    split <;> simp only [List.append_assoc, List.append_nil]
  rw [htext, htext, List.append_cancel_left_eq] at hsoql
  obtain ⟨hsame', htail⟩ := aggregateItems_inj _ _ _ _ a.termsPlain b.termsPlain hread hsoql
  rw [List.append_cancel_left_eq, (equals_iff.mp heq).1, List.append_cancel_left_eq] at htail
  exact ⟨whereText_inj _ _ htail, hsame'⟩

end Seen

/-- The rows are those of the request. -/
theorem sameScans_rows {a b : SalesforceScanFunctionData} (h : SameScans a b)
    (casts : CastFunctions) (settings : ScanSettings) (columnIds : List ℕ) (org : OrgContent) :
    (scannedRows a settings columnIds casts org).toOption =
      (scannedRows b settings columnIds casts org).toOption := by
  rw [scannedRows_request, scannedRows_request, h settings columnIds org]

/-- Equal bind data scan alike exactly when the members that a scan reads agree;
a copy scans as its original. -/
theorem equal_scans_iff (a b : SalesforceScanFunctionData) (heq : a.equals b = true) :
    (SameScans a b ↔ SameReads a b) ∧
      (SameScans a b → ∀ casts settings columnIds org,
        (scannedRows a settings columnIds casts org).toOption =
          (scannedRows b settings columnIds casts org).toOption) ∧
      SameScans a.copy a := by
  refine ⟨⟨?_, sameReads_scans heq⟩, fun h => sameScans_rows h, ?_⟩
  · intro h
    obtain ⟨hconnection, hmode, haggregates⟩ := seen_session h
    exact
      { connection := hconnection
        queryMode := hmode
        aggregates := haggregates
        terms := seen_terms heq h
        rows := fun hagg =>
          { transport := seen_transport h hagg
            columns := seen_columns heq h hagg
            rest := seen_rest heq h hagg
            bulk := seen_bulk heq h hagg } }
  · rw [copy_eq]
    exact fun _ _ _ => rfl

/-! ### Two predicates on one object -/

def plainConfig : SalesforceConfig :=
  ⟨"org".toList, .refreshToken, [], [], [], [], [], "https://login".toList, "v60.0".toList, [], [], 0⟩

/-- `salesforce_scan('org', 'Account', filter := …)`. -/
def filteredAccounts (filter : String) : SalesforceScanFunctionData where
  object := "Account".toList
  fields := [.flat "Name".toList "string".toList .varchar true true]
  pushedWhere := []
  rawWhere := filter.toList
  residualFilterCount := 0
  pushedAggregates := []
  config := plainConfig
  token := ⟨"t".toList, "https://org".toList⟩
  columnNames := ["Name".toList]
  columnTypes := [.varchar]
  pushedFilterCount := 0
  catalogAlias := []
  explainFilters := []
  explainCaptured := false
  named := rfl
  termsPlain := by simp

/-- One account, which is hot. -/
def hotOrg : OrgContent where
  answers := fun _ _ => noAnswers
  records := fun _ _ soql =>
    .ok (if soql = "SELECT Name FROM Account WHERE Rating = 'Hot'".toList then
      ["\x7b\"Name\":\"Acme\"\x7d".toList] else [])
  bulkRows := fun _ _ _ => .ok ([], [])

def noCasts : CastFunctions := ⟨fun _ _ => none, fun _ => []⟩

theorem filters_differ : ¬ SameScans (filteredAccounts "Rating = 'Hot'")
    (filteredAccounts "Rating = 'Cold'") := by
  intro h
  have hreads := (equal_scans_iff _ _ (by decide)).1.mp h
  have hcombined := ((hreads.rows rfl).rest (by decide)).1
  exact absurd hcombined (by decide)

/-- The rows of one predicate are not those of the other. -/
theorem equal_rows_differ :
    ¬ ∀ a b : SalesforceScanFunctionData, a.equals b = true →
      ∀ (casts : CastFunctions) (settings : ScanSettings) (columnIds : List ℕ) (org : OrgContent),
        (scannedRows a settings columnIds casts org).toOption =
          (scannedRows b settings columnIds casts org).toOption := by
  intro h
  have hsame := h (filteredAccounts "Rating = 'Hot'") (filteredAccounts "Rating = 'Cold'") (by decide)
    noCasts (settingsWith none none none none) [0] hotOrg
  have hlength := congrArg (Option.map List.length) hsame
  exact absurd hlength (by decide +kernel)

end DuckdbSalesforce
