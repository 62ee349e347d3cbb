import Mathlib
import DuckdbSalesforce.Scan.ScanRows

/-!
# What a scan asks for

The row scan of `ScanInitGlobal` (salesforce_scan.cpp) by its transport, and a
scan as one request: who asks, in which mode, for what, and how the answers are
read. Its rows are those the request is answered with.
-/

namespace DuckdbSalesforce
open Fallible

/-! ### What a scan asks for -/

inductive ScanTransport where
  | rest
  | bulk
  | auto
  deriving DecidableEq

def ScanTransport.ofText (t : Text) : ScanTransport :=
  if t = "bulk".toList then .bulk else if t = "auto".toList then .auto else .rest

section Plan
variable (bind : SalesforceScanBindData) (config : ScanConfig) (settings : ScanSettings)
  (answers : ScanAnswers) (columnIds : List ℕ)

def restPlan : ScanPlan :=
  match countPushdown bind answers columnIds "rest".toList with
  | some n => .countOnly n
  | none => .rest (rowSoql bind columnIds)

def bulkPlan : Option ScanPlan :=
  if combinedWhere bind = [] ∧ settings.bulkRequirePredicate = some true then none
  else some (.bulk (bulkChunkSoqls bind answers.minMaxId
    (if config.bulkChunks > 0 then config.bulkChunks else settings.bulkChunks.getD 1) columnIds))

/-- The probe counts more rows than the threshold. -/
def probeExceeds : Bool :=
  !aggregateOnly bind columnIds && settings.autoProbe.getD true &&
    match answers.estimateCount (countSoql bind) with
    | none => false
    | some n => n > settings.autoBulkThreshold.getD 50000

def rowPlan : ScanTransport → Option ScanPlan
  | .rest => some (restPlan bind answers columnIds)
  | .bulk => if projectedBase64 bind columnIds = [] then bulkPlan bind config settings answers columnIds
    else none
  | .auto => if probeExceeds bind settings answers columnIds ∧ projectedBase64 bind columnIds = [] then
      bulkPlan bind config settings answers columnIds
    else some (restPlan bind answers columnIds)

theorem scanPlan_rest (effective : Text) (h : effective ≠ "bulk".toList) :
    scanPlan bind config settings answers columnIds effective =
      .ok (restPlan bind answers columnIds) := by
  have hcount : countPushdown bind answers columnIds effective =
      countPushdown bind answers columnIds "rest".toList := by
    have hrest : "rest".toList ≠ "bulk".toList := by decide
    simp only [countPushdown, h, hrest, ne_eq, not_false_eq_true, and_true]
  unfold scanPlan restPlan
  rw [if_neg fun hbulk => h hbulk.1, hcount, if_neg h]
  cases countPushdown bind answers columnIds "rest".toList <;> rfl

theorem scanPlan_bulk :
    (scanPlan bind config settings answers columnIds "bulk".toList).toOption =
      bulkPlan bind config settings answers columnIds := by
  have hcount : countPushdown bind answers columnIds "bulk".toList = none := by
    simp [countPushdown]
  unfold scanPlan bulkPlan
  rw [hcount]
  by_cases hguard : combinedWhere bind = [] ∧ settings.bulkRequirePredicate = some true
  · rw [if_pos ⟨rfl, hguard⟩, if_pos hguard]
    rfl
  · rw [if_neg fun h => hguard h.2, if_neg hguard, if_pos rfl]
    rfl

theorem effective_auto : effectiveTransport bind settings answers columnIds "auto".toList =
    if probeExceeds bind settings answers columnIds then "bulk".toList else "rest".toList := by
  unfold effectiveTransport probeExceeds
  rw [if_pos rfl]
  cases aggregateOnly bind columnIds
  · cases settings.autoProbe.getD true
    · rfl
    · cases answers.estimateCount (countSoql bind)
      · rfl
      · simp
  · rfl

theorem effective_forced (transport : Text) (h : transport ≠ "auto".toList) :
    effectiveTransport bind settings answers columnIds transport = transport := if_neg h

/-- The row scan of init, but for its errors. -/
theorem rowPlan_eq (transport : Text) :
    ((guardedTransport (projectedBase64 bind columnIds) transport
        (effectiveTransport bind settings answers columnIds transport)).bind
      (scanPlan bind config settings answers columnIds)).toOption =
      rowPlan bind config settings answers columnIds (.ofText transport) := by
  have hrest : "rest".toList ≠ "bulk".toList := by decide
  unfold guardedTransport
  by_cases hbulk : transport = "bulk".toList
  · have hclass : ScanTransport.ofText "bulk".toList = .bulk := rfl
    rw [hbulk, effective_forced _ _ _ _ _ (by decide), hclass, rowPlan]
    by_cases hfree : projectedBase64 bind columnIds = []
    · rw [if_pos hfree, if_pos hfree]
      exact scanPlan_bulk bind config settings answers columnIds
    · rw [if_neg hfree, if_pos rfl, if_neg hfree]
      rfl
  · by_cases hauto : transport = "auto".toList
    · have hclass : ScanTransport.ofText "auto".toList = .auto := by decide
      rw [hauto, effective_auto, hclass, rowPlan]
      have hstays := congrArg Except.toOption
        (scanPlan_rest bind config settings answers columnIds _ hrest)
      have hnotBulk : "auto".toList ≠ "bulk".toList := by decide
      by_cases hprobe : probeExceeds bind settings answers columnIds = true
      · rw [if_pos hprobe]
        by_cases hfree : projectedBase64 bind columnIds = []
        · rw [if_pos hfree, if_pos ⟨hprobe, hfree⟩]
          exact scanPlan_bulk bind config settings answers columnIds
        · have hnot : ¬ (probeExceeds bind settings answers columnIds = true ∧
              projectedBase64 bind columnIds = []) := fun h => hfree h.2
          rw [if_neg hnot, if_neg hfree, if_neg hnotBulk, if_pos rfl]
          exact hstays
      · have hnot : ¬ (probeExceeds bind settings answers columnIds = true ∧
            projectedBase64 bind columnIds = []) := fun h => hprobe h.1
        rw [if_neg hnot, if_neg hprobe, if_neg hnotBulk, if_neg hrest, ite_self]
        exact hstays
    · have hforced := scanPlan_rest bind config settings answers columnIds transport hbulk
      have hclass : ScanTransport.ofText transport = .rest := by
        rw [ScanTransport.ofText, if_neg hbulk, if_neg hauto]
      rw [effective_forced _ _ _ _ _ hauto, hclass, if_neg hbulk, if_neg hbulk, ite_self]
      exact congrArg Except.toOption hforced

end Plan

section Request
variable (a : SalesforceScanFunctionData) (settings : ScanSettings) (columnIds : List ℕ)
  (casts : CastFunctions) (org : OrgContent)

/-- One aggregate statement with its terms, each whether it must be there and
what it is read by; or the plan of a row scan. -/
inductive ScanWork where
  | aggregate (soql : Text) (terms : List (Bool × SalesforceField))
  | plan (p : ScanPlan)

/-- Who asks, in which mode and for what, and how the columns are read. -/
structure ScanRequest where
  connection : Connection
  queryAll : Bool
  work : ScanWork
  columns : List (Option SalesforceField)

def aggregateTerms (bind : SalesforceScanBindData) : List (Bool × SalesforceField) :=
  bind.pushedAggregates.map fun pa => (isCountTerm pa, pa.emit.readMembers)

def scanRequest : Option ScanRequest :=
  (scanTransport a.config.overrides settings).toOption.bind fun transport =>
    (scanQueryMode a.config.overrides settings).toOption.bind fun mode =>
      let queryAll := mode == "queryall".toList
      if a.pushedAggregates ≠ [] then
        some ⟨a.connection, queryAll, .aggregate (aggregateSoql a.toSalesforceScanBindData)
          (aggregateTerms a.toSalesforceScanBindData), []⟩
      else
        (rowPlan a.toSalesforceScanBindData a.config.overrides settings
            (org.answers a.connection queryAll) columnIds (.ofText transport)).map fun p =>
          ⟨a.connection, queryAll, .plan p,
            (a.columns columnIds).map (Option.map SalesforceField.readMembers)⟩

def aggregateScanRows (terms : List (Bool × SalesforceField)) (record : Text) :
    Option (List (List DecodedCell)) :=
  if terms.any fun t => t.1 && isMissingOrNull record t.2.name then none
  else ((appendEntries casts ((terms.map Prod.snd).take standardVectorSize) record).map
    fun cells => [cells]).toOption

def ScanRequest.rows (r : ScanRequest) : Option (List (List DecodedCell)) :=
  match r.work with
  | .aggregate soql terms =>
    ((org.answers r.connection r.queryAll).aggregateQuery soql).bind (aggregateScanRows casts terms)
  | .plan p => (planRows casts org r.connection r.queryAll r.columns p).toOption

theorem aggregate_missing (bind : SalesforceScanBindData) (record : Text) :
    ((aggregateTerms bind).any fun t => t.1 && isMissingOrNull record t.2.name) =
      (bind.pushedAggregates.find? fun pa =>
        isCountTerm pa && isMissingOrNull record pa.emit.name).isSome := by
  rw [aggregateTerms, List.any_map, List.isSome_find?]
  congr 1
  funext pa
  rw [Function.comp_apply, readMembers_name]

theorem aggregateScanRows_eq (bind : SalesforceScanBindData) (query : Text → Option Text) :
    ((scanInitAggregate bind query).bind fun s =>
        (scanFunctionAggregate casts s).map Prod.snd).toOption =
      (query (aggregateSoql bind)).bind (aggregateScanRows casts (aggregateTerms bind)) := by
  unfold scanInitAggregate
  cases query (aggregateSoql bind) with
  | none => rfl
  | some record =>
    dsimp only
    rw [Option.bind_some, aggregateScanRows, aggregate_missing]
    cases hfind : bind.pushedAggregates.find? fun pa =>
        isCountTerm pa && isMissingOrNull record pa.emit.name with
    | some pa => rfl
    | none =>
      have hcells := appendEntries_read casts
        ((bind.pushedAggregates.map SalesforcePushedAggregate.emit).take standardVectorSize) record
      have hterms : readChildren
          ((bind.pushedAggregates.map SalesforcePushedAggregate.emit).take standardVectorSize) =
          ((aggregateTerms bind).map Prod.snd).take standardVectorSize := by
        rw [readChildren_map, aggregateTerms, List.map_take, List.map_map, List.map_map]
        rfl
      rw [hterms] at hcells
      rw [Option.isSome_none, if_neg Bool.false_ne_true]
      unfold scanFunctionAggregate
      dsimp only [Except.bind]
      rw [if_neg Bool.false_ne_true]
      rcases hcells.cases with ⟨cells, hl, hr⟩ | ⟨e, e', hl, hr⟩
      · rw [hl, hr]
        rfl
      · rw [hl, hr]
        rfl

theorem planRows_read (connection : Connection) (queryAll : Bool)
    (columns : List (Option SalesforceField)) (p : ScanPlan)
    (h : ∀ s, p ≠ .aggregate s) :
    Same (planRows casts org connection queryAll columns p)
      (planRows casts org connection queryAll
        (columns.map (Option.map SalesforceField.readMembers)) p) := by
  cases p with
  | aggregate s => exact absurd rfl (h s)
  | countOnly total =>
    rw [planRows, planRows, List.map_map]
    rfl
  | bulk soqls => exact csvRows_read casts _ columns [] soqls
  | rest soql => exact (Same.refl _).bind (jsonRows_read casts columns)

theorem rowPlan_rows (bind : SalesforceScanBindData) (config : ScanConfig) (answers : ScanAnswers)
    (transport : ScanTransport) (p : ScanPlan)
    (h : rowPlan bind config settings answers columnIds transport = some p) :
    ∀ s, p ≠ .aggregate s := by
  intro s heq
  subst heq
  have hrest : restPlan bind answers columnIds ≠ .aggregate s := by
    unfold restPlan
    split <;> simp
  have hbulk : bulkPlan bind config settings answers columnIds ≠ some (.aggregate s) := by
    unfold bulkPlan
    split <;> simp
  cases transport with
  | rest => exact hrest (Option.some.inj h)
  | bulk =>
    rw [rowPlan] at h
    split at h
    · exact hbulk h
    · cases h
  | auto =>
    rw [rowPlan] at h
    split at h
    · exact hbulk h
    · exact hrest (Option.some.inj h)

/-- The rows of a scan are those its request is answered with. -/
theorem scannedRows_request : (scannedRows a settings columnIds casts org).toOption =
    (scanRequest a settings columnIds org).bind (ScanRequest.rows casts org) := by
  unfold scannedRows scanInitGlobal SalesforceScanFunctionData.queryAll scanRequest
  cases scanTransport a.config.overrides settings with
  | error e => rfl
  | ok transport =>
    cases scanQueryMode a.config.overrides settings with
    | error e => rfl
    | ok mode =>
      dsimp only [Except.toOption, Option.bind_some]
      by_cases hagg : a.pushedAggregates ≠ []
      · rw [if_pos hagg, if_pos hagg, Option.bind_some]
        have hrows := aggregateScanRows_eq casts a.toSalesforceScanBindData
          (org.answers a.connection (mode == "queryall".toList)).aggregateQuery
        refine Eq.trans ?_ hrows
        cases scanInitAggregate a.toSalesforceScanBindData
          (org.answers a.connection (mode == "queryall".toList)).aggregateQuery <;> rfl
      · rw [if_neg hagg, if_neg hagg]
        generalize org.answers a.connection (mode == "queryall".toList) = answers
        have hplan := rowPlan_eq a.toSalesforceScanBindData a.config.overrides settings answers
          columnIds transport
        have hrow := rowPlan_rows settings columnIds a.toSalesforceScanBindData a.config.overrides
          answers (.ofText transport)
        cases hguard : guardedTransport (projectedBase64 a.toSalesforceScanBindData columnIds)
            transport (effectiveTransport a.toSalesforceScanBindData settings answers columnIds
              transport) with
        | error e =>
          rw [hguard] at hplan
          rw [← hplan]
          rfl
        | ok effective =>
          cases hscan : scanPlan a.toSalesforceScanBindData a.config.overrides settings answers
              columnIds effective with
          | error e =>
            rw [hguard, Except.bind, hscan] at hplan
            rw [← hplan]
            dsimp only
            rw [hscan]
            rfl
          | ok p =>
            rw [hguard, Except.bind, hscan] at hplan
            rw [← hplan]
            dsimp only
            rw [hscan]
            exact planRows_read casts org _ _ _ p (hrow p hplan.symm)

end Request

end DuckdbSalesforce
