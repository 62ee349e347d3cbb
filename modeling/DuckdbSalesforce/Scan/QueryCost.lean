import DuckdbSalesforce.Catalog.MetadataTables
import DuckdbSalesforce.Scan.PushdownCalls
import DuckdbSalesforce.Scan.RestScan
import DuckdbSalesforce.Scan.TransportGuard
import DuckdbSalesforce.Scan.WhereBound

/-!
# The cost of the last scan (`salesforce_diag.cpp`, `salesforce_scan.cpp`)

`ScanInitGlobal` records what a scan is about to do, and the scan adds the pages
it fetched and the rows it emitted. `salesforce_query_cost` shows the record.
-/

namespace DuckdbSalesforce
open TableChunks PagedStream

/-! ### The record -/

structure ScanCost where
  object : Text
  soql : Text
  transport : Text
  estRows : ℤ
  transportReason : Text
  projectedFields : ℤ
  totalFields : ℤ
  pushedFilters : ℤ
  residualFilters : ℤ
  wherePushed : Text
  pagesFetched : ℤ
  rowsEmitted : ℤ
  bulk : Bool
  countPushdown : Bool
  bulkChunks : ℤ
  bulkPolls : ℤ
  queryMode : Text
  quotaConsulted : Bool
  quotaRemaining : ℤ
  quotaAllowed : Bool

def ScanCost.initial : ScanCost :=
  { object := [], soql := [], transport := [], estRows := -1, transportReason := [],
    projectedFields := 0, totalFields := 0, pushedFilters := 0, residualFilters := 0,
    wherePushed := [], pagesFetched := -1, rowsEmitted := 0, bulk := false, countPushdown := false,
    bulkChunks := 1, bulkPolls := -1, queryMode := "query".toList, quotaConsulted := false,
    quotaRemaining := -1, quotaAllowed := false }

def diagRecordScan (object soql transport : Text) (estRows : ℤ) (transportReason : Text)
    (projectedFields totalFields pushedFilters residualFilters : ℤ) (wherePushed : Text) (bulk : Bool)
    (pagesInit : ℤ) (countPushdown : Bool) (queryMode : Text) : ScanCost :=
  { ScanCost.initial with
    object := object, soql := soql, transport := transport, estRows := estRows,
    transportReason := transportReason, projectedFields := projectedFields,
    totalFields := totalFields, pushedFilters := pushedFilters, residualFilters := residualFilters,
    wherePushed := wherePushed, bulk := bulk, pagesFetched := pagesInit,
    countPushdown := countPushdown, queryMode := queryMode }

/-- `DiagSetPages`, `DiagSetBulkPolls`, `DiagAddRowsEmitted` and `DiagSetQuota`. -/
inductive DiagWrite where
  | setPages (pages : ℤ)
  | setBulkPolls (polls : ℤ)
  | addRowsEmitted (rows : ℤ)
  | setQuota (remaining : ℤ) (allowed : Bool)

def ScanCost.write (c : ScanCost) : DiagWrite → ScanCost
  | .setPages pages => { c with pagesFetched := pages }
  | .setBulkPolls polls => { c with bulkPolls := polls }
  | .addRowsEmitted rows => { c with rowsEmitted := c.rowsEmitted + rows }
  | .setQuota remaining allowed =>
    { c with quotaConsulted := true, quotaRemaining := remaining, quotaAllowed := allowed }

/-! ### The table -/

def costHints (c : ScanCost) : List Text :=
  (if c.wherePushed ≠ [] then
    ["Salesforce is filtering server-side (predicate pushed to SOQL)".toList]
  else ["no predicate pushed to SOQL — full-object scan; add a filterable WHERE".toList]) ++
  (if 0 < c.residualFilters then
    ["DuckDB is filtering after a full remote scan: ".toList ++ intText c.residualFilters ++
      " filter(s) applied residually (not server-filterable) — over-fetch".toList] else []) ++
  (if c.bulk ∧ c.wherePushed = [] then
    ["Bulk full-object read with no pushed predicate — for a large ".toList ++
      "backfill, split by CreatedDate/SystemModstamp windows, or set ".toList ++
      "sf_bulk_require_predicate to enforce it".toList] else []) ++
  (if 0 < c.totalFields ∧ c.totalFields ≤ c.projectedFields then
    ["all fields projected — SELECT fewer columns to cut egress".toList] else []) ++
  (if c.bulk then
    ["Bulk job completes server-side first; result pages stream lazily; ".toList ++
      "LIMIT is not server-side".toList] else []) ++
  if c.countPushdown then
    ["count pushdown: emitted ".toList ++ intText c.rowsEmitted ++
      " rows from SELECT COUNT(), no records fetched".toList] else []

def buildGuidance (c : ScanCost) : Text :=
  joinText "; ".toList
    (if costHints c = [] then ["ok: predicate + projection pushed down".toList] else costHints c)

def bigintOrNull (n : ℤ) : Option Value := if n < 0 then none else bigintValue n

def queryCostColumns : List (Column ScanCost Value) :=
  [.flat fun c => varcharCell c.object, .flat fun c => varcharCell c.soql,
    .flat fun c => varcharCell c.transport, .flat fun c => bigintOrNull c.estRows,
    .flat fun c => varcharCell c.transportReason, .flat fun c => bigintValue c.projectedFields,
    .flat fun c => bigintValue c.totalFields, .flat fun c => bigintValue c.pushedFilters,
    .flat fun c => bigintValue c.residualFilters, .flat fun c => varcharCell c.wherePushed,
    .flat fun c => bigintOrNull c.pagesFetched, .flat fun c => bigintValue c.rowsEmitted,
    .flat fun c => booleanCell c.bulk, .flat fun c => booleanCell c.countPushdown,
    .flat fun c => bigintValue c.bulkChunks, .flat fun c => varcharCell c.queryMode,
    .flat fun c => if c.quotaConsulted then bigintOrNull c.quotaRemaining else none,
    .flat fun c => if c.quotaConsulted then booleanCell c.quotaAllowed else none,
    .flat fun c => varcharCell (buildGuidance c), .flat fun c => bigintOrNull c.bulkPolls]

/-- `QueryCostFunction` called `n` times; `emitted` is the cursor past the one row. -/
def queryCost (c : ScanCost) (v n : ℕ) : Option (List (List (OutValue Value))) :=
  (emitCalls queryCostColumns [c] v n 0).map Prod.fst

theorem queryCost_row (c : ScanCost) (v n : ℕ) (hv : 0 < v) :
    queryCost c v (n + 1) = some [rowValues queryCostColumns c] := by
  have hpos : 1 ≤ (n + 1) * v := Nat.mul_pos (Nat.succ_pos n) hv
  have hall : batch [c] 0 ((n + 1) * v) = [c] := List.take_of_length_le hpos
  rw [queryCost, emitCalls_rows, hall]
  rfl

/-! ### What ScanInitGlobal records -/

structure TransportChoice where
  effective : Text
  estRows : ℤ
  reason : Text

section Init
variable (bind : PushdownBindData)

/-- The resolution of `auto`, with its reason. -/
def chooseTransport (settings : ScanSettings) (answers : ScanAnswers) (columnIds : List ℕ)
    (transport : Text) : TransportChoice :=
  if transport = "auto".toList then
    if aggregateOnly bind.toSalesforceScanBindData columnIds then
      ⟨"rest".toList, -1, "auto: aggregate-only -> rest".toList⟩
    else if settings.autoProbe.getD true then
      match answers.estimateCount (countSoql bind.toSalesforceScanBindData) with
      | none => ⟨"rest".toList, -1, "auto: probe failed -> rest".toList⟩
      | some n =>
        let threshold := settings.autoBulkThreshold.getD 50000
        let effective := if n > threshold then "bulk".toList else "rest".toList
        ⟨effective, n, "auto: est ".toList ++ intText n ++ " rows ".toList ++
          (if n > threshold then ">".toList else "<=".toList) ++ " threshold ".toList ++
            intText threshold ++ " -> ".toList ++ effective⟩
    else ⟨"rest".toList, -1, "auto: probe disabled -> rest".toList⟩
  else ⟨transport, -1, "forced".toList⟩

def guardChoice (path transport : Text) (c : TransportChoice) : Except Text TransportChoice :=
  if path = [] then .ok c
  else if transport = "bulk".toList then .error (base64Error path)
  else if c.effective = "bulk".toList then
    .ok { c with
      effective := "rest".toList
      reason := "auto: bulk-incompatible (projected base64 field '".toList ++ path ++
        "') -> rest".toList }
  else .ok c

def modeText (mode : Text) : Text := if mode = "queryall".toList then "queryAll".toList else "query".toList

/-- The row scan and its COUNT(), once the transport is known. -/
def rowCost (config : ScanConfig) (settings : ScanSettings) (answers : ScanAnswers)
    (columnIds : List ℕ) (choice : TransportChoice) (mode : Text) : Except Text ScanCost :=
  let scan := bind.toSalesforceScanBindData
  if choice.effective = "bulk".toList ∧ combinedWhere scan = [] ∧
      settings.bulkRequirePredicate = some true then
    .error (predicateError scan)
  else
    let count := countPushdown scan answers columnIds choice.effective
    let cost := diagRecordScan bind.object
      (if count.isSome then countSoql scan else rowSoql scan columnIds) choice.effective choice.estRows
      choice.reason (selectFields scan columnIds).length bind.fields.length bind.pushedFilterCount
      bind.residualFilterCount (combinedWhere scan) (decide (choice.effective = "bulk".toList)) 0
      count.isSome (modeText mode)
    if count.isSome then .ok cost
    else if choice.effective = "bulk".toList then
      .ok { cost with
        bulkChunks := (bulkChunkSoqls scan answers.minMaxId
          (if config.bulkChunks > 0 then config.bulkChunks else settings.bulkChunks.getD 1)
          columnIds).length }
    else .ok cost

def scanInitCost (config : ScanConfig) (settings : ScanSettings) (answers : ScanAnswers)
    (columnIds : List ℕ) : Except Text ScanCost :=
  let scan := bind.toSalesforceScanBindData
  match scanTransport config settings with
  | .error e => .error e
  | .ok transport =>
    match scanQueryMode config settings with
    | .error e => .error e
    | .ok mode =>
      if bind.pushedAggregates ≠ [] then
        match scanInitAggregate scan answers.aggregateQuery with
        | .error e => .error e
        | .ok _ =>
          .ok (diagRecordScan bind.object (aggregateSoql scan) "rest".toList 1
            "aggregate pushdown".toList bind.pushedAggregates.length bind.fields.length
            bind.pushedFilterCount bind.residualFilterCount (combinedWhere scan) false 0 true
            (modeText mode))
      else
        match guardChoice (projectedBase64 scan columnIds) transport
            (chooseTransport bind settings answers columnIds transport) with
        | .error e => .error e
        | .ok choice => rowCost bind config settings answers columnIds choice mode

/-- The statement of a Bulk job with the condition `w`. -/
def jobSoql (columnIds : List ℕ) (w : Text) : Text :=
  buildSelectSoql bind.object (selectFields bind.toSalesforceScanBindData columnIds) w none

/-- The jobs have the pushed conditions, in one piece or split by Id, and never the raw filter. -/
def PushedJobs (columnIds : List ℕ) (soqls : List Text) : Prop :=
  soqls = [jobSoql bind columnIds bind.pushedWhere] ∨
    ∃ ranges : List IdRange,
      soqls = ranges.map fun r => jobSoql bind columnIds (combineRange bind.pushedWhere r.text)

/-- What the record says of the plan. A Bulk scan records one statement with the
whole WHERE, which is that of an undivided job if there is no raw filter. -/
def PlanRecorded (answers : ScanAnswers) (columnIds : List ℕ) (c : ScanCost) : ScanPlan → Prop
  | .aggregate s =>
    answers.aggregateQuery c.soql = some s.record ∧ c.bulk = false ∧ c.countPushdown = true
  | .countOnly total =>
    answers.estimateCount c.soql = some total ∧ c.bulk = false ∧ c.countPushdown = true
  | .bulk soqls =>
    c.soql = jobSoql bind columnIds (combinedWhere bind.toSalesforceScanBindData) ∧
      PushedJobs bind columnIds soqls ∧
      (c.soql = jobSoql bind columnIds bind.pushedWhere ↔ bind.rawWhere = []) ∧
      c.bulkChunks = soqls.length ∧ c.bulk = true ∧ c.countPushdown = false
  | .rest soql => c.soql = soql ∧ c.bulk = false ∧ c.countPushdown = false

/-- The record of a scan before its first row. -/
structure CostRecorded (answers : ScanAnswers) (columnIds : List ℕ) (start : ScanStart) (c : ScanCost) :
    Prop where
  plan : PlanRecorded bind answers columnIds c start.plan
  mode : c.queryMode = if start.queryAll then "queryAll".toList else "query".toList
  filters : c.wherePushed = combinedWhere bind.toSalesforceScanBindData ∧
    c.pushedFilters = bind.pushedFilterCount ∧ c.residualFilters = bind.residualFilterCount
  unread : c.pagesFetched = 0 ∧ c.rowsEmitted = 0 ∧ c.bulkPolls = -1 ∧ c.quotaConsulted = false

end Init

/-! ### The record and the plan -/

section Plan
variable (bind : PushdownBindData) (config : ScanConfig) (settings : ScanSettings)
  (answers : ScanAnswers) (columnIds : List ℕ)

theorem chooseTransport_effective (transport : Text) :
    (chooseTransport bind settings answers columnIds transport).effective =
      effectiveTransport bind.toSalesforceScanBindData settings answers columnIds transport := by
  unfold chooseTransport effectiveTransport
  split
  · split
    · rfl
    · split
      · cases answers.estimateCount (countSoql bind.toSalesforceScanBindData) with
        | none => rfl
        | some n => rfl
      · rfl
  · rfl

theorem guardChoice_effective (path transport : Text) (c : TransportChoice) :
    (guardChoice path transport c).map TransportChoice.effective =
      guardedTransport path transport c.effective := by
  unfold guardChoice guardedTransport
  split
  · rfl
  · split
    · rfl
    · by_cases hbulk : c.effective = "bulk".toList
      · rw [if_pos hbulk, if_pos hbulk]
        rfl
      · rw [if_neg hbulk, if_neg hbulk]
        rfl

theorem modeText_all (mode : Text) :
    modeText mode = if mode == "queryall".toList then "queryAll".toList else "query".toList := by
  unfold modeText
  by_cases h : mode = "queryall".toList
  · rw [if_pos h, if_pos (beq_iff_eq.mpr h)]
  · rw [if_neg h, if_neg fun hb => h (beq_iff_eq.mp hb)]

theorem bulkChunkSoqls_pushed (answer : Text → Option (Text × Text)) (chunks : ℤ) :
    PushedJobs bind columnIds (bulkChunkSoqls bind.toSalesforceScanBindData answer chunks columnIds) := by
  unfold bulkChunkSoqls
  rw [bulkWheres_ranges]
  split
  · exact Or.inl rfl
  · exact Or.inr ⟨_, List.map_map⟩

theorem combinedWhere_longer (scan : SalesforceScanBindData) (h : scan.rawWhere ≠ []) :
    scan.pushedWhere.length < (combinedWhere scan).length := by
  have hraw := List.length_pos_of_ne_nil h
  unfold combinedWhere
  rw [if_neg h]
  split
  · rename_i hnone
    rw [hnone]
    exact hraw
  · rw [List.length_append, List.length_append]
    omega

theorem jobSoql_length (w : Text) :
    (jobSoql bind columnIds w).length =
      (jobSoql bind columnIds []).length + if w = [] then 0 else w.length + 7 := by
  have hword : " WHERE ".toList.length = 7 := rfl
  unfold jobSoql buildSelectSoql
  split
  · rw [if_pos rfl, add_zero]
  · rw [if_pos rfl]
    simp only [List.length_append, List.length_nil, hword]
    omega

/-- The raw filter is in the statement of the record. -/
theorem jobSoql_combined :
    jobSoql bind columnIds (combinedWhere bind.toSalesforceScanBindData) =
      jobSoql bind columnIds bind.pushedWhere ↔ bind.rawWhere = [] := by
  constructor
  · intro hsame
    by_contra hraw
    have hlonger := combinedWhere_longer bind.toSalesforceScanBindData hraw
    have hlength := congrArg List.length hsame
    have hsome : combinedWhere bind.toSalesforceScanBindData ≠ [] :=
      List.ne_nil_of_length_pos (Nat.zero_lt_of_lt hlonger)
    rw [jobSoql_length, jobSoql_length bind columnIds bind.pushedWhere, if_neg hsome] at hlength
    split at hlength
    · omega
    · omega
  · intro hnone
    rw [combinedWhere, if_pos hnone]

/-- The plan of a row scan and its record fail alike. -/
theorem rowCost_recorded (choice : TransportChoice) (mode : Text) :
    match scanPlan bind.toSalesforceScanBindData config settings answers columnIds choice.effective with
    | .error e => rowCost bind config settings answers columnIds choice mode = .error e
    | .ok plan => ∃ c, rowCost bind config settings answers columnIds choice mode = .ok c ∧
        CostRecorded bind answers columnIds ⟨mode == "queryall".toList, plan⟩ c := by
  unfold scanPlan rowCost
  by_cases hguard : choice.effective = "bulk".toList ∧
      combinedWhere bind.toSalesforceScanBindData = [] ∧ settings.bulkRequirePredicate = some true
  · rw [if_pos hguard, if_pos hguard]
  rw [if_neg hguard, if_neg hguard]
  cases hcount : countPushdown bind.toSalesforceScanBindData answers columnIds choice.effective with
  | some total =>
    have hasked : choice.effective ≠ "bulk".toList ∧
        answers.estimateCount (countSoql bind.toSalesforceScanBindData) = some total := by
      unfold countPushdown at hcount
      split at hcount
      · rename_i hall
        exact ⟨hall.2.2, hcount⟩
      · cases hcount
    refine ⟨_, rfl, ⟨hasked.2, decide_eq_false hasked.1, rfl⟩, modeText_all mode, ⟨rfl, rfl, rfl⟩,
      rfl, rfl, rfl, rfl⟩
  | none =>
    by_cases hbulk : choice.effective = "bulk".toList
    · simp only [if_pos hbulk]
      refine ⟨_, rfl, ⟨rfl, bulkChunkSoqls_pushed bind columnIds _ _, jobSoql_combined bind columnIds,
        rfl, decide_eq_true hbulk, rfl⟩, modeText_all mode, ⟨rfl, rfl, rfl⟩, rfl, rfl, rfl, rfl⟩
    · simp only [if_neg hbulk]
      refine ⟨_, rfl, ⟨rfl, decide_eq_false hbulk, rfl⟩, modeText_all mode, ⟨rfl, rfl, rfl⟩,
        rfl, rfl, rfl, rfl⟩

theorem aggregate_asked (s : AggregateScanState)
    (h : scanInitAggregate bind.toSalesforceScanBindData answers.aggregateQuery = .ok s) :
    answers.aggregateQuery (aggregateSoql bind.toSalesforceScanBindData) = some s.record := by
  unfold scanInitAggregate at h
  split at h
  · cases h
  · rename_i record hrecord
    split at h
    · cases h
    · cases h
      exact hrecord

theorem scanInitCost_recorded :
    match scanInitGlobal bind.toSalesforceScanBindData config settings answers columnIds with
    | .error e => scanInitCost bind config settings answers columnIds = .error e
    | .ok start => ∃ c, scanInitCost bind config settings answers columnIds = .ok c ∧
        CostRecorded bind answers columnIds start c := by
  unfold scanInitGlobal scanInitCost
  cases scanTransport config settings with
  | error e => rfl
  | ok transport =>
    cases scanQueryMode config settings with
    | error e => rfl
    | ok mode =>
      dsimp only
      by_cases haggregates : bind.pushedAggregates ≠ []
      · rw [if_pos haggregates, if_pos haggregates]
        cases hinit : scanInitAggregate bind.toSalesforceScanBindData answers.aggregateQuery with
        | error e => rfl
        | ok s =>
          refine ⟨_, rfl, ⟨aggregate_asked bind answers s hinit, rfl, rfl⟩, modeText_all mode,
            ⟨rfl, rfl, rfl⟩, rfl, rfl, rfl, rfl⟩
      · rw [if_neg haggregates, if_neg haggregates]
        have hguard := guardChoice_effective (projectedBase64 bind.toSalesforceScanBindData columnIds)
          transport (chooseTransport bind settings answers columnIds transport)
        rw [chooseTransport_effective] at hguard
        rw [← hguard]
        cases guardChoice (projectedBase64 bind.toSalesforceScanBindData columnIds) transport
            (chooseTransport bind settings answers columnIds transport) with
        | error e => rfl
        | ok choice =>
          have hrow := rowCost_recorded bind config settings answers columnIds choice mode
          dsimp only [Except.map]
          cases hplan : scanPlan bind.toSalesforceScanBindData config settings answers columnIds
              choice.effective with
          | error e =>
            rw [hplan] at hrow
            exact hrow
          | ok plan =>
            rw [hplan] at hrow
            exact hrow

end Plan

/-! ### Calls of a REST scan -/

section Rest
variable (fetchPage : FetchPage)

/-- Once a page is there, before it is looked at. -/
def pageWrites (g : RestScanState) : List DiagWrite :=
  match fetchPage g.nextPath with
  | .error _ => []
  | .ok _ => [.setPages (g.pagesFetched + 1)]

/-- What the rounds of `ScanAdvancePage` write. -/
def advanceWrites (g : RestScanState) : List DiagWrite :=
  if g.done then []
  else
    match _h : scanFetchPage fetchPage g with
    | (.error _, _) => pageWrites fetchPage g
    | (.ok (), g') =>
      if !g'.page.isEmpty then pageWrites fetchPage g
      else if _hdone : g'.done then pageWrites fetchPage g
      else pageWrites fetchPage g ++ advanceWrites g'
termination_by kScanMaxPages - g.pagesFetched
decreasing_by
  have hmore := scanFetchPage_continues fetchPage g g' _h (Bool.eq_false_iff.mpr _hdone)
  omega

/-- What a call of `ScanFunction` writes. -/
def callWrites (v : ℕ) (g : RestScanState) : List DiagWrite :=
  if g.page.length ≤ g.cursor then
    advanceWrites fetchPage g ++
      match scanAdvancePage fetchPage g with
      | (.ok true, g') => [.addRowsEmitted ((g'.page.drop g'.cursor).take v).length]
      | _ => []
  else [.addRowsEmitted ((g.page.drop g.cursor).take v).length]

/-- What a call writes that has a page and throws over a cell of it. -/
def cellThrownWrites (g : RestScanState) : List DiagWrite :=
  if g.page.length ≤ g.cursor then advanceWrites fetchPage g else []

/-- The pages there are when a call comes to its rows. -/
def pagesThen (g : RestScanState) : ℕ :=
  if g.page.length ≤ g.cursor then (scanAdvancePage fetchPage g).2.pagesFetched else g.pagesFetched

/-- The record after `n` calls, none after one that failed. -/
def restCost (v : ℕ) : ℕ → RestScanState → ScanCost → ScanCost
  | 0, _, c => c
  | n + 1, g, c =>
    match scanFunctionRest fetchPage v g with
    | (.error _, _) => (callWrites fetchPage v g).foldl ScanCost.write c
    | (.ok _, g') => restCost v n g' ((callWrites fetchPage v g).foldl ScanCost.write c)

end Rest

def ScanCost.tally (c : ScanCost) (pages rows : ℤ) : ScanCost :=
  { c with pagesFetched := pages, rowsEmitted := c.rowsEmitted + rows }

/-- The record of a scan that is at `g`. -/
def costAt (c : ScanCost) (g : RestScanState) : ScanCost :=
  c.tally g.pagesFetched (delivered g.trace).length

section Rest
variable (fetchPage : FetchPage) (c : ScanCost)

/-- A page counts, whatever is thrown over it. -/
theorem round_written (g : RestScanState) :
    (pageWrites fetchPage g).foldl ScanCost.write (costAt c g) =
      costAt c (scanFetchPage fetchPage g).2 := by
  have htrace : delivered (g.trace ++ [.request g.nextPath]) = delivered g.trace := by
    rw [delivered_append]
    exact List.append_nil _
  unfold pageWrites scanFetchPage
  cases fetchPage g.nextPath with
  | error e =>
    show costAt c g = c.tally g.pagesFetched (delivered (g.trace ++ [.request g.nextPath])).length
    rw [htrace]
    rfl
  | ok pg =>
    have hcounted : (costAt c g).write (.setPages (g.pagesFetched + 1)) =
        c.tally (g.pagesFetched + 1 : ℕ) (delivered (g.trace ++ [.request g.nextPath])).length := by
      rw [htrace]
      rfl
    dsimp only
    rw [List.foldl_cons, List.foldl_nil, hcounted]
    split
    · rfl
    · split
      · rfl
      · split
        · rfl
        · rfl

theorem advance_written (g : RestScanState) :
    (advanceWrites fetchPage g).foldl ScanCost.write (costAt c g) =
        costAt c (scanAdvancePage fetchPage g).2 := by
  fun_induction advanceWrites fetchPage g with
  | case1 g hdone =>
    rw [scanAdvancePage, if_pos hdone]
    rfl
  | case2 g hdone e g' hround =>
    rw [scanAdvancePage, if_neg hdone, round_written, hround]
  | case3 g hdone g' hround hpage =>
    rw [scanAdvancePage, if_neg hdone, round_written, hround]
    dsimp only
    rw [if_pos hpage]
  | case4 g hdone g' hround hpage hlast =>
    rw [scanAdvancePage, if_neg hdone, round_written, hround]
    dsimp only
    rw [if_neg hpage, dif_pos hlast]
  | case5 g hdone g' hround hpage hlast ih =>
    rw [scanAdvancePage, if_neg hdone, List.foldl_append, round_written, hround]
    dsimp only
    rw [if_neg hpage, dif_neg hlast]
    exact ih

theorem advance_delivers (g : RestScanState) :
    delivered (scanAdvancePage fetchPage g).2.trace = delivered g.trace := by
  fun_induction scanAdvancePage fetchPage g with
  | case1 g hdone => rfl
  | case2 g hdone e g' hround => exact (scanFetchPage_frame g _ hround).1
  | case3 g hdone g' hround hpage => exact (scanFetchPage_frame g _ hround).1
  | case4 g hdone g' hround hpage hlast => exact (scanFetchPage_frame g _ hround).1
  | case5 g hdone g' hround hpage hlast ih =>
    exact ih.trans (scanFetchPage_frame g _ hround).1

/-- A call that throws over a cell has counted its pages and none of its rows. -/
theorem thrown_written (g : RestScanState) :
    (cellThrownWrites fetchPage g).foldl ScanCost.write (costAt c g) =
      c.tally (pagesThen fetchPage g) (delivered g.trace).length := by
  unfold cellThrownWrites pagesThen
  split
  · rw [advance_written, costAt, advance_delivers]
  · rfl

theorem emit_written (v : ℕ) (g : RestScanState) :
    (costAt c g).write (.addRowsEmitted ((g.page.drop g.cursor).take v).length) =
      costAt c (emitRecords v g).2 := by
  unfold costAt emitRecords
  dsimp only
  rw [delivered_append, delivered_deliveries, List.length_append, Nat.cast_add]
  simp only [ScanCost.write, ScanCost.tally, add_assoc]

theorem call_written (v : ℕ) (g : RestScanState) :
    (callWrites fetchPage v g).foldl ScanCost.write (costAt c g) =
      costAt c (scanFunctionRest fetchPage v g).2 := by
  unfold callWrites scanFunctionRest
  split
  · rw [List.foldl_append, advance_written]
    cases scanAdvancePage fetchPage g with
    | mk r g' =>
      match r with
      | .error e => rfl
      | .ok false => rfl
      | .ok true => exact emit_written c v g'
  · exact emit_written c v g

/-- After any calls the record has the pages that were fetched and the rows that
were emitted. -/
theorem restCost_counts (v n : ℕ) (g : RestScanState) :
    restCost fetchPage v n g (costAt c g) = costAt c (scanCalls fetchPage v n g).2 := by
  induction n generalizing g with
  | zero => rfl
  | succ n ih =>
    have hcall := call_written fetchPage c v g
    unfold restCost scanCalls
    cases hr : scanFunctionRest fetchPage v g with
    | mk r g' =>
      rw [hr] at hcall
      cases r with
      | error e => exact hcall
      | ok rows =>
        dsimp only
        rw [hcall]
        exact ih g'

end Rest

/-! ### Calls without records -/

/-- The loop of a count pushdown: the cursor and the rows of the call. -/
def countLoop (total : ℤ) : ℕ → ℤ → ℕ → ℤ × ℕ
  | 0, cursor, row => (cursor, row)
  | left + 1, cursor, row =>
    if cursor < total then countLoop total left (cursor + 1) (row + 1) else (cursor, row)

def countCost (total : ℤ) (v : ℕ) : ℕ → ℤ → ScanCost → ScanCost
  | 0, _, c => c
  | n + 1, cursor, c =>
    countCost total v n (countLoop total v cursor 0).1
      (c.write (.addRowsEmitted (countLoop total v cursor 0).2))

/-- The one row of pushed aggregates. -/
def aggregateCost (casts : CastFunctions) : ℕ → AggregateScanState → ScanCost → ScanCost
  | 0, _, c => c
  | n + 1, s, c =>
    if s.sent then aggregateCost casts n s c
    else
      match scanFunctionAggregate casts s with
      | .error _ => c
      | .ok (s', _) => aggregateCost casts n s' (c.write (.addRowsEmitted 1))

theorem countLoop_eq (total : ℤ) (left row : ℕ) (cursor : ℤ) :
    countLoop total left cursor row =
      (cursor + (min left (total - cursor).toNat : ℕ), row + min left (total - cursor).toNat) := by
  induction left generalizing cursor row with
  | zero => simp [countLoop]
  | succ left ih =>
    rw [countLoop]
    split
    · rw [ih]
      refine Prod.ext ?_ ?_
      · show cursor + 1 + ((min left (total - (cursor + 1)).toNat : ℕ) : ℤ) = _
        omega
      · show row + 1 + min left (total - (cursor + 1)).toNat = _
        omega
    · refine Prod.ext ?_ ?_
      · show cursor = _
        omega
      · show row = _
        omega

theorem countCost_counts (total : ℤ) (v n : ℕ) (cursor : ℤ) (c : ScanCost) :
    countCost total v n cursor c =
      c.tally c.pagesFetched (min (n * v) (total - cursor).toNat : ℕ) := by
  induction n generalizing cursor c with
  | zero => simp [countCost, ScanCost.tally]
  | succ n ih =>
    have hrows : min v (total - cursor).toNat +
        min (n * v) (total - (cursor + (min v (total - cursor).toNat : ℕ))).toNat =
        min ((n + 1) * v) (total - cursor).toNat := by
      rw [Nat.succ_mul]
      omega
    rw [countCost, countLoop_eq, ih, ← hrows, Nat.zero_add]
    simp only [ScanCost.write, ScanCost.tally, Nat.cast_add, add_assoc]

theorem aggregateCost_sent (casts : CastFunctions) (n : ℕ) (s : AggregateScanState) (c : ScanCost)
    (h : s.sent = true) : aggregateCost casts n s c = c := by
  induction n with
  | zero => rfl
  | succ n ih => rw [aggregateCost, if_pos h, ih]

theorem aggregateCost_counts (casts : CastFunctions) (n : ℕ) (s s' : AggregateScanState)
    (rows : List (List DecodedCell)) (c : ScanCost) (hs : s.sent = false)
    (h : scanFunctionAggregate casts s = .ok (s', rows)) :
    rows.length = 1 ∧ aggregateCost casts (n + 1) s c = c.tally c.pagesFetched 1 := by
  have hcall := h
  unfold scanFunctionAggregate at hcall
  rw [hs, if_neg Bool.false_ne_true] at hcall
  split at hcall
  · cases hcall
  · cases hcall
    refine ⟨rfl, ?_⟩
    rw [aggregateCost, hs, if_neg Bool.false_ne_true, h]
    exact aggregateCost_sent casts n _ _ rfl

end DuckdbSalesforce
