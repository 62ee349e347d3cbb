import DuckdbSalesforce.Plan.AggregateRows
import DuckdbSalesforce.Plan.Meaning

/-!
# The two-level COUNT(DISTINCT)

A COUNT over the groups of one column becomes one COUNT_DISTINCT of the
service. The matcher does not look at the arguments of the COUNT, so it decides
neither whether the NULL group is counted nor whether the others are.
-/

namespace DuckdbSalesforce
open SqlAggregates

theorem bigintCell_inj (m n : ℕ) : bigintCell m = bigintCell n ↔ m = n := by
  constructor
  · intro h
    injection h with h
    injection h with _ hkey
    exact Int.ofNat_inj.mp hkey
  · intro h
    rw [h]

section Meaning
variable (ex : Execution)

theorem eval_resolved (get : LogicalGet) (bind : SalesforceScanBindData) (e : ScalarExpression)
    (field : SalesforceField) (h : ResolvedField get bind e field) (r : ScanRecord) :
    e.eval ex (emitRow get (recordCells get bind r)) = r field.name := by
  obtain ⟨t, i, originalIdx, rfl, hid, hfield⟩ := h.reference
  simp [ScalarExpression.eval, emitRow, recordCells, hid, hfield]

theorem resolvedField_unique (get : LogicalGet) (bind : SalesforceScanBindData)
    (e : ScalarExpression) (f g : SalesforceField) (hf : ResolvedField get bind e f)
    (hg : ResolvedField get bind e g) : f = g := by
  obtain ⟨t, i, idx, he, hid, hfield⟩ := hf.reference
  obtain ⟨t', i', idx', he', hid', hfield'⟩ := hg.reference
  rw [he] at he'
  injection he' with _ hb
  injection hb with _ hi
  rw [← hi, hid, Option.some.injEq] at hid'
  rw [← hid', hfield, Option.some.injEq] at hfield'
  exact hfield'

theorem aggregateRows_ungrouped (agg : LogicalAggregate) (rows : List Row)
    (hgroups : agg.groups = []) (hsets : agg.groupingSets = []) :
    aggregateRows ex agg rows = [aggregateRow ex agg [] rows] := by
  have hset : groupingSetsOf agg = [[]] := by
    unfold groupingSetsOf
    rw [if_pos hsets, hgroups]
    rfl
  have hkey : ∀ row, groupKey ex agg [] row = [] := by
    intro row
    unfold groupKey
    rw [hgroups]
    rfl
  have hgs : groupsOf ex agg [] rows = [[]] := by
    unfold groupsOf
    rw [if_pos rfl, hgroups]
    rfl
  unfold aggregateRows
  rw [hset, List.flatMap_singleton, hgs, List.map_singleton]
  simp [hkey]

/-- The row of a group of a grouping without aggregates. -/
def groupRow (inner : LogicalAggregate) (g : Cell) : Row := aggregateRow ex inner [g] []

theorem aggregateRows_grouped (inner : LogicalAggregate) (e : ScalarExpression) (rows : List Row)
    (hexprs : inner.expressions = []) (hgroups : inner.groups = [e])
    (hsets : inner.groupingSets = [] ∨ inner.groupingSets = [[0]]) :
    aggregateRows ex inner rows =
      (groups (rows.map fun row => e.eval ex row)).map (groupRow ex inner) := by
  have hset : groupingSetsOf inner = [[0]] := by
    unfold groupingSetsOf
    rcases hsets with h | h
    · rw [if_pos h, hgroups]
      rfl
    · rw [if_neg (by rw [h]; simp), h]
  have hkey : ∀ row, groupKey ex inner [0] row = [e.eval ex row] := by
    intro row
    unfold groupKey
    rw [hgroups]
    rfl
  have hgs : groupsOf ex inner [0] rows =
      (groups (rows.map fun row => e.eval ex row)).map fun c => [c] := by
    unfold groupsOf groups
    rw [if_neg (by simp), ← List.dedup_map_of_injective (f := fun c : Cell => [c])
      (fun a b h => (List.cons.inj h).1), List.map_map]
    congr 1
    exact List.map_congr_left fun row _ => hkey row
  have hrow : ∀ (key : List Cell) (rs : List Row),
      aggregateRow ex inner key rs = aggregateRow ex inner key [] := by
    intro key rs
    funext b
    unfold aggregateRow
    rw [hexprs]
    simp
  unfold aggregateRows
  rw [hset, List.flatMap_singleton, hgs, List.map_map]
  refine List.map_congr_left fun c _ => ?_
  exact hrow [c] _

theorem aggregateRow_count (agg : LogicalAggregate) (cnt : BoundAggregateExpression)
    (rows : List Row) (hexprs : agg.expressions = [.boundAggregate cnt])
    (hplain : cnt.distinct = false ∧ cnt.filter = none)
    (hname : lower cnt.functionName = "count".toList) :
    aggregateRow ex agg [] rows = fun b =>
      if b.tableIndex = agg.aggregateIndex ∧ b.columnIndex = 0 then
        bigintCell (rows.filter (argsPresent ex cnt)).length
      else none := by
  have hcount : evalAggregate ex cnt rows = bigintCell (rows.filter (argsPresent ex cnt)).length := by
    unfold evalAggregate filteredRows evalCount
    rw [hplain.2]
    simp only [hname, if_true, hplain.1, Bool.false_eq_true, if_false]
  funext b
  unfold aggregateRow
  rw [hexprs]
  by_cases hb : b.tableIndex = agg.aggregateIndex ∧ b.columnIndex = 0
  · have hlt : b.tableIndex = agg.aggregateIndex ∧
        b.columnIndex < [Expression.boundAggregate cnt].length := ⟨hb.1, by simp [hb.2]⟩
    rw [if_pos hlt, if_pos hb, hb.2]
    exact hcount
  · have hlt : ¬ (b.tableIndex = agg.aggregateIndex ∧
        b.columnIndex < [Expression.boundAggregate cnt].length) := by
      intro h
      obtain ⟨h1, h2⟩ := h
      exact hb ⟨h1, by simpa using h2⟩
    rw [if_neg hlt, if_neg hb]
    split <;> simp

theorem serviceAggregate_distinct (pa : SalesforcePushedAggregate) (records : List ScanRecord)
    (h : pa.func = "COUNT_DISTINCT".toList) :
    serviceAggregate ex pa records =
      bigintCell (countDistinct ex.key (records.map fun r => r pa.field)) := by
  have hne : pa.func ≠ "COUNT".toList := by
    rw [h]
    decide
  unfold serviceAggregate answerCall
  simp only [if_neg hne, if_pos h]

theorem rewritten_distinct_rows (context : ClientContext) (aggregateIndex : ℕ) (get : LogicalGet)
    (below : List LogicalOperator) (bind : SalesforceScanBindData) (field : SalesforceField)
    (hids : get.projectionIds = []) :
    (LogicalOperator.projection aggregateIndex
        (commit context get bind [countDistinctOf field]).2
        [.get (commit context get bind [countDistinctOf field]).1 below]).rows ex =
      [fun b => if b.tableIndex = aggregateIndex ∧ b.columnIndex = 0 then
        serviceAggregate ex (countDistinctOf field)
          (ex.records { bind with pushedAggregates := [countDistinctOf field] })
        else none] := by
  obtain ⟨hlen, hrefs⟩ := commit_colrefs context get bind [countDistinctOf field] hids
  obtain ⟨ref, href⟩ := List.length_eq_one_iff.mp hlen
  have href0 := hrefs 0 (countDistinctOf field) rfl
  rw [href] at href0
  have hr : ref = .columnRef .bigint ⟨get.tableIndex, 0⟩ := Option.some.inj href0
  rw [href, hr]
  simp only [LogicalOperator.rows, childRows, List.flatten_cons, List.flatten_nil, List.append_nil,
    scanRows, commit_bindData]
  rw [if_neg (List.cons_ne_nil _ _), List.map_singleton]
  congr 1
  funext b
  unfold projectRow
  by_cases ht : b.tableIndex = aggregateIndex
  · rw [if_pos ht]
    cases hc : b.columnIndex with
    | zero =>
      rw [if_pos ⟨ht, rfl⟩]
      simp [ScalarExpression.eval, emitRow, commit]
    | succ i =>
      rw [if_neg (by simp)]
      simp
  · rw [if_neg ht, if_neg fun h => ht h.1]

def countsGroup (cnt : BoundAggregateExpression) (inner : LogicalAggregate) (g : Cell) : Bool :=
  argsPresent ex cnt (groupRow ex inner g)

def columnOf (bind : SalesforceScanBindData) (field : SalesforceField) : List Cell :=
  (ex.records bind).map fun r => r field.name

end Meaning

section TwoLevels
variable {ex : Execution} {context : ClientContext} {outer inner : LogicalAggregate}
  {get : LogicalGet} {below : List LogicalOperator} {bind : SalesforceScanBindData}
  {cnt : BoundAggregateExpression} {group : ScalarExpression} {field : SalesforceField}

/-- The parts that were accepted are the ones the plan was given with. -/
theorem rewritten_parts (op : LogicalOperator)
    (h : rewriteAggregate context outer [.aggregate inner [.get get below]] = some op)
    (hgroup : inner.groups = [group]) (hbind : get.bindData = some (.salesforceScan bind))
    (hfield : resolveField get bind group = some field) :
    DistinctAccepted context outer inner get bind field ∧
      op = .projection outer.aggregateIndex (commit context get bind [countDistinctOf field]).2
        [.get (commit context get bind [countDistinctOf field]).1 below] := by
  rcases rewriteAggregate_some context outer _ op h with
    ⟨_, _, _, _, hchildren, _, _⟩ | ⟨inner', get', below', bind', field', hchildren, hacc, hop⟩
  · cases hchildren
  · cases hchildren
    have hdata := (scanBindData_some context get bind' hacc.scan).bindData
    rw [hbind] at hdata
    cases hdata
    obtain ⟨group', hgroup', hres'⟩ := hacc.group
    rw [hgroup] at hgroup'
    cases hgroup'
    obtain rfl := resolvedField_unique get bind group field' field hres'
      (resolveField_some get bind group field hfield)
    exact ⟨hacc, hop⟩

/-- The grouped column of the scan is that of the records. -/
theorem scan_column (hscan : ScanAccepted get bind) (hres : ResolvedField get bind group field) :
    (scanRows ex get).map (fun row => group.eval ex row) = columnOf ex bind field := by
  have hrows : scanRows ex get =
      (ex.records bind).map fun r => emitRow get (recordCells get bind r) := by
    unfold scanRows
    rw [hscan.bindData]
    simp only [hscan.not_pushed, if_true]
  rw [hrows, List.map_map]
  exact List.map_congr_left fun r _ => eval_resolved ex get bind group field hres r

/-- The inner aggregate has a row for each group of the column. -/
theorem inner_rows (hacc : DistinctAccepted context outer inner get bind field)
    (hgroup : inner.groups = [group]) (hres : ResolvedField get bind group field)
    (hsets : inner.groupingSets = [] ∨ inner.groupingSets = [[0]]) :
    (LogicalOperator.aggregate inner [.get get below]).rows ex =
      (groups (columnOf ex bind field)).map (groupRow ex inner) := by
  simp only [LogicalOperator.rows, childRows, List.flatten_cons, List.flatten_nil,
    List.append_nil]
  rw [aggregateRows_grouped ex inner group _ hacc.grouping.1 hgroup hsets,
    scan_column (scanBindData_some context get bind hacc.scan) hres]

/-- The outer COUNT counts the groups of which its arguments are present. -/
theorem outer_rows (hacc : DistinctAccepted context outer inner get bind field)
    (hcnt : outer.expressions = [.boundAggregate cnt]) (column : List Cell)
    (hinner : (LogicalOperator.aggregate inner [.get get below]).rows ex =
      (groups column).map (groupRow ex inner)) :
    (LogicalOperator.aggregate outer [.aggregate inner [.get get below]]).rows ex =
      [fun b => if b.tableIndex = outer.aggregateIndex ∧ b.columnIndex = 0 then
        bigintCell ((groups column).filter (countsGroup ex cnt inner)).length else none] := by
  obtain ⟨cnt', hexprs, hdistinct, hfilter, _, hname⟩ := hacc.count
  rw [hcnt] at hexprs
  cases hexprs
  rw [LogicalOperator.rows]
  simp only [childRows, List.flatten_cons, List.flatten_nil, List.append_nil]
  rw [hinner, aggregateRows_ungrouped ex outer _ hacc.ungrouped.1 hacc.ungrouped.2.1,
    aggregateRow_count ex outer cnt _ hcnt ⟨hdistinct, hfilter⟩ hname]
  congr 1
  funext b
  rw [List.filter_map, List.length_map]
  rfl

/-- Where texts are equal only if they are the same, the service counts the
distinct values of the column. -/
theorem service_distinct (hkey : ∀ v, ex.key v = v) :
    serviceAggregate ex (countDistinctOf field)
        (ex.records { bind with pushedAggregates := [countDistinctOf field] }) =
      bigintCell (countDistinct id (columnOf ex bind field)) := by
  have hk : ex.key = id := funext hkey
  rw [ex.records_of_scan, serviceAggregate_distinct ex _ _ rfl, hk]
  rfl

end TwoLevels

theorem two_level_count_iff (ex : Execution) (context : ClientContext)
    (outer inner : LogicalAggregate) (get : LogicalGet) (below : List LogicalOperator)
    (bind : SalesforceScanBindData) (cnt : BoundAggregateExpression) (group : ScalarExpression)
    (field : SalesforceField) (op : LogicalOperator)
    (h : rewriteAggregate context outer [.aggregate inner [.get get below]] = some op)
    (hcnt : outer.expressions = [.boundAggregate cnt]) (hgroup : inner.groups = [group])
    (hbind : get.bindData = some (.salesforceScan bind))
    (hfield : resolveField get bind group = some field)
    (hsets : inner.groupingSets = [] ∨ inner.groupingSets = [[0]])
    (hids : get.projectionIds = []) (hkey : ∀ v, ex.key v = v) :
    op.rows ex = (LogicalOperator.aggregate outer [.aggregate inner [.get get below]]).rows ex ↔
      missed (countsGroup ex cnt inner) (columnOf ex bind field) =
        surplus (countsGroup ex cnt inner) (columnOf ex bind field) := by
  obtain ⟨hacc, rfl⟩ := rewritten_parts op h hgroup hbind hfield
  have hres := resolveField_some get bind group field hfield
  rw [rewritten_distinct_rows ex context outer.aggregateIndex get below bind field hids,
    outer_rows hacc hcnt _ (inner_rows hacc hgroup hres hsets), service_distinct hkey,
    ← counted_groups_iff]
  constructor
  · intro hrows
    have hcell := congrFun (List.cons.inj hrows).1 ⟨outer.aggregateIndex, 0⟩
    simp only [and_self, if_true] at hcell
    exact ((bigintCell_inj _ _).mp hcell).symm
  · intro hcount
    rw [hcount]

/-- COUNT(*), or the COUNT of a constant, counts the NULL group. -/
theorem count_all_groups (ex : Execution) (cnt : BoundAggregateExpression)
    (inner : LogicalAggregate) (column : List Cell)
    (hall : ∀ g, countsGroup ex cnt inner g = true) :
    missed (countsGroup ex cnt inner) column = surplus (countsGroup ex cnt inner) column ↔
      none ∉ column := by
  have hmissed : missed (countsGroup ex cnt inner) column = 0 := by
    simp [missed, hall]
  rw [hmissed, surplus, hall]
  by_cases h : none ∈ column
  · simp [h]
  · simp [h]

/-- The COUNT of the grouped column itself never counts it. -/
theorem count_group_column (ex : Execution) (cnt : BoundAggregateExpression)
    (inner : LogicalAggregate) (column : List Cell) (t : LogicalType)
    (hexprs : inner.expressions = [])
    (hargs : cnt.children = [.columnRef t ⟨inner.groupIndex, 0⟩]) :
    missed (countsGroup ex cnt inner) column = surplus (countsGroup ex cnt inner) column := by
  have hcounted : ∀ g, countsGroup ex cnt inner g = g.isSome := by
    intro g
    unfold countsGroup argsPresent groupRow aggregateRow
    rw [hargs, hexprs]
    simp [ScalarExpression.eval]
  have hfun : countsGroup ex cnt inner = Option.isSome := funext hcounted
  have hmissed : missed Option.isSome column = 0 := by
    unfold missed
    rw [List.length_eq_zero_iff, List.filter_eq_nil_iff]
    intro g _
    cases g <;> simp
  rw [hfun, hmissed]
  simp [surplus]

/-! ### Accounts without a name -/

/-- Two accounts, one of them without a name. -/
def unnamedExecution : Execution where
  scalarFunction _ _ _ := none
  otherAggregate _ _ := none
  otherOperator _ _ _ := []
  foreignScan _ := []
  records _ := [fun _ => some (.varchar "Acme".toList), fun _ => none]
  records_of_scan _ _ := rfl
  key := id

def nameGroups : LogicalAggregate := ⟨7, 8, [nameRef], [[0]], [], []⟩

def countGroups (args : List ScalarExpression) : LogicalAggregate :=
  ⟨1, 2, [], [], [], [.boundAggregate (countOf args)]⟩

def accountRows : LogicalOperator :=
  .get (accountGet (accountScan "" "") [0] [.varchar] ["Name".toList]) []

def distinctNames : LogicalOperator :=
  .projection 2 [.columnRef .bigint ⟨5, 0⟩]
    [.get (accountGet { accountScan "" "" with pushedAggregates := [countDistinctOf nameField] } [0]
      [.bigint] ["count(DISTINCT Name)".toList]) []]

theorem countGroups_accepted (args : List ScalarExpression) :
    rewriteAggregate defaultContext (countGroups args) [.aggregate nameGroups [accountRows]] =
      some distinctNames := rfl

def oneConstant : ScalarExpression := .constant (.scalar .integer 1 "1".toList)

/-- COUNT(1) over the names counts two groups, the rewritten plan one name. -/
theorem count_one_drops_null_group :
    rewriteAggregate defaultContext (countGroups [oneConstant])
        [.aggregate nameGroups [accountRows]] = some distinctNames ∧
      distinctNames.rows unnamedExecution ≠
        (LogicalOperator.aggregate (countGroups [oneConstant])
          [.aggregate nameGroups [accountRows]]).rows unnamedExecution := by
  refine ⟨countGroups_accepted [oneConstant], ?_⟩
  intro h
  have hrow := congrArg (fun rows => (rows.map fun row => row ⟨2, 0⟩)) h
  exact absurd hrow (by decide)

theorem count_name_groups :
    distinctNames.rows unnamedExecution =
      (LogicalOperator.aggregate (countGroups [.columnRef .varchar ⟨7, 0⟩])
        [.aggregate nameGroups [accountRows]]).rows unnamedExecution :=
  (two_level_count_iff unnamedExecution defaultContext (countGroups [.columnRef .varchar ⟨7, 0⟩])
    nameGroups _ [] (accountScan "" "") _ nameRef nameField distinctNames
    (countGroups_accepted _) rfl rfl rfl rfl (Or.inr rfl) rfl fun _ => rfl).mpr
      (count_group_column unnamedExecution _ nameGroups _ .varchar rfl rfl)

end DuckdbSalesforce
