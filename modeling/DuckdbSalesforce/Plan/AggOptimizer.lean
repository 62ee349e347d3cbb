import DuckdbSalesforce.Plan.Logical
import DuckdbSalesforce.Soql.Printed

/-!
# The aggregate rewrite (`salesforce_agg_optimizer.cpp`)

The two rewriters and the walk over the plan. The C++ changes the Get in place
and reports success; here a rewriter takes the children of the aggregate and
the projection expressions so far, and returns both beside its answer.
-/

namespace DuckdbSalesforce

/-- What the pass asks DuckDB for: the settings, and the output bindings of a
Get, which without projection ids follow its column ids. -/
structure ClientContext where
  currentSetting : Text → Option Value
  getColumnBindings : LogicalGet → List ColumnBinding
  bindings_in_order : ∀ get, get.projectionIds = [] → get.columnIds ≠ [] →
    getColumnBindings get =
      (List.range get.columnIds.length).map fun i => ⟨get.tableIndex, i⟩

def aggPushableMinMaxType : LogicalType → Bool
  | .boolean | .tinyint | .smallint | .integer | .bigint | .hugeint | .utinyint | .usmallint
  | .uinteger | .ubigint | .float | .double | .decimal _ _ | .date | .time | .timestamp
  | .timestampTz => true
  | .varchar | .blob | .struct | .other => false

/-- The kill-switch. A NULL there makes DuckDB throw and is left out. -/
def pushdownOff (context : ClientContext) : Bool :=
  context.currentSetting "sf_aggregate_pushdown".toList == some (.boolean false)

/-- The bind data of a Get that may be annotated. -/
def scanBindData (context : ClientContext) (get : LogicalGet) : Option SalesforceScanBindData :=
  if get.functionName ≠ "salesforce_scan".toList then none
  else match get.bindData with
    | some (.salesforceScan bind) =>
      if bind.residualFilterCount ≠ 0 || !bind.pushedAggregates.isEmpty then none
      else if !get.tableFilters.isEmpty then none
      else if pushdownOff context then none
      else some bind
    | _ => none

/-- The described field behind a column reference, when it can be aggregated. -/
def resolveField (get : LogicalGet) (bind : SalesforceScanBindData) :
    ScalarExpression → Option SalesforceField
  | .columnRef _ binding =>
    if binding.tableIndex ≠ get.tableIndex then none
    else match get.columnIds[binding.columnIndex]? with
      | none => none
      | some originalIdx =>
        match bind.fields[originalIdx]? with
        | none => none
        | some field =>
          if field.isRelationship || !field.children.isEmpty || field.name.contains '.' then none
          else if lower field.sfType == "base64".toList then none
          else some field
  | _ => none

def aliasText (i : ℕ) : Text := "a".toList ++ natText i

/-- The decode surface: a default field under the alias, with the described
`sf_type`. -/
def emitField (field : SalesforceField) (type : LogicalType) (i : ℕ) : SalesforceField :=
  .flat (aliasText i) field.sfType type false false

/-- One aggregate of the list, the `i`-th accepted. -/
def pushAggregate (get : LogicalGet) (bind : SalesforceScanBindData) (i : ℕ) :
    Expression → Option SalesforcePushedAggregate
  | .scalar _ => none
  | .boundAggregate bag =>
    if bag.filter.isSome || bag.orderBys.isSome then none
    else
      let fname := lower bag.functionName
      let isCount := fname == "count".toList
      let isMinMax := fname == "min".toList || fname == "max".toList
      if !isCount && !isMinMax then none
      else if bag.distinct && !isCount then none
      else match bag.children with
        | [child] =>
          match resolveField get bind child with
          | none => none
          | some field =>
            if isMinMax && !field.sortable then none
            else if isMinMax && !aggPushableMinMaxType field.duckdbType then none
            else if isCount then
              some ⟨if bag.distinct then "COUNT_DISTINCT".toList else "COUNT".toList, field.name,
                bag.name, emitField field .bigint i⟩
            else some ⟨upper fname, field.name, bag.name, emitField field field.duckdbType i⟩
        | _ => none

/-- The loop over the aggregate list; `pushed` is what is accepted so far. -/
def pushAggregates (get : LogicalGet) (bind : SalesforceScanBindData) :
    List SalesforcePushedAggregate → List Expression → Option (List SalesforcePushedAggregate)
  | pushed, [] => some pushed
  | pushed, expr :: rest =>
    match pushAggregate get bind pushed.length expr with
    | none => none
    | some pa => pushAggregates get bind (pushed ++ [pa]) rest

/-- The commit both rewriters end with. The output bindings are read after the
column ids are rebuilt and before the projection ids are cleared. -/
def commit (context : ClientContext) (get : LogicalGet) (bind : SalesforceScanBindData)
    (pushed : List SalesforcePushedAggregate) : LogicalGet × List ScalarExpression :=
  let get := { get with columnIds := List.range pushed.length }
  let outBindings := context.getColumnBindings get
  let colrefs := List.zipWith (fun (pa : SalesforcePushedAggregate) b => ScalarExpression.columnRef pa.emit.duckdbType b)
    pushed outBindings
  let get := { get with projectionIds := [] }
  let get := { get with returnedTypes := pushed.map fun (pa : SalesforcePushedAggregate) => pa.emit.duckdbType }
  let get := { get with names := pushed.map SalesforcePushedAggregate.outName }
  ({ get with bindData := some (.salesforceScan { bind with pushedAggregates := pushed }) },
    colrefs)

structure RewriteOutcome where
  rewrote : Bool
  children : List LogicalOperator
  colrefs : List ScalarExpression

section Rewriters
variable (context : ClientContext)

def tryRewriteCountAggregate (agg : LogicalAggregate) (children : List LogicalOperator)
    (colrefs : List ScalarExpression) : RewriteOutcome :=
  if !agg.groups.isEmpty || !agg.groupingSets.isEmpty || !agg.groupingFunctions.isEmpty then
    ⟨false, children, colrefs⟩
  else if agg.expressions.isEmpty then ⟨false, children, colrefs⟩
  else match children with
    | [.get get below] =>
      match scanBindData context get with
      | none => ⟨false, children, colrefs⟩
      | some bind =>
        match pushAggregates get bind [] agg.expressions with
        | none => ⟨false, children, colrefs⟩
        | some pushed =>
          ⟨true, [.get (commit context get bind pushed).1 below],
            colrefs ++ (commit context get bind pushed).2⟩
    | _ => ⟨false, children, colrefs⟩

/-- The outer aggregate of the two-level shape: one COUNT, whatever its
arguments. -/
def isPlainCount : Expression → Bool
  | .scalar _ => false
  | .boundAggregate cnt =>
    !cnt.distinct && !(cnt.filter.isSome || cnt.orderBys.isSome) &&
      lower cnt.functionName == "count".toList

def countDistinctOf (field : SalesforceField) : SalesforcePushedAggregate :=
  ⟨"COUNT_DISTINCT".toList, field.name, "count(DISTINCT ".toList ++ field.name ++ ")".toList,
    emitField field .bigint 0⟩

/-- `outerChildren` is the number of children of `outer`, whose first child is
`inner`; the children returned are those of `inner`. -/
def tryRewriteV2CountDistinct (outer : LogicalAggregate) (outerChildren : ℕ)
    (inner : LogicalAggregate) (children : List LogicalOperator)
    (colrefs : List ScalarExpression) : RewriteOutcome :=
  if !outer.groups.isEmpty || !outer.groupingSets.isEmpty || !outer.groupingFunctions.isEmpty then
    ⟨false, children, colrefs⟩
  else match outer.expressions with
    | [cnt] =>
      if outerChildren ≠ 1 then ⟨false, children, colrefs⟩
      else if !isPlainCount cnt then ⟨false, children, colrefs⟩
      else match inner.expressions, inner.groups with
        | [], [group] =>
          if !inner.groupingFunctions.isEmpty || inner.groupingSets.length > 1 then
            ⟨false, children, colrefs⟩
          else match children with
            | [.get get below] =>
              match scanBindData context get with
              | none => ⟨false, children, colrefs⟩
              | some bind =>
                match resolveField get bind group with
                | none => ⟨false, children, colrefs⟩
                | some field =>
                  ⟨true, [.get (commit context get bind [countDistinctOf field]).1 below],
                    colrefs ++ (commit context get bind [countDistinctOf field]).2⟩
            | _ => ⟨false, children, colrefs⟩
        | _, _ => ⟨false, children, colrefs⟩
    | _ => ⟨false, children, colrefs⟩

/-- The two rewriters in sequence on one aggregate node; `none` when neither
fires. -/
def rewriteAggregate (agg : LogicalAggregate) (children : List LogicalOperator) :
    Option LogicalOperator :=
  let first := tryRewriteCountAggregate context agg children []
  if first.rewrote then some (.projection agg.aggregateIndex first.colrefs (first.children.take 1))
  else match first.children with
    | [.aggregate inner innerChildren] =>
      let second := tryRewriteV2CountDistinct context agg first.children.length inner innerChildren
        first.colrefs
      if second.rewrote then
        some (.projection agg.aggregateIndex second.colrefs (second.children.take 1))
      else none
    | _ => none

mutual
/-- `Walk`. Where nothing was rewritten the children are walked as they are
(`rewriters_reject`). -/
def walk : LogicalOperator → LogicalOperator
  | .get get children => .get get (walkChildren children)
  | .aggregate agg children =>
    (rewriteAggregate context agg children).getD (.aggregate agg (walkChildren children))
  | .projection t es children => .projection t es (walkChildren children)
  | .other name es children => .other name es (walkChildren children)

def walkChildren : List LogicalOperator → List LogicalOperator
  | [] => []
  | op :: ops => walk op :: walkChildren ops
end

def salesforceAggregatePushdownOptimize (plan : LogicalOperator) : LogicalOperator :=
  walk context plan

end Rewriters

/-! ### What the guards let through -/

structure ResolvedField (get : LogicalGet) (bind : SalesforceScanBindData) (e : ScalarExpression)
    (field : SalesforceField) : Prop where
  reference : ∃ t i originalIdx, e = .columnRef t ⟨get.tableIndex, i⟩ ∧
    get.columnIds[i]? = some originalIdx ∧ bind.fields[originalIdx]? = some field
  flat : field.isRelationship = false ∧ field.children = [] ∧ field.name.contains '.' = false
  not_blob : lower field.sfType ≠ "base64".toList

theorem resolveField_some (get : LogicalGet) (bind : SalesforceScanBindData) (e : ScalarExpression)
    (field : SalesforceField) (h : resolveField get bind e = some field) :
    ResolvedField get bind e field := by
  cases e with
  | constant v => cases h
  | function name t es => cases h
  | columnRef t binding =>
    obtain ⟨table, i⟩ := binding
    simp only [resolveField] at h
    split at h
    · cases h
    rename_i htable
    split at h
    · cases h
    rename_i originalIdx hid
    split at h
    · cases h
    rename_i f hfield
    split at h
    · cases h
    rename_i hflat
    split at h
    · cases h
    rename_i hblob
    have hf : f = field := Option.some.inj h
    subst hf
    have heq : table = get.tableIndex := not_not.mp htable
    simp only [Bool.or_eq_true, Bool.not_eq_true', not_or, Bool.not_eq_true, Bool.not_eq_false,
      List.isEmpty_iff] at hflat
    exact ⟨⟨t, i, originalIdx, by rw [heq], hid, hfield⟩, ⟨hflat.1.1, hflat.1.2, hflat.2⟩,
      fun hb => hblob (beq_iff_eq.mpr hb)⟩

theorem resolveField_iff (get : LogicalGet) (bind : SalesforceScanBindData) (e : ScalarExpression)
    (field : SalesforceField) :
    resolveField get bind e = some field ↔ ResolvedField get bind e field := by
  constructor
  · exact resolveField_some get bind e field
  · intro h
    obtain ⟨t, i, originalIdx, rfl, hid, hfield⟩ := h.reference
    obtain ⟨hrel, hchildren, hdot⟩ := h.flat
    have hblob : (lower field.sfType == "base64".toList) = false := beq_false_of_ne h.not_blob
    simp only [resolveField, ne_eq, not_true_eq_false, if_false, hid, hfield, hrel, hchildren, hdot,
      hblob, List.isEmpty_nil, Bool.not_true, Bool.or_self, Bool.false_eq_true]

inductive PushedTerm (get : LogicalGet) (bind : SalesforceScanBindData) (i : ℕ) :
    BoundAggregateExpression → SalesforcePushedAggregate → Prop where
  | count (bag : BoundAggregateExpression) (child : ScalarExpression) (field : SalesforceField)
      (plain : bag.filter = none ∧ bag.orderBys = none) (name : lower bag.functionName = "count".toList)
      (arg : bag.children = [child]) (resolved : ResolvedField get bind child field) :
      PushedTerm get bind i bag
        ⟨if bag.distinct then "COUNT_DISTINCT".toList else "COUNT".toList, field.name, bag.name,
          emitField field .bigint i⟩
  | minMax (bag : BoundAggregateExpression) (child : ScalarExpression) (field : SalesforceField)
      (plain : bag.filter = none ∧ bag.orderBys = none) (distinct : bag.distinct = false)
      (name : lower bag.functionName = "min".toList ∨ lower bag.functionName = "max".toList)
      (arg : bag.children = [child]) (resolved : ResolvedField get bind child field)
      (sortable : field.sortable = true) (type : aggPushableMinMaxType field.duckdbType = true) :
      PushedTerm get bind i bag
        ⟨upper (lower bag.functionName), field.name, bag.name, emitField field field.duckdbType i⟩

theorem pushAggregate_some (get : LogicalGet) (bind : SalesforceScanBindData) (i : ℕ)
    (expr : Expression) (pa : SalesforcePushedAggregate)
    (h : pushAggregate get bind i expr = some pa) :
    ∃ bag, expr = .boundAggregate bag ∧ PushedTerm get bind i bag pa := by
  cases expr with
  | scalar e => cases h
  | boundAggregate bag =>
    refine ⟨bag, rfl, ?_⟩
    unfold pushAggregate at h
    dsimp only at h
    split at h
    · cases h
    rename_i hplain
    have hplain' : bag.filter = none ∧ bag.orderBys = none := by
      simpa [not_or] using hplain
    split at h
    · cases h
    rename_i hname
    split at h
    · cases h
    rename_i hdistinct
    split at h
    · rename_i child hchildren
      cases hres : resolveField get bind child with
      | none =>
        simp only [hres] at h
        cases h
      | some field =>
        simp only [hres] at h
        have hresolved := resolveField_some get bind child field hres
        split at h
        · cases h
        rename_i hsort
        split at h
        · cases h
        rename_i htype
        by_cases hcount : lower bag.functionName = "count".toList
        · have hpa := h
          simp only [hcount, beq_self_eq_true, if_true, Option.some.injEq] at hpa
          rw [← hpa]
          exact .count bag child field hplain' hcount hchildren hresolved
        · have hc : (lower bag.functionName == "count".toList) = false := beq_false_of_ne hcount
          rw [hc] at h hname hdistinct
          have hminmax : lower bag.functionName = "min".toList ∨
              lower bag.functionName = "max".toList := by
            simp only [Bool.not_false, Bool.true_and, Bool.not_eq_true', Bool.not_eq_false,
              Bool.or_eq_true, beq_iff_eq] at hname
            exact hname
          have hm : (lower bag.functionName == "min".toList ||
              lower bag.functionName == "max".toList) = true := by
            simpa using hminmax
          rw [hm] at hsort htype
          simp only [Bool.true_and, Bool.not_eq_true', Bool.not_eq_false] at hsort htype
          simp only [Bool.false_eq_true, if_false, Option.some.injEq] at h
          rw [← h]
          exact .minMax bag child field hplain' (by simpa using hdistinct) hminmax hchildren
            hresolved hsort htype
    · cases h

/-- The loop accepts the list term by term and numbers the terms in order. -/
theorem pushAggregates_some (get : LogicalGet) (bind : SalesforceScanBindData)
    (pre pushed : List SalesforcePushedAggregate) (exprs : List Expression)
    (h : pushAggregates get bind pre exprs = some pushed) :
    ∃ terms, pushed = pre ++ terms ∧ terms.length = exprs.length ∧
      ∀ (i : ℕ) (expr : Expression), exprs[i]? = some expr →
        ∃ pa, terms[i]? = some pa ∧ pushAggregate get bind (pre.length + i) expr = some pa := by
  induction exprs generalizing pre with
  | nil =>
    have hpre : pre = pushed := Option.some.inj h
    exact ⟨[], by rw [hpre, List.append_nil], rfl, by simp⟩
  | cons e es ih =>
    unfold pushAggregates at h
    cases hpa : pushAggregate get bind pre.length e with
    | none =>
      simp only [hpa] at h
      cases h
    | some pa =>
      simp only [hpa] at h
      obtain ⟨terms, hpushed, hlen, hterms⟩ := ih (pre ++ [pa]) h
      refine ⟨pa :: terms, by rw [hpushed, List.append_assoc]; rfl, by simp [hlen], ?_⟩
      intro i expr hi
      cases i with
      | zero =>
        have he : e = expr := by simpa using hi
        exact ⟨pa, rfl, by rw [← he]; exact hpa⟩
      | succ i =>
        obtain ⟨pb, hpb, hpush⟩ := hterms i expr (by simpa using hi)
        refine ⟨pb, by simpa using hpb, ?_⟩
        rw [List.length_append, List.length_singleton] at hpush
        have hidx : pre.length + 1 + i = pre.length + (i + 1) := by omega
        rwa [← hidx]

structure ScanAccepted (get : LogicalGet) (bind : SalesforceScanBindData) : Prop where
  function : get.functionName = "salesforce_scan".toList
  bindData : get.bindData = some (.salesforceScan bind)
  no_residual : bind.residualFilterCount = 0
  not_pushed : bind.pushedAggregates = []
  no_filters : get.tableFilters = []

theorem scanBindData_some (context : ClientContext) (get : LogicalGet)
    (bind : SalesforceScanBindData) (h : scanBindData context get = some bind) :
    ScanAccepted get bind := by
  unfold scanBindData at h
  split at h
  · cases h
  rename_i hname
  split at h
  · rename_i b hdata
    split at h
    · cases h
    rename_i hclean
    split at h
    · cases h
    rename_i hfilters
    split at h
    · cases h
    have hb : b = bind := Option.some.inj h
    subst hb
    simp only [ne_eq, Bool.or_eq_true, decide_eq_true_eq, Bool.not_eq_true', not_or, not_not,
      Bool.not_eq_false, List.isEmpty_iff] at hclean hfilters
    exact ⟨by simpa using hname, hdata, hclean.1, hclean.2, hfilters⟩
  · cases h

end DuckdbSalesforce
