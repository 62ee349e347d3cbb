import DuckdbSalesforce.Plan.AggOptimizer

/-!
# The rewrite keeps the plan's bindings

What a rewriter can do to an aggregate, the frame of the walk around it, and
the types and bindings of the projection that replaces it.
-/

namespace DuckdbSalesforce

/-! ### The outcomes of a candidate -/

/-- The list of an ungrouped aggregate over this Get is pushed as `pushed`. -/
structure CountAccepted (context : ClientContext) (agg : LogicalAggregate) (get : LogicalGet)
    (bind : SalesforceScanBindData) (pushed : List SalesforcePushedAggregate) : Prop where
  ungrouped : agg.groups = [] ∧ agg.groupingSets = [] ∧ agg.groupingFunctions = []
  nonempty : agg.expressions ≠ []
  scan : scanBindData context get = some bind
  terms : pushAggregates get bind [] agg.expressions = some pushed

theorem tryRewriteCountAggregate_cases (context : ClientContext) (agg : LogicalAggregate)
    (children : List LogicalOperator) (colrefs : List ScalarExpression) :
    tryRewriteCountAggregate context agg children colrefs = ⟨false, children, colrefs⟩ ∨
      ∃ get below bind pushed, children = [.get get below] ∧
        CountAccepted context agg get bind pushed ∧
        tryRewriteCountAggregate context agg children colrefs =
          ⟨true, [.get (commit context get bind pushed).1 below],
            colrefs ++ (commit context get bind pushed).2⟩ := by
  unfold tryRewriteCountAggregate
  split
  · exact Or.inl rfl
  rename_i hgroups
  split
  · exact Or.inl rfl
  rename_i hexprs
  split
  · rename_i get below
    split
    · exact Or.inl rfl
    rename_i bind hscan
    split
    · exact Or.inl rfl
    rename_i pushed hpushed
    simp only [Bool.or_eq_true, Bool.not_eq_true', not_or, Bool.not_eq_false,
      List.isEmpty_iff] at hgroups hexprs
    exact Or.inr ⟨get, below, bind, pushed, rfl,
      ⟨⟨hgroups.1.1, hgroups.1.2, hgroups.2⟩, hexprs, hscan, hpushed⟩, rfl⟩
  · exact Or.inl rfl

/-- A COUNT over the groups of one column of this Get is pushed as one
COUNT_DISTINCT. -/
structure DistinctAccepted (context : ClientContext) (outer inner : LogicalAggregate)
    (get : LogicalGet) (bind : SalesforceScanBindData) (field : SalesforceField) : Prop where
  ungrouped : outer.groups = [] ∧ outer.groupingSets = [] ∧ outer.groupingFunctions = []
  count : ∃ cnt, outer.expressions = [.boundAggregate cnt] ∧ cnt.distinct = false ∧
    cnt.filter = none ∧ cnt.orderBys = none ∧ lower cnt.functionName = "count".toList
  grouping : inner.expressions = [] ∧ inner.groupingFunctions = [] ∧
    inner.groupingSets.length ≤ 1
  group : ∃ e, inner.groups = [e] ∧ ResolvedField get bind e field
  scan : scanBindData context get = some bind

theorem isPlainCount_iff (expr : Expression) :
    isPlainCount expr = true ↔ ∃ cnt, expr = .boundAggregate cnt ∧ cnt.distinct = false ∧
      cnt.filter = none ∧ cnt.orderBys = none ∧ lower cnt.functionName = "count".toList := by
  cases expr with
  | scalar e => simp [isPlainCount]
  | boundAggregate cnt => simp [isPlainCount, and_assoc]

theorem tryRewriteV2CountDistinct_cases (context : ClientContext) (outer : LogicalAggregate)
    (n : ℕ) (inner : LogicalAggregate) (children : List LogicalOperator)
    (colrefs : List ScalarExpression) :
    tryRewriteV2CountDistinct context outer n inner children colrefs =
        ⟨false, children, colrefs⟩ ∨
      ∃ get below bind field, children = [.get get below] ∧
        DistinctAccepted context outer inner get bind field ∧
        tryRewriteV2CountDistinct context outer n inner children colrefs =
          ⟨true, [.get (commit context get bind [countDistinctOf field]).1 below],
            colrefs ++ (commit context get bind [countDistinctOf field]).2⟩ := by
  unfold tryRewriteV2CountDistinct
  split
  · exact Or.inl rfl
  rename_i hgroups
  split
  · rename_i cnt hexprs
    split
    · exact Or.inl rfl
    split
    · exact Or.inl rfl
    rename_i hcount
    split
    · rename_i group hinner hgroup
      split
      · exact Or.inl rfl
      rename_i hsets
      split
      · rename_i get below
        split
        · exact Or.inl rfl
        rename_i bind hscan
        split
        · exact Or.inl rfl
        rename_i field hfield
        simp only [Bool.or_eq_true, Bool.not_eq_true', not_or, Bool.not_eq_false,
          List.isEmpty_iff, decide_eq_true_eq, not_lt] at hgroups hcount hsets
        obtain ⟨c, rfl, hplain⟩ := (isPlainCount_iff cnt).mp hcount
        exact Or.inr ⟨get, below, bind, field, rfl,
          ⟨⟨hgroups.1.1, hgroups.1.2, hgroups.2⟩, ⟨c, hexprs, hplain⟩, ⟨hinner, hsets⟩,
            ⟨group, hgroup, resolveField_some get bind group field hfield⟩, hscan⟩, rfl⟩
      · exact Or.inl rfl
    · exact Or.inl rfl
  · exact Or.inl rfl

theorem rewriters_reject (context : ClientContext) :
    (∀ agg children colrefs,
      (tryRewriteCountAggregate context agg children colrefs).rewrote = false →
        tryRewriteCountAggregate context agg children colrefs = ⟨false, children, colrefs⟩) ∧
    ∀ outer n inner children colrefs,
      (tryRewriteV2CountDistinct context outer n inner children colrefs).rewrote = false →
        tryRewriteV2CountDistinct context outer n inner children colrefs =
          ⟨false, children, colrefs⟩ := by
  constructor
  · intro agg children colrefs h
    rcases tryRewriteCountAggregate_cases context agg children colrefs with
      hout | ⟨_, _, _, _, _, _, hout⟩
    · exact hout
    · rw [hout] at h
      cases h
  · intro outer n inner children colrefs h
    rcases tryRewriteV2CountDistinct_cases context outer n inner children colrefs with
      hout | ⟨_, _, _, _, _, _, hout⟩
    · exact hout
    · rw [hout] at h
      cases h

theorem rewriteAggregate_some (context : ClientContext) (agg : LogicalAggregate)
    (children : List LogicalOperator) (op : LogicalOperator)
    (h : rewriteAggregate context agg children = some op) :
    (∃ get below bind pushed, children = [.get get below] ∧
      CountAccepted context agg get bind pushed ∧
      op = .projection agg.aggregateIndex (commit context get bind pushed).2
        [.get (commit context get bind pushed).1 below]) ∨
    ∃ inner get below bind field, children = [.aggregate inner [.get get below]] ∧
      DistinctAccepted context agg inner get bind field ∧
      op = .projection agg.aggregateIndex (commit context get bind [countDistinctOf field]).2
        [.get (commit context get bind [countDistinctOf field]).1 below] := by
  unfold rewriteAggregate at h
  rcases tryRewriteCountAggregate_cases context agg children [] with
    hout | ⟨get, below, bind, pushed, hchildren, hacc, hout⟩
  · simp only [hout, Bool.false_eq_true, if_false] at h
    split at h
    · rename_i inner innerChildren
      rcases tryRewriteV2CountDistinct_cases context agg 1 inner innerChildren [] with
        hout' | ⟨get, below, bind, field, hchildren, hacc, hout'⟩
      · simp only [List.length_singleton, hout', Bool.false_eq_true, if_false] at h
        cases h
      · simp only [List.length_singleton, hout', if_true, Option.some.injEq] at h
        exact Or.inr ⟨inner, get, below, bind, field, by rw [hchildren], hacc, h.symm⟩
    · cases h
  · simp only [hout, if_true, Option.some.injEq] at h
    exact Or.inl ⟨get, below, bind, pushed, hchildren, hacc, h.symm⟩

/-! ### The commit -/

theorem commit_colrefs (context : ClientContext) (get : LogicalGet) (bind : SalesforceScanBindData)
    (pushed : List SalesforcePushedAggregate) (hids : get.projectionIds = []) :
    (commit context get bind pushed).2.length = pushed.length ∧
      ∀ (i : ℕ) (pa : SalesforcePushedAggregate), pushed[i]? = some pa →
        (commit context get bind pushed).2[i]? =
          some (.columnRef pa.emit.duckdbType ⟨get.tableIndex, i⟩) := by
  cases pushed with
  | nil => exact ⟨rfl, by simp⟩
  | cons p ps =>
    have hne : (List.range (p :: ps).length) ≠ [] := by
      intro hnil
      have hlen := congrArg List.length hnil
      simp at hlen
    have hb := context.bindings_in_order
      { get with columnIds := List.range (p :: ps).length } hids hne
    simp only [List.length_range] at hb
    unfold commit
    simp only [hb]
    refine ⟨by simp, ?_⟩
    intro i pa hi
    have hlt : i < (p :: ps).length := (List.getElem?_eq_some_iff.mp hi).1
    rw [List.getElem?_zipWith, hi, List.getElem?_map, List.getElem?_range hlt]
    rfl

theorem commit_bindData (context : ClientContext) (get : LogicalGet)
    (bind : SalesforceScanBindData) (pushed : List SalesforcePushedAggregate) :
    (commit context get bind pushed).1.bindData =
      some (.salesforceScan { bind with pushedAggregates := pushed }) := rfl

/-! ### Bound plans -/

/-- DuckDB's result types: COUNT is BIGINT, MIN and MAX have the type of their
argument. -/
def ResultTyped (bag : BoundAggregateExpression) : Prop :=
  (lower bag.functionName = "count".toList → bag.returnType = .bigint) ∧
    ((lower bag.functionName = "min".toList ∨ lower bag.functionName = "max".toList) →
      ∀ child, bag.children = [child] → bag.returnType = child.returnType)

/-- A reference into a row scan has the type of its field. -/
def ReferenceTyped (get : LogicalGet) (bind : SalesforceScanBindData) (e : ScalarExpression) :
    Prop :=
  bind.pushedAggregates = [] → ∀ t i originalIdx field, e = .columnRef t ⟨get.tableIndex, i⟩ →
    get.columnIds[i]? = some originalIdx → bind.fields[originalIdx]? = some field →
      t = field.duckdbType

/-- What DuckDB's binder and its built-in passes give each node. The scan does
not ask for filter pruning, so its projection ids stay empty. -/
def NodeBound : LogicalOperator → Prop
  | .get get _ => get.functionName = "salesforce_scan".toList → get.projectionIds = []
  | .aggregate agg children => ∀ bag, .boundAggregate bag ∈ agg.expressions → ResultTyped bag ∧
      ∀ get below bind, children = [.get get below] →
        get.bindData = some (.salesforceScan bind) →
          ∀ child ∈ bag.children, ReferenceTyped get bind child
  | .projection _ _ _ => True
  | .other _ _ _ => True

structure BoundPlan where
  root : LogicalOperator
  bound : ∀ op ∈ root.nodes, NodeBound op

/-- The projection and the Get that stand for an aggregate list: expression
`i` is the Get's column `i`, has the aggregate's type and carries alias `a<i>`. -/
structure Replacement (exprs : List Expression) (get get' : LogicalGet)
    (colrefs : List ScalarExpression) : Prop where
  length : colrefs.length = exprs.length
  binding : ∀ (i : ℕ) (expr : Expression), exprs[i]? = some expr →
    colrefs[i]? = some (.columnRef expr.returnType ⟨get'.tableIndex, i⟩)
  output : ∀ (i : ℕ) (expr : Expression), exprs[i]? = some expr →
    get'.columnIds[i]? = some i ∧ get'.returnedTypes[i]? = some expr.returnType ∧
      ∃ bind' pa, get'.bindData = some (.salesforceScan bind') ∧
        bind'.pushedAggregates[i]? = some pa ∧ pa.emit.name = aliasText i ∧
          pa.emit.duckdbType = expr.returnType
  width : get'.columnIds.length = exprs.length ∧ get'.returnedTypes.length = exprs.length ∧
    get'.names.length = exprs.length
  frame : get'.tableIndex = get.tableIndex ∧ get'.functionName = get.functionName ∧
    get'.tableFilters = get.tableFilters ∧
      ∃ bind pushed, get.bindData = some (.salesforceScan bind) ∧
        get'.bindData = some (.salesforceScan { bind with pushedAggregates := pushed })

theorem pushedTerm_emit (get : LogicalGet) (bind : SalesforceScanBindData) (i : ℕ)
    (bag : BoundAggregateExpression) (pa : SalesforcePushedAggregate)
    (h : PushedTerm get bind i bag pa) (hempty : bind.pushedAggregates = [])
    (hresult : ResultTyped bag) (hrefs : ∀ child ∈ bag.children, ReferenceTyped get bind child) :
    pa.emit.name = aliasText i ∧ pa.emit.duckdbType = bag.returnType := by
  cases h with
  | count child field _ name _ _ => exact ⟨rfl, (hresult.1 name).symm⟩
  | minMax child field _ _ name arg resolved _ _ =>
    refine ⟨rfl, ?_⟩
    obtain ⟨t, j, originalIdx, rfl, hid, hfield⟩ := resolved.reference
    have ht : t = field.duckdbType :=
      hrefs _ (by rw [arg]; exact List.mem_singleton_self _) hempty t j originalIdx field rfl hid
        hfield
    rw [hresult.2 name _ arg]
    exact ht.symm

/-- A commit replaces a list whose terms carry its types and its aliases. -/
theorem commit_replacement (context : ClientContext) (get : LogicalGet)
    (bind : SalesforceScanBindData) (pushed : List SalesforcePushedAggregate)
    (exprs : List Expression) (hids : get.projectionIds = [])
    (hdata : get.bindData = some (.salesforceScan bind)) (hlen : pushed.length = exprs.length)
    (hterms : ∀ (i : ℕ) (expr : Expression), exprs[i]? = some expr →
      ∃ pa, pushed[i]? = some pa ∧ pa.emit.name = aliasText i ∧
        pa.emit.duckdbType = expr.returnType) :
    Replacement exprs get (commit context get bind pushed).1
      (commit context get bind pushed).2 := by
  obtain ⟨hcount, hrefs⟩ := commit_colrefs context get bind pushed hids
  have hlt : ∀ (i : ℕ) (expr : Expression), exprs[i]? = some expr → i < pushed.length := by
    intro i expr hi
    have h := (List.getElem?_eq_some_iff.mp hi).1
    omega
  refine ⟨hcount.trans hlen, ?_, ?_, ?_, rfl, rfl, rfl, bind, pushed, hdata, rfl⟩
  · intro i expr hi
    obtain ⟨pa, hpa, _, htype⟩ := hterms i expr hi
    rw [hrefs i pa hpa, htype]
    rfl
  · intro i expr hi
    obtain ⟨pa, hpa, hname, htype⟩ := hterms i expr hi
    refine ⟨?_, ?_, _, pa, rfl, hpa, hname, htype⟩
    · show (List.range pushed.length)[i]? = some i
      exact List.getElem?_range (hlt i expr hi)
    · show (pushed.map fun pa => pa.emit.duckdbType)[i]? = _
      rw [List.getElem?_map, hpa, ← htype]
      rfl
  · refine ⟨?_, ?_, ?_⟩
    · show (List.range pushed.length).length = _
      rw [List.length_range, hlen]
    · show (pushed.map _).length = _
      rw [List.length_map, hlen]
    · show (pushed.map _).length = _
      rw [List.length_map, hlen]

theorem count_replacement (context : ClientContext) (agg : LogicalAggregate) (get : LogicalGet)
    (below : List LogicalOperator) (bind : SalesforceScanBindData)
    (pushed : List SalesforcePushedAggregate)
    (hagg : NodeBound (.aggregate agg [.get get below])) (hget : NodeBound (.get get below))
    (h : CountAccepted context agg get bind pushed) :
    Replacement agg.expressions get (commit context get bind pushed).1
      (commit context get bind pushed).2 := by
  have hscan := scanBindData_some context get bind h.scan
  obtain ⟨terms, hpushed, hlen, hterms⟩ := pushAggregates_some get bind [] pushed _ h.terms
  rw [List.nil_append] at hpushed
  subst hpushed
  refine commit_replacement context get bind pushed _ (hget hscan.function) hscan.bindData hlen ?_
  intro i expr hi
  obtain ⟨pa, hpa, hpush⟩ := hterms i expr hi
  obtain ⟨bag, rfl, hterm⟩ := pushAggregate_some get bind _ expr pa hpush
  obtain ⟨hresult, hrefs⟩ := hagg bag (List.mem_of_getElem? hi)
  have hemit := pushedTerm_emit get bind _ bag pa hterm hscan.not_pushed hresult
    (hrefs get below bind rfl hscan.bindData)
  rw [List.length_nil, Nat.zero_add] at hemit
  exact ⟨pa, hpa, hemit⟩

theorem distinct_replacement (context : ClientContext) (outer inner : LogicalAggregate)
    (get : LogicalGet) (below children : List LogicalOperator) (bind : SalesforceScanBindData)
    (field : SalesforceField) (houter : NodeBound (.aggregate outer children))
    (hget : NodeBound (.get get below)) (h : DistinctAccepted context outer inner get bind field) :
    Replacement outer.expressions get (commit context get bind [countDistinctOf field]).1
      (commit context get bind [countDistinctOf field]).2 := by
  have hscan := scanBindData_some context get bind h.scan
  obtain ⟨cnt, hexprs, _, _, _, hname⟩ := h.count
  rw [hexprs]
  refine commit_replacement context get bind _ _ (hget hscan.function) hscan.bindData rfl ?_
  intro i expr hi
  obtain ⟨hi0, rfl⟩ : i = 0 ∧ expr = .boundAggregate cnt := by
    cases i with
    | zero => exact ⟨rfl, by simpa using hi.symm⟩
    | succ i => simp at hi
  have hresult := (houter cnt (by rw [hexprs]; exact List.mem_singleton_self _)).1.1 hname
  subst hi0
  exact ⟨countDistinctOf field, rfl, rfl, hresult.symm⟩

mutual
/-- A plan after the pass: its aggregates over a scan, or over the groups of a
scan, may be replaced, and every other node is as it was. -/
inductive Rewritten : LogicalOperator → LogicalOperator → Prop
  | count (agg : LogicalAggregate) (get get' : LogicalGet) (below : List LogicalOperator)
      (colrefs : List ScalarExpression) :
      Replacement agg.expressions get get' colrefs →
      Rewritten (.aggregate agg [.get get below])
        (.projection agg.aggregateIndex colrefs [.get get' below])
  | countDistinct (outer inner : LogicalAggregate) (get get' : LogicalGet)
      (below : List LogicalOperator) (colrefs : List ScalarExpression) :
      Replacement outer.expressions get get' colrefs →
      Rewritten (.aggregate outer [.aggregate inner [.get get below]])
        (.projection outer.aggregateIndex colrefs [.get get' below])
  | get (get : LogicalGet) (cs cs' : List LogicalOperator) :
      RewrittenList cs cs' → Rewritten (.get get cs) (.get get cs')
  | aggregate (agg : LogicalAggregate) (cs cs' : List LogicalOperator) :
      RewrittenList cs cs' → Rewritten (.aggregate agg cs) (.aggregate agg cs')
  | projection (t : ℕ) (es : List ScalarExpression) (cs cs' : List LogicalOperator) :
      RewrittenList cs cs' → Rewritten (.projection t es cs) (.projection t es cs')
  | other (name : Text) (es : List ScalarExpression) (cs cs' : List LogicalOperator) :
      RewrittenList cs cs' → Rewritten (.other name es cs) (.other name es cs')

inductive RewrittenList : List LogicalOperator → List LogicalOperator → Prop
  | nil : RewrittenList [] []
  | cons (op op' : LogicalOperator) (cs cs' : List LogicalOperator) :
      Rewritten op op' → RewrittenList cs cs' → RewrittenList (op :: cs) (op' :: cs')
end

theorem rewriteAggregate_rewritten (context : ClientContext) (agg : LogicalAggregate)
    (children : List LogicalOperator) (op : LogicalOperator)
    (hbound : ∀ n ∈ (LogicalOperator.aggregate agg children).nodes, NodeBound n)
    (h : rewriteAggregate context agg children = some op) :
    Rewritten (.aggregate agg children) op := by
  have hself := hbound _ (nodes_self _)
  rcases rewriteAggregate_some context agg children op h with
    ⟨get, below, bind, pushed, rfl, hacc, rfl⟩ | ⟨inner, get, below, bind, field, rfl, hacc, rfl⟩
  · have hget := hbound (.get get below) (by simp [LogicalOperator.nodes, nodesList])
    exact .count _ _ _ _ _ (count_replacement context agg get below bind pushed hself hget hacc)
  · have hget := hbound (.get get below) (by simp [LogicalOperator.nodes, nodesList])
    exact .countDistinct _ inner _ _ _ _
      (distinct_replacement context agg inner get below _ bind field hself hget hacc)

mutual
theorem walk_rewritten (context : ClientContext) :
    (op : LogicalOperator) → (∀ n ∈ op.nodes, NodeBound n) → Rewritten op (walk context op)
  | .get get cs, h => .get get cs _ (walkChildren_rewritten context cs fun n hn =>
      h n (List.mem_cons_of_mem _ hn))
  | .aggregate agg cs, h => by
    unfold walk
    cases hop : rewriteAggregate context agg cs with
    | none =>
      exact .aggregate agg cs _ (walkChildren_rewritten context cs fun n hn =>
        h n (List.mem_cons_of_mem _ hn))
    | some op => exact rewriteAggregate_rewritten context agg cs op h hop
  | .projection t es cs, h => .projection t es cs _ (walkChildren_rewritten context cs fun n hn =>
      h n (List.mem_cons_of_mem _ hn))
  | .other name es cs, h => .other name es cs _ (walkChildren_rewritten context cs fun n hn =>
      h n (List.mem_cons_of_mem _ hn))

theorem walkChildren_rewritten (context : ClientContext) :
    (cs : List LogicalOperator) → (∀ n ∈ nodesList cs, NodeBound n) →
      RewrittenList cs (walkChildren context cs)
  | [], _ => .nil
  | op :: ops, h => .cons op _ ops _
      (walk_rewritten context op fun n hn => h n (List.mem_append_left _ hn))
      (walkChildren_rewritten context ops fun n hn => h n (List.mem_append_right _ hn))
end

/-- The pass replaces aggregates with projections of the same bindings and
types, changes no other node, and a candidate that is rejected is left as it
was. -/
theorem optimize_preserves_bindings (context : ClientContext) (plan : BoundPlan) :
    Rewritten plan.root (salesforceAggregatePushdownOptimize context plan.root) ∧
    (∀ agg children colrefs,
      (tryRewriteCountAggregate context agg children colrefs).rewrote = false →
        (tryRewriteCountAggregate context agg children colrefs).children = children ∧
        (tryRewriteCountAggregate context agg children colrefs).colrefs = colrefs) ∧
    ∀ outer n inner children colrefs,
      (tryRewriteV2CountDistinct context outer n inner children colrefs).rewrote = false →
        (tryRewriteV2CountDistinct context outer n inner children colrefs).children = children ∧
        (tryRewriteV2CountDistinct context outer n inner children colrefs).colrefs = colrefs := by
  obtain ⟨hcount, hdistinct⟩ := rewriters_reject context
  refine ⟨walk_rewritten context plan.root plan.bound, ?_, ?_⟩
  · intro agg children colrefs h
    rw [hcount agg children colrefs h]
    exact ⟨rfl, rfl⟩
  · intro outer n inner children colrefs h
    rw [hdistinct outer n inner children colrefs h]
    exact ⟨rfl, rfl⟩

/-! ### A plan with a candidate that is taken and one that is not -/

def nameField : SalesforceField :=
  .flat "Name".toList "string".toList .varchar true true

def amountField : SalesforceField :=
  .flat "Amount".toList "double".toList .double true true

/-- A context with every setting at its default. -/
def defaultContext : ClientContext where
  currentSetting _ := none
  getColumnBindings get := (List.range get.columnIds.length).map fun i => ⟨get.tableIndex, i⟩
  bindings_in_order _ _ _ := rfl

def accountScan (pushedWhere rawWhere : String) : SalesforceScanBindData :=
  ⟨"Account".toList, [nameField, amountField], pushedWhere.toList, rawWhere.toList, 0, []⟩

def accountGet (bind : SalesforceScanBindData) (columnIds : List ℕ) (types : List LogicalType)
    (names : List Text) : LogicalGet :=
  ⟨5, "salesforce_scan".toList, some (.salesforceScan bind), columnIds, [], [], types, names⟩

def countOf (args : List ScalarExpression) : BoundAggregateExpression :=
  ⟨"count".toList, false, none, none, args, .bigint, "n".toList⟩

def nameRef : ScalarExpression := .columnRef .varchar ⟨5, 0⟩

/-- `SELECT count(Name)` without grouping. -/
def countName : LogicalAggregate := ⟨1, 2, [], [], [], [.boundAggregate (countOf [nameRef])]⟩

def amountMin : BoundAggregateExpression :=
  ⟨"min".toList, false, none, none, [.columnRef .double ⟨5, 0⟩], .double, "m".toList⟩

def nameCount : BoundAggregateExpression := countOf [.columnRef .varchar ⟨5, 1⟩]

def countAndMin : LogicalAggregate :=
  ⟨1, 2, [], [], [], [.boundAggregate nameCount, .boundAggregate amountMin]⟩

/-- The columns in the order Amount, Name. -/
def prunedGet : LogicalGet :=
  accountGet (accountScan "" "") [1, 0] [.double, .varchar] ["Amount".toList, "Name".toList]

def countAndMinTerms : List SalesforcePushedAggregate :=
  [⟨"COUNT".toList, "Name".toList, "n".toList, emitField nameField .bigint 0⟩,
    ⟨"MIN".toList, "Amount".toList, "m".toList, emitField amountField .double 1⟩]

def countAndMinGet : LogicalGet :=
  accountGet { accountScan "" "" with pushedAggregates := countAndMinTerms } [0, 1]
    [.bigint, .double] ["n".toList, "m".toList]

theorem countAndMin_bound : NodeBound (.aggregate countAndMin [.get prunedGet []]) := by
  intro bag hbag
  have hb : bag = nameCount ∨ bag = amountMin := by
    rcases List.mem_cons.mp hbag with h | h
    · injection h with h
      exact Or.inl h
    · injection List.mem_singleton.mp h with h
      exact Or.inr h
  have htyped : ∀ t i, (t = .varchar ∧ i = 1) ∨ (t = .double ∧ i = 0) →
      ∀ get below bind, [LogicalOperator.get prunedGet []] = [.get get below] →
        get.bindData = some (.salesforceScan bind) →
          ReferenceTyped get bind (.columnRef t ⟨5, i⟩) := by
    intro t i hti get below bind hcs hbind _ t' i' originalIdx field he hid hfield
    injection hcs with hhead _
    injection hhead with hget _
    subst hget
    injection hbind with hbind
    injection hbind with hbind
    subst hbind
    injection he with ht hb
    injection hb with _ hi
    subst ht hi
    rcases hti with ⟨rfl, rfl⟩ | ⟨rfl, rfl⟩
    · have horiginal : originalIdx = 0 := (Option.some.inj hid).symm
      subst horiginal
      rw [← Option.some.inj hfield]
      rfl
    · have horiginal : originalIdx = 1 := (Option.some.inj hid).symm
      subst horiginal
      rw [← Option.some.inj hfield]
      rfl
  rcases hb with rfl | rfl
  · refine ⟨⟨fun _ => rfl, fun hno => absurd hno (by decide)⟩, ?_⟩
    intro get below bind hcs hbind child hchild
    rw [List.mem_singleton.mp hchild]
    exact htyped _ _ (Or.inl ⟨rfl, rfl⟩) get below bind hcs hbind
  · refine ⟨⟨fun hno => absurd hno (by decide), ?_⟩, ?_⟩
    · intro _ child hchild
      rw [← (List.cons.inj hchild).1]
      rfl
    · intro get below bind hcs hbind child hchild
      rw [List.mem_singleton.mp hchild]
      exact htyped _ _ (Or.inr ⟨rfl, rfl⟩) get below bind hcs hbind

/-- `SELECT count(Name), count(*)`: the first is accepted, the second is not. -/
def countAndStar : LogicalAggregate :=
  ⟨3, 4, [], [], [], [.boundAggregate nameCount, .boundAggregate (countOf [])]⟩

theorem countAndStar_bound : NodeBound (.aggregate countAndStar [.get prunedGet []]) := by
  intro bag hbag
  rcases List.mem_cons.mp hbag with h | h
  · injection h with h
    subst h
    exact countAndMin_bound _ List.mem_cons_self
  · injection List.mem_singleton.mp h with h
    subst h
    refine ⟨⟨fun _ => rfl, fun hno => absurd hno (by decide)⟩, ?_⟩
    intro get below bind _ _ child hchild
    cases hchild

/-- Two aggregates over the same scan, joined. -/
def twoAggregates : BoundPlan where
  root := .other "CROSS_PRODUCT".toList []
    [.aggregate countAndMin [.get prunedGet []], .aggregate countAndStar [.get prunedGet []]]
  bound := by
    intro op hop
    simp only [LogicalOperator.nodes, nodesList, List.append_nil, List.mem_append,
      List.mem_cons, List.not_mem_nil, or_false] at hop
    rcases hop with rfl | (rfl | rfl) | rfl | rfl
    · trivial
    · exact countAndMin_bound
    · intro _
      rfl
    · exact countAndStar_bound
    · intro _
      rfl

/-- The first aggregate becomes a projection with its index, types and aliases,
the join and the second one stay. -/
theorem twoAggregates_rewritten :
    Rewritten twoAggregates.root (.other "CROSS_PRODUCT".toList []
      [.projection 2 [.columnRef .bigint ⟨5, 0⟩, .columnRef .double ⟨5, 1⟩]
        [.get countAndMinGet []], .aggregate countAndStar [.get prunedGet []]]) ∧
    (tryRewriteCountAggregate defaultContext countAndStar [.get prunedGet []] []).children =
      [.get prunedGet []] := by
  obtain ⟨hplan, hrejected, _⟩ := optimize_preserves_bindings defaultContext twoAggregates
  exact ⟨hplan, (hrejected countAndStar [.get prunedGet []] [] rfl).1⟩

end DuckdbSalesforce
