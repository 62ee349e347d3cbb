import DuckdbSalesforce.Plan.AggregateDecode
import DuckdbSalesforce.Plan.CountDistinct

/-!
# The one-level aggregate rewrite

An accepted list becomes one statement of the service, whose record the scan
decodes. The types of MIN and MAX are checked, those of COUNT(DISTINCT) are
not, and the service takes two spellings of a text for one.
-/

namespace DuckdbSalesforce
open JsonText SqlAggregates

/-- The service compares texts after folding them. -/
def foldKey (fold : Text → Text) : Value → Value
  | .varchar s => .varchar (fold s)
  | v => v

def TextsApart (fold : Text → Text) (column : List Cell) : Prop :=
  ∀ s t, some (.varchar s) ∈ column → some (.varchar t) ∈ column → fold s = fold t → s = t

theorem keyFaithful_fold_iff (fold : Text → Text) (column : List Cell) :
    KeyFaithful (foldKey fold) column ↔ TextsApart fold column := by
  constructor
  · intro h s t hs ht hfold
    have hsame := h (.varchar s) (.varchar t) hs ht (by rw [foldKey, foldKey, hfold])
    injection hsame
  · intro h x y hx hy hkey
    cases x with
    | varchar s =>
      cases y with
      | varchar t =>
        injection hkey with hfold
        rw [h s t hx hy hfold]
      | null _ | boolean _ | scalar _ _ _ => cases hkey
    | null _ | boolean _ | scalar _ _ _ =>
      cases y with
      | varchar t => cases hkey
      | null _ | boolean _ | scalar _ _ _ => exact hkey

section Meaning
variable (ex : Execution)

/-! ### One term -/

theorem filter_isSome_eq (column : List Cell) :
    column.filter Option.isSome = (values column).map some := by
  induction column with
  | nil => rfl
  | cons c cs ih =>
    cases c with
    | none => exact ih
    | some v =>
      show some v :: cs.filter Option.isSome = some v :: (values cs).map some
      rw [ih]

theorem evalCount_column (bag : BoundAggregateExpression) (child : ScalarExpression)
    (rows : List Row) (harg : bag.children = [child]) :
    evalCount ex bag rows =
      if bag.distinct then bigintCell (countDistinct id (rows.map (child.eval ex)))
      else bigintCell (count (rows.map (child.eval ex))) := by
  have hpresent : argsPresent ex bag = fun row => (child.eval ex row).isSome := by
    funext row
    simp [argsPresent, harg]
  have hfilter : (rows.filter (argsPresent ex bag)).map (child.eval ex) =
      (values (rows.map (child.eval ex))).map some := by
    rw [← filter_isSome_eq, List.filter_map, hpresent]
    rfl
  unfold evalCount
  split
  · have hrows : ((rows.filter (argsPresent ex bag)).map fun row =>
        bag.children.map fun e => e.eval ex row) =
          (values (rows.map (child.eval ex))).map fun v => [some v] := by
      have hmap := congrArg (List.map fun c : Cell => [c]) hfilter
      rw [List.map_map, List.map_map] at hmap
      rw [harg]
      exact hmap
    have hinj : Function.Injective fun v : Value => [some v] := by
      intro v w hvw
      exact Option.some.inj (List.cons.inj hvw).1
    rw [hrows, List.dedup_map_of_injective hinj, List.length_map, countDistinct, List.map_id]
  · have hlen := congrArg List.length hfilter
    rw [List.length_map, List.length_map] at hlen
    rw [hlen, count]

/-- DuckDB's value of an accepted aggregate over the scan: the service's with
texts compared as they are. -/
theorem evalAggregate_pushed (get : LogicalGet) (bind : SalesforceScanBindData) (i : ℕ)
    (bag : BoundAggregateExpression) (pa : SalesforcePushedAggregate)
    (h : PushedTerm get bind i bag pa) (records : List ScanRecord) :
    evalAggregate ex bag (records.map fun r => emitRow get (recordCells get bind r)) =
      answerCall id pa.func pa.field records := by
  have hrows : ∀ rows, bag.filter = none → filteredRows ex bag rows = rows := by
    intro rows hfilter
    unfold filteredRows
    rw [hfilter]
  have hcolumn : ∀ child field, ResolvedField get bind child field →
      (records.map fun r => emitRow get (recordCells get bind r)).map (child.eval ex) =
        records.map fun r => r field.name := by
    intro child field hres
    rw [List.map_map]
    exact List.map_congr_left fun r _ => eval_resolved ex get bind child field hres r
  cases h with
  | count child field plain name arg resolved =>
    unfold evalAggregate
    rw [hrows _ plain.1]
    simp only [name, if_true]
    rw [evalCount_column ex bag child _ arg, hcolumn child field resolved]
    cases bag.distinct <;> rfl
  | minMax child field plain distinct name arg resolved _ _ =>
    have hargs : ∀ rows, argColumn ex bag rows = rows.map (child.eval ex) := by
      intro rows
      unfold argColumn
      rw [arg]
      exact List.flatMap_pure_eq_map _ rows
    unfold evalAggregate
    rw [hrows _ plain.1]
    simp only [hargs, hcolumn child field resolved]
    rcases name with hmin | hmax
    · simp only [hmin]
      rfl
    · simp only [hmax]
      rfl

theorem answerCall_key (key : Value → Value) (func field : Text) (records : List ScanRecord)
    (h : func ≠ "COUNT_DISTINCT".toList) :
    answerCall key func field records = answerCall id func field records := by
  simp only [answerCall, if_neg h]

theorem answerCall_distinct (key : Value → Value) (field : Text) (records : List ScanRecord) :
    answerCall key "COUNT_DISTINCT".toList field records =
      bigintCell (countDistinct key (records.map fun r => r field)) := rfl

/-- The service's answer to one term is DuckDB's, unless it counts texts
apart. -/
theorem term_agrees_iff (fold : Text → Text) (get : LogicalGet) (bind : SalesforceScanBindData)
    (i : ℕ) (bag : BoundAggregateExpression) (pa : SalesforcePushedAggregate)
    (h : PushedTerm get bind i bag pa) :
    answerCall (foldKey fold) pa.func pa.field (ex.records bind) =
        answerCall id pa.func pa.field (ex.records bind) ↔
      (bag.distinct = true → ∀ child field, bag.children = [child] →
        resolveField get bind child = some field → TextsApart fold (columnOf ex bind field)) := by
  cases h with
  | count child field plain name arg resolved =>
    cases hdistinct : bag.distinct with
    | false =>
      constructor
      · intro _ hno
        cases hno
      · intro _
        have hfunc : "COUNT".toList ≠ "COUNT_DISTINCT".toList := by decide
        exact answerCall_key _ _ _ _ hfunc
    | true =>
      have hterm : (∀ child' field', bag.children = [child'] →
          resolveField get bind child' = some field' → TextsApart fold (columnOf ex bind field')) ↔
            TextsApart fold (columnOf ex bind field) := by
        constructor
        · intro hall
          exact hall child field arg ((resolveField_iff get bind child field).mpr resolved)
        · intro hapart child' field' harg hres
          rw [arg] at harg
          rw [← (List.cons.inj harg).1] at hres
          have hsame := resolvedField_unique get bind child field field' resolved
            ((resolveField_iff get bind child field').mp hres)
          rw [← hsame]
          exact hapart
      simp only [if_true, forall_const, hterm, answerCall_distinct, bigintCell_inj]
      rw [countDistinct_key_iff, keyFaithful_fold_iff]
      rfl
  | minMax child field plain distinct name arg resolved _ _ =>
    have hfunc : upper (lower bag.functionName) ≠ "COUNT_DISTINCT".toList := by
      rcases name with hmin | hmax
      · rw [hmin]
        decide
      · rw [hmax]
        decide
    constructor
    · intro _ hno
      rw [distinct] at hno
      cases hno
    · intro _
      exact answerCall_key _ _ _ _ hfunc

/-! ### The row -/

theorem projectRow_emit (get : LogicalGet) (t : ℕ) (colrefs : List ScalarExpression)
    (cells : List Cell) (hlen : colrefs.length = cells.length)
    (hrefs : ∀ i < cells.length, ∃ type, colrefs[i]? = some (.columnRef type ⟨get.tableIndex, i⟩)) :
    projectRow ex t colrefs (emitRow get cells) = fun b =>
      if b.tableIndex = t then cells[b.columnIndex]?.getD none else none := by
  funext b
  unfold projectRow
  by_cases ht : b.tableIndex = t
  · rw [if_pos ht, if_pos ht]
    by_cases hi : b.columnIndex < cells.length
    · obtain ⟨type, href⟩ := hrefs b.columnIndex hi
      rw [href]
      simp [ScalarExpression.eval, emitRow]
    · have hnone : colrefs[b.columnIndex]? = none := List.getElem?_eq_none (by omega)
      have hcell : cells[b.columnIndex]? = none := List.getElem?_eq_none (by omega)
      rw [hnone, hcell]
      rfl
  · rw [if_neg ht, if_neg ht]

theorem aggregateRow_cells (agg : LogicalAggregate) (rows : List Row) :
    aggregateRow ex agg [] rows = fun b =>
      if b.tableIndex = agg.aggregateIndex then
        (agg.expressions.map (Expression.evalOver ex rows))[b.columnIndex]?.getD none
      else none := by
  funext b
  unfold aggregateRow
  by_cases ht : b.tableIndex = agg.aggregateIndex
  · rw [if_pos ht, List.getElem?_map]
    by_cases hi : b.columnIndex < agg.expressions.length
    · rw [if_pos ⟨ht, hi⟩]
    · have hnone : agg.expressions[b.columnIndex]? = none := List.getElem?_eq_none (by omega)
      rw [if_neg fun h => hi h.2, hnone]
      split <;> rfl
  · rw [if_neg fun h => ht h.1, if_neg ht]
    split <;> rfl

theorem row_cells_iff (t : ℕ) (xs ys : List Cell) (hlen : xs.length = ys.length) :
    (fun b : ColumnBinding => if b.tableIndex = t then xs[b.columnIndex]?.getD none else none) =
        (fun b => if b.tableIndex = t then ys[b.columnIndex]?.getD none else none) ↔ xs = ys := by
  constructor
  · intro h
    refine List.ext_getElem hlen ?_
    intro i hx hy
    have hi := congrFun h ⟨t, i⟩
    simpa [hx, hy] using hi
  · intro h
    rw [h]

/-- The rewritten plan, run through the record of the service, yields the row
of the aggregate: every column is written, with the aggregate's type, and the
scan ends after the row. -/
structure RowAgrees (casts : CastFunctions) (spell : Value → Json) (agg : LogicalAggregate)
    (get get' : LogicalGet) (below : List LogicalOperator) (colrefs : List ScalarExpression)
    (bind' : SalesforceScanBindData) : Prop where
  types : colrefs.map ScalarExpression.returnType = agg.expressions.map Expression.returnType ∧
    get'.returnedTypes = agg.expressions.map Expression.returnType
  row : ∃ s s' cells,
    scanInitAggregate bind' (answerAggregate ex spell (ex.records bind')) = .ok s ∧
    scanFunctionAggregate casts s = .ok (s', [cells.map DecodedCell.ofCell]) ∧
    scanFunctionAggregate casts s' = .ok (s', []) ∧
    cells.length = agg.expressions.length ∧
    [projectRow ex agg.aggregateIndex colrefs (emitRow get' cells)] =
      (LogicalOperator.aggregate agg [.get get below]).rows ex

structure CountsApart (fold : Text → Text) (agg : LogicalAggregate) (get : LogicalGet)
    (bind : SalesforceScanBindData) : Prop where
  width : agg.expressions.length ≤ standardVectorSize
  apart : ∀ bag, .boundAggregate bag ∈ agg.expressions → bag.distinct = true →
    ∀ child field, bag.children = [child] → resolveField get bind child = some field →
      TextsApart fold (columnOf ex bind field)

end Meaning

theorem ofCell_injective : Function.Injective DecodedCell.ofCell := by
  intro a b h
  cases a with
  | none =>
    cases b with
    | none => rfl
    | some w => cases h
  | some v =>
    cases b with
    | none => cases h
    | some w =>
      injection h with hvw
      rw [hvw]

/-- The answer to an accepted term is NULL or read back, and no count is NULL. -/
theorem pushedTerm_reads (ex : Execution) (casts : CastFunctions) (spell : Value → Json)
    (get : LogicalGet) (bind : SalesforceScanBindData) (i : ℕ) (bag : BoundAggregateExpression)
    (pa : SalesforcePushedAggregate) (h : PushedTerm get bind i bag pa)
    (records : List ScanRecord) (hcast : CastsBack casts spell bind records) :
    CellReads casts spell pa.emit.duckdbType (serviceAggregate ex pa records) ∧
      (isCountTerm pa = true → serviceAggregate ex pa records ≠ none) := by
  have hvalues : ∀ column : List Cell, (values column).length ≤ column.length := fun column =>
    List.length_filterMap_le _ _
  cases h with
  | count child field plain name arg resolved =>
    have hcount : ∃ n ≤ records.length, serviceAggregate ex
        ⟨if bag.distinct then "COUNT_DISTINCT".toList else "COUNT".toList, field.name, bag.name,
          emitField field .bigint i⟩ records = bigintCell n := by
      have hle := hvalues (records.map fun r => r field.name)
      rw [List.length_map] at hle
      cases bag.distinct with
      | false => exact ⟨_, hle, rfl⟩
      | true =>
        refine ⟨_, ?_, rfl⟩
        have hdedup := (List.dedup_sublist
          ((values (records.map fun r => r field.name)).map ex.key)).length_le
        rw [List.length_map] at hdedup
        exact hdedup.trans hle
    obtain ⟨n, hn, hcell⟩ := hcount
    rw [hcell]
    refine ⟨fun v hv => hcast.count n hn v hv, ?_⟩
    intro _ hnone
    cases hnone
  | minMax child field plain distinct name arg resolved sortable type =>
    have hcolumn : ∀ v, some v ∈ (records.map fun r => r field.name) →
        Spells casts field.duckdbType v (spell v) := by
      intro v hv
      obtain ⟨r, hr, hrv⟩ := List.mem_map.mp hv
      exact hcast.column field (resolvedField_mem get bind child field resolved) type r hr v hrv
    rcases name with hmin | hmax
    · have hcell : serviceAggregate ex ⟨upper (lower bag.functionName), field.name, bag.name,
          emitField field field.duckdbType i⟩ records =
            least valueLess (records.map fun r => r field.name) := by
        rw [hmin]
        rfl
      have hno : isCountTerm ⟨upper (lower bag.functionName), field.name, bag.name,
          emitField field field.duckdbType i⟩ = false := by
        rw [hmin]
        rfl
      rw [hcell, hno]
      exact ⟨fun v hv => hcolumn v (least_mem _ _ v hv), fun h => by cases h⟩
    · have hcell : serviceAggregate ex ⟨upper (lower bag.functionName), field.name, bag.name,
          emitField field field.duckdbType i⟩ records =
            greatest valueLess (records.map fun r => r field.name) := by
        rw [hmax]
        rfl
      have hno : isCountTerm ⟨upper (lower bag.functionName), field.name, bag.name,
          emitField field field.duckdbType i⟩ = false := by
        rw [hmax]
        rfl
      rw [hcell, hno]
      exact ⟨fun v hv => hcolumn v (least_mem _ _ v hv), fun h => by cases h⟩

theorem countAccepted_terms (context : ClientContext) (agg : LogicalAggregate) (get : LogicalGet)
    (bind : SalesforceScanBindData) (pushed : List SalesforcePushedAggregate)
    (h : CountAccepted context agg get bind pushed) :
    pushed.length = agg.expressions.length ∧ pushed ≠ [] ∧
      ∀ (i : ℕ) (pa : SalesforcePushedAggregate), pushed[i]? = some pa →
        ∃ bag, agg.expressions[i]? = some (.boundAggregate bag) ∧ PushedTerm get bind i bag pa := by
  obtain ⟨terms, hpushed, hlen, hterms⟩ := pushAggregates_some get bind [] pushed _ h.terms
  rw [List.nil_append] at hpushed
  subst hpushed
  refine ⟨hlen, ?_, ?_⟩
  · intro hnil
    rw [hnil] at hlen
    exact h.nonempty (List.length_eq_zero_iff.mp hlen.symm)
  · intro i pa hi
    have hlt : i < agg.expressions.length := by
      have hi' := (List.getElem?_eq_some_iff.mp hi).1
      omega
    obtain ⟨pb, hpb, hpush⟩ := hterms i _ (List.getElem?_eq_getElem hlt)
    rw [hi, Option.some.injEq] at hpb
    obtain ⟨bag, hbag, hterm⟩ := pushAggregate_some get bind _ _ pb hpush
    rw [List.length_nil, Nat.zero_add] at hterm
    exact ⟨bag, by rw [List.getElem?_eq_getElem hlt, hbag], hpb ▸ hterm⟩

theorem pushed_cells_iff (ex : Execution) (fold : Text → Text) (hkey : ex.key = foldKey fold)
    (context : ClientContext) (agg : LogicalAggregate) (get : LogicalGet)
    (bind : SalesforceScanBindData) (pushed : List SalesforcePushedAggregate)
    (h : CountAccepted context agg get bind pushed) :
    pushed.map (fun pa => serviceAggregate ex pa (ex.records bind)) =
        agg.expressions.map (Expression.evalOver ex (scanRows ex get)) ↔
      ∀ bag, .boundAggregate bag ∈ agg.expressions → bag.distinct = true →
        ∀ child field, bag.children = [child] → resolveField get bind child = some field →
          TextsApart fold (columnOf ex bind field) := by
  obtain ⟨hlen, _, hterms⟩ := countAccepted_terms context agg get bind pushed h
  have hscan := scanBindData_some context get bind h.scan
  have hrows : scanRows ex get =
      (ex.records bind).map fun r => emitRow get (recordCells get bind r) := by
    unfold scanRows
    rw [hscan.bindData]
    simp only [hscan.not_pushed, if_true]
  have hcell : ∀ (i : ℕ) (pa : SalesforcePushedAggregate), pushed[i]? = some pa →
      ∃ bag, agg.expressions[i]? = some (.boundAggregate bag) ∧ PushedTerm get bind i bag pa ∧
        Expression.evalOver ex (scanRows ex get) (.boundAggregate bag) =
          answerCall id pa.func pa.field (ex.records bind) := by
    intro i pa hi
    obtain ⟨bag, hbag, hterm⟩ := hterms i pa hi
    refine ⟨bag, hbag, hterm, ?_⟩
    rw [hrows]
    exact evalAggregate_pushed ex get bind i bag pa hterm _
  constructor
  · intro hsame bag hbag
    obtain ⟨i, hi⟩ := List.mem_iff_getElem?.mp hbag
    have hlt : i < pushed.length := by
      have hi' := (List.getElem?_eq_some_iff.mp hi).1
      omega
    obtain ⟨bag', hbag', hterm, heval⟩ := hcell i _ (List.getElem?_eq_getElem hlt)
    rw [hi, Option.some.injEq] at hbag'
    injection hbag' with hbag'
    subst hbag'
    have hat := congrArg (fun cells => cells[i]?) hsame
    simp only [List.getElem?_map, List.getElem?_eq_getElem hlt, hi, Option.map_some,
      Option.some.injEq, heval] at hat
    rw [serviceAggregate, hkey] at hat
    exact (term_agrees_iff ex fold get bind i bag _ hterm).mp hat
  · intro hapart
    refine List.ext_getElem? ?_
    intro i
    by_cases hlt : i < pushed.length
    · obtain ⟨bag, hbag, hterm, heval⟩ := hcell i _ (List.getElem?_eq_getElem hlt)
      rw [List.getElem?_map, List.getElem?_map, hbag, List.getElem?_eq_getElem hlt,
        Option.map_some, Option.map_some, heval, serviceAggregate, hkey]
      rw [(term_agrees_iff ex fold get bind i bag _ hterm).mpr
        (hapart bag (List.mem_of_getElem? hbag))]
    · rw [List.getElem?_eq_none (by simpa using hlt), List.getElem?_eq_none (by
        rw [List.length_map]
        omega)]

/-- The names in the statement are words, its condition is one, and DuckDB
casts back what the service writes. -/
structure StatementReads (casts : CastFunctions) (spell : Value → Json)
    (bind : SalesforceScanBindData) (records : List ScanRecord) : Prop where
  object : isBareToken bind.object = true
  pushed : WellFormedWhere bind.pushedWhere
  named : FieldsNamed bind
  casts : CastsBack casts spell bind records

/-- The scan behind an accepted list emits the answers to its terms, as far as
a vector reaches. -/
theorem accepted_scan_emits (ex : Execution) (casts : CastFunctions) (spell : Value → Json)
    (context : ClientContext) (agg : LogicalAggregate) (get : LogicalGet)
    (bind : SalesforceScanBindData) (pushed : List SalesforcePushedAggregate)
    (hacc : CountAccepted context agg get bind pushed)
    (hread : StatementReads casts spell bind (ex.records bind)) :
    ∃ s s', scanInitAggregate { bind with pushedAggregates := pushed }
        (answerAggregate ex spell (ex.records { bind with pushedAggregates := pushed })) = .ok s ∧
      scanFunctionAggregate casts s = .ok (s', [((pushed.take standardVectorSize).map
        fun pa => serviceAggregate ex pa (ex.records bind)).map DecodedCell.ofCell]) ∧
      scanFunctionAggregate casts s' = .ok (s', []) := by
  obtain ⟨_, hne, hterms⟩ := countAccepted_terms context agg get bind pushed hacc
  have hof : ∀ pa ∈ pushed, ∃ i bag, PushedTerm get bind i bag pa := by
    intro pa hpa
    obtain ⟨i, hi⟩ := List.mem_iff_getElem?.mp hpa
    obtain ⟨bag, _, hterm⟩ := hterms i pa hi
    exact ⟨i, bag, hterm⟩
  have hcells : TermsRead casts spell pushed
      fun pa => serviceAggregate ex pa (ex.records bind) := by
    refine ⟨?_, ?_, ?_, ?_⟩
    · intro i pa hi
      obtain ⟨bag, _, hterm⟩ := hterms i pa hi
      cases hterm <;> rfl
    · intro pa hpa
      obtain ⟨i, bag, hterm⟩ := hof pa hpa
      cases hterm <;> rfl
    · intro pa hpa
      obtain ⟨i, bag, hterm⟩ := hof pa hpa
      exact (pushedTerm_reads ex casts spell get bind i bag pa hterm _ hread.casts).1
    · intro pa hpa
      obtain ⟨i, bag, hterm⟩ := hof pa hpa
      exact (pushedTerm_reads ex casts spell get bind i bag pa hterm _ hread.casts).2
  have hplain := countAccepted_plain context agg get bind pushed hacc hread.named
  have hquery := answer_aggregateSoql ex spell (ex.records bind)
    { bind with pushedAggregates := pushed } _ hne hplain hread.object hread.pushed
  obtain ⟨s, s', hinit, hemit, hend⟩ := aggregate_scan_emits casts spell
    { bind with pushedAggregates := pushed } _ _ hcells hquery
  rw [ex.records_of_scan bind pushed, List.map_map]
  exact ⟨s, s', hinit, hemit, hend⟩

theorem replacement_types (exprs : List Expression) (get get' : LogicalGet)
    (colrefs : List ScalarExpression) (h : Replacement exprs get get' colrefs) :
    colrefs.map ScalarExpression.returnType = exprs.map Expression.returnType ∧
      get'.returnedTypes = exprs.map Expression.returnType := by
  constructor
  · refine List.ext_getElem? ?_
    intro i
    by_cases hlt : i < exprs.length
    · rw [List.getElem?_map, List.getElem?_map, List.getElem?_eq_getElem hlt,
        h.binding i _ (List.getElem?_eq_getElem hlt)]
      rfl
    · rw [List.getElem?_eq_none (by rw [List.length_map, h.length]; omega),
        List.getElem?_eq_none (by rw [List.length_map]; omega)]
  · refine List.ext_getElem? ?_
    intro i
    by_cases hlt : i < exprs.length
    · rw [List.getElem?_map, List.getElem?_eq_getElem hlt,
        (h.output i _ (List.getElem?_eq_getElem hlt)).2.1]
      rfl
    · rw [List.getElem?_eq_none (by rw [h.width.2.1]; omega),
        List.getElem?_eq_none (by rw [List.length_map]; omega)]

theorem tryRewriteCountAggregate_some (context : ClientContext) (agg : LogicalAggregate)
    (get get' : LogicalGet) (below : List LogicalOperator) (colrefs : List ScalarExpression)
    (bind : SalesforceScanBindData) (hbind : get.bindData = some (.salesforceScan bind))
    (h : tryRewriteCountAggregate context agg [.get get below] [] =
      ⟨true, [.get get' below], colrefs⟩) :
    ∃ pushed, CountAccepted context agg get bind pushed ∧
      get' = (commit context get bind pushed).1 ∧ colrefs = (commit context get bind pushed).2 := by
  rcases tryRewriteCountAggregate_cases context agg [.get get below] [] with
    hout | ⟨get₀, below₀, bind₀, pushed, hchildren, hacc, hout⟩
  · rw [hout] at h
    injection h with hno
    cases hno
  injection hchildren with hhead _
  injection hhead with hget hbelow
  subst hget hbelow
  have hdata := (scanBindData_some context get bind₀ hacc.scan).bindData
  rw [hbind] at hdata
  injection hdata with hdata
  injection hdata with hdata
  subst hdata
  rw [hout, List.nil_append] at h
  injection h with _ hcs hrefs
  injection hcs with hhead _
  injection hhead with hget' _
  exact ⟨pushed, hacc, hget'.symm, hrefs.symm⟩

/-- The rewritten plan agrees when the terms fit a vector and their answers are
the aggregates. -/
theorem rowAgrees_cells_iff (ex : Execution) (casts : CastFunctions) (spell : Value → Json)
    (context : ClientContext) (agg : LogicalAggregate) (get : LogicalGet)
    (below : List LogicalOperator) (bind : SalesforceScanBindData)
    (pushed : List SalesforcePushedAggregate) (hacc : CountAccepted context agg get bind pushed)
    (hagg : NodeBound (.aggregate agg [.get get below])) (hget : NodeBound (.get get below))
    (hread : StatementReads casts spell bind (ex.records bind)) :
    RowAgrees ex casts spell agg get (commit context get bind pushed).1 below
        (commit context get bind pushed).2 { bind with pushedAggregates := pushed } ↔
      agg.expressions.length ≤ standardVectorSize ∧
        pushed.map (fun pa => serviceAggregate ex pa (ex.records bind)) =
          agg.expressions.map (Expression.evalOver ex (scanRows ex get)) := by
  have hscan := scanBindData_some context get bind hacc.scan
  obtain ⟨hlen, _, _⟩ := countAccepted_terms context agg get bind pushed hacc
  obtain ⟨hcount, hcolrefs⟩ := commit_colrefs context get bind pushed (hget hscan.function)
  have hreplace := count_replacement context agg get below bind pushed hagg hget hacc
  obtain ⟨s, s', hinit, hemit, hend⟩ :=
    accepted_scan_emits ex casts spell context agg get bind pushed hacc hread
  have hlocal : (LogicalOperator.aggregate agg [.get get below]).rows ex =
      [aggregateRow ex agg [] (scanRows ex get)] := by
    simp only [LogicalOperator.rows, childRows, List.flatten_cons, List.flatten_nil,
      List.append_nil]
    exact aggregateRows_ungrouped ex agg _ hacc.ungrouped.1 hacc.ungrouped.2.1
  have hrows : ∀ cells : List Cell, cells.length = agg.expressions.length →
      ([projectRow ex agg.aggregateIndex (commit context get bind pushed).2
          (emitRow (commit context get bind pushed).1 cells)] =
        (LogicalOperator.aggregate agg [.get get below]).rows ex ↔
          cells = agg.expressions.map (Expression.evalOver ex (scanRows ex get))) := by
    intro cells hcells
    have hprojected := projectRow_emit ex (commit context get bind pushed).1 agg.aggregateIndex
      (commit context get bind pushed).2 cells (by omega) fun i hi =>
        ⟨_, hcolrefs i _ (List.getElem?_eq_getElem (by omega))⟩
    rw [hlocal, hprojected, aggregateRow_cells, List.singleton_inj]
    exact row_cells_iff _ _ _ (by rw [hcells, List.length_map])
  constructor
  · intro hrow
    obtain ⟨t, t', cells, hinit', hemit', _, hwidth, hsame⟩ := hrow.row
    rw [hinit] at hinit'
    injection hinit' with hs
    subst hs
    rw [hemit] at hemit'
    injection hemit' with hpair
    have hdecoded := (List.cons.inj (congrArg Prod.snd hpair)).1
    have hmap := (List.map_inj_right fun a b hab => ofCell_injective hab).mp hdecoded
    have hfit : pushed.length ≤ standardVectorSize := by
      have hl := congrArg List.length hmap
      rw [List.length_map, List.length_take, hwidth] at hl
      omega
    refine ⟨by omega, ?_⟩
    rw [List.take_of_length_le hfit] at hmap
    rw [hmap]
    exact (hrows cells hwidth).mp hsame
  · intro hok
    have hfit : pushed.length ≤ standardVectorSize := by
      rw [hlen]
      exact hok.1
    rw [List.take_of_length_le hfit] at hemit
    exact ⟨replacement_types _ _ _ _ hreplace, s, s', _, hinit, hemit, hend,
      by rw [List.length_map, hlen], (hrows _ (by rw [List.length_map, hlen])).mpr hok.2⟩

theorem count_aggregate_iff (ex : Execution) (casts : CastFunctions) (spell : Value → Json)
    (fold : Text → Text) (context : ClientContext) (agg : LogicalAggregate)
    (get get' : LogicalGet) (below : List LogicalOperator) (colrefs : List ScalarExpression)
    (bind bind' : SalesforceScanBindData)
    (h : tryRewriteCountAggregate context agg [.get get below] [] =
      ⟨true, [.get get' below], colrefs⟩)
    (hbind : get.bindData = some (.salesforceScan bind))
    (hbind' : get'.bindData = some (.salesforceScan bind'))
    (hagg : NodeBound (.aggregate agg [.get get below])) (hget : NodeBound (.get get below))
    (hkey : ex.key = foldKey fold) (hread : StatementReads casts spell bind (ex.records bind)) :
    RowAgrees ex casts spell agg get get' below colrefs bind' ↔
      CountsApart ex fold agg get bind := by
  obtain ⟨pushed, hacc, rfl, rfl⟩ :=
    tryRewriteCountAggregate_some context agg get get' below colrefs bind hbind h
  rw [commit_bindData] at hbind'
  injection hbind' with hbind'
  injection hbind' with hbind'
  subst hbind'
  rw [rowAgrees_cells_iff ex casts spell context agg get below bind pushed hacc hagg hget hread,
    pushed_cells_iff ex fold hkey context agg get bind pushed hacc]
  constructor
  · intro hok
    exact ⟨hok.1, hok.2⟩
  · intro hok
    exact ⟨hok.width, hok.apart⟩

/-! ### Names that differ in case -/

def accountRecord (name amount : Cell) : ScanRecord := fun field =>
  if field = "Name".toList then name else if field = "Amount".toList then amount else none

/-- These records, in an org that compares texts in lower case. -/
def accountsExecution (records : List ScanRecord) : Execution where
  scalarFunction _ _ _ := none
  otherAggregate _ _ := none
  otherOperator _ _ _ := []
  foreignScan _ := []
  records _ := records
  records_of_scan _ _ := rfl
  key := foldKey lower

def natNumber (n : ℕ) : JsonNumber :=
  ⟨false, natText n, [], (natText_digits n).1, (natText_digits n).2, by simp, by simp⟩

/-- The JSON of texts, booleans and natural numbers. -/
def spellNatural : Value → Json
  | .null _ => .null
  | .varchar s => .string (spell s)
  | .boolean b => .bool b
  | .scalar _ key _ => .number (natNumber key.toNat)

/-- The cast of a natural number's digits. -/
def naturalCasts : CastFunctions where
  defaultCastAs type raw :=
    match type with
    | .bigint | .double => some (.scalar type (decimal raw) raw)
    | _ => none
  typeText _ := []

theorem natural_spells (type : LogicalType) (n : ℕ) (h : type = .bigint ∨ type = .double) :
    Spells naturalCasts type (.scalar type n (natText n)) (spellNatural (.scalar type n (natText n))) := by
  have hrender : (natNumber n).render = natText n := List.append_nil _
  have hspell : spellNatural (.scalar type n (natText n)) = .number (natNumber n) := rfl
  rw [hspell]
  rcases h with rfl | rfl
  · refine .number _ _ _ rfl ?_
    rw [hrender]
    show some (Value.scalar .bigint (decimal (natText n)) (natText n)) = _
    rw [decimal_natText]
  · refine .number _ _ _ rfl ?_
    rw [hrender]
    show some (Value.scalar .double (decimal (natText n)) (natText n)) = _
    rw [decimal_natText]

def accountFields : List SalesforceField := [nameField, amountField]

/-- The statement over accounts is read back when the amounts are natural. -/
theorem account_statement (records : List ScanRecord)
    (h : ∀ r ∈ records, ∀ v, r "Amount".toList = some v → ∃ n : ℕ, v = .scalar .double n (natText n)) :
    StatementReads naturalCasts spellNatural (accountScan "" "") records := by
  refine ⟨by decide, .none, ?_, ?_, ?_⟩
  · intro f hf
    have hnames : ∀ f ∈ accountFields, isBareToken f.name = true := by
      intro f hf
      rcases List.mem_cons.mp hf with rfl | hf
      · decide
      · rw [List.mem_singleton.mp hf]
        decide
    exact hnames f hf
  · intro field hfield htype r hr v hv
    rcases List.mem_cons.mp hfield with rfl | hfield
    · cases htype
    · rw [List.mem_singleton.mp hfield] at hv ⊢
      obtain ⟨n, rfl⟩ := h r hr v hv
      exact natural_spells .double n (Or.inr rfl)
  · intro n _ v hv
    rw [← Option.some.inj hv]
    exact natural_spells .bigint n (Or.inl rfl)

def distinctNameCount : BoundAggregateExpression := { countOf [nameRef] with distinct := true }

/-- `SELECT count(DISTINCT Name)`. -/
def countDistinctName : LogicalAggregate := ⟨1, 2, [], [], [], [.boundAggregate distinctNameCount]⟩

def twinAccounts : List ScanRecord :=
  [accountRecord (some (.varchar "Acme".toList)) none,
    accountRecord (some (.varchar "ACME".toList)) none]

def nameGet : LogicalGet := accountGet (accountScan "" "") [0] [.varchar] ["Name".toList]

def distinctTerm : SalesforcePushedAggregate :=
  ⟨"COUNT_DISTINCT".toList, "Name".toList, "n".toList, emitField nameField .bigint 0⟩

def distinctNameGet : LogicalGet :=
  accountGet { accountScan "" "" with pushedAggregates := [distinctTerm] } [0] [.bigint] ["n".toList]

theorem nameGet_typed (child : ScalarExpression) (h : child = nameRef) :
    ReferenceTyped nameGet (accountScan "" "") child := by
  intro _ t i originalIdx field he hid hfield
  rw [h] at he
  injection he with ht hb
  injection hb with _ hi
  subst hi
  have horiginal : originalIdx = 0 := (Option.some.inj hid).symm
  subst horiginal
  rw [← ht, ← Option.some.inj hfield]
  rfl

/-- Two names for DuckDB, one for the service. -/
theorem count_distinct_folds_names :
    tryRewriteCountAggregate defaultContext countDistinctName [.get nameGet []] [] =
        ⟨true, [.get distinctNameGet []], [.columnRef .bigint ⟨5, 0⟩]⟩ ∧
      ¬ RowAgrees (accountsExecution twinAccounts) naturalCasts spellNatural countDistinctName nameGet
        distinctNameGet [] [.columnRef .bigint ⟨5, 0⟩]
        { accountScan "" "" with pushedAggregates := [distinctTerm] } := by
  refine ⟨rfl, ?_⟩
  intro h
  have hacc : CountAccepted defaultContext countDistinctName nameGet (accountScan "" "")
      [distinctTerm] := ⟨⟨rfl, rfl, rfl⟩, List.cons_ne_nil _ _, rfl, rfl⟩
  have hagg : NodeBound (.aggregate countDistinctName [.get nameGet []]) := by
    intro bag hbag
    have hb : bag = distinctNameCount := by
      injection List.mem_singleton.mp hbag
    subst hb
    refine ⟨⟨fun _ => rfl, fun hno => absurd hno (by decide)⟩, ?_⟩
    intro get below bind hcs hbind child hchild
    injection hcs with hhead _
    injection hhead with hget _
    subst hget
    injection hbind with hbind
    injection hbind with hbind
    subst hbind
    exact nameGet_typed child (List.mem_singleton.mp hchild)
  have hread := account_statement twinAccounts (by
    intro r hr v hv
    rcases List.mem_cons.mp hr with rfl | hr
    · cases hv
    · rw [List.mem_singleton.mp hr] at hv
      cases hv)
  have hcells := ((rowAgrees_cells_iff (accountsExecution twinAccounts) naturalCasts spellNatural
    defaultContext countDistinctName nameGet [] (accountScan "" "") [distinctTerm] hacc hagg
    (fun _ => rfl) hread).mp h).2
  exact absurd hcells (by decide)

def pricedAccounts : List ScanRecord :=
  [accountRecord (some (.varchar "Acme".toList)) (some (.scalar .double (7 : ℕ) (natText 7))),
    accountRecord none (some (.scalar .double (3 : ℕ) (natText 3)))]

theorem count_and_min_agree :
    RowAgrees (accountsExecution pricedAccounts) naturalCasts spellNatural countAndMin prunedGet
      countAndMinGet [] [.columnRef .bigint ⟨5, 0⟩, .columnRef .double ⟨5, 1⟩]
      { accountScan "" "" with pushedAggregates := countAndMinTerms } :=
  (count_aggregate_iff (accountsExecution pricedAccounts) naturalCasts spellNatural lower
    defaultContext countAndMin prunedGet countAndMinGet [] _ (accountScan "" "") _ rfl rfl rfl
    countAndMin_bound (fun _ => rfl) rfl (account_statement pricedAccounts (by
      intro r hr v hv
      rcases List.mem_cons.mp hr with rfl | hr
      · exact ⟨7, (Option.some.inj hv).symm⟩
      · rw [List.mem_singleton.mp hr] at hv
        exact ⟨3, (Option.some.inj hv).symm⟩))).mpr
    ⟨by decide, by
      intro bag hbag hdistinct
      have hno : ∀ e ∈ countAndMin.expressions, ∀ bag, e = .boundAggregate bag →
          bag.distinct = false := by
        intro e he b hb
        rcases List.mem_cons.mp he with rfl | he
        · injection hb with hb
          rw [← hb]
          rfl
        · rw [List.mem_singleton.mp he] at hb
          injection hb with hb
          rw [← hb]
          rfl
      rw [hno _ hbag bag rfl] at hdistinct
      cases hdistinct⟩

end DuckdbSalesforce
