import DuckdbSalesforce.Plan.Bindings
import DuckdbSalesforce.Scan.Transports
import DuckdbSalesforce.Soql.AggregateQuery

/-!
# The records an aggregate ranges over

The optimizer looks at the residual filters only, and the aggregate statement
is made from the pushed part only, while the row query has the raw filter too.
-/

namespace DuckdbSalesforce

theorem pushed_bindData (context : ClientContext) (agg : LogicalAggregate)
    (children below : List LogicalOperator) (t : ℕ) (colrefs : List ScalarExpression)
    (get : LogicalGet) (bind : SalesforceScanBindData)
    (h : rewriteAggregate context agg children = some (.projection t colrefs [.get get below]))
    (hbind : get.bindData = some (.salesforceScan bind)) :
    ∃ get₀ bind₀ pushed, bind = { bind₀ with pushedAggregates := pushed } ∧
      ScanAccepted get₀ bind₀ ∧
      ((∃ below₀, children = [.get get₀ below₀] ∧ CountAccepted context agg get₀ bind₀ pushed) ∨
        ∃ inner below₀ field, children = [.aggregate inner [.get get₀ below₀]] ∧
          DistinctAccepted context agg inner get₀ bind₀ field ∧
          pushed = [countDistinctOf field]) := by
  rcases rewriteAggregate_some context agg children _ h with
    ⟨get₀, below₀, bind₀, pushed, hchildren, hacc, hop⟩ |
      ⟨inner, get₀, below₀, bind₀, field, hchildren, hacc, hop⟩
  · have hget : get = (commit context get₀ bind₀ pushed).1 := by
      injection hop with _ _ hcs
      injection (List.cons.inj hcs).1
    rw [hget] at hbind
    injection hbind with hdata
    injection hdata with hdata
    exact ⟨get₀, bind₀, pushed, hdata.symm, scanBindData_some context get₀ bind₀ hacc.scan,
      Or.inl ⟨below₀, hchildren, hacc⟩⟩
  · have hget : get = (commit context get₀ bind₀ [countDistinctOf field]).1 := by
      injection hop with _ _ hcs
      injection (List.cons.inj hcs).1
    rw [hget] at hbind
    injection hbind with hdata
    injection hdata with hdata
    exact ⟨get₀, bind₀, _, hdata.symm, scanBindData_some context get₀ bind₀ hacc.scan,
      Or.inr ⟨inner, below₀, field, hchildren, hacc, rfl⟩⟩

theorem countAccepted_plain (context : ClientContext) (agg : LogicalAggregate) (get : LogicalGet)
    (bind : SalesforceScanBindData) (pushed : List SalesforcePushedAggregate)
    (h : CountAccepted context agg get bind pushed) (hnamed : FieldsNamed bind) :
    ∀ pa ∈ pushed, pa.call.Plain := by
  obtain ⟨terms, hpushed, hlen, hterms⟩ := pushAggregates_some get bind [] pushed _ h.terms
  rw [List.nil_append] at hpushed
  subst hpushed
  intro pa hpa
  obtain ⟨i, hi⟩ := List.mem_iff_getElem?.mp hpa
  have hlt : i < agg.expressions.length := by
    have hi' := (List.getElem?_eq_some_iff.mp hi).1
    omega
  obtain ⟨pb, hpb, hpush⟩ := hterms i _ (List.getElem?_eq_getElem hlt)
  rw [hi, Option.some.injEq] at hpb
  obtain ⟨bag, _, hterm⟩ := pushAggregate_some get bind _ _ pb hpush
  rw [hpb]
  exact pushedTerm_plain get bind _ bag pb hterm hnamed

theorem pushed_plain (context : ClientContext) (agg : LogicalAggregate)
    (children below : List LogicalOperator) (t : ℕ) (colrefs : List ScalarExpression)
    (get : LogicalGet) (bind : SalesforceScanBindData)
    (h : rewriteAggregate context agg children = some (.projection t colrefs [.get get below]))
    (hbind : get.bindData = some (.salesforceScan bind)) (hnamed : FieldsNamed bind) :
    ∀ pa ∈ bind.pushedAggregates, pa.call.Plain := by
  obtain ⟨get₀, bind₀, pushed, rfl, _, ⟨below₀, _, hacc⟩ | ⟨inner, below₀, field, _, hacc, rfl⟩⟩ :=
    pushed_bindData context agg children below t colrefs get bind h hbind
  · exact countAccepted_plain context agg get₀ bind₀ pushed hacc hnamed
  · intro pa hpa
    obtain ⟨e, _, hres⟩ := hacc.group
    rw [List.mem_singleton.mp hpa]
    exact countDistinctOf_plain field
      (hnamed field (resolvedField_mem get₀ bind₀ e field hres))

theorem aggregateSoql_eq (bind : SalesforceScanBindData) :
    aggregateSoql bind =
      selectText (joinText ", ".toList (bind.pushedAggregates.map aggregateItem)) bind.object
        bind.pushedWhere none :=
  appendWhere_selectText _ bind.object bind.pushedWhere

theorem mem_selected_aggregate (org : Org) (bind : SalesforceScanBindData) (r : SalesforceRecord)
    (hplain : ∀ pa ∈ bind.pushedAggregates, pa.call.Plain)
    (hobj : isBareToken bind.object = true) (hw : WellFormedWhere bind.pushedWhere) :
    r ∈ org.selected (aggregateSoql bind) ↔
      r ∈ org.records bind.object ∧ r.satisfies bind.pushedWhere := by
  rw [aggregateSoql_eq]
  exact mem_selected_where org r _ _ bind.object bind.pushedWhere
    (lex_aggregateItems bind.pushedAggregates hplain) (callTokens_plain _) hobj hw

theorem aggregate_rows_iff (org : Org) (context : ClientContext) (agg : LogicalAggregate)
    (children below : List LogicalOperator) (t : ℕ) (colrefs : List ScalarExpression)
    (get : LogicalGet) (bind : SalesforceScanBindData) (columnIds : List ℕ)
    (h : rewriteAggregate context agg children = some (.projection t colrefs [.get get below]))
    (hbind : get.bindData = some (.salesforceScan bind)) (hb : ScanWellFormed bind columnIds)
    (hnamed : FieldsNamed bind) :
    (∀ r, r ∈ org.selected (aggregateSoql bind) ↔ r ∈ org.selected (rowSoql bind columnIds)) ↔
      RawRedundant org bind := by
  have hplain := pushed_plain context agg children below t colrefs get bind h hbind hnamed
  have hagg := fun r => mem_selected_aggregate org bind r hplain hb.object hb.pushed
  have hrow := fun r => mem_selected_row org bind columnIds r hb
  rw [← combined_eq_pushed_iff org bind hb.pushed hb.pushedUnit hb.raw]
  constructor
  · intro hsame r hmem
    have hr := ((hagg r).symm.trans (hsame r)).trans (hrow r)
    exact ⟨fun hp => (hr.mp ⟨hmem, hp⟩).2, fun hc => (hr.mpr ⟨hmem, hc⟩).2⟩
  · intro hsame r
    rw [hagg r, hrow r]
    exact and_congr_right fun hmem => hsame r hmem

/-! ### A count over a raw filter -/

def nameCountTerm : SalesforcePushedAggregate :=
  ⟨"COUNT".toList, "Name".toList, "n".toList, emitField nameField .bigint 0⟩

def pushedScan (pushedWhere rawWhere : String) : SalesforceScanBindData :=
  { accountScan pushedWhere rawWhere with pushedAggregates := [nameCountTerm] }

theorem countName_accepted (pushedWhere rawWhere : String) :
    rewriteAggregate defaultContext countName
        [.get (accountGet (accountScan pushedWhere rawWhere) [0] [.varchar] ["Name".toList]) []] =
      some (.projection 2 [.columnRef .bigint ⟨5, 0⟩]
        [.get (accountGet (pushedScan pushedWhere rawWhere) [0] [.bigint] ["n".toList]) []]) := rfl

/-- `count(Name)` counts the account that the raw filter excludes. -/
theorem aggregate_forgets_raw :
    ∃ op, rewriteAggregate defaultContext countName
        [.get (accountGet (accountScan "" "Rating = 'Hot'") [0] [.varchar] ["Name".toList]) []] =
          some op ∧
      op = .projection 2 [.columnRef .bigint ⟨5, 0⟩]
        [.get (accountGet (pushedScan "" "Rating = 'Hot'") [0] [.bigint] ["n".toList]) []] ∧
      ¬ ∀ r, r ∈ coldOrg.selected (aggregateSoql (pushedScan "" "Rating = 'Hot'")) ↔
        r ∈ coldOrg.selected (rowSoql (pushedScan "" "Rating = 'Hot'") [0]) := by
  refine ⟨_, countName_accepted "" "Rating = 'Hot'", rfl, ?_⟩
  intro h
  have hrow := (h coldAccount).mp (List.mem_singleton_self _)
  have hsel : coldOrg.selected (rowSoql (pushedScan "" "Rating = 'Hot'") [0]) = [] := rfl
  rw [hsel] at hrow
  cases hrow

theorem industry_rows_agree :
    (pushedScan "Industry = 'Tech'" "").rawWhere = [] ∧
      ∀ r, r ∈ warmOrg.selected (aggregateSoql (pushedScan "Industry = 'Tech'" "")) ↔
        r ∈ warmOrg.selected (rowSoql (pushedScan "Industry = 'Tech'" "") [0]) := by
  have hnames : ∀ f ∈ [nameField, amountField], isBareToken f.name = true := by
    intro f hf
    rcases List.mem_cons.mp hf with rfl | hf
    · decide
    · rw [List.mem_singleton.mp hf]
      decide
  refine ⟨rfl, ?_⟩
  exact (aggregate_rows_iff warmOrg defaultContext countName _ [] 2 _ _
    (pushedScan "Industry = 'Tech'" "") [0] (countName_accepted "Industry = 'Tech'" "") rfl
    ⟨by decide, by decide, .some _ pushedIndustry rfl, Nat.lt_irrefl 1, .none⟩ hnames).mpr
      (rawRedundant_of_no_raw _ _ rfl)

end DuckdbSalesforce
