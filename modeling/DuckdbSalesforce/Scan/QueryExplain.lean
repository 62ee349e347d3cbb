import DuckdbSalesforce.Catalog.MetadataEngine
import DuckdbSalesforce.Scan.PushdownCalls
import DuckdbSalesforce.Scan.ScanRows

/-!
# What a scan explains (`salesforce_metadata_engine.cpp`, `salesforce_scan.cpp`)

`salesforce_query_explain` annotates what the last scan recorded: a row for
every projected column, one for every filter of the first call of the pushdown
hook, and rows for the count and the transport. What it says of a filter holds
of the WHERE that the scan sends, whatever calls came after.
-/

namespace DuckdbSalesforce
open ThreeValued

/-! ### What a scan records -/

abbrev ExplainItem := ScanMember.DiagExplainItem

def DiagExplainItem.member (it : DiagExplainItem) : ExplainItem :=
  ⟨it.role, it.field, it.fieldKnown, it.pushed, it.residual, [], []⟩

section Record
variable (referenceTo : SalesforceField → List Text) (bind : SalesforceScanBindData)

/-- A parent STRUCT carries its own targets. -/
def columnItem (f : SalesforceField) : ExplainItem :=
  if f.isRelationship then
    ⟨"relationship".toList, f.relationshipName, true, false, false, f.relationshipName,
      referenceTo f⟩
  else ⟨"projection".toList, f.name, true, true, false, [], []⟩

def projectedExplain (columnIds : List ℕ) : List ExplainItem :=
  columnIds.filterMap fun col => bind.fields[col]?.map (columnItem referenceTo)

def aggregateExplain (pa : SalesforcePushedAggregate) : ExplainItem :=
  ⟨"aggregate".toList, pa.field, true, true, false, [], []⟩

/-- What `ScanInitGlobal` hands to `DiagSetExplain`. -/
def recordedItems (columnIds : List ℕ) (filters : List DiagExplainItem) : List ExplainItem :=
  if bind.pushedAggregates = [] then
    projectedExplain referenceTo bind columnIds ++ filters.map DiagExplainItem.member
  else bind.pushedAggregates.map aggregateExplain

end Record

/-! ### ExplainBind -/

structure DiagExplainSnapshot where
  object : Text
  catalogAlias : Text
  items : List ExplainItem
  transport : Text
  transportReason : Text
  countPushdown : Bool
  queryMode : Text
  estRows : ℤ

/-- A NULL cell is `none`. -/
structure ExplainRow where
  object : Text
  field : Option Text
  role : Text
  resolved : Option Bool
  filterable : Option Bool
  sortable : Option Bool
  relationshipName : Option Text
  referenceTo : List Text
  pushed : Bool
  residual : Bool
  reason : Text
  guidance : Text

def explainGuidance (reason : Text) : Text :=
  if reason = "pushed_to_soql".toList then "filtered server-side via SOQL".toList
  else if reason = "projected".toList then "selected from Salesforce".toList
  else if reason = "not_filterable".toList then
    "field not filterable; DuckDB filters residually (over-fetch)".toList
  else if reason = "unsupported_operator".toList then
    "operator not expressible in SOQL; applied residually by DuckDB".toList
  else if reason = "complex_expression".toList then
    "complex predicate (OR/NOT/cross-field); applied residually by DuckDB".toList
  else if reason = "unresolved_field".toList then "field not found in object metadata".toList
  else if reason = "relationship_traversed".toList then
    "single-hop parent relationship expanded into the SOQL SELECT".toList
  else if reason = "count_pushdown".toList then
    "row count served by SELECT COUNT() — no records fetched".toList
  else if reason = "count_not_pushed".toList then
    "not a count-only scan; records are fetched normally".toList
  else if reason = "aggregate_pushdown".toList then
    "computed server-side by a single aggregate SOQL query - no records fetched".toList
  else "metadata unavailable (catalog detached or engine error); annotation skipped".toList

section Rows
variable (object : Text)

def explained (it : ExplainItem) (field : Option Text) (reason : Text) : ExplainRow :=
  ⟨object, field, it.role, some false, none, none, none, [], it.pushed, it.residual, reason,
    explainGuidance reason⟩

def relationshipRow (it : ExplainItem) : ExplainRow :=
  { explained object it (if it.field = [] then none else some it.field)
      "relationship_traversed".toList with
    resolved := some true
    relationshipName := if it.relationshipName = [] then none else some it.relationshipName
    referenceTo := it.referenceTo }

def fieldReason (it : ExplainItem) (fld : ObjectField) : Text :=
  if it.role = "projection".toList then "projected".toList
  else if it.role = "aggregate".toList then "aggregate_pushdown".toList
  else if it.pushed then "pushed_to_soql".toList
  else if fld.filterable = false then "not_filterable".toList
  else "unsupported_operator".toList

def resolvedRow (it : ExplainItem) (fld : ObjectField) : ExplainRow :=
  { explained object it (some it.field) (fieldReason it fld) with
    resolved := some true
    filterable := some fld.filterable
    sortable := some fld.sortable
    relationshipName := if fld.relationshipName = [] then none else some fld.relationshipName
    referenceTo := fld.referenceTo }

/-- Without a describe there is no annotation. -/
def explainRow (desc : Option ObjectDescribe) (it : ExplainItem) : ExplainRow :=
  if it.role = "relationship".toList then relationshipRow object it
  else
    match desc with
    | none =>
      explained object it (if it.fieldKnown then some it.field else none)
        "metadata_unavailable".toList
    | some d =>
      if it.fieldKnown = false then explained object it none "complex_expression".toList
      else
        match d.fields.find? fun f => ciEquals f.name it.field with
        | none => explained object it (some it.field) "unresolved_field".toList
        | some fld => resolvedRow object it fld

def countRow (countPushdown : Bool) : ExplainRow :=
  let reason := if countPushdown then "count_pushdown".toList else "count_not_pushed".toList
  ⟨object, none, "count".toList, none, none, none, none, [], countPushdown, false, reason,
    explainGuidance reason⟩

end Rows

def transportRow (snap : DiagExplainSnapshot) : Option ExplainRow :=
  if snap.transport = [] then none
  else
    let reason :=
      if snap.transport = "bulk".toList then "transport_bulk".toList else "transport_rest".toList
    let guidance :=
      (if snap.transportReason = [] then "transport selected".toList else snap.transportReason) ++
        (if snap.queryMode = "queryAll".toList then
          "; queryAll (includes archived/deleted)".toList else []) ++
        if 0 ≤ snap.estRows then "; est_rows=".toList ++ (toString snap.estRows).toList else []
    some ⟨snap.object, none, "transport".toList, none, none, none, none, [], false, false, reason,
      guidance⟩

/-- Any failure on the way leaves the rows without annotation. -/
def explainDescribe (engineOf : Text → Except Text MetadataEngine) (snap : DiagExplainSnapshot) :
    Option ObjectDescribe :=
  if snap.catalogAlias = [] ∨ snap.object = [] then none
  else ((engineOf snap.catalogAlias).bind fun eng => eng.getObjectDescribe snap.object).toOption

/-- `ExplainBind`: no rows before any scan. -/
def explainRows (engineOf : Text → Except Text MetadataEngine) (snap : DiagExplainSnapshot) :
    List ExplainRow :=
  if snap.object = [] ∧ snap.items = [] then []
  else
    snap.items.map (explainRow snap.object (explainDescribe engineOf snap)) ++
      countRow snap.object snap.countPushdown :: (transportRow snap).toList

/-! ### What a row says -/

section Rows
variable (object : Text) (desc : Option ObjectDescribe)

theorem explainRow_flags (it : ExplainItem) :
    (explainRow object desc it).role = it.role ∧ (explainRow object desc it).pushed = it.pushed ∧
      (explainRow object desc it).residual = it.residual := by
  unfold explainRow
  split
  · exact ⟨rfl, rfl, rfl⟩
  · split
    · exact ⟨rfl, rfl, rfl⟩
    · split
      · exact ⟨rfl, rfl, rfl⟩
      · split
        · exact ⟨rfl, rfl, rfl⟩
        · exact ⟨rfl, rfl, rfl⟩

/-- The closed set of reasons of a filter. -/
inductive FilterReason (row : ExplainRow) : Prop where
  | pushed (reason : row.reason = "pushed_to_soql".toList) (pushed : row.pushed = true)
      (resolved : row.resolved = some true)
  | notFilterable (reason : row.reason = "not_filterable".toList) (pushed : row.pushed = false)
      (resolved : row.resolved = some true) (filterable : row.filterable = some false)
  | unsupported (reason : row.reason = "unsupported_operator".toList) (pushed : row.pushed = false)
      (resolved : row.resolved = some true) (filterable : row.filterable = some true)
  | unresolved (resolved : row.resolved = some false)
      (reason : row.reason = "metadata_unavailable".toList ∨
        row.reason = "complex_expression".toList ∨ row.reason = "unresolved_field".toList)

theorem resolvedRow_reason (it : ExplainItem) (hrole : it.role = "filter".toList)
    (fld : ObjectField) : FilterReason (resolvedRow object it fld) := by
  have hprojection : ¬ it.role = "projection".toList := by
    rw [hrole]
    decide
  have haggregate : ¬ it.role = "aggregate".toList := by
    rw [hrole]
    decide
  have hreason : (resolvedRow object it fld).reason = if it.pushed then "pushed_to_soql".toList
      else if fld.filterable = false then "not_filterable".toList
      else "unsupported_operator".toList := by
    show fieldReason it fld = _
    rw [fieldReason, if_neg hprojection, if_neg haggregate]
  cases hpushed : it.pushed with
  | true =>
    rw [hpushed, if_pos rfl] at hreason
    exact .pushed hreason hpushed rfl
  | false =>
    rw [hpushed, if_neg Bool.false_ne_true] at hreason
    cases hfilterable : fld.filterable with
    | false =>
      rw [hfilterable, if_pos rfl] at hreason
      exact .notFilterable hreason hpushed rfl (congrArg some hfilterable)
    | true =>
      rw [hfilterable, if_neg Bool.true_eq_false.mp] at hreason
      exact .unsupported hreason hpushed rfl (congrArg some hfilterable)

theorem explainRow_reason (it : ExplainItem) (hrole : it.role = "filter".toList) :
    FilterReason (explainRow object desc it) := by
  have hrel : ¬ it.role = "relationship".toList := by
    rw [hrole]
    decide
  unfold explainRow
  rw [if_neg hrel]
  split
  · exact .unresolved rfl (Or.inl rfl)
  · split
    · exact .unresolved rfl (Or.inr (Or.inl rfl))
    · split
      · exact .unresolved rfl (Or.inr (Or.inr rfl))
      · exact resolvedRow_reason object it hrole _

theorem explainRow_guided (it : ExplainItem) :
    (explainRow object desc it).guidance = explainGuidance (explainRow object desc it).reason := by
  unfold explainRow
  split
  · rfl
  · split
    · rfl
    · split
      · rfl
      · split
        · rfl
        · rfl

end Rows

/-! ### What the hook captures -/

section Calls
variable {Row : Type} (soql : Row → Predicate → Truth) (duck : List ℕ → Row → Expr → Truth)

/-- The item of a filter that means `m` is true of a WHERE of these clauses. -/
structure ItemReported (clauses : List Clause) (m : Row → Truth) (it : DiagExplainItem) : Prop where
  role : it.role = "filter".toList
  enforced : it.residual = false → ∀ row, whereAccepts (soql row) clauses → m row = .tt
  sent : it.pushed = true → ∃ c ∈ clauses, ∀ row, m row = .tt → c.eval (soql row) = .tt
  unsent : it.pushed = false → it.residual = true

theorem ItemReported.later {soql : Row → Predicate → Truth} {clauses : List Clause}
    {m : Row → Truth} {it : DiagExplainItem} (h : ItemReported soql clauses m it)
    (new : List Clause) : ItemReported soql (clauses ++ new) m it := by
  refine ⟨h.role, ?_, ?_, h.unsent⟩
  · intro hresidual row haccepts
    exact h.enforced hresidual row ((whereAccepts_append (soql row) clauses new).mp haccepts).1
  · intro hpushed
    obtain ⟨c, hc, hsuper⟩ := h.sent hpushed
    exact ⟨c, List.mem_append_left new hc, hsuper⟩

section Call
variable (fields : List SalesforceField) (projection : List ℕ)

/-- The `out_info` of a filter: nothing is pushed by a WHERE that is too long. -/
def reportedInfo (filters : List Expr) (e : Expr) : PushdownConjunctInfo :=
  if overlong fields projection filters then ⟨false, false⟩ else conjunctInfoOf fields projection e

theorem pushdown_info (filters : List Expr) (r : PushdownResult)
    (h : pushdownToSoql fields projection filters = .ok r) :
    r.info = filters.map (reportedInfo fields projection filters) := by
  obtain ⟨-, hr⟩ := pushdown_run fields projection filters r h
  rw [hr]
  unfold reportedInfo
  by_cases hlong : overlong fields projection filters = true
  · simp only [if_pos hlong]
  · simp only [if_neg hlong]

theorem zip_map_eq {α β γ : Type} (f : α → β) (g : α → β → γ) (xs : List α) :
    (xs.zip (xs.map f)).map (fun p => g p.1 p.2) = xs.map fun x => g x (f x) := by
  induction xs with
  | nil => rfl
  | cons x xs ih =>
    rw [List.map_cons, List.zip_cons_cons, List.map_cons, List.map_cons, ih]

theorem item_reported (filters : List Expr) (r : PushdownResult)
    (hrun : pushdownToSoql fields projection filters = .ok r)
    (hcovers : ∀ row, ∀ f ∈ filters, Covers fields projection (soql row) (duck projection row) f)
    (e : Expr) (he : e ∈ filters) :
    ItemReported soql (whereClauses fields projection filters) (meaning duck projection e)
      (explainItem fields projection e (reportedInfo fields projection filters e)) := by
  obtain ⟨hok, -⟩ := pushdown_run fields projection filters r hrun
  by_cases hlong : overlong fields projection filters = true
  · have hinfo : reportedInfo fields projection filters e = ⟨false, false⟩ := if_pos hlong
    rw [hinfo]
    refine ⟨rfl, ?_, ?_, fun _ => rfl⟩
    · intro hresidual
      cases hresidual
    · intro hpushed
      cases hpushed
  · have hinfo : reportedInfo fields projection filters e = conjunctInfoOf fields projection e :=
      if_neg hlong
    rw [hinfo, conjunctInfoOf, pushedText_written]
    cases hclause : pushedClause fields projection e with
    | none =>
      refine ⟨rfl, ?_, ?_, fun _ => rfl⟩
      · intro hresidual
        cases hresidual
      · intro hpushed
        cases hpushed
    | some p =>
      obtain ⟨c, exact⟩ := p
      have hsent : c ∈ whereClauses fields projection filters := by
        unfold whereClauses
        rw [if_neg hlong]
        exact List.mem_filterMap.mpr ⟨e, he, by rw [hclause]; rfl⟩
      have htranslated := pushedClause_of_ok fields projection e (c, exact) (hok e he) hclause
      refine ⟨rfl, ?_, ?_, ?_⟩
      · intro hresidual row haccepts
        have hexact : exact = true := by simpa [explainItem, conjunctInfo, written] using hresidual
        refine (hcovers row e he c exact htranslated).2 hexact ?_
        unfold whereAccepts at haccepts
        rw [Cond.eval_all_eq_tt] at haccepts
        exact haccepts c hsent
      · intro _
        exact ⟨c, hsent, fun row hm => (hcovers row e he c exact htranslated).1 hm⟩
      · intro hpushed
        cases hpushed

end Call

theorem pushdownCall_explains (projection : List ℕ) (bind bind' : PushdownBindData)
    (filters rest : List Expr) (hne : filters ≠ [])
    (h : scanPushdownComplexFilter projection bind filters = .ok (bind', rest)) :
    bind'.explainCaptured = true ∧ bind'.explainFilters =
      if bind.explainCaptured then bind.explainFilters
      else bind.explainFilters ++ filters.map fun e =>
        explainItem bind.fields projection e (reportedInfo bind.fields projection filters e) := by
  have hlen : ¬ filters.length = 0 := fun h0 => hne (List.length_eq_zero_iff.mp h0)
  unfold scanPushdownComplexFilter at h
  rw [if_neg hlen] at h
  cases hr : pushdownToSoql bind.fields projection filters with
  | error e =>
    rw [hr] at h
    cases h
  | ok r =>
    rw [hr] at h
    cases h
    refine ⟨rfl, ?_⟩
    show (if bind.explainCaptured then bind.explainFilters else bind.explainFilters ++ _) = _
    rw [pushdown_info bind.fields projection filters r hr, zip_map_eq]

/-- Nothing was presented yet, or the items are those of filters presented. -/
inductive Captured (s : HookSession Row) : Prop where
  | none (captured : s.bind.explainCaptured = false) (items : s.bind.explainFilters = [])
      (residual : s.residual = []) (presented : s.presented = [])
  | first (captured : s.bind.explainCaptured = true) (filters later : List (Row → Truth))
      (presented : s.presented.Perm (filters ++ later)) (some : filters ≠ [])
      (items : List.Forall₂ (ItemReported soql s.clauses) filters s.bind.explainFilters)

theorem captured_call (s : HookSession Row) (projection : List ℕ) (filters new rest : List Expr)
    (bind' : PushdownBindData) (hs : Captured soql s)
    (h : Presents soql duck s projection filters new)
    (hcall : scanPushdownComplexFilter projection s.bind filters = .ok (bind', rest)) :
    Captured soql ⟨bind', projection, rest,
      s.clauses ++ whereClauses s.bind.fields projection filters,
      s.presented ++ new.map (meaning duck projection)⟩ := by
  obtain ⟨hcaptured', hitems'⟩ :=
    pushdownCall_explains projection s.bind bind' filters rest h.nonempty hcall
  cases hs with
  | first captured shown later presented some items =>
    rw [if_pos captured] at hitems'
    refine .first hcaptured' shown (later ++ new.map (meaning duck projection)) ?_ some ?_
    · rw [← List.append_assoc]
      exact presented.append_right _
    · rw [hitems']
      exact items.imp fun m it hit => hit.later _
  | none captured items residual presented =>
    obtain ⟨r, hrun, -⟩ := pushdownCall_cases projection s.bind bind' filters rest h.nonempty hcall
    have hcovers : ∀ row, ∀ f ∈ filters,
        Covers s.bind.fields projection (soql row) (duck projection row) f :=
      fun row f hf => covers_nested s.bind.fields projection (soql row) (duck projection row) f
        (h.leaves row f hf)
    obtain ⟨old, hsame, hperm⟩ := h.again
    rw [residual, List.map_nil] at hsame
    rw [List.map_eq_nil_iff.mp hsame, List.nil_append] at hperm
    rw [captured, if_neg Bool.false_ne_true, items, List.nil_append] at hitems'
    refine .first hcaptured' (filters.map (meaning duck projection)) [] ?_ ?_ ?_
    · rw [presented, List.nil_append, List.append_nil]
      exact (hperm.map _).symm
    · intro hnil
      exact h.nonempty (List.map_eq_nil_iff.mp hnil)
    · rw [hitems', List.forall₂_map_left_iff, List.forall₂_map_right_iff, List.forall₂_same]
      intro e he
      have hitem := item_reported soql duck s.bind.fields projection filters r hrun hcovers e he
      refine ⟨hitem.role, ?_, ?_, hitem.unsent⟩
      · intro hresidual row haccepts
        exact hitem.enforced hresidual row
          ((whereAccepts_append (soql row) s.clauses _).mp haccepts).2
      · intro hpushed
        obtain ⟨c, hc, hsuper⟩ := hitem.sent hpushed
        exact ⟨c, List.mem_append_right s.clauses hc, hsuper⟩

theorem hookRun_captured (start : PushdownBindData) (hcaptured : start.explainCaptured = false)
    (hitems : start.explainFilters = []) (s : HookSession Row) (hrun : HookRun soql duck start s) :
    Captured soql s := by
  induction hrun with
  | start => exact .none hcaptured hitems rfl rfl
  | empty s projection bind' rest _ hcall ih =>
    rw [empty_call] at hcall
    cases hcall
    exact ih
  | filters s projection filters new bind' rest _ hpresents hcall ih =>
    exact captured_call soql duck s projection filters new rest bind' ih hpresents hcall

/-! ### The rows -/

structure ColumnReported (f : SalesforceField) (row : ExplainRow) : Prop where
  role : row.role = if f.isRelationship then "relationship".toList else "projection".toList
  pushed : row.pushed = !f.isRelationship
  residual : row.residual = false

/-- What a row says of a filter that means `m`, and of the WHERE. -/
structure FilterReported (clauses : List Clause) (m : Row → Truth) (row : ExplainRow) : Prop where
  role : row.role = "filter".toList
  enforced : row.residual = false → ∀ r, whereAccepts (soql r) clauses → m r = .tt
  sent : row.pushed = true → ∃ c ∈ clauses, ∀ r, m r = .tt → c.eval (soql r) = .tt
  unsent : row.pushed = false → row.residual = true
  reason : FilterReason row
  guided : row.guidance = explainGuidance row.reason

structure AggregateReported (pa : SalesforcePushedAggregate) (row : ExplainRow) : Prop where
  role : row.role = "aggregate".toList
  field : row.field = some pa.field
  pushed : row.pushed = true
  residual : row.residual = false

theorem aggregateExplain_reported (object : Text) (desc : Option ObjectDescribe)
    (pa : SalesforcePushedAggregate) :
    AggregateReported pa (explainRow object desc (aggregateExplain pa)) := by
  obtain ⟨hrole, hpushed, hresidual⟩ := explainRow_flags object desc (aggregateExplain pa)
  refine ⟨hrole, ?_, hpushed, hresidual⟩
  have hrel : ¬ (aggregateExplain pa).role = "relationship".toList := by
    show ¬ "aggregate".toList = "relationship".toList
    decide
  unfold explainRow
  rw [if_neg hrel]
  split
  · rfl
  · rw [if_neg (by exact Bool.true_eq_false.mp)]
    split
    · rfl
    · rfl

theorem columnItem_reported (referenceTo : SalesforceField → List Text) (object : Text)
    (desc : Option ObjectDescribe) (f : SalesforceField) :
    ColumnReported f (explainRow object desc (columnItem referenceTo f)) := by
  obtain ⟨hrole, hpushed, hresidual⟩ := explainRow_flags object desc (columnItem referenceTo f)
  refine ⟨?_, ?_, ?_⟩
  · rw [hrole]
    unfold columnItem
    cases f.isRelationship <;> rfl
  · rw [hpushed]
    unfold columnItem
    cases f.isRelationship <;> rfl
  · rw [hresidual]
    unfold columnItem
    cases f.isRelationship <;> rfl

theorem filterItem_reported (object : Text) (desc : Option ObjectDescribe) (clauses : List Clause)
    (m : Row → Truth) (it : DiagExplainItem) (h : ItemReported soql clauses m it) :
    FilterReported soql clauses m (explainRow object desc it.member) := by
  obtain ⟨hrole, hpushed, hresidual⟩ := explainRow_flags object desc it.member
  refine ⟨hrole.trans h.role, ?_, ?_, ?_, explainRow_reason object desc it.member h.role,
    explainRow_guided object desc it.member⟩
  · intro hflag
    exact h.enforced (hresidual.symm.trans hflag)
  · intro hflag
    exact h.sent (hpushed.symm.trans hflag)
  · intro hflag
    exact hresidual.trans (h.unsent (hpushed.symm.trans hflag))

theorem projectedExplain_map (referenceTo : SalesforceField → List Text)
    (bind : SalesforceScanBindData) (columnIds : List ℕ) :
    projectedExplain referenceTo bind columnIds =
      (projected bind columnIds).map (columnItem referenceTo) := by
  unfold projectedExplain projected
  rw [List.map_filterMap]

/-- The rows of a scan that pages its records. -/
structure ScanExplained (s : HookSession Row) (columnIds : List ℕ)
    (snap : DiagExplainSnapshot) (rows : List ExplainRow) : Prop where
  rows : ∃ columns filters later reported,
    rows = columns ++ reported ++
      countRow snap.object snap.countPushdown :: (transportRow snap).toList ∧
    List.Forall₂ ColumnReported (projected s.bind.toSalesforceScanBindData columnIds) columns ∧
    s.presented.Perm (filters ++ later) ∧ (filters = [] → s.presented = []) ∧
    List.Forall₂ (FilterReported soql s.clauses) filters reported

/-- Pushed aggregates stand in place of the columns and the filters. -/
theorem explainRows_aggregates (bind : SalesforceScanBindData) (haggregates : bind.pushedAggregates ≠ [])
    (referenceTo : SalesforceField → List Text) (columnIds : List ℕ)
    (filters : List DiagExplainItem) (engineOf : Text → Except Text MetadataEngine)
    (snap : DiagExplainSnapshot) (hobject : snap.object ≠ [])
    (hsnap : snap.items = recordedItems referenceTo bind columnIds filters) :
    ∃ aggregates, explainRows engineOf snap = aggregates ++
        countRow snap.object snap.countPushdown :: (transportRow snap).toList ∧
      List.Forall₂ AggregateReported bind.pushedAggregates aggregates := by
  refine ⟨bind.pushedAggregates.map fun pa =>
    explainRow snap.object (explainDescribe engineOf snap) (aggregateExplain pa), ?_, ?_⟩
  · unfold explainRows
    rw [if_neg fun h => hobject h.1, hsnap, recordedItems, if_neg haggregates, List.map_map]
    rfl
  · rw [List.forall₂_map_right_iff, List.forall₂_same]
    exact fun pa _ => aggregateExplain_reported snap.object _ pa

theorem explainRows_scan (s : HookSession Row) (hs : Captured soql s)
    (haggregates : s.bind.pushedAggregates = []) (referenceTo : SalesforceField → List Text)
    (columnIds : List ℕ) (engineOf : Text → Except Text MetadataEngine) (snap : DiagExplainSnapshot)
    (hobject : snap.object ≠ [])
    (hsnap : snap.items = recordedItems referenceTo s.bind.toSalesforceScanBindData columnIds
      s.bind.explainFilters) :
    ScanExplained soql s columnIds snap (explainRows engineOf snap) := by
  generalize hdesc : explainDescribe engineOf snap = desc
  have hrows : explainRows engineOf snap =
      (projected s.bind.toSalesforceScanBindData columnIds).map
          (fun f => explainRow snap.object desc (columnItem referenceTo f)) ++
        s.bind.explainFilters.map (fun it => explainRow snap.object desc it.member) ++
        countRow snap.object snap.countPushdown :: (transportRow snap).toList := by
    unfold explainRows
    rw [if_neg fun h => hobject h.1, hsnap, recordedItems, if_pos haggregates, hdesc,
      projectedExplain_map, List.map_append, List.map_map, List.map_map]
    rfl
  have hcolumns : List.Forall₂ ColumnReported (projected s.bind.toSalesforceScanBindData columnIds)
      ((projected s.bind.toSalesforceScanBindData columnIds).map
        fun f => explainRow snap.object desc (columnItem referenceTo f)) := by
    rw [List.forall₂_map_right_iff, List.forall₂_same]
    exact fun f _ => columnItem_reported referenceTo snap.object desc f
  cases hs with
  | none _ items _ presented =>
    rw [items] at hrows
    refine ⟨_, [], [], [], hrows, hcolumns, ?_, fun _ => presented, .nil⟩
    rw [presented]
    exact List.Perm.refl _
  | first _ filters later presented some items =>
    refine ⟨_, filters, later, _, hrows, hcolumns, presented, fun h => absurd h some, ?_⟩
    rw [List.forall₂_map_right_iff]
    exact items.imp fun m it hit => filterItem_reported soql snap.object desc s.clauses m it hit

end Calls

/-! ### Two calls with an empty one between them -/

def amountSnapshot (bind : PushdownBindData) : DiagExplainSnapshot where
  object := "Opportunity".toList
  catalogAlias := "sf".toList
  items := recordedItems (fun _ => []) bind.toSalesforceScanBindData [0] bind.explainFilters
  transport := "rest".toList
  transportReason := "forced".toList
  countPushdown := false
  queryMode := "query".toList
  estRows := -1

theorem amount_session : ∃ s, HookRun amountSoql (fun _ => amountDuck) amountStart s ∧
    s.presented.length = 3 ∧ s.bind.pushedAggregates = [] ∧
    s.bind.explainFilters.map (fun it => (it.pushed, it.residual)) =
      [(true, false), (true, true)] := by
  have hfirst : Presents amountSoql (fun _ => amountDuck) ⟨amountStart, [], [], [], []⟩ [0]
      amountFilters amountFilters :=
    ⟨List.cons_ne_nil _ _, ⟨[], rfl, List.Perm.refl _⟩, amount_leaves⟩
  have hrun := HookRun.empty _ [] _ _
    (.filters _ [0] amountFilters amountFilters _ _ .start hfirst rfl) rfl
  have hnext := HookRun.filters _ [0] amountLater _ _ _ hrun
    ⟨List.cons_ne_nil _ _, ⟨amountFilters.drop 1, rfl, List.Perm.refl _⟩, amountLater_leaves⟩ rfl
  exact ⟨_, hnext, rfl, rfl, rfl⟩

end DuckdbSalesforce
