import DuckdbSalesforce.Soql.Residual
import DuckdbSalesforce.Scan.BindData

/-!
# Repeated calls of the pushdown hook (`salesforce_scan.cpp`)

DuckDB may call `ScanPushdownComplexFilter` more than once on one bind data: it
presents the filters left residual again, perhaps under another projection, and
calls with no filters at all. The WHERE, the residual list and the two counters
stay in step over every such sequence of calls.
-/

namespace DuckdbSalesforce
open ThreeValued

/-! ### Explain capture -/

structure DiagExplainItem where
  role : Text
  field : Text
  fieldKnown : Bool
  pushed : Bool
  residual : Bool
  deriving DecidableEq, Repr

section Explain
variable (fields : List SalesforceField) (projectionToField : List ℕ)

mutual
/-- The fields that the column references of an expression resolve to. -/
def fieldIdxs : Expr → List ℕ
  | .columnRef proj =>
    match projectionToField[proj]? with
    | none => []
    | some fi => if fi < fields.length then [fi] else []
  | .constant _ => []
  | .comparison _ l r => fieldIdxs l ++ fieldIdxs r
  | .between input lower upper _ _ => fieldIdxs input ++ fieldIdxs lower ++ fieldIdxs upper
  | .operator _ children => fieldIdxsList children
  | .function _ children => fieldIdxsList children
  | .conjunction _ children => fieldIdxsList children
  | .other _ children => fieldIdxsList children

def fieldIdxsList : List Expr → List ℕ
  | [] => []
  | e :: es => fieldIdxs e ++ fieldIdxsList es
end

/-- `ExplainFieldOf`: the name of the only field of a filter that is no
conjunction; `none` is `false`. -/
def explainFieldOf (e : Expr) : Option Text :=
  match e with
  | .conjunction _ _ => none
  | _ =>
    match (fieldIdxs fields projectionToField e).dedup with
    | [fi] => fields[fi]?.map SalesforceField.name
    | _ => none

def explainItem (e : Expr) (info : PushdownConjunctInfo) : DiagExplainItem :=
  ⟨"filter".toList, (explainFieldOf fields projectionToField e).getD [],
    (explainFieldOf fields projectionToField e).isSome, info.translated,
    !(info.translated && info.exact)⟩

end Explain

/-! ### The hook -/

/-- The bind data with the members that only the hook writes. -/
structure PushdownBindData extends SalesforceScanBindData where
  pushedFilterCount : ℤ
  explainFilters : List DiagExplainItem
  explainCaptured : Bool

/-- `ScanPushdownComplexFilter`: the bind data and the filters it leaves. -/
def scanPushdownComplexFilter (projectionToField : List ℕ) (bind : PushdownBindData)
    (filters : List Expr) : Except BinderException (PushdownBindData × List Expr) :=
  if filters.length = 0 then .ok (bind, filters)
  else do
    let r ← pushdownToSoql bind.fields projectionToField filters
    let pushedWhere :=
      if r.outWhere = [] then bind.pushedWhere
      else if bind.pushedWhere = [] then r.outWhere
      else bind.pushedWhere ++ " AND ".toList ++ r.outWhere
    let explainFilters :=
      if bind.explainCaptured then bind.explainFilters
      else bind.explainFilters ++
        (filters.zip r.info).map fun p => explainItem bind.fields projectionToField p.1 p.2
    .ok ({ bind with
      pushedWhere := pushedWhere
      explainFilters := explainFilters
      explainCaptured := true
      pushedFilterCount := bind.pushedFilterCount + (filters.length - r.filters.length)
      residualFilterCount := r.filters.length }, r.filters)

/-! ### What a call does -/

theorem empty_call (projectionToField : List ℕ) (bind : PushdownBindData) :
    scanPushdownComplexFilter projectionToField bind [] = .ok (bind, []) := rfl

theorem pushdownCall_cases (projectionToField : List ℕ) (bind bind' : PushdownBindData)
    (filters rest : List Expr) (hne : filters ≠ [])
    (h : scanPushdownComplexFilter projectionToField bind filters = .ok (bind', rest)) :
    ∃ r, pushdownToSoql bind.fields projectionToField filters = .ok r ∧ rest = r.filters ∧
      bind'.pushedWhere =
        (if r.outWhere = [] then bind.pushedWhere
          else if bind.pushedWhere = [] then r.outWhere
          else bind.pushedWhere ++ " AND ".toList ++ r.outWhere) ∧
      bind'.pushedFilterCount = bind.pushedFilterCount + (filters.length - rest.length) ∧
      bind'.residualFilterCount = rest.length := by
  have hlen : ¬ filters.length = 0 := fun h0 => hne (List.length_eq_zero_iff.mp h0)
  unfold scanPushdownComplexFilter at h
  rw [if_neg hlen] at h
  cases hr : pushdownToSoql bind.fields projectionToField filters with
  | error e =>
    rw [hr] at h
    cases h
  | ok r =>
    rw [hr] at h
    cases h
    exact ⟨r, rfl, rfl, rfl, rfl, rfl⟩

theorem pushdown_takes (fields : List SalesforceField) (projectionToField : List ℕ)
    (filters : List Expr) (r : PushdownResult)
    (h : pushdownToSoql fields projectionToField filters = .ok r) :
    ∃ taken, filters.Perm (taken ++ r.filters) := by
  obtain ⟨_, hr⟩ := pushdown_run fields projectionToField filters r h
  by_cases hlong : overlong fields projectionToField filters = true
  · rw [if_pos hlong] at hr
    rw [hr]
    exact ⟨[], List.Perm.refl filters⟩
  · rw [if_neg hlong] at hr
    rw [hr]
    exact ⟨filters.filter (removed fields projectionToField),
      (List.filter_append_perm _ filters).symm⟩

theorem predicateText_ne_nil (p : Predicate) : p.text ≠ [] := by
  intro h
  have hlen := congrArg List.length h
  cases p with
  | compare field op v =>
    simp only [Predicate.text, List.length_append, List.length_nil] at hlen
    have hblank : " ".toList.length = 1 := rfl
    omega
  | inList field vs =>
    simp only [Predicate.text, List.length_append, List.length_nil] at hlen
    have hclose : ")".toList.length = 1 := rfl
    omega
  | like field pattern =>
    simp only [Predicate.text, soqlString, List.length_append, List.length_nil,
      List.length_cons] at hlen
    omega

theorem clauseText_ne_nil (c : Clause) : clauseText c ≠ [] := by
  cases c with
  | leaf p => exact predicateText_ne_nil p
  | all cs => exact List.cons_ne_nil '(' _
  | any cs => exact List.cons_ne_nil '(' _
  | neg c => exact List.cons_ne_nil '(' _

def clausesText (clauses : List Clause) : Text := joinText " AND ".toList (clauses.map clauseText)

theorem clausesText_eq_nil (clauses : List Clause) (h : clausesText clauses = []) :
    clauses = [] := by
  have hne : ∀ t ∈ clauses.map clauseText, t ≠ [] := by
    intro t ht
    obtain ⟨c, _, hc⟩ := List.mem_map.mp ht
    rw [← hc]
    exact clauseText_ne_nil c
  exact List.map_eq_nil_iff.mp (joinText_eq_nil _ _ hne h)

theorem clausesText_append (old new : List Clause) :
    clausesText (old ++ new) =
      if clausesText new = [] then clausesText old
      else if clausesText old = [] then clausesText new
      else clausesText old ++ " AND ".toList ++ clausesText new := by
  by_cases hnew : clausesText new = []
  · rw [if_pos hnew, clausesText_eq_nil new hnew, List.append_nil]
  rw [if_neg hnew]
  by_cases hold : clausesText old = []
  · rw [if_pos hold, clausesText_eq_nil old hold, List.nil_append]
  · rw [if_neg hold, clausesText, List.map_append]
    refine joinText_append _ _ _ ?_ ?_
    · intro h
      exact hold (by rw [clausesText, h]; rfl)
    · intro h
      exact hnew (by rw [clausesText, h]; rfl)

/-! ### Sequences of calls -/

section Calls
variable {Row : Type} (soql : Row → Predicate → Truth) (duck : List ℕ → Row → Expr → Truth)

/-- The truth of a filter on each row, where its column references are read
through a projection. -/
def meaning (projection : List ℕ) (e : Expr) : Row → Truth :=
  fun row => duckTruth (duck projection row) e

/-- What is known after some calls: the bind data, the filters left residual
with the projection they are read through, the clauses of the WHERE, and all
filters presented so far, each once. -/
structure HookSession (Row : Type) where
  bind : PushdownBindData
  projection : List ℕ
  residual : List Expr
  clauses : List Clause
  presented : List (Row → Truth)

/-- A call with filters presents the residual ones again, and new ones, in any
order. Every leaf clause covers its leaf. -/
structure Presents (s : HookSession Row) (projection : List ℕ) (filters new : List Expr) :
    Prop where
  nonempty : filters ≠ []
  again : ∃ old, old.map (meaning duck projection) = s.residual.map (meaning duck s.projection) ∧
    filters.Perm (old ++ new)
  leaves : ∀ row, ∀ f ∈ filters, ∀ e ∈ f.cond.leaves,
    Covers s.bind.fields projection (soql row) (duck projection row) e

inductive HookRun (start : PushdownBindData) : HookSession Row → Prop
  | start : HookRun start ⟨start, [], [], [], []⟩
  | empty (s : HookSession Row) (projection : List ℕ) (bind' : PushdownBindData)
      (rest : List Expr) (before : HookRun start s)
      (call : scanPushdownComplexFilter projection s.bind [] = .ok (bind', rest)) :
      HookRun start { s with bind := bind' }
  | filters (s : HookSession Row) (projection : List ℕ) (filters new : List Expr)
      (bind' : PushdownBindData) (rest : List Expr) (before : HookRun start s)
      (presents : Presents soql duck s projection filters new)
      (call : scanPushdownComplexFilter projection s.bind filters = .ok (bind', rest)) :
      HookRun start ⟨bind', projection, rest,
        s.clauses ++ whereClauses s.bind.fields projection filters,
        s.presented ++ new.map (meaning duck projection)⟩

/-- The WHERE, the residual filters and the counters are in step. -/
structure InStep (s : HookSession Row) : Prop where
  whereText : s.bind.pushedWhere = clausesText s.clauses
  accepts : ∀ row, (whereAccepts (soql row) s.clauses ∧
      ∀ e ∈ s.residual, meaning duck s.projection e row = .tt) ↔ ∀ f ∈ s.presented, f row = .tt
  residualCount : s.bind.residualFilterCount = s.residual.length
  removed : ∃ removed, s.presented.Perm (removed ++ s.residual.map (meaning duck s.projection)) ∧
    s.bind.pushedFilterCount = removed.length

theorem whereAccepts_append (truth : Predicate → Truth) (old new : List Clause) :
    whereAccepts truth (old ++ new) ↔ whereAccepts truth old ∧ whereAccepts truth new := by
  unfold whereAccepts
  rw [Cond.eval_all_eq_tt, Cond.eval_all_eq_tt, Cond.eval_all_eq_tt, List.forall_mem_append]

/-- The rows that the filters of a call accept: those of the residual ones and
of the new ones. -/
theorem presented_accepts (s : HookSession Row) (projection : List ℕ) (filters new : List Expr)
    (h : Presents soql duck s projection filters new) (row : Row) :
    (∀ e ∈ filters, meaning duck projection e row = .tt) ↔
      (∀ e ∈ s.residual, meaning duck s.projection e row = .tt) ∧
        ∀ e ∈ new, meaning duck projection e row = .tt := by
  obtain ⟨old, hsame, hperm⟩ := h.again
  have hold : (∀ f ∈ old.map (meaning duck projection), f row = .tt) ↔
      ∀ f ∈ s.residual.map (meaning duck s.projection), f row = .tt := by rw [hsame]
  rw [List.forall_mem_map, List.forall_mem_map] at hold
  rw [← hold, ← List.forall_mem_append]
  refine ⟨?_, ?_⟩
  · intro hall e he
    exact hall e (hperm.mem_iff.mpr he)
  · intro hall e he
    exact hall e (hperm.mem_iff.mp he)

theorem inStep_start (start : PushdownBindData) (hwhere : start.pushedWhere = [])
    (hpushed : start.pushedFilterCount = 0) (hresidual : start.residualFilterCount = 0) :
    InStep soql duck ⟨start, [], [], [], []⟩ := by
  refine ⟨hwhere, ?_, hresidual, [], List.Perm.refl _, hpushed⟩
  intro row
  have hall : whereAccepts (soql row) [] := by
    rw [whereAccepts, Cond.eval_all_eq_tt]
    exact List.forall_mem_nil _
  exact ⟨fun _ => List.forall_mem_nil _, fun _ => ⟨hall, List.forall_mem_nil _⟩⟩

theorem inStep_call (s : HookSession Row) (projection : List ℕ) (filters new rest : List Expr)
    (bind' : PushdownBindData) (hs : InStep soql duck s)
    (h : Presents soql duck s projection filters new)
    (hcall : scanPushdownComplexFilter projection s.bind filters = .ok (bind', rest)) :
    InStep soql duck ⟨bind', projection, rest,
      s.clauses ++ whereClauses s.bind.fields projection filters,
      s.presented ++ new.map (meaning duck projection)⟩ := by
  obtain ⟨r, hrun, rfl, hwhere, hpushed, hresidual⟩ :=
    pushdownCall_cases projection s.bind bind' filters rest h.nonempty hcall
  have hout : r.outWhere = clausesText (whereClauses s.bind.fields projection filters) :=
    outWhere_clauses s.bind.fields projection filters r hrun
  refine ⟨?_, ?_, hresidual, ?_⟩
  · rw [hwhere, hout, hs.whereText]
    exact (clausesText_append _ _).symm
  · intro row
    have hcovers : ∀ f ∈ filters,
        Covers s.bind.fields projection (soql row) (duck projection row) f :=
      fun f hf => covers_nested s.bind.fields projection (soql row) (duck projection row) f
        (h.leaves row f hf)
    have hlaw := residual_accepts_iff s.bind.fields projection (soql row) (duck projection row)
      filters r hcovers hrun
    have hfilters := presented_accepts soql duck s projection filters new h row
    have hold := hs.accepts row
    show (whereAccepts (soql row) (s.clauses ++ _) ∧
      ∀ e ∈ r.filters, duckTruth (duck projection row) e = .tt) ↔ _
    rw [whereAccepts_append, and_assoc, hlaw, List.forall_mem_append, List.forall_mem_map, ← hold,
      and_assoc]
    exact and_congr_right fun _ => hfilters
  · -- what leaves the list was presented before or is new
    obtain ⟨removed, hperm, hcount⟩ := hs.removed
    obtain ⟨old, hsame, hfilters⟩ := h.again
    obtain ⟨taken, htaken⟩ := pushdown_takes s.bind.fields projection filters r hrun
    refine ⟨removed ++ taken.map (meaning duck projection), ?_, ?_⟩
    · have hcall : (old ++ new).map (meaning duck projection) |>.Perm
          (taken.map (meaning duck projection) ++ r.filters.map (meaning duck projection)) := by
        rw [← List.map_append]
        exact (hfilters.symm.trans htaken).map _
      rw [List.map_append, hsame] at hcall
      have hall := hperm.append_right (new.map (meaning duck projection))
      rw [List.append_assoc] at hall
      rw [List.append_assoc]
      exact hall.trans (hcall.append_left removed)
    · have hlen := htaken.length_eq
      rw [List.length_append] at hlen
      show bind'.pushedFilterCount = _
      rw [hpushed, hcount, List.length_append, List.length_map]
      omega

theorem hookRun_inStep (start : PushdownBindData) (hwhere : start.pushedWhere = [])
    (hpushed : start.pushedFilterCount = 0) (hresidual : start.residualFilterCount = 0)
    (s : HookSession Row) (hrun : HookRun soql duck start s) : InStep soql duck s := by
  induction hrun with
  | start => exact inStep_start soql duck start hwhere hpushed hresidual
  | empty s projection bind' rest _ hcall ih =>
    rw [empty_call] at hcall
    cases hcall
    exact ih
  | filters s projection filters new bind' rest _ hpresents hcall ih =>
    exact inStep_call soql duck s projection filters new rest bind' ih hpresents hcall

theorem pushdown_calls_accumulate (start : PushdownBindData) (hwhere : start.pushedWhere = [])
    (hpushed : start.pushedFilterCount = 0) (hresidual : start.residualFilterCount = 0)
    (s : HookSession Row) (hrun : HookRun soql duck start s) :
    s.bind.pushedWhere = joinText " AND ".toList (s.clauses.map clauseText) ∧
      (∀ row, (whereAccepts (soql row) s.clauses ∧
          ∀ e ∈ s.residual, duckTruth (duck s.projection row) e = .tt) ↔
        ∀ f ∈ s.presented, f row = .tt) ∧
      s.bind.residualFilterCount = s.residual.length ∧
      (∃ removed, s.presented.Perm (removed ++ s.residual.map (meaning duck s.projection)) ∧
        s.bind.pushedFilterCount = removed.length) ∧
      ∀ projection, scanPushdownComplexFilter projection s.bind [] = .ok (s.bind, []) := by
  have h := hookRun_inStep soql duck start hwhere hpushed hresidual s hrun
  exact ⟨h.whereText, h.accepts, h.residualCount, h.removed, fun projection =>
    empty_call projection s.bind⟩

end Calls

/-! ### Two calls with an empty one between them -/

def amountStart : PushdownBindData :=
  ⟨⟨"Opportunity".toList, amountFields, [], [], 0, []⟩, 0, [], false⟩

/-- The filter left residual, and `Amount > 15`. -/
def amountLater : List Expr :=
  amountFilters.drop 1 ++
    [.comparison .compareGreaterThan (.columnRef 0) (.constant (wholeAmount 15 "15.0"))]

theorem amountLater_leaves (amount : Option ℤ) :
    ∀ f ∈ amountLater, ∀ e ∈ f.cond.leaves,
      Covers amountFields [0] (amountSoql amount) (amountDuck amount) e := by
  intro f hf e he
  rcases List.mem_append.mp hf with hf | hf
  · exact amount_leaves amount f (List.mem_of_mem_drop hf) e he
  · rw [List.mem_singleton.mp hf] at he
    rw [List.mem_singleton.mp he]
    intro c exact hc
    cases hc
    exact ⟨id, fun _ => id⟩

theorem amount_calls_accumulate :
    ∃ s, HookRun amountSoql (fun _ => amountDuck) amountStart s ∧
      s.bind.pushedWhere = ("Amount > 10.0 AND (Amount > 90.0 OR Amount IN (20.0)) AND ".toList ++
        "(Amount > 90.0 OR Amount IN (20.0)) AND Amount > 15.0".toList) ∧
      s.presented.length = 3 ∧ s.bind.residualFilterCount = s.residual.length ∧
      ∀ amount, (whereAccepts (amountSoql amount) s.clauses ∧
          ∀ e ∈ s.residual, duckTruth (amountDuck amount) e = .tt) ↔
        ∀ f ∈ s.presented, f amount = .tt := by
  have hfirst : Presents amountSoql (fun _ => amountDuck) ⟨amountStart, [], [], [], []⟩ [0]
      amountFilters amountFilters :=
    ⟨List.cons_ne_nil _ _, ⟨[], rfl, List.Perm.refl _⟩, amount_leaves⟩
  have hrun := HookRun.empty _ [] _ _
    (.filters _ [0] amountFilters amountFilters _ _ .start hfirst rfl) rfl
  have hnext := HookRun.filters _ [0] amountLater _ _ _ hrun
    ⟨List.cons_ne_nil _ _, ⟨amountFilters.drop 1, rfl, List.Perm.refl _⟩, amountLater_leaves⟩ rfl
  have h := pushdown_calls_accumulate amountSoql (fun _ => amountDuck) amountStart rfl rfl rfl _
    hnext
  exact ⟨_, hnext, rfl, rfl, h.2.2.1, h.2.1⟩

end DuckdbSalesforce
