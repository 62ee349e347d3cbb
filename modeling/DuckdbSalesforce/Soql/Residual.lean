import DuckdbSalesforce.Soql.Clause

/-!
# Residual safety of the pushdown

What `PushdownToSoql` does with a list of filters, and the law it is built on:
if every leaf clause covers its leaf, and an exact one matches it, then the
WHERE together with the filters left residual keeps the rows that the filters
keep.
-/

namespace DuckdbSalesforce
open ThreeValued

section Run
variable (fields : List SalesforceField) (projectionToField : List ℕ)

/-- The clause text and flag of a conjunct, when it is translated. -/
def pushedText (e : Expr) : Option (Text × Bool) :=
  match translateExpr fields projectionToField e with
  | .ok r => r
  | .error _ => none

def conjunctInfoOf (e : Expr) : PushdownConjunctInfo :=
  conjunctInfo (pushedText fields projectionToField e)

def removed (e : Expr) : Bool :=
  (conjunctInfoOf fields projectionToField e).translated &&
    (conjunctInfoOf fields projectionToField e).exact

/-- The WHERE before the length guard. -/
def joinedWhere (filters : List Expr) : Text :=
  joinText " AND ".toList
    (filters.filterMap fun e => (pushedText fields projectionToField e).map Prod.fst)

def overlong (filters : List Expr) : Bool :=
  decide ((joinedWhere fields projectionToField filters).length > kMaxWhereChars)

theorem mapM_translate (filters : List Expr) (rs : List (Option (Text × Bool)))
    (h : filters.mapM (translateExpr fields projectionToField) = .ok rs) :
    rs = filters.map (pushedText fields projectionToField) ∧
      ∀ e ∈ filters, translateExpr fields projectionToField e =
        .ok (pushedText fields projectionToField e) := by
  induction filters generalizing rs with
  | nil =>
    cases h
    exact ⟨rfl, by simp⟩
  | cons e es ih =>
    rw [List.mapM_cons] at h
    cases he : translateExpr fields projectionToField e with
    | error x => simp [he, bind, Except.bind] at h
    | ok o =>
      cases hes : es.mapM (translateExpr fields projectionToField) with
      | error x => simp [he, hes, bind, Except.bind] at h
      | ok os =>
        simp only [he, hes, bind, Except.bind, pure, Except.pure, Except.ok.injEq] at h
        obtain ⟨hos, hall⟩ := ih os hes
        have ho : pushedText fields projectionToField e = o := by simp [pushedText, he]
        refine ⟨by rw [← h, hos, List.map_cons, ho], ?_⟩
        intro d hd
        rcases List.mem_cons.mp hd with rfl | hd
        · rw [ho, he]
        · exact hall d hd

theorem filter_zip_map {α β : Type} (g : α → β) (p : β → Bool) (xs : List α) :
    ((xs.zip (xs.map g)).filter fun q => p q.2).map Prod.fst = xs.filter fun x => p (g x) := by
  induction xs with
  | nil => rfl
  | cons x xs ih =>
    simp only [List.map_cons, List.zip_cons_cons, List.filter_cons]
    by_cases hp : p (g x) = true
    · rw [if_pos hp, if_pos hp, List.map_cons, ih]
    · rw [if_neg hp, if_neg hp, ih]

/-- Everything a run of `PushdownToSoql` that does not throw can return. -/
theorem pushdown_run (filters : List Expr) (r : PushdownResult)
    (h : pushdownToSoql fields projectionToField filters = .ok r) :
    (∀ e ∈ filters, translateExpr fields projectionToField e =
        .ok (pushedText fields projectionToField e)) ∧
      r = if overlong fields projectionToField filters then
          ⟨[], filters, filters.map fun _ => ⟨false, false⟩⟩
        else
          ⟨joinedWhere fields projectionToField filters,
            filters.filter fun e => !removed fields projectionToField e,
            filters.map (conjunctInfoOf fields projectionToField)⟩ := by
  unfold pushdownToSoql at h
  cases hm : filters.mapM (translateExpr fields projectionToField) with
  | error x => simp [hm, bind, Except.bind] at h
  | ok rs =>
    obtain ⟨hrs, hall⟩ := mapM_translate fields projectionToField filters rs hm
    refine ⟨hall, ?_⟩
    have hjoin : joinText " AND ".toList (rs.filterMap fun r => r.map Prod.fst) =
        joinedWhere fields projectionToField filters := by
      rw [hrs, List.filterMap_map]
      rfl
    have hinfo : rs.map conjunctInfo = filters.map (conjunctInfoOf fields projectionToField) := by
      rw [hrs, List.map_map]
      rfl
    have hrest : (((filters.zip (rs.map conjunctInfo)).filter fun p =>
        !(p.2.translated && p.2.exact)).map Prod.fst) =
          filters.filter fun e => !removed fields projectionToField e := by
      rw [hinfo]
      exact filter_zip_map (conjunctInfoOf fields projectionToField)
        (fun i => !(i.translated && i.exact)) filters
    simp only [hm, bind, Except.bind, hjoin] at h
    by_cases hlong : (joinedWhere fields projectionToField filters).length > kMaxWhereChars
    · rw [if_pos hlong] at h
      cases h
      simp [overlong, hlong]
    · rw [if_neg hlong, hrest, hinfo] at h
      cases h
      simp [overlong, hlong]

/-! ### The clauses of the WHERE -/

def pushedClause (e : Expr) : Option (Clause × Bool) :=
  match clauseOf fields projectionToField e with
  | .ok r => r
  | .error _ => none

theorem pushedText_written (e : Expr) :
    pushedText fields projectionToField e =
      (pushedClause fields projectionToField e).map written := by
  unfold pushedText pushedClause
  rw [translateExpr_written]
  cases clauseOf fields projectionToField e with
  | error x => rfl
  | ok r => rfl

/-- The conditions that the emitted WHERE joins with AND. -/
def whereClauses (filters : List Expr) : List Clause :=
  if overlong fields projectionToField filters then []
  else filters.filterMap fun e => (pushedClause fields projectionToField e).map Prod.fst

theorem joinedWhere_clauses (filters : List Expr) :
    joinedWhere fields projectionToField filters =
      joinText " AND ".toList ((filters.filterMap fun e =>
        (pushedClause fields projectionToField e).map Prod.fst).map clauseText) := by
  unfold joinedWhere
  congr 1
  rw [List.map_filterMap]
  congr 1
  funext e
  rw [pushedText_written]
  cases pushedClause fields projectionToField e with
  | none => rfl
  | some p => rfl

theorem outWhere_clauses (filters : List Expr) (r : PushdownResult)
    (h : pushdownToSoql fields projectionToField filters = .ok r) :
    r.outWhere =
      joinText " AND ".toList ((whereClauses fields projectionToField filters).map clauseText) := by
  obtain ⟨_, hr⟩ := pushdown_run fields projectionToField filters r h
  rw [hr]
  unfold whereClauses
  by_cases hlong : overlong fields projectionToField filters = true
  · rw [if_pos hlong, if_pos hlong]
    rfl
  · rw [if_neg hlong, if_neg hlong]
    exact joinedWhere_clauses fields projectionToField filters

end Run

/-! ### Soundness of nested conditions -/

section Soundness
variable (fields : List SalesforceField) (projectionToField : List ℕ)
variable (soql : Predicate → Truth) (duck : Expr → Truth)

/-- The clause of a filter, when there is one, is true wherever the filter is,
and nowhere else when it is flagged exact. -/
def Covers (e : Expr) : Prop :=
  ∀ c exact, clauseOf fields projectionToField e = .ok (some (c, exact)) →
    (duckTruth duck e = .tt → c.eval soql = .tt) ∧
    (exact = true → c.eval soql = .tt → duckTruth duck e = .tt)

theorem clausesOf_cons (e : Expr) (es : List Expr) (ps : List (Clause × Bool))
    (h : clausesOf fields projectionToField (e :: es) = .ok (some ps)) :
    ∃ p rest, ps = p :: rest ∧ clauseOf fields projectionToField e = .ok (some p) ∧
      clausesOf fields projectionToField es = .ok (some rest) := by
  rw [clausesOf] at h
  cases he : clauseOf fields projectionToField e with
  | error x => simp [he, bind, Except.bind] at h
  | ok o =>
    cases o with
    | none => simp [he, bind, Except.bind] at h
    | some p =>
      cases hes : clausesOf fields projectionToField es with
      | error x => simp [he, hes, bind, Except.bind] at h
      | ok os =>
        cases os with
        | none => simp [he, hes, bind, Except.bind] at h
        | some rest =>
          simp only [he, hes, bind, Except.bind, Except.ok.injEq, Option.some.injEq] at h
          exact ⟨p, rest, h.symm, rfl, rfl⟩

theorem clausesOf_forall (es : List Expr) (ps : List (Clause × Bool))
    (h : clausesOf fields projectionToField es = .ok (some ps)) :
    List.Forall₂ (fun e p => clauseOf fields projectionToField e = .ok (some p)) es ps := by
  induction es generalizing ps with
  | nil =>
    simp only [clausesOf, Except.ok.injEq, Option.some.injEq] at h
    rw [← h]
    exact .nil
  | cons e es ih =>
    obtain ⟨p, rest, rfl, hp, hrest⟩ := clausesOf_cons fields projectionToField e es ps h
    exact .cons hp (ih rest hrest)

theorem clauseOf_conjunction (t : ExpressionType) (es : List Expr) (c : Clause) (exact : Bool)
    (h : clauseOf fields projectionToField (.conjunction t es) = .ok (some (c, exact))) :
    ∃ ps, List.Forall₂ (fun e p => clauseOf fields projectionToField e = .ok (some p)) es ps ∧
      ((t = .conjunctionOr ∧ c = .any (ps.map Prod.fst) ∧ exact = false) ∨
        (t = .conjunctionAnd ∧ c = .all (ps.map Prod.fst) ∧ exact = ps.all Prod.snd)) := by
  rw [clauseOf] at h
  by_cases ht : t = .conjunctionOr ∨ t = .conjunctionAnd
  · rw [if_pos ht] at h
    cases hes : clausesOf fields projectionToField es with
    | error x => simp [hes, bind, Except.bind] at h
    | ok os =>
      cases os with
      | none => simp [hes, bind, Except.bind] at h
      | some ps =>
        refine ⟨ps, clausesOf_forall fields projectionToField es ps hes, ?_⟩
        simp only [hes, bind, Except.bind, Except.ok.injEq, Option.some.injEq, Prod.mk.injEq] at h
        rcases ht with rfl | rfl
        · exact Or.inl ⟨rfl, by simpa using h.1.symm, by simpa using h.2.symm⟩
        · exact Or.inr ⟨rfl, by simpa using h.1.symm, by simpa using h.2.symm⟩
  · rw [if_neg ht] at h
    simp at h

theorem covers_all (es : List Expr) (ps : List (Clause × Bool))
    (h : List.Forall₂ (fun e p => clauseOf fields projectionToField e = .ok (some p)) es ps)
    (hc : ∀ e ∈ es, Covers fields projectionToField soql duck e) :
    ((∀ e ∈ es, duckTruth duck e = .tt) → ∀ c ∈ ps.map Prod.fst, c.eval soql = .tt) ∧
    (ps.all Prod.snd = true → (∀ c ∈ ps.map Prod.fst, c.eval soql = .tt) →
      ∀ e ∈ es, duckTruth duck e = .tt) := by
  induction h with
  | nil => simp
  | @cons e p es ps hp _ ih =>
    obtain ⟨hsuper, hexact⟩ := hc e (List.mem_cons_self ..) p.1 p.2 hp
    obtain ⟨ihsuper, ihexact⟩ := ih fun d hd => hc d (List.mem_cons_of_mem _ hd)
    simp only [List.map_cons, List.forall_mem_cons, List.all_cons, Bool.and_eq_true]
    exact ⟨fun hd => ⟨hsuper hd.1, ihsuper hd.2⟩,
      fun hx hd => ⟨hexact hx.1 hd.1, ihexact hx.2 hd.2⟩⟩

theorem covers_any (es : List Expr) (ps : List (Clause × Bool))
    (h : List.Forall₂ (fun e p => clauseOf fields projectionToField e = .ok (some p)) es ps)
    (hc : ∀ e ∈ es, Covers fields projectionToField soql duck e)
    (hd : ∃ e ∈ es, duckTruth duck e = .tt) : ∃ c ∈ ps.map Prod.fst, c.eval soql = .tt := by
  induction h with
  | nil => simp at hd
  | @cons e p es ps hp _ ih =>
    have hsuper := (hc e (List.mem_cons_self ..) p.1 p.2 hp).1
    rw [List.exists_mem_cons_iff] at hd
    rw [List.map_cons, List.exists_mem_cons_iff]
    rcases hd with hd | hd
    · exact Or.inl (hsuper hd)
    · exact Or.inr (ih (fun d hmem => hc d (List.mem_cons_of_mem _ hmem)) hd)

/-- Nesting keeps the law: OR loses exactness, AND keeps it when every child
has it, and both stay supersets. -/
theorem covers_nested (e : Expr)
    (hleaf : ∀ l ∈ e.cond.leaves, Covers fields projectionToField soql duck l) :
    Covers fields projectionToField soql duck e := by
  induction e using Expr.conjInduct with
  | leaf e h =>
    apply hleaf e
    rw [Expr.cond_leaf e h, Cond.leaves]
    exact List.mem_singleton_self e
  | conjunction t es ih =>
    intro c exact hclause
    obtain ⟨ps, hps, hcase⟩ := clauseOf_conjunction fields projectionToField t es c exact hclause
    have hchild : ∀ (kind : List (Cond Expr) → Cond Expr),
        (∀ b cs, b ∈ Cond.leavesList cs → b ∈ (kind cs).leaves) →
        (Expr.conjunction t es).cond = kind (Expr.condList es) →
        ∀ e ∈ es, Covers fields projectionToField soql duck e := by
      intro kind hkind hcond e he
      refine ih e he fun l hl => hleaf l ?_
      rw [hcond]
      refine hkind l _ ((Cond.mem_leavesList l _).mpr ⟨e.cond, ?_, hl⟩)
      rw [Expr.condList_eq]
      exact List.mem_map_of_mem he
    rcases hcase with ⟨rfl, rfl, rfl⟩ | ⟨rfl, rfl, rfl⟩
    · have hes := hchild Cond.any (fun b cs hb => by rwa [Cond.leaves]) rfl
      refine ⟨?_, by simp⟩
      intro hd
      have hd' : ∃ e ∈ es, duckTruth duck e = .tt := by
        simpa [duckTruth, Expr.cond, Expr.condList_eq] using hd
      rw [Cond.eval_any_eq_tt]
      exact covers_any fields projectionToField soql duck es ps hps hes hd'
    · have hes := hchild Cond.all (fun b cs hb => by rwa [Cond.leaves]) rfl
      obtain ⟨hsuper, hexact⟩ := covers_all fields projectionToField soql duck es ps hps hes
      have hall : duckTruth duck (.conjunction .conjunctionAnd es) = .tt ↔
          ∀ e ∈ es, duckTruth duck e = .tt := by
        simp [duckTruth, Expr.cond, Expr.condList_eq]
      rw [Cond.eval_all_eq_tt, hall]
      exact ⟨hsuper, hexact⟩

theorem pushedClause_of_ok (e : Expr) (p : Clause × Bool)
    (hok : translateExpr fields projectionToField e = .ok (pushedText fields projectionToField e))
    (hp : pushedClause fields projectionToField e = some p) :
    clauseOf fields projectionToField e = .ok (some p) := by
  rw [translateExpr_written] at hok
  unfold pushedClause at hp
  cases hc : clauseOf fields projectionToField e with
  | error x => simp [hc, Except.map] at hok
  | ok o =>
    rw [hc] at hp
    simp only at hp
    rw [hp]

theorem removed_iff (e : Expr) :
    removed fields projectionToField e = true ↔
      ∃ c, pushedClause fields projectionToField e = some (c, true) := by
  unfold removed conjunctInfoOf
  rw [pushedText_written]
  cases pushedClause fields projectionToField e with
  | none => simp [conjunctInfo]
  | some p =>
    obtain ⟨c, x⟩ := p
    simp [conjunctInfo, written]

end Soundness

def whereAccepts (soql : Predicate → Truth) (clauses : List Clause) : Prop :=
  (Cond.all clauses).eval soql = .tt

section Law
variable (fields : List SalesforceField) (projectionToField : List ℕ)
variable (soql : Predicate → Truth) (duck : Expr → Truth)
variable (filters : List Expr) (r : PushdownResult)

theorem where_superset
    (hcovers : ∀ f ∈ filters, Covers fields projectionToField soql duck f)
    (hrun : pushdownToSoql fields projectionToField filters = .ok r)
    (hall : ∀ e ∈ filters, duckTruth duck e = .tt) :
    whereAccepts soql (whereClauses fields projectionToField filters) := by
  obtain ⟨hok, _⟩ := pushdown_run fields projectionToField filters r hrun
  unfold whereAccepts whereClauses
  rw [Cond.eval_all_eq_tt]
  intro c hc
  split at hc
  · cases hc
  · obtain ⟨e, he, hec⟩ := List.mem_filterMap.mp hc
    obtain ⟨p, hp, rfl⟩ := Option.map_eq_some_iff.mp hec
    have hclause := pushedClause_of_ok fields projectionToField e p (hok e he) hp
    exact (hcovers e he p.1 p.2 hclause).1 (hall e he)

theorem residual_accepts_iff
    (hcovers : ∀ f ∈ filters, Covers fields projectionToField soql duck f)
    (hrun : pushdownToSoql fields projectionToField filters = .ok r) :
    (whereAccepts soql (whereClauses fields projectionToField filters) ∧
        ∀ e ∈ r.filters, duckTruth duck e = .tt) ↔ ∀ e ∈ filters, duckTruth duck e = .tt := by
  obtain ⟨hok, hr⟩ := pushdown_run fields projectionToField filters r hrun
  refine ⟨?_, ?_⟩
  · intro ⟨hwhere, hrest⟩ e he
    by_cases hlong : overlong fields projectionToField filters = true
    · rw [if_pos hlong] at hr
      rw [hr] at hrest
      exact hrest e he
    · rw [if_neg hlong] at hr
      rw [hr] at hrest
      by_cases hrem : removed fields projectionToField e = true
      · obtain ⟨c, hc⟩ := (removed_iff fields projectionToField e).mp hrem
        have hclause := pushedClause_of_ok fields projectionToField e _ (hok e he) hc
        refine (hcovers e he c true hclause).2 rfl ?_
        unfold whereAccepts whereClauses at hwhere
        rw [if_neg hlong, Cond.eval_all_eq_tt] at hwhere
        exact hwhere c (List.mem_filterMap.mpr ⟨e, he, by rw [hc]; rfl⟩)
      · exact hrest e (List.mem_filter.mpr ⟨he, by simpa using hrem⟩)
  · intro hall
    refine ⟨where_superset fields projectionToField soql duck filters r hcovers hrun hall, ?_⟩
    intro e he
    rw [hr] at he
    split at he
    · exact hall e he
    · exact hall e (List.mem_filter.mp he).1

end Law

theorem pushdown_residual_safe {Row : Type} (fields : List SalesforceField)
    (projectionToField : List ℕ) (soql : Row → Predicate → Truth) (duck : Row → Expr → Truth)
    (filters : List Expr) (r : PushdownResult)
    (hleaf : ∀ row, ∀ f ∈ filters, ∀ e ∈ f.cond.leaves,
      Covers fields projectionToField (soql row) (duck row) e)
    (hrun : pushdownToSoql fields projectionToField filters = .ok r) :
    r.outWhere = joinText " AND ".toList
        ((whereClauses fields projectionToField filters).map clauseText) ∧
      (∀ row, (whereAccepts (soql row) (whereClauses fields projectionToField filters) ∧
          ∀ e ∈ r.filters, duckTruth (duck row) e = .tt) ↔
        ∀ e ∈ filters, duckTruth (duck row) e = .tt) ∧
      (∀ row, (∀ e ∈ filters, duckTruth (duck row) e = .tt) →
        whereAccepts (soql row) (whereClauses fields projectionToField filters)) ∧
      (if (joinedWhere fields projectionToField filters).length > kMaxWhereChars then
        r = ⟨[], filters, filters.map fun _ => ⟨false, false⟩⟩
      else
        r.outWhere = joinedWhere fields projectionToField filters ∧
        r.info = filters.map (conjunctInfoOf fields projectionToField) ∧
        r.filters = filters.filter fun e => !removed fields projectionToField e) := by
  obtain ⟨_, hr⟩ := pushdown_run fields projectionToField filters r hrun
  have hcovers : ∀ row, ∀ f ∈ filters, Covers fields projectionToField (soql row) (duck row) f :=
    fun row f hf => covers_nested fields projectionToField (soql row) (duck row) f (hleaf row f hf)
  refine ⟨outWhere_clauses fields projectionToField filters r hrun, ?_, ?_, ?_⟩
  · intro row
    exact residual_accepts_iff fields projectionToField (soql row) (duck row) filters r
      (hcovers row) hrun
  · intro row
    exact where_superset fields projectionToField (soql row) (duck row) filters r (hcovers row) hrun
  · rw [hr]
    unfold overlong
    by_cases hlong : (joinedWhere fields projectionToField filters).length > kMaxWhereChars
    · simp [hlong]
    · simp [hlong]

/-! ### A number column and its filters -/

def amountFields : List SalesforceField := [.flat "Amount".toList "currency".toList .double true true]

def wholeAmount (n : ℤ) (str : String) : Value := .scalar .double n str.toList

/-- `Amount > 10` is exact; the OR with an IN item is a superset. -/
def amountFilters : List Expr :=
  [.comparison .compareGreaterThan (.columnRef 0) (.constant (wholeAmount 10 "10.0")),
    .conjunction .conjunctionOr
      [.comparison .compareLessThan (.constant (wholeAmount 90 "90.0")) (.columnRef 0),
        .operator .compareIn [.columnRef 0, .constant (wholeAmount 20 "20.0")]]]

def amountHolds (amount : Option ℤ) (p : ℤ → Bool) : Truth :=
  match amount with
  | none => .unknown
  | some n => .ofBool (p n)

/-- The service rounds the items of IN, so that it accepts more rows. -/
def amountSoql (amount : Option ℤ) : Predicate → Truth
  | .compare _ .gt (.scalar _ k _) => amountHolds amount fun n => decide (k < n)
  | .inList _ [.scalar _ k _] => amountHolds amount fun n => decide (k ≤ n ∧ n ≤ k + 1)
  | _ => .unknown

def amountDuck (amount : Option ℤ) : Expr → Truth
  | .comparison .compareGreaterThan _ (.constant (.scalar _ k _)) =>
    amountHolds amount fun n => decide (k < n)
  | .comparison .compareLessThan (.constant (.scalar _ k _)) _ =>
    amountHolds amount fun n => decide (k < n)
  | .operator .compareIn [_, .constant (.scalar _ k _)] =>
    amountHolds amount fun n => decide (n = k)
  | _ => .unknown

theorem amount_leaves (amount : Option ℤ) :
    ∀ f ∈ amountFilters, ∀ e ∈ f.cond.leaves,
      Covers amountFields [0] (amountSoql amount) (amountDuck amount) e := by
  have hgt : Covers amountFields [0] (amountSoql amount) (amountDuck amount)
      (.comparison .compareGreaterThan (.columnRef 0) (.constant (wholeAmount 10 "10.0"))) := by
    intro c exact hc
    cases hc
    exact ⟨id, fun _ => id⟩
  have hlt : Covers amountFields [0] (amountSoql amount) (amountDuck amount)
      (.comparison .compareLessThan (.constant (wholeAmount 90 "90.0")) (.columnRef 0)) := by
    intro c exact hc
    cases hc
    exact ⟨id, fun _ => id⟩
  have hin : Covers amountFields [0] (amountSoql amount) (amountDuck amount)
      (.operator .compareIn [.columnRef 0, .constant (wholeAmount 20 "20.0")]) := by
    intro c exact hc
    cases hc
    refine ⟨?_, by simp⟩
    cases amount with
    | none => exact id
    | some n =>
      show Truth.ofBool (decide (n = 20)) = .tt →
        Truth.ofBool (decide (20 ≤ n ∧ n ≤ 20 + 1)) = .tt
      simp only [Truth.ofBool_eq_tt, decide_eq_true_eq]
      omega
  intro f hf e he
  rcases List.mem_cons.mp hf with rfl | hf
  · rw [List.mem_singleton.mp he]
    exact hgt
  · rw [List.mem_singleton.mp hf] at he
    rcases List.mem_cons.mp he with rfl | he
    · exact hlt
    · rw [List.mem_singleton.mp he]
      exact hin

theorem amount_residual_safe :
    ∃ r, pushdownToSoql amountFields [0] amountFilters = .ok r ∧
      r.outWhere = "Amount > 10.0 AND (Amount > 90.0 OR Amount IN (20.0))".toList ∧
      ∀ amount, (whereAccepts (amountSoql amount) (whereClauses amountFields [0] amountFilters) ∧
          ∀ e ∈ r.filters, duckTruth (amountDuck amount) e = .tt) ↔
        ∀ e ∈ amountFilters, duckTruth (amountDuck amount) e = .tt :=
  ⟨_, rfl, rfl, (pushdown_residual_safe amountFields [0] amountSoql amountDuck amountFilters _
    amount_leaves rfl).2.1⟩

end DuckdbSalesforce
