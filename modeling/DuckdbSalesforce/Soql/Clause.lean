import DuckdbSalesforce.Soql.Translate

/-!
# What a clause means

The pushdown builds text. Here the same decisions build the condition that the
text stands for, and the text is shown to be the written form of that
condition; semantics and parsing are then statements about conditions.
-/

namespace DuckdbSalesforce
open ThreeValued

inductive CompareOp where
  | eq
  | ne
  | lt
  | gt
  | le
  | ge
  deriving DecidableEq, Repr

def CompareOp.text : CompareOp → Text
  | .eq => "=".toList
  | .ne => "!=".toList
  | .lt => "<".toList
  | .gt => ">".toList
  | .le => "<=".toList
  | .ge => ">=".toList

def CompareOp.holds {α : Type} [LinearOrder α] (op : CompareOp) (a b : α) : Bool :=
  match op with
  | .eq => decide (a = b)
  | .ne => decide (a ≠ b)
  | .lt => decide (a < b)
  | .gt => decide (b < a)
  | .le => decide (a ≤ b)
  | .ge => decide (b ≤ a)

def compareOp : ExpressionType → Option CompareOp
  | .compareEqual => some .eq
  | .compareNotEqual => some .ne
  | .compareLessThan => some .lt
  | .compareGreaterThan => some .gt
  | .compareLessThanOrEqualTo => some .le
  | .compareGreaterThanOrEqualTo => some .ge
  | _ => none

theorem comparisonOp_text (t : ExpressionType) :
    comparisonOp t = (compareOp t).map CompareOp.text := by
  cases t <;> rfl

/-- One SOQL predicate. `field = null` is a comparison with a null constant. -/
inductive Predicate where
  | compare (field : Text) (op : CompareOp) (v : Value)
  | inList (field : Text) (vs : List Value)
  | like (field pattern : Text)
  deriving DecidableEq, Repr

abbrev Clause := Cond Predicate

def literalText (v : Value) : Text := (soqlLiteral v).getD []

def Predicate.text : Predicate → Text
  | .compare field op v => field ++ " ".toList ++ op.text ++ " ".toList ++ literalText v
  | .inList field vs =>
    field ++ " IN (".toList ++ joinText ", ".toList (vs.map literalText) ++ ")".toList
  | .like field pattern => field ++ " LIKE ".toList ++ soqlString pattern

mutual
/-- The written form of a clause: every conjunction in parentheses. -/
def clauseText : Clause → Text
  | .leaf p => p.text
  | .all cs => "(".toList ++ joinText " AND ".toList (clauseTexts cs) ++ ")".toList
  | .any cs => "(".toList ++ joinText " OR ".toList (clauseTexts cs) ++ ")".toList
  | .neg c => "(NOT ".toList ++ clauseText c ++ ")".toList

def clauseTexts : List Clause → List Text
  | [] => []
  | c :: cs => clauseText c :: clauseTexts cs
end

theorem clauseText_leaf (p : Predicate) : clauseText (.leaf p) = p.text := rfl

theorem clauseText_all (cs : List Clause) :
    clauseText (.all cs) = "(".toList ++ joinText " AND ".toList (clauseTexts cs) ++ ")".toList :=
  rfl

theorem clauseText_any (cs : List Clause) :
    clauseText (.any cs) = "(".toList ++ joinText " OR ".toList (clauseTexts cs) ++ ")".toList :=
  rfl

theorem clauseText_neg (c : Clause) :
    clauseText (.neg c) = "(NOT ".toList ++ clauseText c ++ ")".toList :=
  rfl

theorem clauseTexts_eq (cs : List Clause) : clauseTexts cs = cs.map clauseText := by
  induction cs with
  | nil => rfl
  | cons c cs ih => rw [clauseTexts, ih, List.map_cons]

def inValues : List Expr → Option (List Value)
  | [] => some []
  | e :: es =>
    match constantOf e with
    | none => none
    | some v => if (soqlLiteral v).isSome then (inValues es).map fun vs => v :: vs else none

theorem inItems_values (es : List Expr) :
    inItems es = (inValues es).map fun vs => (vs, vs.map literalText) := by
  induction es with
  | nil => rfl
  | cons e es ih =>
    simp only [inItems, inValues]
    cases constantOf e with
    | none => rfl
    | some v =>
      cases hl : soqlLiteral v with
      | none => simp [hl]
      | some lit =>
        rw [ih]
        cases inValues es with
        | none => simp [hl]
        | some vs => simp [literalText, hl]

section Clauses
variable (fields : List SalesforceField) (projectionToField : List ℕ)

def comparisonClause (etype : ExpressionType) (l r : Expr) :
    Except BinderException (Option (Clause × Bool)) :=
  match comparisonOperands fields projectionToField etype l r with
  | none => .ok none
  | some (field, cmp, v) =>
    match compareOp cmp with
    | none => .ok none
    | some op => do
      if cmp = .compareEqual ∨ cmp = .compareNotEqual then
        checkIdLiterals fields field [v]
      if (soqlLiteral v).isSome then .ok (some (.leaf (.compare field op v), true)) else .ok none

def betweenClause (input lower upper : Expr) (loInc hiInc : Bool) : Option (Clause × Bool) :=
  match fieldFor fields projectionToField input, constantOf lower, constantOf upper with
  | some field, some loVal, some hiVal =>
    if loVal.isNull ∨ hiVal.isNull then none
    else if (soqlLiteral loVal).isSome ∧ (soqlLiteral hiVal).isSome then
      some (.all [.leaf (.compare field (if loInc then .ge else .gt) loVal),
        .leaf (.compare field (if hiInc then .le else .lt) hiVal)], true)
    else none
  | _, _, _ => none

def nullTestClause (etype : ExpressionType) (children : List Expr) : Option (Clause × Bool) :=
  match children with
  | [c] =>
    (fieldFor fields projectionToField c).map fun field =>
      (.leaf (.compare field (if etype = .operatorIsNull then .eq else .ne) (.null .other)), true)
  | _ => none

def inClause (children : List Expr) : Except BinderException (Option (Clause × Bool)) :=
  match children with
  | c :: d :: items =>
    match fieldFor fields projectionToField c with
    | none => .ok none
    | some field =>
      if (d :: items).length > kMaxInItems then .ok none
      else
        match inValues (d :: items) with
        | none => .ok none
        | some values => do
          checkIdLiterals fields field values
          .ok (some (.leaf (.inList field values), false))
  | _ => .ok none

def likeClause (fn : Text) (children : List Expr) : Option (Clause × Bool) :=
  match children with
  | [c, d] =>
    match fieldFor fields projectionToField c, d with
    | some field, .constant (.varchar sub) =>
      (likePattern fn sub).map fun pattern => (.leaf (.like field pattern), false)
    | _, _ => none
  | _ => none

mutual
def clauseOf : Expr → Except BinderException (Option (Clause × Bool))
  | .comparison etype l r => comparisonClause fields projectionToField etype l r
  | .between input lower upper loInc hiInc =>
    .ok (betweenClause fields projectionToField input lower upper loInc hiInc)
  | .operator etype children =>
    if etype = .operatorIsNull ∨ etype = .operatorIsNotNull then
      .ok (nullTestClause fields projectionToField etype children)
    else if etype = .compareIn then inClause fields projectionToField children
    else .ok none
  | .function fn children => .ok (likeClause fields projectionToField fn children)
  | .conjunction etype children =>
    if etype = .conjunctionOr ∨ etype = .conjunctionAnd then do
      match ← clausesOf children with
      | none => .ok none
      | some cs =>
        .ok (some (if etype = .conjunctionOr then .any (cs.map Prod.fst) else .all (cs.map Prod.fst),
          decide (etype = .conjunctionAnd) && cs.all Prod.snd))
    else .ok none
  | .columnRef _ => .ok none
  | .constant _ => .ok none
  | .other _ _ => .ok none

def clausesOf : List Expr → Except BinderException (Option (List (Clause × Bool)))
  | [] => .ok (some [])
  | c :: cs => do
    match ← clauseOf c with
    | none => .ok none
    | some p =>
      match ← clausesOf cs with
      | none => .ok none
      | some ps => .ok (some (p :: ps))
end

/-- The text and flag that a clause is written as. -/
def written (p : Clause × Bool) : Text × Bool := (clauseText p.1, p.2)

theorem comparison_written (etype : ExpressionType) (l r : Expr) :
    translateComparison fields projectionToField etype l r =
      (comparisonClause fields projectionToField etype l r).map (Option.map written) := by
  unfold translateComparison comparisonClause
  cases comparisonOperands fields projectionToField etype l r with
  | none => rfl
  | some p =>
    obtain ⟨field, cmp, v⟩ := p
    simp only [comparisonOp_text]
    cases compareOp cmp with
    | none => rfl
    | some op =>
      have hlit : (match soqlLiteral v with
          | none => Except.ok none
          | some lit =>
            Except.ok (some (field ++ " ".toList ++ op.text ++ " ".toList ++ lit, true)) :
          Except BinderException (Option (Text × Bool))) =
          (if (soqlLiteral v).isSome then
            Except.ok (some (Cond.leaf (Predicate.compare field op v), true))
          else Except.ok none).map (Option.map written) := by
        cases hl : soqlLiteral v with
        | none => rfl
        | some lit => simp [written, clauseText_leaf, Predicate.text, literalText, hl, Except.map]
      simp only [Option.map_some]
      split
      · cases checkIdLiterals fields field [v] with
        | error e => rfl
        | ok u => exact hlit
      · exact hlit

theorem between_written (input lower upper : Expr) (loInc hiInc : Bool) :
    translateBetween fields projectionToField input lower upper loInc hiInc =
      .ok ((betweenClause fields projectionToField input lower upper loInc hiInc).map written) := by
  unfold translateBetween betweenClause
  cases fieldFor fields projectionToField input with
  | none => rfl
  | some field =>
    cases constantOf lower with
    | none => rfl
    | some lo =>
      cases constantOf upper with
      | none => rfl
      | some hi =>
        simp only
        split
        · rfl
        · cases hlo : soqlLiteral lo with
          | none => rfl
          | some a =>
            cases hhi : soqlLiteral hi with
            | none => rfl
            | some b =>
              cases loInc <;> cases hiInc <;>
                simp [written, clauseText_leaf, clauseText_all, clauseTexts, joinText,
                  Predicate.text, literalText, hlo, hhi, CompareOp.text]

theorem operator_written (etype : ExpressionType) (children : List Expr) :
    translateOperator fields projectionToField etype children =
      (clauseOf fields projectionToField (.operator etype children)).map (Option.map written) := by
  unfold translateOperator clauseOf
  by_cases hnull : etype = .operatorIsNull ∨ etype = .operatorIsNotNull
  · simp only [hnull, if_true]
    match children with
    | [] => rfl
    | [c] =>
      cases hf : fieldFor fields projectionToField c with
      | none => simp [nullTestClause, hf, Except.map]
      | some field =>
        rcases hnull with rfl | rfl
        · simp [nullTestClause, hf, Except.map, written, clauseText_leaf, Predicate.text, literalText,
            soqlLiteral, CompareOp.text]
        · simp [nullTestClause, hf, Except.map, written, clauseText_leaf, Predicate.text, literalText,
            soqlLiteral, CompareOp.text]
    | _ :: _ :: _ => rfl
  · simp only [hnull, if_false]
    by_cases hin : etype = .compareIn
    · simp only [hin, if_true]
      match children with
      | [] => rfl
      | [_] => rfl
      | c :: d :: items =>
        simp only [inClause]
        cases hf : fieldFor fields projectionToField c with
        | none => rfl
        | some field =>
          simp only
          split
          · rfl
          · rw [inItems_values]
            cases inValues (d :: items) with
            | none => rfl
            | some vs =>
              simp only [Option.map_some]
              cases checkIdLiterals fields field vs with
              | error e => rfl
              | ok u => rfl
    · simp only [hin, if_false]
      rfl

theorem function_written (fn : Text) (children : List Expr) :
    translateFunction fields projectionToField fn children =
      .ok ((likeClause fields projectionToField fn children).map written) := by
  unfold translateFunction likeClause
  match children with
  | [] => rfl
  | [_] => rfl
  | [c, d] =>
    simp only
    cases fieldFor fields projectionToField c with
    | none => rfl
    | some field =>
      cases d with
      | constant v =>
        cases v with
        | varchar sub =>
          simp only
          cases likePattern fn sub with
          | none => rfl
          | some pattern => rfl
        | null _ | boolean _ | scalar _ _ _ => rfl
      | columnRef _ | comparison _ _ _ | between _ _ _ _ _ | operator _ _ | function _ _
      | conjunction _ _ | other _ _ => rfl
  | _ :: _ :: _ :: _ => rfl

theorem children_written (etype : ExpressionType) (children : List Expr)
    (ih : ∀ c ∈ children, translateExpr fields projectionToField c =
      (clauseOf fields projectionToField c).map (Option.map written))
    (k : ℕ) (combined : Text) (allExact : Bool) (hk : k = 0 → combined = []) :
    translateChildren fields projectionToField etype children k combined allExact =
      (clausesOf fields projectionToField children).map (Option.map fun cs =>
        (if k = 0 then joinText (conjunctionSep etype) (cs.map fun p => clauseText p.1)
          else joinText (conjunctionSep etype) (combined :: cs.map fun p => clauseText p.1),
          allExact && cs.all Prod.snd)) := by
  induction children generalizing k combined allExact with
  | nil =>
    cases k with
    | zero => simp [translateChildren, clausesOf, Except.map, joinText, hk]
    | succ k => simp [translateChildren, clausesOf, Except.map, joinText]
  | cons c cs ihcs =>
    rw [translateChildren, clausesOf, ih c (List.mem_cons_self ..)]
    cases clauseOf fields projectionToField c with
    | error e => rfl
    | ok r =>
      cases r with
      | none => rfl
      | some p =>
        have hrest := ihcs (fun d hd => ih d (List.mem_cons_of_mem _ hd)) (k + 1)
          (combined ++ (if k > 0 then conjunctionSep etype else []) ++ clauseText p.1)
          (allExact && p.2) (by omega)
        show translateChildren fields projectionToField etype cs (k + 1)
          (combined ++ (if k > 0 then conjunctionSep etype else []) ++ clauseText p.1)
          (allExact && p.2) = _
        rw [hrest]
        show _ = Except.map _ ((clausesOf fields projectionToField cs) >>= fun r => match r with
          | none => Except.ok none
          | some ps => Except.ok (some (p :: ps)))
        cases clausesOf fields projectionToField cs with
        | error e => rfl
        | ok r =>
          cases r with
          | none => rfl
          | some ps =>
            cases k with
            | zero =>
              have hc : combined = [] := hk rfl
              subst hc
              simp [Except.map, bind, Except.bind, Bool.and_assoc]
            | succ k =>
              have hjoin := joinText_loop (conjunctionSep etype) combined (clauseText p.1)
                (ps.map fun p => clauseText p.1)
              rw [List.append_assoc] at hjoin
              simp [Except.map, bind, Except.bind, Bool.and_assoc, joinText_cons, hjoin]

/-- The code writes exactly the clause of the expression, with its flag. -/
theorem translateExpr_written (e : Expr) :
    translateExpr fields projectionToField e =
      (clauseOf fields projectionToField e).map (Option.map written) := by
  induction e using Expr.conjInduct with
  | conjunction etype children ih =>
    rw [translateExpr, clauseOf]
    by_cases ht : etype = .conjunctionOr ∨ etype = .conjunctionAnd
    · rw [if_pos ht, if_pos ht,
        children_written fields projectionToField etype children ih 0 [] true (fun _ => rfl)]
      cases clausesOf fields projectionToField children with
      | error e => rfl
      | ok r =>
        cases r with
        | none => rfl
        | some cs =>
          have htexts : clauseTexts (cs.map Prod.fst) = cs.map fun p => clauseText p.1 := by
            rw [clauseTexts_eq, List.map_map]
            rfl
          rcases ht with rfl | rfl
          · simp only [Except.map, bind, Except.bind, if_true, Option.map_some, Bool.true_and,
              written, clauseText_any, htexts, conjunctionSep]
          · simp only [Except.map, bind, Except.bind, if_true, Option.map_some, Bool.true_and,
              written, clauseText_all, htexts, conjunctionSep, reduceCtorEq, if_false]
    · rw [if_neg ht, if_neg ht]
      rfl
  | leaf e hleaf =>
    cases e with
    | comparison etype l r =>
      rw [translateExpr, clauseOf]
      exact comparison_written fields projectionToField etype l r
    | between input lower upper loInc hiInc =>
      rw [translateExpr, clauseOf]
      exact between_written fields projectionToField input lower upper loInc hiInc
    | operator etype children =>
      rw [translateExpr]
      exact operator_written fields projectionToField etype children
    | function fn children =>
      rw [translateExpr, clauseOf]
      exact function_written fields projectionToField fn children
    | conjunction etype children => exact absurd rfl (hleaf etype children)
    | columnRef _ | constant _ | other _ _ => rfl

end Clauses
end DuckdbSalesforce
