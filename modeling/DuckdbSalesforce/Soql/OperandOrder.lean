import DuckdbSalesforce.Soql.Translate

/-!
# The order of operands

A conjunction is translated child by child. The first child that is not
translated ends the loop, an invalid Id with an error and any other child
without one, so that the order decides when a tree has both.
-/

namespace DuckdbSalesforce

def IsAndOr (t : ExpressionType) : Prop := t = .conjunctionOr ∨ t = .conjunctionAnd

/-- The children of AND and OR, at any depth, in another order. -/
inductive Permuted : Expr → Expr → Prop
  | children (t : ExpressionType) (cs ds : List Expr) (ht : IsAndOr t) (h : cs.Perm ds) :
      Permuted (.conjunction t cs) (.conjunction t ds)
  | inside (t : ExpressionType) (before after : List Expr) (c d : Expr) (ht : IsAndOr t)
      (h : Permuted c d) :
      Permuted (.conjunction t (before ++ c :: after)) (.conjunction t (before ++ d :: after))
  | refl (e : Expr) : Permuted e e
  | trans (e e' e'' : Expr) (h : Permuted e e') (h' : Permuted e' e'') : Permuted e e''

/-- What is under the ANDs and ORs. -/
inductive IsLeafOf (l : Expr) : Expr → Prop
  | here (h : ∀ t cs, IsAndOr t → l ≠ .conjunction t cs) : IsLeafOf l l
  | child (t : ExpressionType) (cs : List Expr) (c : Expr) (ht : IsAndOr t) (hc : c ∈ cs)
      (h : IsLeafOf l c) : IsLeafOf l (.conjunction t cs)

/-- What a caller sees of a translation but for its text. -/
inductive TranslateOutcome where
  | raises
  | untranslated
  | translated (exact : Bool)
  deriving DecidableEq

def outcomeOf : Except BinderException (Option (Text × Bool)) → TranslateOutcome
  | .error _ => .raises
  | .ok none => .untranslated
  | .ok (some (_, exact)) => .translated exact

section
variable (fields : List SalesforceField) (projectionToField : List ℕ)

def translateOutcome (e : Expr) : TranslateOutcome :=
  outcomeOf (translateExpr fields projectionToField e)

/-! ### Leaves -/

/-- `CheckIdLiterals` throws. -/
def NamesInvalidId (field : Text) (vs : List Value) : Prop :=
  ∃ fld, fieldStructFor fields field = some fld ∧ lower fld.sfType = "id".toList ∧
    ∃ v ∈ vs, v.isNull = false ∧ isValidSalesforceIdText v.toText = false

/-- An equality or an IN of an Id field with a constant that is no Id. -/
def LeafInvalidId : Expr → Prop
  | .comparison etype l r => ∃ field cmp v,
      comparisonOperands fields projectionToField etype l r = some (field, cmp, v) ∧
        (cmp = .compareEqual ∨ cmp = .compareNotEqual) ∧ NamesInvalidId fields field [v]
  | .operator etype (c :: d :: items) => etype = .compareIn ∧ ∃ field vs lits,
      fieldFor fields projectionToField c = some field ∧ (d :: items).length ≤ kMaxInItems ∧
        inItems (d :: items) = some (vs, lits) ∧ NamesInvalidId fields field vs
  | _ => False

/-- A predicate on a filterable field with constants that have a literal. -/
def LeafTranslates : Expr → Prop
  | .comparison etype l r => ∃ field cmp v,
      comparisonOperands fields projectionToField etype l r = some (field, cmp, v) ∧
        (comparisonOp cmp).isSome = true ∧ (soqlLiteral v).isSome = true
  | .between input lower upper _ _ => ∃ field lo hi,
      fieldFor fields projectionToField input = some field ∧ constantOf lower = some lo ∧
        constantOf upper = some hi ∧ lo.isNull = false ∧ hi.isNull = false ∧
        (soqlLiteral lo).isSome = true ∧ (soqlLiteral hi).isSome = true
  | .operator etype [c] => (etype = .operatorIsNull ∨ etype = .operatorIsNotNull) ∧
      (fieldFor fields projectionToField c).isSome = true
  | .operator etype (c :: d :: items) => etype = .compareIn ∧
      (fieldFor fields projectionToField c).isSome = true ∧
        (d :: items).length ≤ kMaxInItems ∧ (inItems (d :: items)).isSome = true
  | .function fn [c, .constant (.varchar s)] =>
      (fieldFor fields projectionToField c).isSome = true ∧ (likePattern fn s).isSome = true
  | _ => False

def LeafUntranslatable (l : Expr) : Prop :=
  ¬ LeafInvalidId fields projectionToField l ∧ ¬ LeafTranslates fields projectionToField l

theorem checkIdLiterals_cases (field : Text) (vs : List Value) :
    (NamesInvalidId fields field vs ∧ ∃ e, checkIdLiterals fields field vs = .error e) ∨
      (¬ NamesInvalidId fields field vs ∧ checkIdLiterals fields field vs = .ok ()) := by
  unfold checkIdLiterals NamesInvalidId
  cases hfield : fieldStructFor fields field with
  | none => exact Or.inr ⟨by simp, rfl⟩
  | some fld =>
    dsimp only
    by_cases hid : lower fld.sfType = "id".toList
    · rw [if_neg (not_not.mpr hid)]
      cases hbad : vs.find? fun v => !v.isNull && !isValidSalesforceIdText v.toText with
      | none =>
        refine Or.inr ⟨?_, rfl⟩
        intro h
        obtain ⟨fld', hfld', -, v, hv, hnull, hinvalid⟩ := h
        have hgood := List.find?_eq_none.mp hbad v hv
        simp [hnull, hinvalid] at hgood
      | some v =>
        have hv := List.find?_some hbad
        have hmem := List.mem_of_find?_eq_some hbad
        simp only [Bool.and_eq_true, Bool.not_eq_true'] at hv
        exact Or.inl ⟨⟨fld, rfl, hid, v, hmem, hv.1, hv.2⟩, _, rfl⟩
    · rw [if_pos hid]
      refine Or.inr ⟨?_, rfl⟩
      intro h
      obtain ⟨fld', hfld', hid', -⟩ := h
      rw [← Option.some.inj hfld'] at hid'
      exact hid hid'

/-- The outcome of a leaf of which two things are known. -/
inductive Settles (invalid translates : Prop) : TranslateOutcome → Prop
  | raises (h : invalid) : Settles invalid translates .raises
  | translated (exact : Bool) (hvalid : ¬ invalid) (h : translates) :
      Settles invalid translates (.translated exact)
  | untranslated (hvalid : ¬ invalid) (h : ¬ translates) : Settles invalid translates .untranslated

theorem comparison_settles (etype : ExpressionType) (l r : Expr) :
    Settles (LeafInvalidId fields projectionToField (.comparison etype l r))
      (LeafTranslates fields projectionToField (.comparison etype l r))
      (translateOutcome fields projectionToField (.comparison etype l r)) := by
  simp only [translateOutcome, translateExpr, translateComparison, LeafInvalidId, LeafTranslates]
  generalize comparisonOperands fields projectionToField etype l r = operands
  cases operands with
  | none => exact .untranslated (by simp) (by simp)
  | some operands =>
    obtain ⟨field, cmp, v⟩ := operands
    simp only [Option.some.injEq, Prod.mk.injEq, and_assoc, exists_and_left, exists_eq_left']
    cases hop : comparisonOp cmp with
    | none =>
      have hno : ¬ (cmp = .compareEqual ∨ cmp = .compareNotEqual) := by
        rintro (rfl | rfl) <;> cases hop
      exact .untranslated (fun h => hno h.1) (by simp)
    | some op =>
      -- the check comes before the literal
      have hrest : ∀ out : Except BinderException (Option (Text × Bool)),
          out = ((soqlLiteral v).elim (.ok none) fun lit =>
            .ok (some (field ++ " ".toList ++ op ++ " ".toList ++ lit, true))) →
          ¬ ((cmp = .compareEqual ∨ cmp = .compareNotEqual) ∧ NamesInvalidId fields field [v]) →
          Settles ((cmp = .compareEqual ∨ cmp = .compareNotEqual) ∧ NamesInvalidId fields field [v])
            ((some op).isSome = true ∧ (soqlLiteral v).isSome = true) (outcomeOf out) := by
        intro out heq hvalid
        subst heq
        cases hlit : soqlLiteral v with
        | none => exact .untranslated hvalid (by simp)
        | some lit => exact .translated _ hvalid ⟨rfl, rfl⟩
      by_cases hcmp : cmp = .compareEqual ∨ cmp = .compareNotEqual
      · simp only [if_pos hcmp]
        rcases checkIdLiterals_cases fields field [v] with ⟨hbad, e, he⟩ | ⟨hgood, hok⟩
        · rw [he]
          exact .raises ⟨hcmp, hbad⟩
        · rw [hok]
          refine hrest _ ?_ fun h => hgood h.2
          cases soqlLiteral v with
          | none => rfl
          | some lit => rfl
      · simp only [if_neg hcmp]
        refine hrest _ ?_ fun h => hcmp h.1
        cases soqlLiteral v with
        | none => rfl
        | some lit => rfl

theorem between_settles (input lower upper : Expr) (loInc hiInc : Bool) :
    Settles (LeafInvalidId fields projectionToField (.between input lower upper loInc hiInc))
      (LeafTranslates fields projectionToField (.between input lower upper loInc hiInc))
      (translateOutcome fields projectionToField (.between input lower upper loInc hiInc)) := by
  simp only [translateOutcome, translateExpr, translateBetween, LeafInvalidId, LeafTranslates]
  cases hfield : fieldFor fields projectionToField input with
  | none => exact .untranslated (by simp) (by simp)
  | some field =>
    cases hlo : constantOf lower with
    | none => exact .untranslated (by simp) (by simp)
    | some lo =>
      cases hhi : constantOf upper with
      | none => exact .untranslated (by simp) (by simp)
      | some hi =>
        dsimp only
        by_cases hnull : lo.isNull = true ∨ hi.isNull = true
        · rw [if_pos hnull]
          refine .untranslated (by simp) ?_
          intro hgiven
          obtain ⟨_, _, _, -, heqlo, heqhi, hln, hhn, -⟩ := hgiven
          cases heqlo
          cases heqhi
          rcases hnull with h | h
          · rw [h] at hln
            cases hln
          · rw [h] at hhn
            cases hhn
        · rw [if_neg hnull]
          obtain ⟨hln, hhn⟩ := not_or.mp hnull
          cases hll : soqlLiteral lo with
          | none => exact .untranslated (by simp) (by simp [hll])
          | some lot =>
            cases hhl : soqlLiteral hi with
            | none => exact .untranslated (by simp) (by simp [hhl])
            | some hit =>
              exact .translated _ (by simp) ⟨field, lo, hi, rfl, rfl, rfl, by simpa using hln,
                by simpa using hhn, by rw [hll]; rfl, by rw [hhl]; rfl⟩

theorem untranslated_settles (l : Expr)
    (hinvalid : ¬ LeafInvalidId fields projectionToField l)
    (htranslates : ¬ LeafTranslates fields projectionToField l)
    (h : translateExpr fields projectionToField l = .ok none) :
    Settles (LeafInvalidId fields projectionToField l) (LeafTranslates fields projectionToField l)
      (translateOutcome fields projectionToField l) := by
  rw [translateOutcome, h]
  exact .untranslated hinvalid htranslates

theorem function_settles (fn : Text) (children : List Expr) :
    Settles (LeafInvalidId fields projectionToField (.function fn children))
      (LeafTranslates fields projectionToField (.function fn children))
      (translateOutcome fields projectionToField (.function fn children)) := by
  match children with
  | [] | [_] | _ :: _ :: _ :: _ =>
    exact untranslated_settles fields projectionToField _ (by simp [LeafInvalidId])
      (by simp [LeafTranslates]) (by simp [translateExpr, translateFunction])
  | [c, .constant (.varchar s)] =>
    simp only [translateOutcome, translateExpr, translateFunction, LeafInvalidId, LeafTranslates]
    cases hfield : fieldFor fields projectionToField c with
    | none => exact .untranslated (by simp) (by simp)
    | some field =>
      dsimp only
      cases likePattern fn s with
      | none => exact .untranslated not_false fun h => nomatch h.2
      | some pattern => exact .translated _ not_false ⟨rfl, rfl⟩
  | [c, .constant (.null _)] | [c, .constant (.boolean _)] | [c, .constant (.scalar _ _ _)]
  | [c, .columnRef _] | [c, .comparison _ _ _] | [c, .between _ _ _ _ _] | [c, .operator _ _]
  | [c, .function _ _] | [c, .conjunction _ _] | [c, .other _ _] =>
    refine untranslated_settles fields projectionToField _ (by simp [LeafInvalidId])
      (by simp [LeafTranslates]) ?_
    simp only [translateExpr, translateFunction]
    cases fieldFor fields projectionToField c <;> rfl

theorem operator_settles (etype : ExpressionType) (children : List Expr) :
    Settles (LeafInvalidId fields projectionToField (.operator etype children))
      (LeafTranslates fields projectionToField (.operator etype children))
      (translateOutcome fields projectionToField (.operator etype children)) := by
  match children with
  | [] =>
    exact untranslated_settles fields projectionToField _ (by simp [LeafInvalidId])
      (by simp [LeafTranslates]) (by simp [translateExpr, translateOperator])
  | [c] =>
    simp only [translateOutcome, translateExpr, translateOperator, LeafInvalidId, LeafTranslates]
    by_cases hnull : etype = .operatorIsNull ∨ etype = .operatorIsNotNull
    · simp only [if_pos hnull]
      cases fieldFor fields projectionToField c with
      | none => exact .untranslated (by simp) (by simp)
      | some field => exact .translated _ (by simp) ⟨hnull, rfl⟩
    · simp only [if_neg hnull, ite_self]
      exact .untranslated (by simp) fun h => hnull h.1
  | c :: d :: items =>
    simp only [translateOutcome, translateExpr, translateOperator, LeafInvalidId, LeafTranslates]
    by_cases hin : etype = .compareIn
    · have hnotnull : ¬ (etype = .operatorIsNull ∨ etype = .operatorIsNotNull) := by
        rw [hin]
        decide
      simp only [if_neg hnotnull, if_pos hin]
      cases fieldFor fields projectionToField c with
      | none => exact .untranslated (by simp) (by simp)
      | some field =>
        dsimp only
        by_cases hlong : (d :: items).length > kMaxInItems
        · rw [if_pos hlong]
          refine .untranslated ?_ ?_
          · intro hgiven
            obtain ⟨-, _, _, _, -, hle, -⟩ := hgiven
            omega
          · intro hgiven
            obtain ⟨-, -, hle, -⟩ := hgiven
            omega
        · rw [if_neg hlong]
          cases inItems (d :: items) with
          | none => exact .untranslated (by simp) (by simp)
          | some read =>
            obtain ⟨values, lits⟩ := read
            dsimp only
            rcases checkIdLiterals_cases fields field values with ⟨hbad, e, he⟩ | ⟨hgood, hok⟩
            · rw [he]
              exact .raises ⟨hin, field, values, lits, rfl, not_lt.mp hlong, rfl, hbad⟩
            · rw [hok]
              refine .translated _ ?_ ⟨hin, rfl, not_lt.mp hlong, rfl⟩
              intro hgiven
              obtain ⟨-, _, _, _, heqfield, -, heqread, hbad⟩ := hgiven
              cases heqfield
              cases heqread
              exact hgood hbad
    · have hnone : translateOutcome fields projectionToField (.operator etype (c :: d :: items)) =
          .untranslated := by
        simp only [translateOutcome, translateExpr, translateOperator, if_neg hin]
        split <;> rfl
      simp only [translateOutcome, translateExpr, translateOperator] at hnone
      rw [hnone]
      exact .untranslated (fun h => hin h.1) fun h => hin h.1

theorem leaf_settles (l : Expr) (h : ∀ t cs, IsAndOr t → l ≠ .conjunction t cs) :
    Settles (LeafInvalidId fields projectionToField l) (LeafTranslates fields projectionToField l)
      (translateOutcome fields projectionToField l) := by
  cases l with
  | comparison etype l r => exact comparison_settles fields projectionToField etype l r
  | between input lower upper loInc hiInc =>
    exact between_settles fields projectionToField input lower upper loInc hiInc
  | operator etype children => exact operator_settles fields projectionToField etype children
  | function fn children => exact function_settles fields projectionToField fn children
  | conjunction t cs =>
    have hno : ¬ (t = .conjunctionOr ∨ t = .conjunctionAnd) := fun ht => h t cs ht rfl
    exact untranslated_settles fields projectionToField _ (by simp [LeafInvalidId])
      (by simp [LeafTranslates]) (by rw [translateExpr, if_neg hno])
  | columnRef _ | constant _ | other _ _ =>
    exact untranslated_settles fields projectionToField _ (by simp [LeafInvalidId])
      (by simp [LeafTranslates]) rfl

/-! ### Trees -/

/-- The child loop over what its children come to. -/
def combineOutcomes (allExact : Bool) : List TranslateOutcome → TranslateOutcome
  | [] => .translated allExact
  | .translated exact :: os => combineOutcomes (allExact && exact) os
  | o :: _ => o

def TranslateOutcome.inConjunction (t : ExpressionType) : TranslateOutcome → TranslateOutcome
  | .translated exact => .translated (decide (t = .conjunctionAnd) && exact)
  | o => o

theorem children_outcome (t : ExpressionType) (cs : List Expr) (k : ℕ) (combined : Text)
    (allExact : Bool) :
    outcomeOf (translateChildren fields projectionToField t cs k combined allExact) =
      combineOutcomes allExact (cs.map (translateOutcome fields projectionToField)) := by
  induction cs generalizing k combined allExact with
  | nil => rfl
  | cons c cs ih =>
    rw [translateChildren, List.map_cons]
    cases hc : translateExpr fields projectionToField c with
    | error e =>
      have ho : translateOutcome fields projectionToField c = .raises := by
        rw [translateOutcome, hc]
        rfl
      rw [ho]
      rfl
    | ok r =>
      cases r with
      | none =>
        have ho : translateOutcome fields projectionToField c = .untranslated := by
          rw [translateOutcome, hc]
          rfl
        rw [ho]
        rfl
      | some p =>
        obtain ⟨cout, cexact⟩ := p
        have ho : translateOutcome fields projectionToField c = .translated cexact := by
          rw [translateOutcome, hc]
          rfl
        rw [ho]
        exact ih _ _ _

theorem conjunction_outcome (t : ExpressionType) (cs : List Expr) (ht : IsAndOr t) :
    translateOutcome fields projectionToField (.conjunction t cs) =
      (combineOutcomes true (cs.map (translateOutcome fields projectionToField))).inConjunction t := by
  have hor : t = .conjunctionOr ∨ t = .conjunctionAnd := ht
  rw [← children_outcome fields projectionToField t cs 0 [] true, translateOutcome, translateExpr,
    if_pos hor]
  cases translateChildren fields projectionToField t cs 0 [] true with
  | error e => rfl
  | ok r => cases r <;> rfl

theorem combine_mem (allExact : Bool) (os : List TranslateOutcome) (o : TranslateOutcome)
    (ho : o = .raises ∨ o = .untranslated) (h : combineOutcomes allExact os = o) : o ∈ os := by
  induction os generalizing allExact with
  | nil =>
    rw [← h] at ho
    rcases ho with ho | ho <;> cases ho
  | cons a os ih =>
    cases a with
    | translated exact => exact List.mem_cons_of_mem _ (ih _ h)
    | raises | untranslated =>
      rw [← h]
      exact List.mem_cons_self

theorem combine_translated (allExact exact : Bool) (os : List TranslateOutcome)
    (h : combineOutcomes allExact os = .translated exact) :
    (∀ o ∈ os, ∃ x, o = .translated x) ∧
      exact = (allExact && os.all fun o => decide (o = .translated true)) := by
  induction os generalizing allExact with
  | nil =>
    refine ⟨by simp, ?_⟩
    injection h with h
    simp [h]
  | cons a os ih =>
    cases a with
    | raises => cases h
    | untranslated => cases h
    | translated x =>
      obtain ⟨hall, hexact⟩ := ih _ h
      refine ⟨?_, ?_⟩
      · intro o ho
        rcases List.mem_cons.mp ho with rfl | ho
        · exact ⟨x, rfl⟩
        · exact hall o ho
      · rw [hexact, List.all_cons]
        cases x <;> simp

/-- The flag of a tree all of whose leaves are translated. -/
def exactOf : Expr → Bool
  | .conjunction .conjunctionAnd cs => exactAll cs
  | .conjunction .conjunctionOr _ => false
  | e => decide (translateOutcome fields projectionToField e = .translated true)
where
  exactAll : List Expr → Bool
    | [] => true
    | c :: cs => exactOf c && exactAll cs

theorem exactAll_eq (cs : List Expr) :
    exactOf.exactAll fields projectionToField cs =
      cs.all (exactOf fields projectionToField) := by
  induction cs with
  | nil => rfl
  | cons c cs ih => rw [exactOf.exactAll, ih, List.all_cons]

theorem inConjunction_failed (t : ExpressionType) (o o' : TranslateOutcome)
    (ho : o' = .raises ∨ o' = .untranslated) : o.inConjunction t = o' ↔ o = o' := by
  rcases ho with rfl | rfl <;> cases o <;> simp [TranslateOutcome.inConjunction]

/-- What a tree comes to, a leaf of it comes to; when it is translated so are
all of its leaves. -/
structure TreeOutcome (e : Expr) : Prop where
  failed : ∀ o, o = .raises ∨ o = .untranslated →
    translateOutcome fields projectionToField e = o →
    ∃ l, IsLeafOf l e ∧ translateOutcome fields projectionToField l = o
  translated : ∀ exact, translateOutcome fields projectionToField e = .translated exact →
    exact = exactOf fields projectionToField e ∧
    ∀ l, IsLeafOf l e → ∃ x, translateOutcome fields projectionToField l = .translated x

theorem exactOf_leaf (e : Expr) (h : ∀ t cs, IsAndOr t → e ≠ .conjunction t cs) :
    exactOf fields projectionToField e =
      decide (translateOutcome fields projectionToField e = .translated true) := by
  unfold exactOf
  split
  · exact absurd rfl (h _ _ (Or.inr rfl))
  · exact absurd rfl (h _ _ (Or.inl rfl))
  · rfl

theorem leaf_outcome (e : Expr) (h : ∀ t cs, IsAndOr t → e ≠ .conjunction t cs) :
    TreeOutcome fields projectionToField e := by
  refine ⟨fun o _ ho => ⟨e, .here h, ho⟩, ?_⟩
  intro exact hexact
  refine ⟨?_, ?_⟩
  · rw [exactOf_leaf fields projectionToField e h, hexact]
    cases exact <;> rfl
  · intro l hl
    cases hl with
    | here => exact ⟨exact, hexact⟩
    | child t cs c ht _ _ => exact absurd rfl (h t cs ht)

theorem tree_outcome (e : Expr) : TreeOutcome fields projectionToField e := by
  induction e using Expr.conjInduct with
  | conjunction t cs ih =>
    by_cases ht : IsAndOr t
    · have hconj := conjunction_outcome fields projectionToField t cs ht
      refine ⟨?_, ?_⟩
      · intro o ho h
        rw [hconj, inConjunction_failed t _ o ho] at h
        obtain ⟨c, hc, hco⟩ := List.mem_map.mp (combine_mem true _ o ho h)
        obtain ⟨l, hl, hlo⟩ := (ih c hc).failed o ho hco
        exact ⟨l, .child t cs c ht hc hl, hlo⟩
      · intro exact h
        rw [hconj] at h
        cases hcomb : combineOutcomes true (cs.map (translateOutcome fields projectionToField)) with
        | raises | untranslated =>
          rw [hcomb] at h
          cases h
        | translated x =>
          obtain ⟨hall, hx⟩ := combine_translated true x _ hcomb
          rw [hcomb] at h
          injection h with h
          have hchild : ∀ c ∈ cs, ∃ y, translateOutcome fields projectionToField c =
              .translated y := fun c hc => hall _ (List.mem_map_of_mem hc)
          refine ⟨?_, ?_⟩
          · rw [← h]
            rcases ht with rfl | rfl
            · rfl
            · rw [hx, Bool.true_and, exactOf, exactAll_eq, List.all_map]
              simp only [decide_true, Bool.true_and]
              rw [Bool.eq_iff_iff, List.all_eq_true, List.all_eq_true]
              refine forall₂_congr fun c hc => ?_
              obtain ⟨y, hy⟩ := hchild c hc
              rw [← ((ih c hc).translated y hy).1]
              simp [hy]
          · intro l hl
            cases hl with
            | here hleaf => exact absurd rfl (hleaf t cs ht)
            | child _ _ c _ hc hlc =>
              obtain ⟨y, hy⟩ := hchild c hc
              exact ((ih c hc).translated y hy).2 l hlc
    · apply leaf_outcome
      intro t' cs' ht' heq
      injection heq with heqt
      rw [← heqt] at ht'
      exact ht ht'
  | leaf e hleaf => exact leaf_outcome fields projectionToField e fun t cs _ => hleaf t cs

/-! ### Permutations -/

theorem permuted_leaves (e e' : Expr) (h : Permuted e e') (l : Expr) :
    IsLeafOf l e ↔ IsLeafOf l e' := by
  induction h with
  | children t cs ds ht hperm =>
    constructor
    · intro hl
      cases hl with
      | here hleaf => exact absurd rfl (hleaf t cs ht)
      | child _ _ c _ hc hlc => exact .child t ds c ht (hperm.mem_iff.mp hc) hlc
    · intro hl
      cases hl with
      | here hleaf => exact absurd rfl (hleaf t ds ht)
      | child _ _ c _ hc hlc => exact .child t cs c ht (hperm.mem_iff.mpr hc) hlc
  | inside t before after c d ht _ ih =>
    have hone : ∀ a b : Expr, (IsLeafOf l a → IsLeafOf l b) →
        IsLeafOf l (.conjunction t (before ++ a :: after)) →
        IsLeafOf l (.conjunction t (before ++ b :: after)) := by
      intro a b hab hl
      cases hl with
      | here hleaf => exact absurd rfl (hleaf t _ ht)
      | child _ _ x _ hx hlx =>
        rcases List.mem_append.mp hx with hx | hx
        · exact .child t _ x ht (List.mem_append_left _ hx) hlx
        · rcases List.mem_cons.mp hx with rfl | hx
          · exact .child t _ b ht (by simp) (hab hlx)
          · exact .child t _ x ht (List.mem_append_right _ (List.mem_cons_of_mem _ hx)) hlx
    exact ⟨hone c d ih.mp, hone d c ih.mpr⟩
  | refl => rfl
  | trans _ _ _ _ _ ih ih' => exact ih.trans ih'

theorem permuted_exact (e e' : Expr) (h : Permuted e e') :
    exactOf fields projectionToField e = exactOf fields projectionToField e' := by
  induction h with
  | children t cs ds ht hperm =>
    rcases ht with rfl | rfl
    · rfl
    · rw [exactOf, exactOf, exactAll_eq, exactAll_eq, Bool.eq_iff_iff, List.all_eq_true,
        List.all_eq_true]
      exact forall_congr' fun c => imp_congr_left hperm.mem_iff
  | inside t before after c d ht _ ih =>
    rcases ht with rfl | rfl
    · rfl
    · rw [exactOf, exactOf, exactAll_eq, exactAll_eq, List.all_append, List.all_append,
        List.all_cons, List.all_cons, ih]
  | refl => rfl
  | trans _ _ _ _ _ ih ih' => exact ih.trans ih'

/-- A failing child that is moved to the front decides. -/
theorem failing_first (t : ExpressionType) (ht : IsAndOr t) (c : Expr) (cs : List Expr)
    (o : TranslateOutcome) (ho : o = .raises ∨ o = .untranslated)
    (hc : translateOutcome fields projectionToField c = o) :
    translateOutcome fields projectionToField (.conjunction t (c :: cs)) = o := by
  rw [conjunction_outcome fields projectionToField t _ ht, List.map_cons, hc]
  rcases ho with rfl | rfl <;> rfl

theorem leaf_first (e l : Expr) (o : TranslateOutcome) (ho : o = .raises ∨ o = .untranslated)
    (hl : IsLeafOf l e) (hlo : translateOutcome fields projectionToField l = o) :
    ∃ e', Permuted e e' ∧ translateOutcome fields projectionToField e' = o := by
  induction hl with
  | here => exact ⟨l, .refl l, hlo⟩
  | child t cs c ht hc _ ih =>
    obtain ⟨c', hperm, hc'⟩ := ih
    obtain ⟨before, after, rfl⟩ := List.append_of_mem hc
    refine ⟨.conjunction t (c' :: (before ++ after)), ?_,
      failing_first fields projectionToField t ht c' _ o ho hc'⟩
    exact .trans _ _ _ (.inside t before after c c' ht hperm)
      (.children t _ _ ht List.perm_middle)

/-- Both kinds of leaves that end the loop. -/
def HasBothFailures (e : Expr) : Prop :=
  (∃ l, IsLeafOf l e ∧ LeafInvalidId fields projectionToField l) ∧
    ∃ l, IsLeafOf l e ∧ LeafUntranslatable fields projectionToField l

theorem leaf_of_leaf (l e : Expr) (h : IsLeafOf l e) : ∀ t cs, IsAndOr t → l ≠ .conjunction t cs := by
  induction h with
  | here h => exact h
  | child _ _ _ _ _ _ ih => exact ih

theorem leaf_raises_iff (l e : Expr) (h : IsLeafOf l e) :
    translateOutcome fields projectionToField l = .raises ↔
      LeafInvalidId fields projectionToField l := by
  have hsettles := leaf_settles fields projectionToField l (leaf_of_leaf l e h)
  generalize translateOutcome fields projectionToField l = o at hsettles
  cases hsettles with
  | raises h => exact iff_of_true rfl h
  | translated x hvalid _ => exact iff_of_false (by simp) hvalid
  | untranslated hvalid _ => exact iff_of_false (by simp) hvalid

theorem leaf_untranslated_iff (l e : Expr) (h : IsLeafOf l e) :
    translateOutcome fields projectionToField l = .untranslated ↔
      LeafUntranslatable fields projectionToField l := by
  have hsettles := leaf_settles fields projectionToField l (leaf_of_leaf l e h)
  unfold LeafUntranslatable
  generalize translateOutcome fields projectionToField l = o at hsettles
  cases hsettles with
  | raises h => exact iff_of_false (by simp) fun hu => hu.1 h
  | translated x _ h => exact iff_of_false (by simp) fun hu => hu.2 h
  | untranslated hvalid h => exact iff_of_true rfl ⟨hvalid, h⟩

theorem hasBoth_permuted (e e' : Expr) (h : Permuted e e') :
    HasBothFailures fields projectionToField e ↔ HasBothFailures fields projectionToField e' := by
  unfold HasBothFailures
  simp only [permuted_leaves e e' h]

/-- Without both kinds the outcome is told by which leaves there are. -/
theorem outcome_of_leaves (e : Expr) (h : ¬ HasBothFailures fields projectionToField e) :
    (translateOutcome fields projectionToField e = .raises ↔
      ∃ l, IsLeafOf l e ∧ LeafInvalidId fields projectionToField l) ∧
    (translateOutcome fields projectionToField e = .untranslated ↔
      ∃ l, IsLeafOf l e ∧ LeafUntranslatable fields projectionToField l) := by
  have htree := tree_outcome fields projectionToField e
  have hraises : translateOutcome fields projectionToField e = .raises →
      ∃ l, IsLeafOf l e ∧ LeafInvalidId fields projectionToField l := by
    intro ho
    obtain ⟨l, hl, hlo⟩ := htree.failed .raises (Or.inl rfl) ho
    exact ⟨l, hl, (leaf_raises_iff fields projectionToField l e hl).mp hlo⟩
  have huntranslated : translateOutcome fields projectionToField e = .untranslated →
      ∃ l, IsLeafOf l e ∧ LeafUntranslatable fields projectionToField l := by
    intro ho
    obtain ⟨l, hl, hlo⟩ := htree.failed .untranslated (Or.inr rfl) ho
    exact ⟨l, hl, (leaf_untranslated_iff fields projectionToField l e hl).mp hlo⟩
  refine ⟨⟨hraises, ?_⟩, ⟨huntranslated, ?_⟩⟩
  · intro hgiven
    obtain ⟨l, hl, hinvalid⟩ := hgiven
    cases ho : translateOutcome fields projectionToField e with
    | raises => rfl
    | untranslated => exact absurd ⟨⟨l, hl, hinvalid⟩, huntranslated ho⟩ h
    | translated x =>
      obtain ⟨y, hy⟩ := (htree.translated x ho).2 l hl
      rw [(leaf_raises_iff fields projectionToField l e hl).mpr hinvalid] at hy
      cases hy
  · intro hgiven
    obtain ⟨l, hl, hnone⟩ := hgiven
    cases ho : translateOutcome fields projectionToField e with
    | untranslated => rfl
    | raises => exact absurd ⟨hraises ho, ⟨l, hl, hnone⟩⟩ h
    | translated x =>
      obtain ⟨y, hy⟩ := (htree.translated x ho).2 l hl
      rw [(leaf_untranslated_iff fields projectionToField l e hl).mpr hnone] at hy
      cases hy

theorem same_outcome (e e' : Expr) (hperm : Permuted e e')
    (h : ¬ HasBothFailures fields projectionToField e) :
    translateOutcome fields projectionToField e' = translateOutcome fields projectionToField e := by
  obtain ⟨hr, hu⟩ := outcome_of_leaves fields projectionToField e h
  obtain ⟨hr', hu'⟩ := outcome_of_leaves fields projectionToField e'
    fun hboth => h ((hasBoth_permuted fields projectionToField e e' hperm).mpr hboth)
  simp only [← permuted_leaves e e' hperm, ← hr, ← hu] at hr' hu'
  cases ho : translateOutcome fields projectionToField e with
  | raises => exact hr'.mpr ho
  | untranslated => exact hu'.mpr ho
  | translated x =>
    cases ho' : translateOutcome fields projectionToField e' with
    | raises =>
      rw [hr'.mp ho'] at ho
      cases ho
    | untranslated =>
      rw [hu'.mp ho'] at ho
      cases ho
    | translated y =>
      rw [((tree_outcome fields projectionToField e).translated x ho).1,
        ((tree_outcome fields projectionToField e').translated y ho').1,
        permuted_exact fields projectionToField e e' hperm]

/-- The order of operands matters exactly for the trees with both. -/
theorem operand_order_iff (e : Expr) :
    (∀ e', Permuted e e' →
        translateOutcome fields projectionToField e' = translateOutcome fields projectionToField e) ↔
      ¬ HasBothFailures fields projectionToField e := by
  constructor
  · intro hsame hgiven
    obtain ⟨⟨l, hl, hinvalid⟩, ⟨u, hu, hnone⟩⟩ := hgiven
    obtain ⟨e₁, hperm₁, ho₁⟩ := leaf_first fields projectionToField e l .raises (Or.inl rfl) hl
      ((leaf_raises_iff fields projectionToField l e hl).mpr hinvalid)
    obtain ⟨e₂, hperm₂, ho₂⟩ := leaf_first fields projectionToField e u .untranslated (Or.inr rfl) hu
      ((leaf_untranslated_iff fields projectionToField u e hu).mpr hnone)
    rw [hsame e₁ hperm₁] at ho₁
    rw [hsame e₂ hperm₂, ho₁] at ho₂
    cases ho₂
  · intro h e' hperm
    exact same_outcome fields projectionToField e e' hperm h

end

/-! ### An invalid Id and a column alone -/

def keyField : SalesforceField := .flat "Id".toList "id".toList .varchar true true

def badIdTest : Expr := .comparison .compareEqual (.columnRef 0) (.constant (.varchar "x".toList))

/-- `Id = 'x' OR flag` fails, and with its operands the other way it runs. -/
theorem order_decides : ¬ ∀ (fields : List SalesforceField) (projectionToField : List ℕ)
    (e e' : Expr), Permuted e e' →
    translateOutcome fields projectionToField e' = translateOutcome fields projectionToField e := by
  intro h
  have hperm : Permuted (.conjunction .conjunctionOr [badIdTest, .columnRef 0])
      (.conjunction .conjunctionOr [.columnRef 0, badIdTest]) :=
    .children _ _ _ (Or.inl rfl) (List.Perm.swap _ _ _)
  have hsame := h [keyField] [0] _ _ hperm
  revert hsame
  decide

end DuckdbSalesforce
