import Mathlib

/-!
# Two runs side by side

Two computations that may fail agree when they fail with the same error, or
both return and their results are related: what the error says does not tell
the runs apart. The relation goes through the steps of a program.
-/

namespace TwoRuns

variable {ε α α' β β' : Type}

def Agree (R : α → α' → Prop) : Except ε α → Except ε α' → Prop
  | .ok a, .ok a' => R a a'
  | .error e, .error e' => e = e'
  | _, _ => False

theorem Agree.ok {R : α → α' → Prop} {a : α} {a' : α'} (h : R a a') :
    Agree R (.ok a : Except ε α) (.ok a') := h

theorem Agree.error {R : α → α' → Prop} (e : ε) :
    Agree R (.error e : Except ε α) (.error e) := rfl

theorem Agree.refl {R : α → α → Prop} (hR : ∀ a, R a a) (x : Except ε α) : Agree R x x := by
  cases x with
  | error e => rfl
  | ok a => exact hR a

theorem Agree.same (x : Except ε α) : Agree Eq x x := Agree.refl (fun _ => rfl) x

theorem Agree.cases {R : α → α' → Prop} {x : Except ε α} {y : Except ε α'} (h : Agree R x y) :
    (∃ a a', x = .ok a ∧ y = .ok a' ∧ R a a') ∨ ∃ e, x = .error e ∧ y = .error e := by
  cases x with
  | error e =>
    cases y with
    | error e' => exact Or.inr ⟨e, rfl, by rw [show e = e' from h]⟩
    | ok a' => exact h.elim
  | ok a =>
    cases y with
    | error e' => exact h.elim
    | ok a' => exact Or.inl ⟨a, a', rfl, rfl, h⟩

theorem Agree.mono {R S : α → α' → Prop} (hRS : ∀ a a', R a a' → S a a') {x : Except ε α}
    {y : Except ε α'} (h : Agree R x y) : Agree S x y := by
  rcases h.cases with ⟨a, a', rfl, rfl, hr⟩ | ⟨e, rfl, rfl⟩
  · exact hRS a a' hr
  · rfl

theorem Agree.bind {R : α → α' → Prop} {S : β → β' → Prop} {x : Except ε α} {y : Except ε α'}
    {f : α → Except ε β} {g : α' → Except ε β'} (h : Agree R x y)
    (hf : ∀ a a', R a a' → Agree S (f a) (g a')) : Agree S (x.bind f) (y.bind g) := by
  rcases h.cases with ⟨a, a', rfl, rfl, hr⟩ | ⟨e, rfl, rfl⟩
  · exact hf a a' hr
  · rfl

theorem Agree.map {R : α → α' → Prop} {S : β → β' → Prop} {x : Except ε α} {y : Except ε α'}
    {f : α → β} {g : α' → β'} (h : Agree R x y) (hf : ∀ a a', R a a' → S (f a) (g a')) :
    Agree S (x.map f) (y.map g) := by
  rcases h.cases with ⟨a, a', rfl, rfl, hr⟩ | ⟨e, rfl, rfl⟩
  · exact hf a a' hr
  · rfl

/-- Both runs take the same branch. -/
theorem Agree.ite {R : α → α' → Prop} {p q : Prop} [Decidable p] [Decidable q] (hpq : p ↔ q)
    {x x' : Except ε α} {y y' : Except ε α'} (hthen : p → Agree R x y)
    (helse : ¬ p → Agree R x' y') : Agree R (if p then x else x') (if q then y else y') := by
  by_cases hp : p
  · rw [if_pos hp, if_pos (hpq.mp hp)]
    exact hthen hp
  · rw [if_neg hp, if_neg fun hq => hp (hpq.mpr hq)]
    exact helse hp

end TwoRuns
