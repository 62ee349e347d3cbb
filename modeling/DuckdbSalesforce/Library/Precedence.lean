import Mathlib

/-!
# The first by rank

Of items that come one after the other the first by rank is kept: whatever their
order, it is a least one of them all.
-/

namespace Precedence

variable {α : Type} (rank : α → ℕ)

/-- What is kept when the next item comes. -/
def keep (kept : Option α) (a : α) : Option α :=
  match kept with
  | none => some a
  | some b => if rank a < rank b then some a else some b

/-- What is kept of the items that came: a least one, or nothing when none came. -/
def Least (came : α → Prop) : Option α → Prop
  | none => ∀ a, ¬ came a
  | some b => came b ∧ ∀ a, came a → rank b ≤ rank a

variable {rank}

theorem least_congr {came came' : α → Prop} {kept : Option α} (h : ∀ a, came a ↔ came' a)
    (hkept : Least rank came kept) : Least rank came' kept := by
  have hsame : came = came' := funext fun a => propext (h a)
  rw [← hsame]
  exact hkept

theorem least_keep {came : α → Prop} {kept : Option α} (h : Least rank came kept) (a : α) :
    Least rank (fun b => came b ∨ b = a) (keep rank kept a) := by
  cases kept with
  | none =>
    refine ⟨Or.inr rfl, ?_⟩
    intro b hor
    rcases hor with hb | rfl
    · exact absurd hb (h b)
    · exact le_refl _
  | some c =>
    obtain ⟨hc, hleast⟩ := h
    rw [keep]
    by_cases hlt : rank a < rank c
    · rw [if_pos hlt]
      refine ⟨Or.inr rfl, ?_⟩
      intro b hor
      rcases hor with hb | rfl
      · exact le_of_lt (lt_of_lt_of_le hlt (hleast b hb))
      · exact le_refl _
    · rw [if_neg hlt]
      refine ⟨Or.inl hc, ?_⟩
      intro b hor
      rcases hor with hb | rfl
      · exact hleast b hb
      · exact not_lt.mp hlt

theorem least_isSome {came : α → Prop} {kept : Option α} (h : Least rank came kept) {a : α}
    (ha : came a) : ∃ b, kept = some b := by
  cases kept with
  | none => exact absurd ha (h a)
  | some b => exact ⟨b, rfl⟩

end Precedence
