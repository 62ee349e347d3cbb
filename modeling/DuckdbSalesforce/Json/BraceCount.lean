import Mathlib
import DuckdbSalesforce.Text

/-!
# Counting braces

Some callers cut an object out of a text by counting its braces, those inside of
strings among them.
-/

namespace DuckdbSalesforce

/-- How far the braces from here on balance, strings not being told apart. -/
def braceLength : ℤ → Text → ℕ
  | _, [] => 0
  | depth, c :: t =>
    if c = '{' then braceLength (depth + 1) t + 1
    else if c = '}' then if depth - 1 = 0 then 1 else braceLength (depth - 1) t + 1
    else braceLength depth t + 1

def braceStep (c : Char) : ℤ := if c = '{' then 1 else if c = '}' then -1 else 0

def braceDepth (t : Text) : ℤ := (t.map braceStep).sum

/-- The braces, wherever they stand, balance at the end and not before. -/
def BracesBalance (t : Text) : Prop :=
  braceDepth t = 0 ∧ ∀ n < t.length, 0 < n → 0 < braceDepth (t.take n)

instance (t : Text) : Decidable (BracesBalance t) := inferInstanceAs (Decidable (_ ∧ _))

theorem braceDepth_cons (c : Char) (t : Text) :
    braceDepth (c :: t) = braceStep c + braceDepth t := by
  simp [braceDepth]

theorem braceLength_cons (d : ℤ) (c : Char) (t : Text) (h : ¬ (c = '}' ∧ d = 1)) :
    braceLength d (c :: t) = braceLength (d + braceStep c) t + 1 := by
  rw [braceLength]
  unfold braceStep
  by_cases hopen : c = '{'
  · rw [if_pos hopen, if_pos hopen]
  rw [if_neg hopen, if_neg hopen]
  by_cases hclose : c = '}'
  · have hd : ¬ d - 1 = 0 := fun hd => h ⟨hclose, by omega⟩
    rw [if_pos hclose, if_neg hd, if_pos hclose, sub_eq_add_neg]
  · rw [if_neg hclose, if_neg hclose, add_zero]

/-- Inside of an object, where the depth is positive. -/
theorem braceLength_inside (d : ℤ) (t rest : Text) (hd : 0 < d) (hend : d + braceDepth t = 0)
    (hbefore : ∀ n < t.length, 0 < n → 0 < d + braceDepth (t.take n)) :
    braceLength d (t ++ rest) = t.length := by
  induction t generalizing d with
  | nil =>
    have hzero : braceDepth [] = 0 := rfl
    omega
  | cons c t ih =>
    rw [braceDepth_cons] at hend
    by_cases hlast : c = '}' ∧ d = 1
    · obtain ⟨rfl, rfl⟩ := hlast
      have hnil : t = [] := by
        by_contra hne
        have hlen : 0 < t.length := List.length_pos_iff.mpr hne
        have hpos := hbefore 1 (by simpa using hlen) (by omega)
        have hone : braceDepth ((('}' : Char) :: t).take 1) = -1 := rfl
        omega
      subst hnil
      rfl
    have hstep : 0 < d + braceStep c := by
      by_cases hne : t = []
      · subst hne
        have hzero : braceDepth [] = 0 := rfl
        have hclose : c = '}' := by
          by_contra hclose
          have hge : 0 ≤ braceStep c := by
            rw [braceStep, if_neg hclose]
            split <;> omega
          omega
        have hminus : braceStep c = -1 := by
          rw [hclose]
          rfl
        exact absurd ⟨hclose, by omega⟩ hlast
      · have hpos := hbefore 1 (by simpa using List.length_pos_iff.mpr hne) (by omega)
        have hone : braceDepth ((c :: t).take 1) = braceStep c := by
          simp [braceDepth]
        omega
    rw [List.cons_append, braceLength_cons d c _ hlast, ih (d + braceStep c) hstep (by omega)]
    · rfl
    · intro n hn hpos
      have hnext := hbefore (n + 1) (by simpa using hn) (by omega)
      rw [List.take_succ_cons, braceDepth_cons] at hnext
      omega

/-- The cut is at the end of a balanced object, whatever follows. -/
theorem braceLength_balanced (t rest : Text) (h : BracesBalance ('{' :: t)) :
    braceLength 0 ('{' :: t ++ rest) = ('{' :: t).length := by
  obtain ⟨hend, hbefore⟩ := h
  have hopen : braceStep '{' = 1 := rfl
  rw [braceDepth_cons, hopen] at hend
  rw [List.cons_append, braceLength_cons 0 '{' _ (by decide), hopen,
    braceLength_inside (0 + 1) t rest (by omega) (by omega)]
  · rfl
  · intro n hn hpos
    have hnext := hbefore (n + 1) (by simpa using hn) (by omega)
    rw [List.take_succ_cons, braceDepth_cons, hopen] at hnext
    omega

end DuckdbSalesforce
