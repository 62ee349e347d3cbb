import Mathlib

/-!
# Computations that may fail

What a computation that returned has gone through: its first part returned,
and so did every round of a loop.
-/

namespace Fallible

variable {ε α β σ : Type}

theorem bind_ok {x : Except ε α} {f : α → Except ε β} {b : β} (h : x.bind f = .ok b) :
    ∃ a, x = .ok a ∧ f a = .ok b := by
  cases x with
  | error e => cases h
  | ok a => exact ⟨a, rfl, h⟩

theorem map_ok {x : Except ε α} {f : α → β} {b : β} (h : x.map f = .ok b) :
    ∃ a, x = .ok a ∧ f a = b := by
  cases x with
  | error e => cases h
  | ok a => exact ⟨a, rfl, Except.ok.inj h⟩

/-- A loop over a list, each round from a state to a state or an error. -/
def run (step : σ → α → Except ε σ) (s : σ) : List α → Except ε σ
  | [] => .ok s
  | a :: as => (step s a).bind fun s' => run step s' as

theorem run_cons {step : σ → α → Except ε σ} {s t : σ} {a : α} {as : List α}
    (h : run step s (a :: as) = .ok t) : ∃ s', step s a = .ok s' ∧ run step s' as = .ok t :=
  bind_ok h

theorem run_total (step : σ → α → Except ε σ) (hstep : ∀ s a, ∃ s', step s a = .ok s')
    (s : σ) (as : List α) : ∃ t, run step s as = .ok t := by
  induction as generalizing s with
  | nil => exact ⟨s, rfl⟩
  | cons a as ih =>
    obtain ⟨s', hround⟩ := hstep s a
    obtain ⟨t, hrest⟩ := ih s'
    exact ⟨t, by rw [run, hround]; exact hrest⟩

/-- An invariant of the rounds, indexed by the items gone through, holds at the
end. -/
theorem run_invariant (step : σ → α → Except ε σ) (Inv : List α → σ → Prop)
    (hstep : ∀ done s a s', Inv done s → step s a = .ok s' → Inv (done ++ [a]) s')
    (done : List α) (s t : σ) (as : List α) (hs : Inv done s) (h : run step s as = .ok t) :
    Inv (done ++ as) t := by
  induction as generalizing done s with
  | nil =>
    rw [List.append_nil, ← Except.ok.inj h]
    exact hs
  | cons a as ih =>
    obtain ⟨s', hround, hrest⟩ := run_cons h
    have hall := ih (done ++ [a]) s' (hstep done s a s' hs hround) hrest
    rw [List.append_assoc] at hall
    exact hall

/-! ### The same up to the error -/

def Same (x y : Except ε α) : Prop := x.toOption = y.toOption

theorem Same.refl (x : Except ε α) : Same x x := rfl

theorem Same.cases {x y : Except ε α} (h : Same x y) :
    (∃ a, x = .ok a ∧ y = .ok a) ∨ ∃ e e', x = .error e ∧ y = .error e' := by
  cases x with
  | ok a =>
    cases y with
    | ok b => exact Or.inl ⟨a, rfl, by rw [Option.some.inj h]⟩
    | error e => cases h
  | error e =>
    cases y with
    | ok b => cases h
    | error e' => exact Or.inr ⟨e, e', rfl, rfl⟩

theorem Same.bind {x y : Except ε α} {f g : α → Except ε β} (h : Same x y)
    (hf : ∀ a, Same (f a) (g a)) : Same (x.bind f) (y.bind g) := by
  rcases h.cases with ⟨a, rfl, rfl⟩ | ⟨e, e', rfl, rfl⟩
  · exact hf a
  · rfl

theorem Same.map {x y : Except ε α} (h : Same x y) (f : α → β) : Same (x.map f) (y.map f) := by
  rcases h.cases with ⟨a, rfl, rfl⟩ | ⟨e, e', rfl, rfl⟩
  · rfl
  · rfl

/-- The results in order, up to the first error. -/
def collect (f : α → Except ε β) : List α → Except ε (List β)
  | [] => .ok []
  | a :: as => (f a).bind fun b => (collect f as).map (b :: ·)

theorem collect_map {γ : Type} (f : γ → Except ε β) (k : α → γ) (as : List α) :
    collect f (as.map k) = collect (fun a => f (k a)) as := by
  induction as with
  | nil => rfl
  | cons a as ih => rw [List.map_cons, collect, collect, ih]

theorem collect_ok_map {f : α → Except ε β} {as : List α} {bs : List β}
    (h : collect f as = .ok bs) : as.map f = bs.map Except.ok := by
  induction as generalizing bs with
  | nil =>
    cases h
    rfl
  | cons a as ih =>
    obtain ⟨b, hb, hrest⟩ := bind_ok h
    obtain ⟨rest, has, rfl⟩ := map_ok hrest
    rw [List.map_cons, List.map_cons, hb, ih has]

theorem Same.collect {f g : α → Except ε β} (h : ∀ a, Same (f a) (g a)) (as : List α) :
    Same (Fallible.collect f as) (Fallible.collect g as) := by
  induction as with
  | nil => rfl
  | cons a as ih => exact (h a).bind fun b => ih.map (b :: ·)

end Fallible
