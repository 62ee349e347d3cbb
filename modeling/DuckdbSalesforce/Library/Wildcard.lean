import Mathlib

/-!
# Patterns with wildcards

A pattern is a list of items, each a test for one character or a run of any
characters. A pattern whose items are weaker accepts more texts.
-/

namespace Wildcard
variable {α : Type}

inductive Item (α : Type) where
  | one (accepts : α → Bool)
  | run

def anySuffix (f : List α → Bool) : List α → Bool
  | [] => f []
  | c :: s => f (c :: s) || anySuffix f s

def accepts : List (Item α) → List α → Bool
  | [], s => s.isEmpty
  | .one p :: items, s =>
    match s with
    | [] => false
    | c :: s => p c && accepts items s
  | .run :: items, s => anySuffix (accepts items) s

def Item.anyOne : Item α := .one fun _ => true

def Item.exactly [DecidableEq α] (c : α) : Item α := .one fun d => decide (d = c)

theorem anySuffix_iff (f : List α → Bool) (s : List α) :
    anySuffix f s = true ↔ ∃ a b, s = a ++ b ∧ f b = true := by
  induction s with
  | nil =>
    constructor
    · intro h
      exact ⟨[], [], rfl, h⟩
    · intro hgiven
      obtain ⟨a, b, hs, hb⟩ := hgiven
      obtain ⟨rfl, rfl⟩ := List.append_eq_nil_iff.mp hs.symm
      exact hb
  | cons c s ih =>
    rw [anySuffix, Bool.or_eq_true, ih]
    constructor
    · intro hor
      rcases hor with h | ⟨a, b, rfl, hb⟩
      · exact ⟨[], c :: s, rfl, h⟩
      · exact ⟨c :: a, b, rfl, hb⟩
    · intro hgiven
      obtain ⟨a, b, hs, hb⟩ := hgiven
      cases a with
      | nil =>
        rw [List.nil_append] at hs
        rw [hs]
        exact Or.inl hb
      | cons d a => exact Or.inr ⟨a, b, (List.cons.inj hs).2, hb⟩

theorem accepts_one (p : α → Bool) (items : List (Item α)) (s : List α) :
    accepts (.one p :: items) s = true ↔
      ∃ c t, s = c :: t ∧ p c = true ∧ accepts items t = true := by
  cases s with
  | nil => simp [accepts]
  | cons c s =>
    rw [accepts, Bool.and_eq_true]
    constructor
    · intro h
      obtain ⟨hc, hs⟩ := h
      exact ⟨c, s, rfl, hc, hs⟩
    · intro h
      obtain ⟨d, t, hs, hd, ht⟩ := h
      obtain ⟨rfl, rfl⟩ := List.cons.inj hs
      exact ⟨hd, ht⟩

theorem accepts_run (items : List (Item α)) (s : List α) :
    accepts (.run :: items) s = true ↔ ∃ a b, s = a ++ b ∧ accepts items b = true :=
  anySuffix_iff (accepts items) s

theorem accepts_append (ps qs : List (Item α)) (s : List α) :
    accepts (ps ++ qs) s = true ↔
      ∃ a b, s = a ++ b ∧ accepts ps a = true ∧ accepts qs b = true := by
  induction ps generalizing s with
  | nil =>
    constructor
    · intro h
      exact ⟨[], s, rfl, rfl, h⟩
    · intro hgiven
      obtain ⟨a, b, rfl, ha, hb⟩ := hgiven
      have hnil : a = [] := List.isEmpty_iff.mp ha
      rw [hnil]
      exact hb
  | cons p ps ih =>
    cases p with
    | one p =>
      rw [List.cons_append, accepts_one]
      constructor
      · intro hgiven
        obtain ⟨c, t, rfl, hc, ht⟩ := hgiven
        obtain ⟨a, b, rfl, ha, hb⟩ := (ih t).mp ht
        exact ⟨c :: a, b, rfl, (accepts_one p ps _).mpr ⟨c, a, rfl, hc, ha⟩, hb⟩
      · intro hgiven
        obtain ⟨a, b, rfl, ha, hb⟩ := hgiven
        obtain ⟨c, t, rfl, hc, ht⟩ := (accepts_one p ps a).mp ha
        exact ⟨c, t ++ b, rfl, hc, (ih _).mpr ⟨t, b, rfl, ht, hb⟩⟩
    | run =>
      rw [List.cons_append, accepts_run]
      constructor
      · intro hgiven
        obtain ⟨x, y, rfl, hy⟩ := hgiven
        obtain ⟨a, b, rfl, ha, hb⟩ := (ih y).mp hy
        exact ⟨x ++ a, b, (List.append_assoc x a b).symm,
          (accepts_run ps _).mpr ⟨x, a, rfl, ha⟩, hb⟩
      · intro hgiven
        obtain ⟨a, b, rfl, ha, hb⟩ := hgiven
        obtain ⟨x, y, rfl, hy⟩ := (accepts_run ps a).mp ha
        exact ⟨x, y ++ b, List.append_assoc x y b, (ih _).mpr ⟨y, b, rfl, hy, hb⟩⟩

theorem accepts_single_run (s : List α) : accepts [.run] s = true :=
  (accepts_run [] s).mpr ⟨s, [], (List.append_nil s).symm, rfl⟩

theorem accepts_exactly [DecidableEq α] (t : List α) : accepts (t.map Item.exactly) t = true := by
  induction t with
  | nil => rfl
  | cons c t ih =>
    exact (accepts_one _ _ _).mpr ⟨c, t, rfl, decide_eq_true rfl, ih⟩

/-! ### Weaker patterns -/

/-- What the first item accepts the second accepts. -/
def Weaker : Item α → Item α → Prop
  | .one p, .one q => ∀ c, p c = true → q c = true
  | _, .run => True
  | .run, .one _ => False

theorem accepts_weaker (ps qs : List (Item α)) (h : List.Forall₂ Weaker ps qs) (s : List α)
    (hs : accepts ps s = true) : accepts qs s = true := by
  induction h generalizing s with
  | nil => exact hs
  | @cons p q ps qs hpq _ ih =>
    cases q with
    | one q =>
      cases p with
      | run => exact absurd hpq id
      | one p =>
        obtain ⟨c, t, rfl, hc, ht⟩ := (accepts_one p ps s).mp hs
        exact (accepts_one q qs _).mpr ⟨c, t, rfl, hpq c hc, ih t ht⟩
    | run =>
      cases p with
      | run =>
        obtain ⟨a, b, rfl, hb⟩ := (accepts_run ps s).mp hs
        exact (accepts_run qs _).mpr ⟨a, b, rfl, ih b hb⟩
      | one p =>
        obtain ⟨c, t, rfl, _, ht⟩ := (accepts_one p ps s).mp hs
        exact (accepts_run qs _).mpr ⟨[c], t, rfl, ih t ht⟩

theorem accepts_weaker_map {β : Type} (f g : β → Item α) (t : List β)
    (h : ∀ c, Weaker (f c) (g c)) (s : List α) (hs : accepts (t.map f) s = true) :
    accepts (t.map g) s = true := by
  refine accepts_weaker _ _ ?_ s hs
  rw [List.forall₂_map_left_iff, List.forall₂_map_right_iff, List.forall₂_same]
  exact fun c _ => h c

end Wildcard
