import Mathlib

/-!
# SQL aggregates

COUNT, COUNT(DISTINCT), MIN and MAX over a column, where NULL is `none`.
Distinctness is taken after a key, so that an equality coarser than that of the
values can be counted too.
-/

namespace SqlAggregates

variable {α β : Type*}

def values (xs : List (Option α)) : List α := xs.filterMap id

def count (xs : List (Option α)) : ℕ := (values xs).length

def countDistinct [DecidableEq β] (key : α → β) (xs : List (Option α)) : ℕ :=
  ((values xs).map key).dedup.length

/-- The least value for `lt`; NULL on no values. -/
def least (lt : α → α → Bool) (xs : List (Option α)) : Option α :=
  (values xs).foldl (fun acc x => match acc with
    | none => some x
    | some y => if lt x y then some x else some y) none

def greatest (lt : α → α → Bool) (xs : List (Option α)) : Option α :=
  least (fun x y => lt y x) xs

theorem mem_values (x : α) (xs : List (Option α)) : x ∈ values xs ↔ some x ∈ xs := by
  simp [values]

theorem dedup_length [DecidableEq α] (xs : List α) : xs.dedup.length = xs.toFinset.card := by
  rw [List.card_toFinset]

theorem countDistinct_eq_card [DecidableEq α] [DecidableEq β] (key : α → β)
    (xs : List (Option α)) :
    countDistinct key xs = ((values xs).toFinset.image key).card := by
  unfold countDistinct
  rw [dedup_length]
  congr 1
  ext y
  simp

/-- Two values with one key are the same value. -/
def KeyFaithful (key : α → β) (xs : List (Option α)) : Prop :=
  ∀ x y, some x ∈ xs → some y ∈ xs → key x = key y → x = y

/-- Counting keys counts values exactly when no two values share a key. -/
theorem countDistinct_key_iff [DecidableEq α] [DecidableEq β] (key : α → β)
    (xs : List (Option α)) :
    countDistinct key xs = countDistinct id xs ↔ KeyFaithful key xs := by
  rw [countDistinct_eq_card, countDistinct_eq_card, Finset.image_id, Finset.card_image_iff]
  constructor
  · intro h x y hx hy hkey
    exact h (by simpa [mem_values] using hx) (by simpa [mem_values] using hy) hkey
  · intro h x hx y hy hkey
    exact h x y (by simpa [mem_values] using hx) (by simpa [mem_values] using hy) hkey

theorem least_mem (lt : α → α → Bool) (xs : List (Option α)) (x : α) (h : least lt xs = some x) :
    some x ∈ xs := by
  rw [← mem_values]
  unfold least at h
  generalize values xs = vs at h
  have hfold : ∀ (vs : List α) (acc : Option α), vs.foldl (fun acc x => match acc with
      | none => some x
      | some y => if lt x y then some x else some y) acc = some x → acc = some x ∨ x ∈ vs := by
    intro vs
    induction vs with
    | nil => exact fun acc hacc => Or.inl hacc
    | cons v vs ih =>
      intro acc hacc
      rcases ih _ hacc with hhead | hmem
      · cases acc with
        | none =>
          have hv : v = x := Option.some.inj hhead
          exact Or.inr (by rw [hv]; exact List.mem_cons_self)
        | some y =>
          simp only at hhead
          split at hhead
          · have hv : v = x := Option.some.inj hhead
            exact Or.inr (by rw [hv]; exact List.mem_cons_self)
          · exact Or.inl hhead
      · exact Or.inr (List.mem_cons_of_mem _ hmem)
  rcases hfold vs none h with hnone | hmem
  · cases hnone
  · exact hmem

/-! ### Counting over groups -/

/-- The groups of a column, the NULL group among them. -/
def groups [DecidableEq α] (xs : List (Option α)) : List (Option α) := xs.dedup

theorem countDistinct_groups [DecidableEq α] (xs : List (Option α)) :
    countDistinct id xs = ((groups xs).filter Option.isSome).length := by
  unfold countDistinct groups
  rw [List.map_id]
  have hmap : ((xs.dedup).filter Option.isSome).Perm ((values xs).dedup.map some) := by
    rw [List.perm_ext_iff_of_nodup]
    · intro g
      cases g with
      | none => simp
      | some x => simp [mem_values]
    · exact (List.nodup_dedup xs).filter _
    · exact (List.nodup_dedup _).map (Option.some_injective α)
  rw [hmap.length_eq, List.length_map]

/-- The groups a predicate counts: the others among the values are missed, and
the NULL group may be one too many. -/
def missed [DecidableEq α] (counted : Option α → Bool) (xs : List (Option α)) : ℕ :=
  ((groups xs).filter fun g => g.isSome && !counted g).length

def surplus [DecidableEq α] (counted : Option α → Bool) (xs : List (Option α)) : ℕ :=
  if none ∈ xs ∧ counted none = true then 1 else 0

theorem surplus_eq [DecidableEq α] (counted : Option α → Bool) (xs : List (Option α)) :
    ((groups xs).filter fun g => !g.isSome && counted g).length = surplus counted xs := by
  have hnodup := (List.nodup_dedup xs).filter fun g => !g.isSome && counted g
  unfold surplus groups
  by_cases h : none ∈ xs ∧ counted none = true
  · rw [if_pos h]
    have hperm : (xs.dedup.filter fun g => !g.isSome && counted g).Perm [none] := by
      rw [List.perm_ext_iff_of_nodup hnodup (List.nodup_singleton _)]
      intro g
      cases g with
      | none => simp [h.1, h.2]
      | some x => simp
    rw [hperm.length_eq, List.length_singleton]
  · rw [if_neg h, List.length_eq_zero_iff, List.filter_eq_nil_iff]
    intro g hg
    cases g with
    | none =>
      intro hcount
      exact h ⟨List.mem_dedup.mp hg, by simpa using hcount⟩
    | some x => simp

theorem filter_length_split (p q : α → Bool) (xs : List α) :
    (xs.filter p).length + (xs.filter fun x => q x && !p x).length =
      (xs.filter q).length + (xs.filter fun x => !q x && p x).length := by
  induction xs with
  | nil => rfl
  | cons x xs ih =>
    cases hp : p x <;> cases hq : q x <;> simp [hp, hq] <;> omega

/-- Counting groups counts the distinct values exactly when as many values are
missed as NULL groups are counted. -/
theorem counted_groups_iff [DecidableEq α] (counted : Option α → Bool) (xs : List (Option α)) :
    ((groups xs).filter counted).length = countDistinct id xs ↔
      missed counted xs = surplus counted xs := by
  have hsplit := filter_length_split counted Option.isSome (groups xs)
  rw [surplus_eq, ← countDistinct_groups] at hsplit
  unfold missed
  constructor
  · intro h
    omega
  · intro h
    omega

end SqlAggregates
