import Mathlib

/-!
# Fresh names by probing

A name has forms, the name itself first. Probing takes the first form that is
not used. What a run takes is said without running it, as what the items reach.
Names that are pairwise different may still be equal under a coarser key; then
one of them is an item's own name.
-/

namespace FreshName

section Probe
variable {α : Type} [DecidableEq α]

/-- The first form from the `k`-th on that is not used; `fuel` forms are tried. -/
def probe (form : ℕ → α) (used : List α) : ℕ → ℕ → α
  | 0, k => form k
  | fuel + 1, k => if form k ∈ used then probe form used fuel (k + 1) else form k

structure FirstFree (form : ℕ → α) (used : List α) (k : ℕ) : Prop where
  free : form k ∉ used
  before : ∀ j < k, form j ∈ used

/-- Different forms cannot all be used. -/
theorem exists_free (form : ℕ → α) (hinj : form.Injective) (used : List α) :
    ∃ k ≤ used.length, form k ∉ used := by
  by_contra hall
  push Not at hall
  have hsub : ((List.range (used.length + 1)).map form) ⊆ used := by
    intro a ha
    obtain ⟨k, hk, rfl⟩ := List.mem_map.mp ha
    exact hall k (by have := List.mem_range.mp hk; omega)
  have hnodup : ((List.range (used.length + 1)).map form).Nodup :=
    List.nodup_range.map hinj
  have hlen := (List.subperm_of_subset hnodup hsub).length_le
  rw [List.length_map, List.length_range] at hlen
  omega

theorem probe_from (form : ℕ → α) (used : List α) (fuel k : ℕ) (hbefore : ∀ j < k, form j ∈ used)
    (hfree : ∃ m < k + fuel, form m ∉ used) :
    ∃ m, probe form used fuel k = form m ∧ FirstFree form used m := by
  induction fuel generalizing k with
  | zero =>
    obtain ⟨m, hm, hfree⟩ := hfree
    exact absurd (hbefore m hm) hfree
  | succ fuel ih =>
    rw [probe]
    split
    · rename_i hused
      apply ih (k + 1)
      · intro j hj
        rcases Nat.lt_succ_iff_lt_or_eq.mp hj with hlt | rfl
        · exact hbefore j hlt
        · exact hused
      · obtain ⟨m, hm, hfree⟩ := hfree
        exact ⟨m, by omega, hfree⟩
    · rename_i hunused
      exact ⟨k, rfl, hunused, hbefore⟩

/-- One try more than there are used names is enough. -/
theorem probe_free (form : ℕ → α) (hinj : form.Injective) (used : List α) :
    ∃ m, probe form used (used.length + 1) 0 = form m ∧ FirstFree form used m := by
  obtain ⟨k, hk, hfree⟩ := exists_free form hinj used
  exact probe_from form used _ 0 (by simp) ⟨k, by omega, hfree⟩

end Probe

section Run
variable {α β κ : Type} [DecidableEq α]

/-- The names of a list of items, each the first form of the item that no name
before has. -/
def names (form : β → ℕ → α) (used : List α) : List β → List α
  | [] => []
  | b :: bs =>
    let name := probe (form b) used (used.length + 1) 0
    name :: names form (used ++ [name]) bs

/-- A form of an item is reached when the items before it reach all its earlier
forms. -/
inductive Reached (form : β → ℕ → α) : List β → α → Prop
  | form (before : List β) (b : β) (after : List β) (k : ℕ) :
      (∀ j < k, Reached form before (form b j)) → Reached form (before ++ b :: after) (form b k)

variable (form : β → ℕ → α)

theorem names_length (used : List α) (bs : List β) : (names form used bs).length = bs.length := by
  induction bs generalizing used with
  | nil => rfl
  | cons b bs ih => rw [names, List.length_cons, ih, List.length_cons]

variable (hinj : ∀ b, (form b).Injective)
include hinj

theorem names_form (used : List α) (bs : List β) (i : ℕ) (b : β) (hb : bs[i]? = some b) :
    ∃ k, (names form used bs)[i]? = some (form b k) := by
  induction bs generalizing used i with
  | nil => cases hb
  | cons a as ih =>
    obtain ⟨k, hk, _⟩ := probe_free (form a) (hinj a) used
    rw [names]
    cases i with
    | zero =>
      rw [← Option.some.inj hb]
      exact ⟨k, congrArg some hk⟩
    | succ i => exact ih _ i hb

theorem base_used (used : List α) (bs : List β) (b : β) (hb : b ∈ bs) :
    form b 0 ∈ used ++ names form used bs := by
  induction bs generalizing used with
  | nil => cases hb
  | cons a as ih =>
    obtain ⟨k, hk, hfirst⟩ := probe_free (form a) (hinj a) used
    rw [names, hk]
    rcases List.mem_cons.mp hb with rfl | hb
    · rcases Nat.eq_zero_or_pos k with rfl | hpos
      · simp
      · exact List.mem_append_left _ (hfirst.before 0 hpos)
    · have hin := ih (used ++ [form a k]) hb
      simpa only [List.append_assoc, List.cons_append, List.nil_append] using hin

omit hinj in
theorem names_append (used : List α) (bs cs : List β) :
    names form used (bs ++ cs) = names form used bs ++ names form (used ++ names form used bs) cs := by
  induction bs generalizing used with
  | nil => rw [List.nil_append, names, List.nil_append, List.append_nil]
  | cons b bs ih =>
    rw [List.cons_append, names, names, ih, List.cons_append]
    simp only [List.append_assoc, List.cons_append, List.nil_append]

theorem names_nodup (used : List α) (bs : List β) (hused : used.Nodup) :
    (used ++ names form used bs).Nodup := by
  induction bs generalizing used with
  | nil => rwa [names, List.append_nil]
  | cons b bs ih =>
    obtain ⟨k, hk, hfirst⟩ := probe_free (form b) (hinj b) used
    have hone : (used ++ [form b k]).Nodup := by
      rw [List.nodup_append]
      refine ⟨hused, List.nodup_singleton _, ?_⟩
      intro a ha c hc heq
      rw [List.mem_singleton.mp hc] at heq
      exact hfirst.free (heq ▸ ha)
    have hrest := ih (used ++ [form b k]) hone
    rw [names, hk]
    rwa [List.append_assoc, List.singleton_append] at hrest

/-! ### What is reached -/

omit [DecidableEq α] hinj in
theorem reached_form (bs : List β) (a : α) (h : Reached form bs a) :
    ∃ b ∈ bs, ∃ k, a = form b k := by
  cases h with
  | form before b after k hbefore => exact ⟨b, by simp, k, rfl⟩

omit [DecidableEq α] hinj in
theorem reached_base (bs : List β) (b : β) (hb : b ∈ bs) : Reached form bs (form b 0) := by
  obtain ⟨before, after, rfl⟩ := List.append_of_mem hb
  exact .form before b after 0 (fun j hj => absurd hj (Nat.not_lt_zero j))

omit [DecidableEq α] hinj in
theorem reached_more (bs more : List β) (a : α) (h : Reached form bs a) :
    Reached form (bs ++ more) a := by
  cases h with
  | form before b after k hbefore =>
    rw [List.append_assoc, List.cons_append]
    exact .form before b (after ++ more) k hbefore

/-- The names taken are those that are reached. -/
theorem mem_names_iff (bs : List β) (a : α) : a ∈ names form [] bs ↔ Reached form bs a := by
  constructor
  · intro ha
    induction bs using List.reverseRecOn generalizing a with
    | nil => cases ha
    | append_singleton bs b ih =>
      obtain ⟨k, hk, hfirst⟩ := probe_free (form b) (hinj b) ([] ++ names form [] bs)
      rw [names_append form, names, hk] at ha
      rcases List.mem_append.mp ha with ha | ha
      · exact reached_more form bs [b] a (ih a ha)
      · rw [List.mem_singleton.mp ha]
        refine .form bs b [] k ?_
        intro j hj
        have hin := hfirst.before j hj
        rw [List.nil_append] at hin
        exact ih _ hin
  · intro h
    induction h with
    | form before b after k _ ih =>
      obtain ⟨m, hm, hfirst⟩ := probe_free (form b) (hinj b) ([] ++ names form [] before)
      rw [names_append form, names, hm]
      rw [List.nil_append] at hfirst
      rcases Nat.lt_trichotomy k m with hlt | heq | hgt
      · exact List.mem_append_left _ (hfirst.before k hlt)
      · rw [heq]
        exact List.mem_append_right _ List.mem_cons_self
      · exact absurd (ih m hgt) hfirst.free

variable (key : α → κ)

/-- Under a key that tells the forms of different items apart wherever it tells the
items themselves apart, names can only clash with the first form of an item. -/
theorem names_distinct_iff (bs : List β)
    (hsame : ∀ b d, form b 0 = form d 0 → form b = form d)
    (hlater : ∀ b d j k, key (form b (j + 1)) = key (form d (k + 1)) →
      j = k ∧ key (form b 0) = key (form d 0)) :
    ((names form [] bs).map key).Nodup ↔
      ∀ b ∈ bs, ∀ a, Reached form bs a → key (form b 0) = key a → form b 0 = a := by
  constructor
  · intro hdistinct b hb a ha hkey
    exact List.inj_on_of_nodup_map hdistinct
      ((mem_names_iff form hinj bs _).mpr (reached_base form bs b hb))
      ((mem_names_iff form hinj bs a).mpr ha) hkey
  · intro hbases
    refine List.Nodup.map_on ?_ (names_nodup form hinj [] bs List.nodup_nil)
    intro x hx y hy hkey
    have hxr := (mem_names_iff form hinj bs x).mp hx
    have hyr := (mem_names_iff form hinj bs y).mp hy
    obtain ⟨b, hb, j, rfl⟩ := reached_form form bs x hxr
    obtain ⟨d, hd, k, rfl⟩ := reached_form form bs y hyr
    cases j with
    | zero => exact hbases b hb _ hyr hkey
    | succ j =>
      cases k with
      | zero => exact (hbases d hd _ hxr hkey.symm).symm
      | succ k =>
        obtain ⟨rfl, hfirst⟩ := hlater b d j k hkey
        have heq := hbases b hb _ (reached_base form bs d hd) hfirst
        rw [hsame b d heq]

end Run

end FreshName
