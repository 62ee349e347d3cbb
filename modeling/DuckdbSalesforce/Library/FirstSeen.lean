import Mathlib

/-!
# Keeping first appearances

Items arrive one after the other, each with a key; an item is kept when its key
has not been seen. What is kept is, for each key, the first item that has it, in
the order in which the keys appeared.
-/

namespace FirstSeen

variable {α κ : Type} [DecidableEq κ] (key : α → κ)

structure FirstAppearances (items kept : List α) : Prop where
  keys : ∀ k, k ∈ kept.map key ↔ k ∈ items.map key
  once : (kept.map key).Nodup
  first : ∀ x ∈ kept, items.find? (fun y => key y = key x) = some x
  order : kept.Pairwise fun x y =>
    items.findIdx (fun z => key z = key x) < items.findIdx (fun z => key z = key y)

def keep (kept : List α) (x : α) : List α := if key x ∈ kept.map key then kept else kept ++ [x]

theorem appearances_nil : FirstAppearances key [] [] :=
  ⟨fun _ => Iff.rfl, List.nodup_nil, List.forall_mem_nil _, List.Pairwise.nil⟩

theorem findIdx_stays (items : List α) (x : α) (k : κ) (h : k ∈ items.map key) :
    (items ++ [x]).findIdx (fun z => key z = k) = items.findIdx (fun z => key z = k) := by
  obtain ⟨y, hy, hk⟩ := List.mem_map.mp h
  have hlt : items.findIdx (fun z => key z = k) < items.length :=
    List.findIdx_lt_length_of_exists ⟨y, hy, by simpa using hk⟩
  rw [List.findIdx_append, if_pos hlt]

theorem find_stays (items : List α) (x y : α) (k : κ)
    (h : items.find? (fun z => key z = k) = some y) :
    (items ++ [x]).find? (fun z => key z = k) = some y := by
  rw [List.find?_append, h, Option.some_or]

/-- One more item. -/
theorem appearances_keep (items kept : List α) (x : α) (h : FirstAppearances key items kept) :
    FirstAppearances key (items ++ [x]) (keep key kept x) := by
  have hmem : ∀ y ∈ kept, key y ∈ items.map key := fun y hy =>
    (h.keys (key y)).mp (List.mem_map_of_mem hy)
  have hfirst : ∀ y ∈ kept, (items ++ [x]).find? (fun z => key z = key y) = some y := by
    intro y hy
    exact find_stays key items x y (key y) (h.first y hy)
  have horder : kept.Pairwise fun y z =>
      (items ++ [x]).findIdx (fun w => key w = key y) < (items ++ [x]).findIdx (fun w => key w = key z) := by
    apply h.order.imp_of_mem
    intro y z hy hz hlt
    rw [findIdx_stays key items x _ (hmem y hy), findIdx_stays key items x _ (hmem z hz)]
    exact hlt
  unfold keep
  by_cases hseen : key x ∈ kept.map key
  · rw [if_pos hseen]
    refine ⟨?_, h.once, hfirst, horder⟩
    intro k
    rw [List.map_append, List.mem_append, ← h.keys k]
    refine ⟨Or.inl, ?_⟩
    intro hk
    rcases hk with hk | hk
    · exact hk
    · rw [List.mem_singleton.mp hk]
      exact hseen
  · rw [if_neg hseen]
    have hnew : key x ∉ items.map key := fun hx => hseen ((h.keys (key x)).mpr hx)
    have hnone : items.find? (fun z => key z = key x) = none := by
      rw [List.find?_eq_none]
      intro z hz heq
      apply hnew
      have hkey : key z = key x := by simpa using heq
      rw [← hkey]
      exact List.mem_map_of_mem hz
    refine ⟨?_, ?_, ?_, ?_⟩
    · intro k
      rw [List.map_append, List.map_append, List.mem_append, List.mem_append, h.keys k]
    · rw [List.map_append, List.nodup_append]
      refine ⟨h.once, List.nodup_singleton _, ?_⟩
      intro a ha b hb hab
      apply hseen
      have hb' : b = key x := List.mem_singleton.mp hb
      rw [← hb', ← hab]
      exact ha
    · intro y hy
      rcases List.mem_append.mp hy with hy | hy
      · exact hfirst y hy
      · rw [List.mem_singleton.mp hy, List.find?_append, hnone, Option.none_or]
        simp
    · rw [List.pairwise_append]
      refine ⟨horder, List.pairwise_singleton _ _, ?_⟩
      intro y hy z hz
      have hylt : items.findIdx (fun w => key w = key y) < items.length := by
        obtain ⟨w, hw, hk⟩ := List.mem_map.mp (hmem y hy)
        exact List.findIdx_lt_length_of_exists ⟨w, hw, by simpa using hk⟩
      have hlast : items.length ≤ (items ++ [x]).findIdx (fun w => key w = key x) := by
        have hfull : items.findIdx (fun w => key w = key x) = items.length :=
          List.findIdx_eq_length.mpr fun w hw => by
            simpa using List.find?_eq_none.mp hnone w hw
        rw [List.findIdx_append, hfull, if_neg (Nat.lt_irrefl _)]
        exact Nat.le_add_left _ _
      rw [List.mem_singleton.mp hz, findIdx_stays key items x _ (hmem y hy)]
      exact lt_of_lt_of_le hylt hlast

/-- Items that arrive after others. -/
theorem appearances_foldl (items more kept : List α) (h : FirstAppearances key items kept) :
    FirstAppearances key (items ++ more) (more.foldl (keep key) kept) := by
  induction more generalizing items kept with
  | nil =>
    rw [List.append_nil]
    exact h
  | cons x more ih =>
    have hnext := ih (items ++ [x]) (keep key kept x) (appearances_keep key items kept x h)
    rw [List.append_assoc] at hnext
    exact hnext

theorem appearances_map {β : Type} (f : α → β) (key' : β → κ) (hkey : ∀ x, key' (f x) = key x)
    (items kept : List α) (h : FirstAppearances key items kept) :
    FirstAppearances key' (items.map f) (kept.map f) := by
  have hmap : ∀ xs : List α, (xs.map f).map key' = xs.map key := by
    intro xs
    rw [List.map_map]
    exact List.map_congr_left fun x _ => hkey x
  refine ⟨?_, ?_, ?_, ?_⟩
  · intro k
    rw [hmap, hmap]
    exact h.keys k
  · rw [hmap]
    exact h.once
  · intro y hy
    obtain ⟨x, hx, rfl⟩ := List.mem_map.mp hy
    have hfound := h.first x hx
    rw [List.find?_map]
    simp only [Function.comp_def, hkey, hfound, Option.map_some]
  · rw [List.pairwise_map]
    apply h.order.imp
    intro x y hlt
    simp only [List.findIdx_map, Function.comp_def, hkey]
    exact hlt

end FirstSeen
