import Mathlib

/-!
# Masking words in a text

The occurrences of a word are replaced by a mask from left to right, and this
for one word after another. Against it stand the occurrences in the original:
an occurrence is taken when none of its characters is in one taken before. As
long as no word is read over a mask, what is masked is what is taken.
-/

namespace Masking
variable {α : Type}

/-- A character of the text, one of the original with its place in it, or one of
a mask. -/
structure Cell (α : Type) where
  value : α
  origin : Option ℕ
  deriving DecidableEq, Repr

def values (t : List (Cell α)) : List α := t.map Cell.value

def origins (t : List (Cell α)) : List ℕ := t.filterMap Cell.origin

def cellsFrom (start : ℕ) : List α → List (Cell α)
  | [] => []
  | a :: t => ⟨a, some start⟩ :: cellsFrom (start + 1) t

def maskCells (mask : List α) : List (Cell α) := mask.map fun a => ⟨a, none⟩

/-- A kept character, or an occurrence that has been taken. -/
inductive Slot (α : Type) where
  | kept (c : Cell α)
  | taken (cells : List (Cell α))

def Slot.content : Slot α → List (Cell α)
  | .kept c => [c]
  | .taken cells => cells

def content (xs : List (Slot α)) : List (Cell α) := xs.flatMap Slot.content

def Slot.shown (mask : List α) : Slot α → List (Cell α)
  | .kept c => [c]
  | .taken _ => maskCells mask

/-- The text with the taken occurrences replaced by the mask. -/
def view (mask : List α) (xs : List (Slot α)) : List (Cell α) := xs.flatMap (Slot.shown mask)

def Slot.takenPlaces : Slot α → List ℕ
  | .kept _ => []
  | .taken cells => origins cells

def takenPlaces (xs : List (Slot α)) : List ℕ := xs.flatMap Slot.takenPlaces

/-- The word can be read at a place that includes a character of a mask. -/
def ReadsMask (word : List α) (t : List (Cell α)) : Prop :=
  ∃ a m b, t = a ++ m ++ b ∧ values m = word ∧ ∃ c ∈ m, c.origin = none

/-- The place lies in an occurrence of one of the words. -/
def InWord (text : List α) (words : List (List α)) (p : ℕ) : Prop :=
  ∃ w ∈ words, ∃ i, w <+: text.drop i ∧ i ≤ p ∧ p < i + w.length

section
variable [DecidableEq α]

/-- One word, `k` cells of the last occurrence still to be passed over. -/
def maskAll (mask word : List α) : ℕ → List (Cell α) → List (Cell α)
  | _, [] => []
  | k + 1, _ :: t => maskAll mask word k t
  | 0, c :: t =>
    if word.isPrefixOf (values (c :: t)) then
      maskCells mask ++ maskAll mask word (word.length - 1) t
    else c :: maskAll mask word 0 t

def maskWord (mask : List α) (t : List (Cell α)) (word : List α) : List (Cell α) :=
  if word = [] then t else maskAll mask word 0 t

def maskWords (mask : List α) (words : List (List α)) (t : List (Cell α)) : List (Cell α) :=
  words.foldl (maskWord mask) t

/-- The cells of an occurrence at the head of which all is kept. -/
def occurrence : List α → List (Slot α) → Option (List (Cell α))
  | [], _ => some []
  | a :: w, .kept c :: xs => if c.value = a then (occurrence w xs).map (c :: ·) else none
  | _ :: _, _ => none

def takeAll (word : List α) : ℕ → List (Slot α) → List (Slot α)
  | _, [] => []
  | k + 1, _ :: xs => takeAll word k xs
  | 0, x :: xs =>
    match occurrence word (x :: xs) with
    | some cells => .taken cells :: takeAll word (word.length - 1) xs
    | none => x :: takeAll word 0 xs

def takeWord (xs : List (Slot α)) (word : List α) : List (Slot α) :=
  if word = [] then xs else takeAll word 0 xs

/-- The occurrences taken in the text, for the words in their order. -/
def takeWords (text : List α) (words : List (List α)) : List (Slot α) :=
  words.foldl takeWord ((cellsFrom 0 text).map .kept)

end

/-! ### Cells -/

theorem values_append (a b : List (Cell α)) : values (a ++ b) = values a ++ values b :=
  List.map_append

theorem origins_append (a b : List (Cell α)) : origins (a ++ b) = origins a ++ origins b :=
  List.filterMap_append

theorem values_cellsFrom (start : ℕ) (t : List α) : values (cellsFrom start t) = t := by
  induction t generalizing start with
  | nil => rfl
  | cons a t ih =>
    rw [cellsFrom, values, List.map_cons]
    exact congrArg (a :: ·) (ih (start + 1))

theorem origins_cellsFrom (start : ℕ) (t : List α) :
    origins (cellsFrom start t) = List.range' start t.length := by
  induction t generalizing start with
  | nil => rfl
  | cons a t ih =>
    rw [List.length_cons, List.range'_succ, ← ih (start + 1)]
    rfl

theorem origins_mask (mask : List α) : origins (maskCells mask) = [] := by
  rw [origins, List.filterMap_eq_nil_iff]
  intro c hc
  obtain ⟨a, -, rfl⟩ := List.mem_map.mp hc
  rfl

theorem values_mask (mask : List α) : values (maskCells mask) = mask := by
  rw [values, maskCells, List.map_map]
  exact List.map_id mask

theorem view_cons (mask : List α) (x : Slot α) (xs : List (Slot α)) :
    view mask (x :: xs) = x.shown mask ++ view mask xs := List.flatMap_cons

theorem view_append (mask : List α) (xs ys : List (Slot α)) :
    view mask (xs ++ ys) = view mask xs ++ view mask ys := List.flatMap_append

theorem content_cons (x : Slot α) (xs : List (Slot α)) :
    content (x :: xs) = x.content ++ content xs := List.flatMap_cons

theorem content_append (xs ys : List (Slot α)) : content (xs ++ ys) = content xs ++ content ys :=
  List.flatMap_append

theorem view_kept (mask : List α) (cells : List (Cell α)) :
    view mask (cells.map .kept) = cells := by
  induction cells with
  | nil => rfl
  | cons c cells ih =>
    rw [List.map_cons, view_cons, ih]
    rfl

theorem content_kept (cells : List (Cell α)) : content (cells.map .kept) = cells := by
  induction cells with
  | nil => rfl
  | cons c cells ih =>
    rw [List.map_cons, content_cons, ih]
    rfl

theorem mem_origins (t : List (Cell α)) (p : ℕ) :
    p ∈ origins t ↔ ∃ c ∈ t, c.origin = some p := List.mem_filterMap

theorem prefix_values (t : List (Cell α)) (w : List α) (h : w <+: values t) :
    ∃ m b, t = m ++ b ∧ values m = w := by
  refine ⟨t.take w.length, t.drop w.length, (List.take_append_drop _ t).symm, ?_⟩
  rw [values, List.map_take]
  exact (List.prefix_iff_eq_take.mp h).symm

theorem infix_values (t : List (Cell α)) (w : List α) (h : w <:+: values t) :
    ∃ a m b, t = a ++ m ++ b ∧ values m = w := by
  obtain ⟨u, v, huv⟩ := h
  rw [List.append_assoc] at huv
  have hdrop : w <+: values (t.drop u.length) := by
    rw [values, List.map_drop]
    show w <+: (values t).drop u.length
    rw [← huv, List.drop_left]
    exact List.prefix_append w v
  obtain ⟨m, b, hm, hvalues⟩ := prefix_values _ w hdrop
  exact ⟨t.take u.length, m, b, by rw [List.append_assoc, ← hm, List.take_append_drop], hvalues⟩

theorem values_ne (m : List (Cell α)) (w : List α) (hm : values m = w) (hw : w ≠ []) : m ≠ [] := by
  intro hnil
  rw [hnil] at hm
  exact hw hm.symm

theorem readsMask_values (w : List α) (t : List (Cell α)) (h : ReadsMask w t) :
    w ≠ [] ∧ w <:+: values t := by
  obtain ⟨a, m, b, hsplit, hvalues, c, hc, -⟩ := h
  refine ⟨?_, values a, values b, ?_⟩
  · rw [← hvalues]
    exact List.ne_nil_of_mem (List.mem_map_of_mem hc)
  · rw [hsplit, values_append, values_append, hvalues]

theorem readsMask_append (w : List α) (a t : List (Cell α)) (h : ReadsMask w t) :
    ReadsMask w (a ++ t) := by
  obtain ⟨a', m, b, rfl, hm, hc⟩ := h
  exact ⟨a ++ a', m, b, by simp, hm, hc⟩

/-- The head of a mask is no character of the original. -/
theorem mask_head (mask : List α) (hmask : mask ≠ []) (t m b : List (Cell α))
    (h : maskCells mask ++ t = m ++ b) (hm : m ≠ []) : ∃ c ∈ m, c.origin = none := by
  obtain ⟨a, mask, rfl⟩ := List.exists_cons_of_ne_nil hmask
  obtain ⟨c, m, rfl⟩ := List.exists_cons_of_ne_nil hm
  have hc : (⟨a, none⟩ : Cell α) = c := (List.cons.inj h).1
  exact ⟨c, List.mem_cons_self, by rw [← hc]⟩

/-- An occurrence in the view that is read over no mask is kept as it stands. -/
theorem view_reads (mask : List α) (hmask : mask ≠ []) (xs : List (Slot α)) (m b : List (Cell α))
    (h : view mask xs = m ++ b) (hplain : ¬ ∃ c ∈ m, c.origin = none) :
    ∃ ys, xs = m.map .kept ++ ys := by
  induction m generalizing xs with
  | nil => exact ⟨xs, rfl⟩
  | cons c m ih =>
    match xs with
    | [] => cases h
    | .taken cells :: xs =>
      rw [view_cons] at h
      exact absurd (mask_head mask hmask _ _ b h (List.cons_ne_nil c m)) hplain
    | .kept d :: xs =>
      rw [view_cons] at h
      obtain ⟨hd, hrest⟩ := List.cons.inj h
      have hplain' : ¬ ∃ c ∈ m, c.origin = none := by
        intro hmask'
        obtain ⟨e, he, hnone⟩ := hmask'
        exact hplain ⟨e, List.mem_cons_of_mem c he, hnone⟩
      obtain ⟨ys, rfl⟩ := ih xs hrest hplain'
      exact ⟨ys, by rw [hd]; rfl⟩

/-! ### One word -/

section
variable [DecidableEq α]

theorem maskAll_skip (mask word : List α) (k : ℕ) (t : List (Cell α)) :
    maskAll mask word k t = maskAll mask word 0 (t.drop k) := by
  induction k generalizing t with
  | zero => rfl
  | succ k ih =>
    cases t with
    | nil => rfl
    | cons c t => rw [maskAll, ih, List.drop_succ_cons]

theorem takeAll_skip (word : List α) (k : ℕ) (xs : List (Slot α)) :
    takeAll word k xs = takeAll word 0 (xs.drop k) := by
  induction k generalizing xs with
  | zero => rfl
  | succ k ih =>
    cases xs with
    | nil => rfl
    | cons x xs => rw [takeAll, ih, List.drop_succ_cons]

theorem maskAll_here (mask word : List α) (hw : word ≠ []) (m t : List (Cell α))
    (hm : values m = word) :
    maskAll mask word 0 (m ++ t) = maskCells mask ++ maskAll mask word 0 t := by
  subst hm
  cases m with
  | nil => exact absurd rfl hw
  | cons c m =>
    have hprefix : (values (c :: m)).isPrefixOf (values (c :: (m ++ t))) = true :=
      List.isPrefixOf_iff_prefix.mpr ⟨values t, (values_append (c :: m) t).symm⟩
    have hlen : (values (c :: m)).length - 1 = m.length := by
      simp [values]
    rw [List.cons_append, maskAll, if_pos hprefix, hlen, maskAll_skip, List.drop_left]

/-- Where no occurrence starts the text stays. -/
theorem maskAll_over (mask word : List α) (u t : List (Cell α))
    (h : ∀ j < u.length, ¬ word <+: values ((u ++ t).drop j)) :
    maskAll mask word 0 (u ++ t) = u ++ maskAll mask word 0 t := by
  induction u with
  | nil => rfl
  | cons c u ih =>
    have hhere : ¬ word.isPrefixOf (values (c :: (u ++ t))) = true := by
      rw [List.isPrefixOf_iff_prefix]
      exact h 0 (Nat.zero_lt_succ _)
    rw [List.cons_append, maskAll, if_neg hhere, List.cons_append, ih]
    intro j hj
    exact h (j + 1) (Nat.succ_lt_succ hj)

theorem maskAll_absent (mask word : List α) (t : List (Cell α)) (h : ¬ word <:+: values t) :
    maskAll mask word 0 t = t := by
  have hover := maskAll_over mask word t [] fun j _ hj => h (by
    rw [List.append_nil, values, List.map_drop] at hj
    exact hj.isInfix.trans (List.drop_suffix j (values t)).isInfix)
  rwa [List.append_nil, maskAll, List.append_nil] at hover

theorem occurrence_some (word : List α) (xs : List (Slot α)) (cells : List (Cell α))
    (h : occurrence word xs = some cells) :
    values cells = word ∧ ∃ ys, xs = cells.map .kept ++ ys := by
  induction word generalizing xs cells with
  | nil =>
    have hcells : [] = cells := Option.some.inj h
    subst hcells
    exact ⟨rfl, xs, rfl⟩
  | cons a w ih =>
    match xs with
    | [] => cases h
    | .taken _ :: _ => cases h
    | .kept c :: xs =>
      rw [occurrence] at h
      by_cases hc : c.value = a
      · rw [if_pos hc] at h
        obtain ⟨more, hmore, rfl⟩ := Option.map_eq_some_iff.mp h
        obtain ⟨hvalues, ys, rfl⟩ := ih xs more hmore
        exact ⟨by rw [values, List.map_cons, hc, ← hvalues]; rfl, ys, rfl⟩
      · rw [if_neg hc] at h
        cases h

theorem occurrence_kept (cells : List (Cell α)) (ys : List (Slot α)) :
    occurrence (values cells) (cells.map .kept ++ ys) = some cells := by
  induction cells with
  | nil => rfl
  | cons c cells ih =>
    have hcons : occurrence (values (c :: cells)) ((c :: cells).map .kept ++ ys) =
        if c.value = c.value then (occurrence (values cells) (cells.map .kept ++ ys)).map (c :: ·)
        else none := rfl
    rw [hcons, if_pos rfl, ih]
    rfl

theorem takeAll_here (word : List α) (hw : word ≠ []) (cells : List (Cell α))
    (ys : List (Slot α)) (hcells : values cells = word) :
    takeAll word 0 (cells.map .kept ++ ys) = .taken cells :: takeAll word 0 ys := by
  subst hcells
  have hoccurrence := occurrence_kept cells ys
  cases cells with
  | nil => exact absurd rfl hw
  | cons c cells =>
    have hlen : (values (c :: cells)).length - 1 = (cells.map Slot.kept).length := by
      simp [values]
    rw [List.map_cons, List.cons_append] at hoccurrence ⊢
    rw [takeAll, hoccurrence]
    show _ :: takeAll _ ((values (c :: cells)).length - 1) _ = _
    rw [hlen, takeAll_skip, List.drop_left]

theorem takeAll_next (word : List α) (x : Slot α) (xs : List (Slot α))
    (h : occurrence word (x :: xs) = none) :
    takeAll word 0 (x :: xs) = x :: takeAll word 0 xs := by
  rw [takeAll, h]

/-- The induction along the occurrences that are taken. -/
theorem take_induction (word : List α) (hw : word ≠ []) (P : List (Slot α) → Prop) (nil : P [])
    (here : ∀ cells ys, values cells = word → P ys → P (cells.map .kept ++ ys))
    (next : ∀ x xs, occurrence word (x :: xs) = none → P xs → P (x :: xs)) (xs : List (Slot α)) :
    P xs := by
  induction hn : xs.length using Nat.strong_induction_on generalizing xs with
  | _ n ih =>
    cases xs with
    | nil => exact nil
    | cons x rest =>
      cases hoccurrence : occurrence word (x :: rest) with
      | none => exact next x rest hoccurrence (ih rest.length (by simp [← hn]) rest rfl)
      | some cells =>
        obtain ⟨hvalues, ys, hys⟩ := occurrence_some word _ cells hoccurrence
        have hpos := List.length_pos_of_ne_nil (values_ne cells word hvalues hw)
        rw [hys] at hn ⊢
        rw [List.length_append, List.length_map] at hn
        exact here cells ys hvalues (ih ys.length (by omega) ys rfl)

theorem takeAll_content (word : List α) (hw : word ≠ []) (xs : List (Slot α)) :
    content (takeAll word 0 xs) = content xs := by
  induction xs using take_induction word hw with
  | nil => rfl
  | here cells ys hvalues ih =>
    rw [takeAll_here word hw cells ys hvalues, content_cons, ih, content_append, content_kept]
    rfl
  | next x xs hnone ih => rw [takeAll_next word x xs hnone, content_cons, content_cons, ih]

/-- While the word is read over no mask, the occurrences found in the view are
those that are taken. -/
theorem maskAll_view (mask word : List α) (hmask : mask ≠ []) (hw : word ≠ [])
    (xs : List (Slot α)) (hclear : ¬ ReadsMask word (view mask xs)) :
    maskAll mask word 0 (view mask xs) = view mask (takeAll word 0 xs) := by
  induction xs using take_induction word hw with
  | nil => rfl
  | here cells ys hvalues ih =>
    rw [view_append, view_kept] at hclear ⊢
    rw [maskAll_here mask word hw cells _ hvalues, takeAll_here word hw cells ys hvalues, view_cons,
      ih fun h => hclear (readsMask_append word cells _ h)]
    rfl
  | next x xs hnone ih =>
    rw [takeAll_next word x xs hnone, view_cons, view_cons]
    rw [view_cons] at hclear
    rw [maskAll_over, ih fun h => hclear (readsMask_append word _ _ h)]
    -- an occurrence that starts in this slot is read over a mask
    intro j hj hword
    obtain ⟨m, b, hm, hvalues⟩ := prefix_values _ word hword
    have hmne := values_ne m word hvalues hw
    have hsplit : x.shown mask ++ view mask xs = (x.shown mask ++ view mask xs).take j ++ m ++ b := by
      rw [List.append_assoc, ← hm, List.take_append_drop]
    have hplain : ¬ ∃ c ∈ m, c.origin = none := fun hc => hclear ⟨_, m, b, hsplit, hvalues, hc⟩
    cases x with
    | kept c =>
      have hj0 : j = 0 := Nat.lt_one_iff.mp hj
      rw [hj0, List.drop_zero, ← view_cons] at hm
      obtain ⟨ys, hys⟩ := view_reads mask hmask _ m b hm hplain
      rw [hys, ← hvalues, occurrence_kept] at hnone
      cases hnone
    | taken cells =>
      have hlt : j < mask.length := by simpa [Slot.shown, maskCells] using hj
      have hdrop : (maskCells mask ++ view mask xs).drop j =
          maskCells (mask.drop j) ++ view mask xs := by
        rw [List.drop_append_of_le_length (by simpa [maskCells] using Nat.le_of_lt hlt), maskCells,
          maskCells, List.map_drop]
      have hrest : mask.drop j ≠ [] := by
        intro hnil
        have hle := List.drop_eq_nil_iff.mp hnil
        omega
      exact hplain (mask_head (mask.drop j) hrest _ m b (hdrop.symm.trans hm) hmne)

/-! ### All the words -/

/-- A word is read over a mask when its turn comes. -/
def ReadsOnTheWay (mask text : List α) (words : List (List α)) : Prop :=
  ∃ done w todo, words = done ++ w :: todo ∧ ReadsMask w (view mask (takeWords text done))

/-- Every place in an occurrence lies in one that is taken. -/
def Covered (text : List α) (words : List (List α)) : Prop :=
  ∀ p, InWord text words p → p ∈ takenPlaces (takeWords text words)

/-- Nothing of the words is left. -/
structure Masked (mask text : List α) (words : List (List α)) : Prop where
  absent : ∀ w ∈ words, w ≠ [] → ¬ w <:+: values (maskWords mask words (cellsFrom 0 text))
  replaced : ∀ p, InWord text words p → p ∉ origins (maskWords mask words (cellsFrom 0 text))

theorem maskWord_view (mask word : List α) (hmask : mask ≠ []) (xs : List (Slot α))
    (hclear : ¬ ReadsMask word (view mask xs)) :
    maskWord mask (view mask xs) word = view mask (takeWord xs word) := by
  unfold maskWord takeWord
  by_cases hw : word = []
  · rw [if_pos hw, if_pos hw]
  · rw [if_neg hw, if_neg hw, maskAll_view mask word hmask hw xs hclear]

theorem takeWords_concat (text : List α) (done : List (List α)) (w : List α) :
    takeWords text (done ++ [w]) = takeWord (takeWords text done) w := by
  rw [takeWords, List.foldl_append]
  rfl

theorem maskWords_concat (mask : List α) (done : List (List α)) (w : List α)
    (t : List (Cell α)) : maskWords mask (done ++ [w]) t = maskWord mask (maskWords mask done t) w := by
  rw [maskWords, List.foldl_append]
  rfl

theorem maskWords_view (mask text : List α) (hmask : mask ≠ []) (words : List (List α))
    (hway : ¬ ReadsOnTheWay mask text words) :
    maskWords mask words (cellsFrom 0 text) = view mask (takeWords text words) := by
  induction words using List.reverseRecOn with
  | nil => exact (view_kept mask _).symm
  | append_singleton done w ih =>
    have hdone : ¬ ReadsOnTheWay mask text done := by
      intro hearlier
      obtain ⟨done', w', todo, hsplit, hreads⟩ := hearlier
      exact hway ⟨done', w', todo ++ [w], by rw [hsplit]; simp, hreads⟩
    have hlast : ¬ ReadsMask w (view mask (takeWords text done)) :=
      fun hreads => hway ⟨done, w, [], rfl, hreads⟩
    rw [maskWords_concat, takeWords_concat, ih hdone, maskWord_view mask w hmask _ hlast]

theorem takeWords_content (text : List α) (words : List (List α)) :
    content (takeWords text words) = cellsFrom 0 text := by
  induction words using List.reverseRecOn with
  | nil => exact content_kept _
  | append_singleton done w ih =>
    rw [takeWords_concat, takeWord]
    by_cases hw : w = []
    · rw [if_pos hw, ih]
    · rw [if_neg hw, takeAll_content w hw, ih]

end

/-! ### Places -/

theorem origins_view (mask : List α) (xs : List (Slot α)) :
    (origins (view mask xs) ++ takenPlaces xs).Perm (origins (content xs)) := by
  induction xs with
  | nil => exact List.Perm.nil
  | cons x xs ih =>
    rw [view_cons, content_cons, origins_append, origins_append, takenPlaces, List.flatMap_cons]
    cases x with
    | kept c =>
      rw [List.append_assoc]
      exact ih.append_left _
    | taken cells =>
      have hmask : origins ((Slot.taken cells).shown mask) = [] := origins_mask mask
      rw [hmask, List.nil_append]
      exact (List.perm_append_comm_assoc _ _ _).trans (ih.append_left _)

theorem cellsFrom_split (start : ℕ) (t : List α) (a b : List (Cell α)) (c : Cell α)
    (h : cellsFrom start t = a ++ c :: b) : c.origin = some (start + a.length) := by
  induction a generalizing start t with
  | nil =>
    cases t with
    | nil => cases h
    | cons v t => rw [← (List.cons.inj h).1, List.length_nil, Nat.add_zero]
  | cons d a ih =>
    cases t with
    | nil => cases h
    | cons v t =>
      rw [ih (start + 1) t (List.cons.inj h).2, List.length_cons]
      congr 1
      omega

theorem inWord_lt (text : List α) (words : List (List α)) (p : ℕ) (h : InWord text words p) :
    p < text.length := by
  obtain ⟨w, -, i, hprefix, hlow, hhigh⟩ := h
  have hle := hprefix.length_le
  rw [List.length_drop] at hle
  omega

/-- What is read over no mask stands in the original. -/
theorem view_infix (mask : List α) (hmask : mask ≠ []) (xs : List (Slot α)) (m : List (Cell α))
    (hm : m ≠ []) (hplain : ¬ ∃ c ∈ m, c.origin = none) (h : m <:+: view mask xs) :
    m <:+: content xs := by
  induction xs with
  | nil => exact absurd (List.infix_nil.mp h) hm
  | cons x xs ih =>
    rw [content_cons]
    obtain ⟨a, b, hab⟩ := h
    rw [view_cons, List.append_assoc] at hab
    rcases List.append_eq_append_iff.mp hab with ⟨u, hshown, hrest⟩ | ⟨u, -, hrest⟩
    · -- `m` starts in what this slot shows, or right behind it
      cases x with
      | kept c =>
        cases a with
        | nil =>
          obtain ⟨ys, hys⟩ := view_reads mask hmask (.kept c :: xs) m b
            (by rw [view_cons, ← hab, List.nil_append]) hplain
          rw [← content_cons, hys, content_append, content_kept]
          exact (List.prefix_append m _).isInfix
        | cons d a =>
          have hu : u = [] := by
            have hlen := congrArg List.length hshown
            simp only [Slot.shown, List.length_append, List.length_cons, List.length_nil] at hlen
            exact List.length_eq_zero_iff.mp (by omega)
          rw [hu, List.nil_append] at hrest
          exact (ih ⟨[], b, by rw [List.nil_append, hrest]⟩).trans
            (List.suffix_append _ _).isInfix
      | taken cells =>
        by_cases hu : u = []
        · rw [hu, List.nil_append] at hrest
          exact (ih ⟨[], b, by rw [List.nil_append, hrest]⟩).trans
            (List.suffix_append _ _).isInfix
        · have hdrop : maskCells (mask.drop a.length) = u := by
            rw [maskCells, List.map_drop]
            show (Slot.shown mask (.taken cells)).drop a.length = u
            rw [hshown, List.drop_left]
          have hdropne : mask.drop a.length ≠ [] := by
            intro hnil
            rw [hnil] at hdrop
            exact hu hdrop.symm
          rw [← hdrop] at hrest
          exact absurd (mask_head _ hdropne _ m b hrest.symm hm) hplain
    · exact (ih ⟨u, b, by rw [hrest, List.append_assoc]⟩).trans (List.suffix_append _ _).isInfix

/-- A place of the original is shown or taken, and not both. -/
theorem origins_shown [DecidableEq α] (mask text : List α) (words : List (List α)) (p : ℕ)
    (hp : p < text.length) :
    p ∈ origins (view mask (takeWords text words)) ↔ p ∉ takenPlaces (takeWords text words) := by
  have hperm := origins_view mask (takeWords text words)
  rw [takeWords_content, origins_cellsFrom] at hperm
  have hnodup := hperm.symm.nodup (List.nodup_range' 1)
  have hmem := (hperm.mem_iff (a := p)).mpr (by rw [List.mem_range'_1]; omega)
  constructor
  · intro hshown htaken
    exact List.disjoint_of_nodup_append hnodup hshown htaken
  · intro htaken
    exact (List.mem_append.mp hmem).resolve_right htaken

/-- A word that can be read in the view over no mask stands in the original, and
its first character is shown. -/
theorem view_word [DecidableEq α] (mask text : List α) (hmask : mask ≠ [])
    (words : List (List α)) (w : List α) (hw : w ∈ words) (hne : w ≠ [])
    (hfound : w <:+: values (view mask (takeWords text words)))
    (hend : ¬ ReadsMask w (view mask (takeWords text words))) :
    ∃ p, InWord text words p ∧ p ∈ origins (view mask (takeWords text words)) := by
  obtain ⟨a, m, b, hsplit, hvalues⟩ := infix_values _ w hfound
  have hplain : ¬ ∃ c ∈ m, c.origin = none := fun hc => hend ⟨a, m, b, hsplit, hvalues, hc⟩
  have hmne := values_ne m w hvalues hne
  have hm : m <:+: cellsFrom 0 text := by
    rw [← takeWords_content text words]
    exact view_infix mask hmask _ m hmne hplain ⟨a, b, hsplit.symm⟩
  obtain ⟨c, m, rfl⟩ := List.exists_cons_of_ne_nil hmne
  obtain ⟨u, v, huv⟩ := hm
  have horigin := cellsFrom_split 0 text u (m ++ v) c (by rw [← huv]; simp)
  rw [Nat.zero_add] at horigin
  have hdrop : w <+: text.drop u.length := by
    have htext := congrArg values huv
    rw [values_cellsFrom, values_append, values_append, hvalues, List.append_assoc] at htext
    have hlen : (values u).length = u.length := List.length_map _
    rw [← htext, ← hlen, List.drop_left]
    exact List.prefix_append w _
  have hpos := List.length_pos_of_ne_nil hne
  refine ⟨u.length, ⟨w, hw, u.length, hdrop, le_refl _, by omega⟩, ?_⟩
  rw [mem_origins]
  exact ⟨c, by rw [hsplit]; simp, horigin⟩

/-- As long as no word is read over a mask on the way, nothing of the words is
left when all their characters are taken and none can be read in the end. -/
theorem masked_iff [DecidableEq α] (mask text : List α) (hmask : mask ≠ [])
    (words : List (List α)) (hway : ¬ ReadsOnTheWay mask text words) :
    Masked mask text words ↔ Covered text words ∧
      ∀ w ∈ words, ¬ ReadsMask w (view mask (takeWords text words)) := by
  have hview := maskWords_view mask text hmask words hway
  have hplace : ∀ p, InWord text words p →
      (p ∉ origins (view mask (takeWords text words)) ↔
        p ∈ takenPlaces (takeWords text words)) := by
    intro p hp
    rw [origins_shown mask text words p (inWord_lt text words p hp), not_not]
  constructor
  · intro h
    have habsent := h.absent
    have hreplaced := h.replaced
    rw [hview] at habsent hreplaced
    refine ⟨fun p hp => (hplace p hp).mp (hreplaced p hp), ?_⟩
    intro w hw hreads
    obtain ⟨hne, hfound⟩ := readsMask_values w _ hreads
    exact habsent w hw hne hfound
  · intro h
    obtain ⟨hcovered, hend⟩ := h
    refine ⟨?_, ?_⟩
    · rw [hview]
      intro w hw hne hfound
      obtain ⟨p, hp, hshown⟩ := view_word mask text hmask words w hw hne hfound (hend w hw)
      exact (hplace p hp).mpr (hcovered p hp) hshown
    · rw [hview]
      exact fun p hp => (hplace p hp).mpr (hcovered p hp)

/-! ### The mask in what is left -/

theorem maskAll_mask [DecidableEq α] (mask word : List α) (t : List (Cell α)) :
    maskAll mask word 0 t = t ∨ maskCells mask <:+: maskAll mask word 0 t := by
  induction t with
  | nil => exact Or.inl rfl
  | cons c t ih =>
    rw [maskAll]
    by_cases hhere : word.isPrefixOf (values (c :: t)) = true
    · rw [if_pos hhere]
      exact Or.inr (List.prefix_append _ _).isInfix
    · rw [if_neg hhere]
      rcases ih with hsame | hmask
      · rw [hsame]
        exact Or.inl rfl
      · exact Or.inr (hmask.trans (List.suffix_cons c _).isInfix)

theorem maskWords_mask [DecidableEq α] (mask : List α) (words : List (List α))
    (t : List (Cell α)) :
    maskWords mask words t = t ∨ maskCells mask <:+: maskWords mask words t := by
  induction words using List.reverseRecOn with
  | nil => exact Or.inl rfl
  | append_singleton done w ih =>
    rw [maskWords_concat, maskWord]
    by_cases hw : w = []
    · rw [if_pos hw]
      exact ih
    · rw [if_neg hw]
      rcases maskAll_mask mask w (maskWords mask done t) with hsame | hmask
      · rw [hsame]
        exact ih
      · exact Or.inr hmask

/-- A word inside of the mask is never masked. -/
theorem masked_mask [DecidableEq α] (mask text : List α) (words : List (List α))
    (h : Masked mask text words) (hsome : ∃ w ∈ words, w ≠ [] ∧ w <:+: text) :
    ∀ w ∈ words, w ≠ [] → ¬ w <:+: mask := by
  intro w hw hne hinside
  rcases maskWords_mask mask words (cellsFrom 0 text) with hsame | hmask
  · obtain ⟨v, hv, hvne, hoccurs⟩ := hsome
    refine h.absent v hv hvne ?_
    rw [hsame, values_cellsFrom]
    exact hoccurs
  · obtain ⟨a, b, hab⟩ := hmask
    refine h.absent w hw hne (hinside.trans ⟨values a, values b, ?_⟩)
    rw [← hab, values_append, values_append, values_mask]

/-! ### Words apart from the mask -/

/-- One lies in the other, or one begins with an end of the other. -/
def Overlap (u v : List α) : Prop :=
  u <:+: v ∨ v <:+: u ∨ (∃ m, m ≠ [] ∧ m <:+ u ∧ m <+: v) ∨ ∃ m, m ≠ [] ∧ m <+: u ∧ m <:+ v

theorem reads_front (mask : List α) (xs : List (Slot α))
    (hxs : ∀ c ∈ content xs, c.origin ≠ none) (m : List (Cell α)) (hm : m <+: view mask xs)
    (hc : ∃ c ∈ m, c.origin = none) :
    ∃ v, v ≠ [] ∧ v <:+ m ∧ (v <+: maskCells mask ∨ maskCells mask <+: v) := by
  induction xs generalizing m with
  | nil =>
    obtain ⟨c, hc, -⟩ := hc
    rw [List.prefix_nil.mp hm] at hc
    cases hc
  | cons x xs ih =>
    obtain ⟨c, hcm, hnone⟩ := hc
    rw [view_cons] at hm
    cases x with
    | kept d =>
      obtain ⟨e, m, rfl⟩ := List.exists_cons_of_ne_nil (List.ne_nil_of_mem hcm)
      obtain ⟨rfl, hrest⟩ := List.cons_prefix_cons.mp hm
      have hin : c ∈ m := by
        rcases List.mem_cons.mp hcm with rfl | hin
        · exact absurd hnone (hxs c (by rw [content_cons]; exact List.mem_cons_self))
        · exact hin
      obtain ⟨v, hv, hsuffix, hover⟩ := ih
        (fun c hc => hxs c (by rw [content_cons]; exact List.mem_append_right _ hc)) m hrest
        ⟨c, hin, hnone⟩
      exact ⟨v, hv, hsuffix.trans (List.suffix_cons e m), hover⟩
    | taken cells =>
      exact ⟨m, List.ne_nil_of_mem hcm, List.suffix_refl m,
        List.prefix_or_prefix_of_prefix hm (List.prefix_append _ _)⟩

/-- Only a word that overlaps the mask is read over one. -/
theorem reads_overlap (mask : List α) (xs : List (Slot α))
    (hxs : ∀ c ∈ content xs, c.origin ≠ none) (word : List α)
    (h : ReadsMask word (view mask xs)) : Overlap word mask := by
  obtain ⟨a, m, b, hsplit, rfl, hc⟩ := h
  have hm : m <:+: view mask xs := ⟨a, b, hsplit.symm⟩
  clear hsplit
  induction xs with
  | nil =>
    obtain ⟨c, hc, -⟩ := hc
    rw [List.infix_nil.mp hm] at hc
    cases hc
  | cons x xs ih =>
    have htail : ∀ c ∈ content xs, c.origin ≠ none :=
      fun c hc => hxs c (by rw [content_cons]; exact List.mem_append_right _ hc)
    rw [view_cons, List.infix_append_iff_ne_nil] at hm
    rcases hm with hm | hm | ⟨l, r, hl, hr, rfl, hlx, hrx⟩
    · cases x with
      | kept d =>
        obtain ⟨c, hcm, hnone⟩ := hc
        have hcd : c = d := List.mem_singleton.mp (hm.subset hcm)
        exact absurd hnone (hxs c (by rw [content_cons, hcd]; exact List.mem_cons_self))
      | taken cells =>
        have hinside : values m <:+: values (maskCells mask) := hm.map Cell.value
        rw [values_mask] at hinside
        exact Or.inl hinside
    · exact ih htail hm
    · cases x with
      | kept d =>
        obtain ⟨c, hcm, hnone⟩ := hc
        have hin : c ∈ r := by
          rcases List.mem_append.mp hcm with hin | hin
          · have hcd : c = d := List.mem_singleton.mp (hlx.subset hin)
            exact absurd hnone (hxs c (by rw [content_cons, hcd]; exact List.mem_cons_self))
          · exact hin
        obtain ⟨v, hv, hsuffix, hover⟩ := reads_front mask xs htail r hrx ⟨c, hin, hnone⟩
        have hend : values v <:+ values (l ++ r) :=
          (hsuffix.trans (List.suffix_append l r)).map Cell.value
        rcases hover with hover | hover
        · have hfront : values v <+: values (maskCells mask) := hover.map Cell.value
          rw [values_mask] at hfront
          exact Or.inr (Or.inr (Or.inl ⟨values v, by simpa [values] using hv, hend, hfront⟩))
        · have hfront : values (maskCells mask) <+: values v := hover.map Cell.value
          rw [values_mask] at hfront
          exact Or.inr (Or.inl (hfront.isInfix.trans hend.isInfix))
      | taken cells =>
        have hfront : values l <+: values (l ++ r) := (List.prefix_append l r).map Cell.value
        have hend : values l <:+ values (maskCells mask) := hlx.map Cell.value
        rw [values_mask] at hend
        exact Or.inr (Or.inr (Or.inr ⟨values l, by simpa [values] using hl, hfront, hend⟩))

theorem takeWords_original [DecidableEq α] (text : List α) (words : List (List α)) :
    ∀ c ∈ content (takeWords text words), c.origin ≠ none := by
  rw [takeWords_content]
  intro c hc
  obtain ⟨a, b, hsplit⟩ := List.append_of_mem hc
  rw [cellsFrom_split 0 text a b c hsplit]
  exact Option.some_ne_none _

theorem apart_reads [DecidableEq α] (mask text : List α) (words done : List (List α))
    (h : ∀ w ∈ words, w ≠ [] → ¬ Overlap w mask) :
    ∀ w ∈ words, ¬ ReadsMask w (view mask (takeWords text done)) := by
  intro w hw hreads
  have hne := (readsMask_values w _ hreads).1
  exact h w hw hne (reads_overlap mask _ (takeWords_original text done) w hreads)

end Masking
