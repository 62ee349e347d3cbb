import Mathlib

/-!
# Base64

The standard encoding of byte strings: sextets, first bit first, as characters
of an alphabet, and `=` to fill up the last group of four.
-/

namespace Base64Text

def alphabet : List Char :=
  "ABCDEFGHIJKLMNOPQRSTUVWXYZabcdefghijklmnopqrstuvwxyz0123456789+/".toList

def digit (n : ℕ) : Char := alphabet.getD n 'A'

/-- The place of a character in the alphabet. -/
def value (c : Char) : Option ℕ := alphabet.idxOf? c

/-- The last sextet is filled up with zero bits. -/
def sextets : List UInt8 → List ℕ
  | [] => []
  | [a] => [a.toNat / 4, a.toNat % 4 * 16]
  | [a, b] => [a.toNat / 4, a.toNat % 4 * 16 + b.toNat / 16, b.toNat % 16 * 4]
  | a :: b :: c :: rest =>
    a.toNat / 4 :: (a.toNat % 4 * 16 + b.toNat / 16) :: (b.toNat % 16 * 4 + c.toNat / 64) ::
      c.toNat % 64 :: sextets rest

def padding (length : ℕ) : List Char :=
  if length % 3 = 0 then [] else if length % 3 = 1 then ['=', '='] else ['=']

def encode (bytes : List UInt8) : List Char :=
  (sextets bytes).map digit ++ padding bytes.length

/-- Groups of four characters, the last of which may end in padding. -/
inductive Valid : List Char → Prop
  | nil : Valid []
  | quad (a b c d : Char) (rest : List Char) (ha : a ∈ alphabet) (hb : b ∈ alphabet)
      (hc : c ∈ alphabet) (hd : d ∈ alphabet) (valid : Valid rest) : Valid (a :: b :: c :: d :: rest)
  | padOne (a b c : Char) (ha : a ∈ alphabet) (hb : b ∈ alphabet) (hc : c ∈ alphabet) :
      Valid [a, b, c, '=']
  | padTwo (a b : Char) (ha : a ∈ alphabet) (hb : b ∈ alphabet) : Valid [a, b, '=', '=']

/-- At most two `=`, all at the end, up to a length that four divides. -/
def Padded (t : List Char) : Prop :=
  4 ∣ t.length ∧ ∃ k ≤ 2, t.dropWhile (· ≠ '=') = List.replicate k '='

/-! ### The alphabet -/

theorem alphabet_nodup : alphabet.Nodup := by decide +kernel

theorem value_digit (n : ℕ) (h : n < 64) : value (digit n) = some n := by
  have hlen : n < alphabet.length := h
  have hdigit : digit n = alphabet[n] := List.getD_eq_getElem _ _ hlen
  rw [value, hdigit, List.idxOf?_eq_some_iff]
  refine ⟨hlen, rfl, ?_⟩
  intro j hj hsame
  have hsame' := (alphabet_nodup.getElem_inj_iff).mp hsame
  omega

theorem value_none (c : Char) : value c = none ↔ c ∉ alphabet := by
  rw [value, List.idxOf?_eq_none_iff]

theorem value_some (c : Char) : (∃ n, value c = some n) ↔ c ∈ alphabet := by
  have hnone := value_none c
  cases h : value c with
  | none => simpa [h] using hnone.mp h
  | some n =>
    refine iff_of_true ⟨n, rfl⟩ ?_
    by_contra hc
    rw [hnone.mpr hc] at h
    cases h

theorem value_lt (c : Char) (n : ℕ) (h : value c = some n) : n < 64 := by
  obtain ⟨hlen, -, -⟩ := List.idxOf?_eq_some_iff.mp h
  exact hlen

theorem pad_not_mem : '=' ∉ alphabet := by decide +kernel

/-! ### The encoding -/

theorem sextets_lt (bytes : List UInt8) : ∀ n ∈ sextets bytes, n < 64 := by
  fun_induction sextets bytes with
  | case1 => simp
  | case2 a =>
    have ha := a.toNat_lt
    simp only [List.mem_cons, List.not_mem_nil, or_false, forall_eq_or_imp, forall_eq]
    omega
  | case3 a b =>
    have ha := a.toNat_lt
    have hb := b.toNat_lt
    simp only [List.mem_cons, List.not_mem_nil, or_false, forall_eq_or_imp, forall_eq]
    omega
  | case4 a b c rest ih =>
    have ha := a.toNat_lt
    have hb := b.toNat_lt
    have hc := c.toNat_lt
    simp only [List.mem_cons, forall_eq_or_imp]
    exact ⟨by omega, by omega, by omega, by omega, ih⟩

theorem values_digits (ns : List ℕ) (h : ∀ n ∈ ns, n < 64) :
    (ns.map digit).filterMap value = ns := by
  induction ns with
  | nil => rfl
  | cons n ns ih =>
    rw [List.map_cons, List.filterMap_cons, value_digit n (h n List.mem_cons_self),
      ih fun m hm => h m (List.mem_cons_of_mem n hm)]

theorem values_padding (n : ℕ) : (padding n).filterMap value = [] := by
  have hpad : value '=' = none := (value_none '=').mpr pad_not_mem
  unfold padding
  split
  · rfl
  · split <;> simp [hpad]

theorem values_encode (bytes : List UInt8) : (encode bytes).filterMap value = sextets bytes := by
  rw [encode, List.filterMap_append, values_digits _ (sextets_lt bytes), values_padding,
    List.append_nil]

theorem padding_chars (n : ℕ) : ∀ c ∈ padding n, c = '=' := by
  unfold padding
  split
  · simp
  · split <;> simp

theorem digit_mem (n : ℕ) (h : n < 64) : digit n ∈ alphabet :=
  (value_some _).mp ⟨n, value_digit n h⟩

theorem encode_chars (bytes : List UInt8) : ∀ c ∈ encode bytes, c ∈ alphabet ∨ c = '=' := by
  intro c hc
  rcases List.mem_append.mp hc with hc | hc
  · obtain ⟨n, hn, rfl⟩ := List.mem_map.mp hc
    exact Or.inl (digit_mem n (sextets_lt bytes n hn))
  · exact Or.inr (padding_chars _ c hc)

/-! ### Valid texts -/

theorem valid_chars (t : List Char) (h : Valid t) : ∀ c ∈ t, c ∈ alphabet ∨ c = '=' := by
  induction h with
  | nil => simp
  | quad a b c d rest ha hb hc hd _ ih =>
    intro x hx
    simp only [List.mem_cons] at hx
    rcases hx with rfl | rfl | rfl | rfl | hx
    · exact Or.inl ha
    · exact Or.inl hb
    · exact Or.inl hc
    · exact Or.inl hd
    · exact ih x hx
  | padOne a b c ha hb hc =>
    intro x hx
    simp only [List.mem_cons, List.not_mem_nil, or_false] at hx
    rcases hx with rfl | rfl | rfl | rfl
    · exact Or.inl ha
    · exact Or.inl hb
    · exact Or.inl hc
    · exact Or.inr rfl
  | padTwo a b ha hb =>
    intro x hx
    simp only [List.mem_cons, List.not_mem_nil, or_false] at hx
    rcases hx with rfl | rfl | rfl | rfl
    · exact Or.inl ha
    · exact Or.inl hb
    · exact Or.inr rfl
    · exact Or.inr rfl

theorem alphabet_not_pad (c : Char) (h : c ∈ alphabet) : c ≠ '=' := by
  intro heq
  subst heq
  exact pad_not_mem h

theorem dropWhile_data (c : Char) (t : List Char) (h : c ∈ alphabet) :
    (c :: t).dropWhile (· ≠ '=') = t.dropWhile (· ≠ '=') := by
  rw [List.dropWhile_cons, if_pos (by simpa using alphabet_not_pad c h)]

theorem valid_padded (t : List Char) (h : Valid t) : Padded t := by
  induction h with
  | nil => exact ⟨⟨0, rfl⟩, 0, by omega, rfl⟩
  | quad a b c d rest ha hb hc hd _ ih =>
    obtain ⟨hlen, k, hk, hrest⟩ := ih
    refine ⟨?_, k, hk, ?_⟩
    · simp only [List.length_cons]
      omega
    · rw [dropWhile_data a _ ha, dropWhile_data b _ hb, dropWhile_data c _ hc,
        dropWhile_data d _ hd]
      exact hrest
  | padOne a b c ha hb hc =>
    refine ⟨⟨1, rfl⟩, 1, by omega, ?_⟩
    rw [dropWhile_data a _ ha, dropWhile_data b _ hb, dropWhile_data c _ hc]
    rfl
  | padTwo a b ha hb =>
    refine ⟨⟨1, rfl⟩, 2, by omega, ?_⟩
    rw [dropWhile_data a _ ha, dropWhile_data b _ hb]
    rfl

theorem dropWhile_pad (t : List Char) : ('=' :: t).dropWhile (· ≠ '=') = '=' :: t := by
  rw [List.dropWhile_cons, if_neg (by simp)]

/-- With no other characters, the layout is all that a valid text needs. -/
theorem padded_valid (t : List Char) (hchars : ∀ c ∈ t, c ∈ alphabet ∨ c = '=')
    (h : Padded t) : Valid t := by
  obtain ⟨hlen, k, hk, hpad⟩ := h
  match t with
  | [] => exact .nil
  | [_] => simp at hlen
  | [_, _] => simp [Nat.dvd_iff_mod_eq_zero] at hlen
  | [_, _, _] => simp [Nat.dvd_iff_mod_eq_zero] at hlen
  | a :: b :: c :: d :: rest =>
    have hlong := congrArg List.length hpad
    rw [List.length_replicate] at hlong
    simp only [List.length_cons] at hlen
    simp only [List.mem_cons, forall_eq_or_imp] at hchars
    obtain ⟨ha, hb, hc, hd, hrest⟩ := hchars
    rcases ha with ha | rfl
    swap
    · rw [dropWhile_pad] at hlong
      simp only [List.length_cons] at hlong
      omega
    rw [dropWhile_data a _ ha] at hpad hlong
    rcases hb with hb | rfl
    swap
    · rw [dropWhile_pad] at hlong
      simp only [List.length_cons] at hlong
      omega
    rw [dropWhile_data b _ hb] at hpad hlong
    rcases hc with hc | rfl
    swap
    · -- the two last characters of the text are the padding
      rw [dropWhile_pad] at hpad hlong
      simp only [List.length_cons] at hlong
      have hlast : d ∈ List.replicate k '=' := by
        rw [← hpad]
        simp
      have hnil : rest = [] := List.length_eq_zero_iff.mp (by omega)
      rw [hnil, (List.mem_replicate.mp hlast).2]
      exact .padTwo a b ha hb
    rw [dropWhile_data c _ hc] at hpad hlong
    rcases hd with hd | rfl
    swap
    · rw [dropWhile_pad] at hlong
      simp only [List.length_cons] at hlong
      have hnil : rest = [] := List.length_eq_zero_iff.mp (by omega)
      rw [hnil]
      exact .padOne a b c ha hb hc
    rw [dropWhile_data d _ hd] at hpad
    exact .quad a b c d rest ha hb hc hd (padded_valid rest hrest ⟨by omega, k, hk, hpad⟩)

theorem valid_iff (t : List Char) :
    Valid t ↔ (∀ c ∈ t, c ∈ alphabet ∨ c = '=') ∧ Padded t :=
  ⟨fun h => ⟨valid_chars t h, valid_padded t h⟩, fun h => padded_valid t h.1 h.2⟩

end Base64Text
