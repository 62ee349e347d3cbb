import Mathlib
import DuckdbSalesforce.Library.JsonText

/-!
# The JSON grammar and its bytes

Which trees are the texts of RFC 8259: a string holds no raw control character,
a number has no needless zero in front and a whole fraction and exponent. A
text on the wire is the UTF-8 encoding of its characters.
-/

namespace JsonText

/-! ### UTF-8 -/

def utf8 (t : Text) : List UInt8 := t.flatMap String.utf8EncodeChar

def ascii (t : Text) : List UInt8 := t.map Char.toUInt8

theorem utf8_cons (c : Char) (t : Text) : utf8 (c :: t) = String.utf8EncodeChar c ++ utf8 t :=
  List.flatMap_cons

theorem utf8_append (a b : Text) : utf8 (a ++ b) = utf8 a ++ utf8 b := List.flatMap_append

theorem utf8Size_ascii (c : Char) (h : c.toNat < 128) : c.utf8Size = 1 := by
  rw [Char.utf8Size_eq_one_iff, UInt32.le_iff_toNat_le]
  have hval : c.toNat = c.val.toNat := rfl
  have hlit : (127 : UInt32).toNat = 127 := rfl
  omega

theorem utf8_char_ascii (c : Char) (h : c.toNat < 128) :
    String.utf8EncodeChar c = [c.toUInt8] := by
  rw [String.utf8EncodeChar_eq_singleton (utf8Size_ascii c h), Char.toUInt8_val]

theorem utf8_ascii (t : Text) (h : ∀ c ∈ t, c.toNat < 128) : utf8 t = ascii t := by
  induction t with
  | nil => rfl
  | cons c t ih =>
    rw [utf8_cons, utf8_char_ascii c (h c List.mem_cons_self),
      ih fun d hd => h d (List.mem_cons_of_mem _ hd)]
    rfl

/-- No byte of a longer encoding is an ASCII byte. -/
theorem utf8_char_high (c : Char) (h : 128 ≤ c.toNat) (b : UInt8)
    (hb : b ∈ String.utf8EncodeChar c) : 128 ≤ b.toNat := by
  have hval : c.val.toNat = c.toNat := rfl
  have hbyte : ∀ v : ℕ, 128 ≤ v → v < 256 → 128 ≤ (UInt8.ofNat v).toNat := by
    intro v hlo hhi
    rw [UInt8.toNat_ofNat', Nat.mod_eq_of_lt hhi]
    exact hlo
  rw [String.utf8EncodeChar] at hb
  simp only [hval] at hb
  rw [if_neg (by omega)] at hb
  split at hb
  · simp only [List.mem_cons, List.not_mem_nil, or_false] at hb
    rcases hb with rfl | rfl <;> exact hbyte _ (by omega) (by omega)
  · split at hb
    · simp only [List.mem_cons, List.not_mem_nil, or_false] at hb
      rcases hb with rfl | rfl | rfl <;> exact hbyte _ (by omega) (by omega)
    · simp only [List.mem_cons, List.not_mem_nil, or_false] at hb
      rcases hb with rfl | rfl | rfl | rfl <;> exact hbyte _ (by omega) (by omega)

theorem utf8_injective (a b : Text) (h : utf8 a = utf8 b) : a = b := by
  have hbytes : a.utf8Encode = b.utf8Encode := by
    unfold List.utf8Encode
    unfold utf8 at h
    rw [h]
  have hstring : String.ofList a = String.ofList b := by
    rw [← String.toByteArray_inj, String.toByteArray_ofList, String.toByteArray_ofList, hbytes]
  rw [← String.toList_ofList (l := a), hstring, String.toList_ofList]

/-! ### Strict trees -/

def StringItem.Strict : StringItem → Prop
  | .plain c _ => 0x20 ≤ c.toNat
  | .escape _ => True
  | .unicode _ _ _ _ => True

def StrictItems (items : List StringItem) : Prop := ∀ x ∈ items, x.Strict

def IsDigits (t : Text) : Prop := t ≠ [] ∧ ∀ c ∈ t, c.isDigit = true

def IsFraction (t : Text) : Prop := t = [] ∨ ∃ ds, IsDigits ds ∧ t = '.' :: ds

def IsExponent (t : Text) : Prop :=
  t = [] ∨ ∃ e sign ds, (e = 'e' ∨ e = 'E') ∧ (sign = [] ∨ sign = ['+'] ∨ sign = ['-']) ∧
    IsDigits ds ∧ t = e :: (sign ++ ds)

def JsonNumber.Strict (n : JsonNumber) : Prop :=
  (n.digits.head? = some '0' → n.digits = ['0']) ∧
    ∃ frac exp, IsFraction frac ∧ IsExponent exp ∧ n.tail = frac ++ exp

mutual
def Json.Strict : Json → Prop
  | .null => True
  | .bool _ => True
  | .number n => n.Strict
  | .string items => StrictItems items
  | .array _ elements => elements.Strict
  | .object _ members => members.Strict

def Elements.Strict : Elements → Prop
  | .nil => True
  | .cons _ value _ rest => value.Strict ∧ rest.Strict

def Members.Strict : Members → Prop
  | .nil => True
  | .cons _ name _ _ value _ rest => StrictItems name ∧ value.Strict ∧ rest.Strict
end

/-- The bytes of a JSON object. -/
def ObjectText.Encodes (o : ObjectText) (bytes : List UInt8) : Prop :=
  o.members.Strict ∧ bytes = utf8 o.text

/-! ### Control characters -/

/-- No control character except those that blanks are made of. -/
def Clean (t : Text) : Prop := ∀ c ∈ t, c.toNat < 0x20 → c = '\t' ∨ c = '\n' ∨ c = '\r'

theorem clean_nil : Clean [] := by
  intro c hc
  cases hc

theorem clean_append (a b : Text) (ha : Clean a) (hb : Clean b) : Clean (a ++ b) := by
  intro c hc
  rcases List.mem_append.mp hc with h | h
  · exact ha c h
  · exact hb c h

theorem clean_visible (t : Text) (h : ∀ c ∈ t, 0x20 ≤ c.toNat) : Clean t := by
  intro c hc hlow
  have hge := h c hc
  omega

theorem clean_literal (t : Text) (h : (t.all fun c => decide (0x20 ≤ c.toNat)) = true) :
    Clean t := by
  refine clean_visible t ?_
  intro c hc
  exact of_decide_eq_true (List.all_eq_true.mp h c hc)

theorem clean_flatMap {α : Type} (f : α → Text) (xs : List α) (h : ∀ x ∈ xs, Clean (f x)) :
    Clean (xs.flatMap f) := by
  intro c hc
  obtain ⟨x, hx, hcx⟩ := List.mem_flatMap.mp hc
  exact h x hx c hcx

theorem clean_blank (b : Blank) : Clean b.text := by
  intro c hc hlow
  have hblank := List.all_eq_true.mp b.blank c hc
  simp only [isBlank, Bool.or_eq_true, beq_iff_eq] at hblank
  rcases hblank with ((h | h) | h) | h
  · rw [h] at hlow
    exact absurd hlow (by decide)
  · exact Or.inl h
  · exact Or.inr (Or.inl h)
  · exact Or.inr (Or.inr h)

theorem digit_visible (c : Char) (h : c.isDigit = true) : 0x20 ≤ c.toNat := by
  have hzero : '0'.toNat = 48 := rfl
  have hge := (Char.isDigit_iff_toNat.mp h).1
  omega

theorem hex_visible (d : HexDigit) : 0x20 ≤ d.char.toNat := by
  have hd := d.hex
  simp only [isHex, Bool.or_eq_true, Bool.and_eq_true, decide_eq_true_eq] at hd
  have hle : ∀ a b : Char, a ≤ b → a.toNat ≤ b.toNat := fun a b h => h
  rcases hd with (h | h) | h
  · exact digit_visible _ h
  · exact le_trans (by decide) (hle 'a' _ h.1)
  · exact le_trans (by decide) (hle 'A' _ h.1)

theorem clean_item (x : StringItem) (h : x.Strict) : Clean x.render := by
  cases x with
  | plain c hc =>
    refine clean_visible _ ?_
    intro d hd
    rw [List.mem_singleton.mp hd]
    exact h
  | escape e => cases e <;> exact clean_literal _ rfl
  | unicode a b c d =>
    refine clean_visible _ ?_
    intro e he
    simp only [StringItem.render, List.mem_cons, List.not_mem_nil, or_false] at he
    rcases he with rfl | rfl | rfl | rfl | rfl | rfl
    · decide
    · decide
    · exact hex_visible a
    · exact hex_visible b
    · exact hex_visible c
    · exact hex_visible d

theorem clean_string (items : List StringItem) (h : StrictItems items) :
    Clean (renderString items) :=
  clean_append ('"' :: renderItems items) ['"']
    (clean_append ['"'] (renderItems items) (clean_literal _ rfl)
      (clean_flatMap StringItem.render items fun x hx => clean_item x (h x hx)))
    (clean_literal _ rfl)

theorem clean_number (n : JsonNumber) : Clean n.render := by
  refine clean_append _ _ (clean_append _ _ ?_ ?_) ?_
  · cases n.negative
    · exact clean_nil
    · exact clean_literal _ rfl
  · exact clean_visible _ fun c hc => digit_visible c (n.digits_digit c hc)
  · refine clean_visible _ ?_
    intro c hc
    rcases n.tail_char c hc with h | h
    · exact digit_visible c h
    · simp only [List.mem_cons, List.not_mem_nil, or_false] at h
      rcases h with rfl | rfl | rfl | rfl | rfl <;> decide

theorem clean_elements_comma (elements : Elements) : Clean elements.comma := by
  cases elements with
  | nil => exact clean_nil
  | cons _ _ _ _ => exact clean_literal _ rfl

theorem clean_members_comma (members : Members) : Clean members.comma := by
  cases members with
  | nil => exact clean_nil
  | cons _ _ _ _ _ _ _ => exact clean_literal _ rfl

mutual
theorem clean_value : (v : Json) → v.Strict → Clean v.render
  | .null, _ => clean_literal _ rfl
  | .bool true, _ => clean_literal _ rfl
  | .bool false, _ => clean_literal _ rfl
  | .number n, _ => clean_number n
  | .string items, h => clean_string items h
  | .array lead elements, h =>
    clean_append ['['] _ (clean_literal _ rfl)
      (clean_append _ [']'] (clean_append _ _ (clean_blank lead) (clean_elements elements h))
        (clean_literal _ rfl))
  | .object lead members, h =>
    clean_append ['{'] _ (clean_literal _ rfl)
      (clean_append _ ['}'] (clean_append _ _ (clean_blank lead) (clean_members members h))
        (clean_literal _ rfl))

theorem clean_elements : (elements : Elements) → elements.Strict → Clean elements.render
  | .nil, _ => clean_nil
  | .cons pre value trail rest, h =>
    clean_append _ _ (clean_append _ _ (clean_append _ _ (clean_append _ _ (clean_blank pre)
      (clean_value value h.1)) (clean_blank trail)) (clean_elements_comma rest))
        (clean_elements rest h.2)

theorem clean_members : (members : Members) → members.Strict → Clean members.render
  | .nil, _ => clean_nil
  | .cons pre name mid post value trail rest, h =>
    clean_append _ _ (clean_append _ _ (clean_append _ _ (clean_append _ _ (clean_append _ _
      (clean_append _ _ (clean_append _ _ (clean_blank pre) (clean_string name h.1))
        (clean_blank mid)) (clean_append [':'] _ (clean_literal _ rfl) (clean_blank post)))
          (clean_value value h.2.1)) (clean_blank trail)) (clean_members_comma rest))
            (clean_members rest h.2.2)
end

/-- A valid object text holds no control character but tabs and line ends. -/
theorem clean_object (o : ObjectText) (h : o.members.Strict) : Clean o.text :=
  clean_append _ _ (clean_append _ _ (clean_blank o.before)
    (clean_value (.object o.lead o.members) h)) (clean_blank o.trailing)

end JsonText
