import Mathlib
import DuckdbSalesforce.Json.Lookup
import DuckdbSalesforce.Library.JsonGrammar

/-!
# Decoding a string (`ReadStringAt`)

The reader on the bytes of a JSON text, against the text that the string
denotes by RFC 8259.
-/

namespace DuckdbSalesforce
open JsonText

/-- The `std::string` that holds a text in UTF-8, a byte being the character
with its code. -/
def encoded (t : Text) : Text := (utf8 t).map fun b => Char.ofNat b.toNat

def readStringAt (json : Text) (pos : ℕ) : Text := readString (json.drop (pos + 1))

/-! ### Bytes -/

theorem byte_toNat (b : UInt8) : (Char.ofNat b.toNat).toNat = b.toNat := by
  have hlt := b.toNat_lt
  rw [Char.toNat_ofNat, if_pos (Or.inl (by omega))]

theorem encoded_cons (c : Char) (t : Text) : encoded (c :: t) = encoded [c] ++ encoded t := by
  have hone : utf8 [c] = String.utf8EncodeChar c := by rw [utf8, List.flatMap_singleton]
  rw [encoded, utf8_cons, List.map_append, encoded, hone]
  rfl

theorem encoded_append (a b : Text) : encoded (a ++ b) = encoded a ++ encoded b := by
  rw [encoded, utf8_append, List.map_append]
  rfl

theorem encoded_injective (a b : Text) (h : encoded a = encoded b) : a = b := by
  have hbyte : Function.Injective fun b : UInt8 => Char.ofNat b.toNat := by
    intro x y hxy
    have hcode := congrArg Char.toNat hxy
    rw [byte_toNat, byte_toNat] at hcode
    exact UInt8.toNat_inj.mp hcode
  exact utf8_injective a b (List.map_injective_iff.mpr hbyte h)

theorem encoded_ascii (t : Text) (h : ∀ c ∈ t, c.toNat < 128) : encoded t = t := by
  rw [encoded, utf8_ascii t h, ascii, List.map_map]
  conv_rhs => rw [← List.map_id t]
  refine List.map_congr_left fun c hc => ?_
  have hlt := h c hc
  have hcode : c.toUInt8.toNat = c.toNat := by
    have hmod : c.toUInt8.toNat = c.toNat % 256 := UInt32.toNat_toUInt8 c.val
    rw [hmod, Nat.mod_eq_of_lt (by omega)]
  show Char.ofNat c.toUInt8.toNat = c
  rw [hcode, Char.ofNat_toNat]

theorem hex_ascii (d : HexDigit) : d.char.toNat < 128 := by
  have hd := d.hex
  by_contra hge
  have hn : 128 ≤ d.char.toNat := Nat.not_lt.mp hge
  have hval : d.char.toNat = d.char.val.toNat := rfl
  simp only [isHex, Char.isDigit, Bool.or_eq_true, Bool.and_eq_true, decide_eq_true_eq,
    Char.le_def, UInt32.le_iff_toNat_le] at hd
  rcases hd with (⟨_, h⟩ | ⟨_, h⟩) | ⟨_, h⟩ <;> simp at h <;> omega

/-! ### Reading bytes -/

/-- Bytes that are no quote and no backslash are copied. -/
theorem readString_copies (a t : Text) (h : ∀ c ∈ a, c ≠ '"' ∧ c ≠ '\\') :
    readString (a ++ t) = a ++ readString t := by
  induction a with
  | nil => rfl
  | cons c a ih =>
    rw [List.cons_append, readString_plain c _ (h c List.mem_cons_self),
      ih fun d hd => h d (List.mem_cons_of_mem _ hd)]
    rfl

theorem encoded_plain (c : Char) (h : c ≠ '"' ∧ c ≠ '\\') :
    ∀ d ∈ encoded [c], d ≠ '"' ∧ d ≠ '\\' := by
  intro d hd
  by_cases hc : c.toNat < 128
  · rw [encoded_ascii [c] fun e he => by rw [List.mem_singleton.mp he]; exact hc] at hd
    rw [List.mem_singleton.mp hd]
    exact h
  · obtain ⟨b, hb, rfl⟩ := List.mem_map.mp hd
    rw [utf8, List.flatMap_singleton] at hb
    have hhigh := utf8_char_high c (Nat.not_lt.mp hc) b hb
    have hcode := byte_toNat b
    refine ⟨?_, ?_⟩
    · intro he
      rw [he] at hcode
      have hq : '"'.toNat = 34 := rfl
      omega
    · intro he
      rw [he] at hcode
      have hq : '\\'.toNat = 92 := rfl
      omega

theorem escape_ascii (e : Escape) : e.char.toNat < 128 ∧ (unescape e.char).toNat < 128 := by
  cases e <;> decide

/-- The reader works on the bytes as it does on the characters. -/
theorem readString_encoded (items : List StringItem) (rest : Text) :
    readString (encoded (renderItems items) ++ '"' :: rest) = encoded (readItems items) := by
  induction items with
  | nil => exact readString_quote rest
  | cons x xs ih =>
    have hread : readItems (x :: xs) = readItem x ++ readItems xs := rfl
    rw [renderItems_cons, encoded_append, hread, encoded_append, List.append_assoc, ← ih]
    cases x with
    | plain c h => exact readString_copies (encoded [c]) _ (encoded_plain c h)
    | escape e =>
      obtain ⟨hchar, hun⟩ := escape_ascii e
      have hsrc : encoded (StringItem.escape e).render = ['\\', e.char] := by
        refine encoded_ascii _ fun c hc => ?_
        simp only [StringItem.render, List.mem_cons, List.not_mem_nil, or_false] at hc
        rcases hc with rfl | rfl
        · decide
        · exact hchar
      have hout : encoded (readItem (.escape e)) = [unescape e.char] := by
        refine encoded_ascii _ fun c hc => ?_
        rw [List.mem_singleton.mp hc]
        exact hun
      rw [hsrc, hout]
      exact readString_escape e.char _
    | unicode a b c d =>
      have hhex : ∀ e ∈ [a.char, b.char, c.char, d.char], e.toNat < 128 ∧ e ≠ '"' ∧ e ≠ '\\' := by
        intro e he
        simp only [List.mem_cons, List.not_mem_nil, or_false] at he
        rcases he with rfl | rfl | rfl | rfl
        · exact ⟨hex_ascii a, hex_not_special a⟩
        · exact ⟨hex_ascii b, hex_not_special b⟩
        · exact ⟨hex_ascii c, hex_not_special c⟩
        · exact ⟨hex_ascii d, hex_not_special d⟩
      have hout : encoded (readItem (.unicode a b c d)) =
          'u' :: [a.char, b.char, c.char, d.char] := by
        refine encoded_ascii _ fun e he => ?_
        rcases List.mem_cons.mp he with rfl | he
        · decide
        · exact (hhex e he).1
      have hsrc : encoded (StringItem.unicode a b c d).render =
          '\\' :: 'u' :: [a.char, b.char, c.char, d.char] := by
        have hitem : (StringItem.unicode a b c d).render = '\\' :: readItem (.unicode a b c d) := rfl
        rw [hitem, encoded_cons, hout]
        rfl
      rw [hsrc, hout]
      show readString ('\\' :: 'u' :: ([a.char, b.char, c.char, d.char] ++ _)) = _
      rw [readString_escape, readString_copies _ _ fun e he => (hhex e he).2]
      rfl

theorem readStringAt_items (items : List StringItem) (before rest : Text) :
    readStringAt (before ++ encoded (renderString items) ++ rest) before.length =
      encoded (readItems items) := by
  have hsplit : encoded (renderString items) = '"' :: (encoded (renderItems items) ++ ['"']) := by
    show encoded ('"' :: (renderItems items ++ ['"'])) = _
    rw [encoded_cons, encoded_append]
    rfl
  have hdrop : (before ++ encoded (renderString items) ++ rest).drop (before.length + 1) =
      encoded (renderItems items) ++ '"' :: rest := by
    rw [List.append_assoc, ← List.drop_drop, List.drop_left, hsplit]
    simp
  rw [readStringAt, hdrop, readString_encoded]

/-- A spelled string is decoded right when none of its escapes is `\b`, `\f` or
`\u`. -/
theorem readStringAt_decodes_iff (t : Text) (items : List StringItem) (before rest : Text)
    (hitems : unitsOf items = codeUnits t) :
    readStringAt (before ++ encoded (renderString items) ++ rest) before.length = encoded t ↔
      ∀ x ∈ items, plainlyEscaped x = true := by
  rw [readStringAt_items, ← readItems_right_iff, hitems]
  constructor
  · intro h
    rw [encoded_injective _ _ h]
  · intro h
    rw [codeUnits_injective _ _ h]

def acmeItems : List StringItem := spell "Acme".toList ++ [.escape .newline, .escape .quote]

theorem acme_decoded :
    readStringAt (encoded (renderString acmeItems)) 0 = encoded "Acme\n\"".toList := by
  have hread := (readStringAt_decodes_iff "Acme\n\"".toList acmeItems [] [] (by decide)).mpr
    (by decide)
  rw [List.append_nil] at hread
  exact hread

def eAcute : List StringItem :=
  [.unicode ⟨'0', rfl⟩ ⟨'0', rfl⟩ ⟨'e', rfl⟩ ⟨'9', rfl⟩]

/-- `"\u00e9"` is read as the five characters behind the backslash. -/
theorem unicode_escape_lost :
    ¬ ∀ (t : Text) (items : List StringItem) (before rest : Text), StrictItems items →
      unitsOf items = codeUnits t →
      readStringAt (before ++ encoded (renderString items) ++ rest) before.length = encoded t := by
  intro h
  have hstrict : StrictItems eAcute := by
    intro x hx
    rw [List.mem_singleton.mp hx]
    trivial
  have hread := h "é".toList eAcute [] [] hstrict (by decide)
  rw [readStringAt_items] at hread
  exact absurd hread (by decide)

end DuckdbSalesforce
