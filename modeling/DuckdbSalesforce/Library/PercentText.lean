import Mathlib

/-!
# Percent encoding

Bytes as characters of code less than 256. `encode` keeps some characters and
writes the others as `%` with two hexadecimal digits, `decode` reads both back.
A form is `name=value` pairs with `&` between them; its reader takes `+` for a
blank, as browsers write it.
-/

namespace PercentText

def IsBytes (t : List Char) : Prop := ∀ c ∈ t, c.toNat < 256

def hexDigits : List Char := "0123456789ABCDEF".toList

def hexDigit (n : ℕ) : Char := hexDigits.getD n '0'

/-- Both cases of a digit. -/
def hexValue (c : Char) : Option ℕ := hexDigits.idxOf? c.toUpper

def encodeChar (keep : Char → Bool) (c : Char) : List Char :=
  if keep c then [c] else ['%', hexDigit (c.toNat / 16), hexDigit (c.toNat % 16)]

def encode (keep : Char → Bool) (t : List Char) : List Char := t.flatMap (encodeChar keep)

def decode : List Char → Option (List Char)
  | [] => some []
  | '%' :: a :: b :: t =>
    match hexValue a, hexValue b, decode t with
    | some h, some l, some rest => some (Char.ofNat (16 * h + l) :: rest)
    | _, _, _ => none
  | '%' :: _ => none
  | c :: t => (decode t).map (c :: ·)

/-! ### One character -/

theorem hexValue_digit (n : ℕ) (h : n < 16) : hexValue (hexDigit n) = some n := by
  have hall : ∀ k : Fin 16, hexValue (hexDigit k) = some k.val := by decide
  exact hall ⟨n, h⟩

theorem hexDigit_mem (n : ℕ) (h : n < 16) : hexDigit n ∈ hexDigits := by
  have hlen : n < hexDigits.length := h
  rw [hexDigit, List.getD_eq_getElem _ _ hlen]
  exact List.getElem_mem hlen

theorem decode_kept (c : Char) (t : List Char) (h : c ≠ '%') :
    decode (c :: t) = (decode t).map (c :: ·) := by
  rw [decode]
  · intro a b t' hc
    exact absurd hc h
  · exact h

theorem decode_encodeChar (keep : Char → Bool) (hkeep : keep '%' = false) (c : Char)
    (hc : c.toNat < 256) (t : List Char) :
    decode (encodeChar keep c ++ t) = (decode t).map (c :: ·) := by
  unfold encodeChar
  split
  · rename_i hkept
    apply decode_kept
    intro hpercent
    rw [hpercent, hkeep] at hkept
    cases hkept
  · have hhigh := hexValue_digit (c.toNat / 16) (by omega)
    have hlow := hexValue_digit (c.toNat % 16) (by omega)
    have hcode : Char.ofNat (16 * (c.toNat / 16) + c.toNat % 16) = c := by
      rw [Nat.div_add_mod, Char.ofNat_toNat]
    simp only [List.cons_append, List.nil_append, decode, hhigh, hlow]
    cases decode t with
    | none => rfl
    | some rest => simp only [Option.map_some, hcode]

/-! ### A text -/

theorem decode_encode (keep : Char → Bool) (hkeep : keep '%' = false) (t : List Char)
    (ht : IsBytes t) : decode (encode keep t) = some t := by
  induction t with
  | nil => rfl
  | cons c t ih =>
    have hc := ht c (List.mem_cons_self ..)
    have hrest := ih fun d hd => ht d (List.mem_cons_of_mem c hd)
    rw [encode, List.flatMap_cons, decode_encodeChar keep hkeep c hc]
    rw [encode] at hrest
    rw [hrest]
    rfl

/-- An encoded text has the kept characters, `%` and hexadecimal digits. -/
theorem encode_chars (keep : Char → Bool) (t : List Char) (ht : IsBytes t) :
    ∀ c ∈ encode keep t, keep c = true ∨ c = '%' ∨ c ∈ hexDigits := by
  intro c hc
  obtain ⟨d, hd, hcd⟩ := List.mem_flatMap.mp hc
  have hbyte := ht d hd
  unfold encodeChar at hcd
  split at hcd
  · rename_i hkept
    rw [List.mem_singleton.mp hcd]
    exact Or.inl hkept
  · simp only [List.mem_cons, List.not_mem_nil, or_false] at hcd
    rcases hcd with hcd | hcd | hcd
    · exact Or.inr (Or.inl hcd)
    · rw [hcd]
      exact Or.inr (Or.inr (hexDigit_mem _ (by omega)))
    · rw [hcd]
      exact Or.inr (Or.inr (hexDigit_mem _ (by omega)))

/-- A character that is neither kept nor of the encoding does not occur. -/
theorem encode_free (keep : Char → Bool) (t : List Char) (ht : IsBytes t) (c : Char)
    (hkeep : keep c = false) (hpercent : c ≠ '%') (hhex : c ∉ hexDigits) : c ∉ encode keep t := by
  intro hc
  rcases encode_chars keep t ht c hc with h | h | h
  · rw [hkeep] at h
    cases h
  · exact hpercent h
  · exact hhex h

/-- What is kept is its own encoding. -/
theorem encode_kept (keep : Char → Bool) (t : List Char) (ht : ∀ c ∈ t, keep c = true) :
    encode keep t = t := by
  induction t with
  | nil => rfl
  | cons c t ih =>
    have hrest := ih fun d hd => ht d (List.mem_cons_of_mem c hd)
    rw [encode] at hrest ⊢
    rw [List.flatMap_cons, hrest, encodeChar, if_pos (ht c (List.mem_cons_self ..))]
    rfl

/-! ### Forms -/

section Forms

/-- Keeping none of the characters that a form or its reader uses. -/
structure FormSafe (keep : Char → Bool) : Prop where
  percent : keep '%' = false
  plus : keep '+' = false
  ampersand : keep '&' = false
  equals : keep '=' = false

def pairText (keep : Char → Bool) (pair : List Char × List Char) : List Char :=
  encode keep pair.1 ++ '=' :: encode keep pair.2

def form (keep : Char → Bool) (pairs : List (List Char × List Char)) : List Char :=
  List.intercalate ['&'] (pairs.map (pairText keep))

def plusBlank (c : Char) : Char := if c = '+' then ' ' else c

def readValue (t : List Char) : Option (List Char) := decode (t.map plusBlank)

/-- A piece is cut at its first `=`. -/
def readPair (piece : List Char) : Option (List Char × List Char) :=
  match readValue (piece.takeWhile (· ≠ '=')), readValue ((piece.dropWhile (· ≠ '=')).drop 1) with
  | some name, some value => some (name, value)
  | _, _ => none

def readForm (t : List Char) : Option (List (List Char × List Char)) :=
  ((t.splitOn '&').filter (· ≠ [])).mapM readPair

variable {keep : Char → Bool}

theorem readValue_encode (hkeep : FormSafe keep) (t : List Char) (ht : IsBytes t) :
    readValue (encode keep t) = some t := by
  have hplus := encode_free keep t ht '+' hkeep.plus (by decide) (by decide)
  have hsame : (encode keep t).map plusBlank = encode keep t := by
    have heach : ∀ c ∈ encode keep t, plusBlank c = id c := by
      intro c hc
      apply if_neg
      intro h
      exact hplus (h ▸ hc)
    rw [List.map_congr_left heach, List.map_id]
  rw [readValue, hsame, decode_encode keep hkeep.percent t ht]

theorem readPair_text (hkeep : FormSafe keep) (pair : List Char × List Char)
    (hname : IsBytes pair.1) (hvalue : IsBytes pair.2) : readPair (pairText keep pair) = some pair := by
  have hfree := encode_free keep pair.1 hname '=' hkeep.equals (by decide) (by decide)
  have hall : ∀ c ∈ encode keep pair.1, decide (c ≠ '=') = true := by
    intro c hc
    exact decide_eq_true fun h => hfree (h ▸ hc)
  have htake : (pairText keep pair).takeWhile (· ≠ '=') = encode keep pair.1 := by
    rw [pairText, List.takeWhile_append_of_pos hall]
    simp
  have hdrop : ((pairText keep pair).dropWhile (· ≠ '=')).drop 1 = encode keep pair.2 := by
    rw [pairText, List.dropWhile_append_of_pos hall]
    simp
  rw [readPair, htake, hdrop, readValue_encode hkeep _ hname, readValue_encode hkeep _ hvalue]

theorem pairText_free (hkeep : FormSafe keep) (pair : List Char × List Char)
    (hname : IsBytes pair.1) (hvalue : IsBytes pair.2) : '&' ∉ pairText keep pair := by
  have hfree := fun t ht => encode_free keep t ht '&' hkeep.ampersand (by decide) (by decide)
  intro h
  rcases List.mem_append.mp h with h | h
  · exact hfree _ hname h
  · rcases List.mem_cons.mp h with h | h
    · exact absurd h (by decide)
    · exact hfree _ hvalue h

/-- The reader gets the pairs of a form, in order. -/
theorem readForm_form (hkeep : FormSafe keep) (pairs : List (List Char × List Char))
    (hbytes : ∀ pair ∈ pairs, IsBytes pair.1 ∧ IsBytes pair.2) :
    readForm (form keep pairs) = some pairs := by
  have hmap : ((pairs.map (pairText keep)).mapM readPair) = some pairs := by
    rw [List.mapM_map]
    have hread : ∀ pair ∈ pairs, (readPair ∘ pairText keep) pair = some pair :=
      fun pair hpair => readPair_text hkeep pair (hbytes pair hpair).1 (hbytes pair hpair).2
    clear hbytes
    induction pairs with
    | nil => rfl
    | cons pair pairs ih =>
      rw [List.mapM_cons, hread pair (List.mem_cons_self ..),
        ih fun p hp => hread p (List.mem_cons_of_mem pair hp)]
      rfl
  by_cases hpairs : pairs = []
  · rw [hpairs]
    rfl
  · have hfree : ∀ piece ∈ pairs.map (pairText keep), '&' ∉ piece := by
      intro piece hpiece
      obtain ⟨pair, hpair, rfl⟩ := List.mem_map.mp hpiece
      exact pairText_free hkeep pair (hbytes pair hpair).1 (hbytes pair hpair).2
    have hne : ∀ piece ∈ pairs.map (pairText keep), decide (piece ≠ []) = true := by
      intro piece hpiece
      obtain ⟨pair, hpair, rfl⟩ := List.mem_map.mp hpiece
      exact decide_eq_true (by simp [pairText])
    rw [readForm, form, List.splitOn_intercalate '&' hfree (by simpa using hpairs),
      List.filter_eq_self.mpr hne, hmap]

end Forms

end PercentText
