import DuckdbSalesforce.Library.NumberScan

/-!
# Decimal numerals

Perhaps a sign, digits, perhaps a point and more of them, perhaps an exponent:
how programs print numbers and query languages write them. A text is at most
one numeral.
-/

namespace Numerals
open NumberScan

/-- No digits, no point. -/
def fractionText (digits : List Char) : List Char := if digits = [] then [] else '.' :: digits

def fractionValue (digits : List Char) : ℚ := Nat.ofDigitChars 10 digits 0 / 10 ^ digits.length

structure Exponent where
  marker : Char
  sign : Option Bool
  digits : List Char
  marker_e : marker = 'e' ∨ marker = 'E'
  digits_ne : digits ≠ []
  digit : ∀ c ∈ digits, c.isDigit = true

def Exponent.text (e : Exponent) : List Char := e.marker :: (signText e.sign ++ e.digits)

def exponentText : Option Exponent → List Char
  | none => []
  | some e => e.text

def exponentValue : Option Exponent → ℤ
  | none => 0
  | some e => signedValue e.sign (Nat.ofDigitChars 10 e.digits 0)

structure Numeral where
  sign : Option Bool
  whole : List Char
  fraction : List Char
  exponent : Option Exponent
  digits_ne : whole ++ fraction ≠ []
  digit : ∀ c ∈ whole ++ fraction, c.isDigit = true

def Numeral.text (n : Numeral) : List Char :=
  signText n.sign ++ (n.whole ++ (fractionText n.fraction ++ exponentText n.exponent))

def Numeral.value (n : Numeral) : ℚ :=
  signedValue n.sign (Nat.ofDigitChars 10 (n.whole ++ n.fraction) 0) / 10 ^ n.fraction.length *
    10 ^ exponentValue n.exponent

/-! ### One reading -/

theorem sign_split (s s' : Option Bool) (a b : List Char) (ha : ∀ c ∈ a.head?, c ≠ '-' ∧ c ≠ '+')
    (hb : ∀ c ∈ b.head?, c ≠ '-' ∧ c ≠ '+') (h : signText s ++ a = signText s' ++ b) :
    s = s' ∧ a = b := by
  have hread := congrArg readSign h
  rw [readSign_text s a ha, readSign_text s' b hb] at hread
  exact Prod.ext_iff.mp hread

theorem digits_split (a b s t : List Char) (ha : ∀ c ∈ a, c.isDigit = true)
    (hb : ∀ c ∈ b, c.isDigit = true) (hs : NoDigit s) (ht : NoDigit t) (h : a ++ s = b ++ t) :
    a = b ∧ s = t := by
  have htake := congrArg (List.takeWhile Char.isDigit) h
  rw [takeWhile_stop _ a s ha hs, takeWhile_stop _ b t hb ht] at htake
  rw [htake] at h
  exact ⟨htake, List.append_cancel_left h⟩

theorem fraction_split (a b s t : List Char) (ha : ∀ c ∈ a, c.isDigit = true)
    (hb : ∀ c ∈ b, c.isDigit = true) (hs : NoDigit s) (ht : NoDigit t) (hs' : s.head? ≠ some '.')
    (ht' : t.head? ≠ some '.') (h : fractionText a ++ s = fractionText b ++ t) : a = b ∧ s = t := by
  unfold fractionText at h
  by_cases hna : a = []
  · by_cases hnb : b = []
    · rw [if_pos hna, if_pos hnb] at h
      exact ⟨hna.trans hnb.symm, h⟩
    · rw [if_pos hna, if_neg hnb] at h
      refine absurd ?_ hs'
      rw [← List.nil_append s, h]
      rfl
  · by_cases hnb : b = []
    · rw [if_neg hna, if_pos hnb] at h
      refine absurd ?_ ht'
      rw [← List.nil_append t, ← h]
      rfl
    · rw [if_neg hna, if_neg hnb] at h
      exact digits_split a b s t ha hb hs ht (List.cons.inj h).2

theorem digits_head (t : List Char) (h : ∀ c ∈ t, c.isDigit = true) :
    ∀ c ∈ t.head?, c ≠ '-' ∧ c ≠ '+' := by
  intro c hc
  exact digit_not_sign c (h c (List.mem_of_mem_head? hc))

theorem exponentText_head (e : Option Exponent) :
    ∀ c ∈ (exponentText e).head?, c = 'e' ∨ c = 'E' := by
  intro c hc
  cases e with
  | none => cases hc
  | some e =>
    have hmarker : e.marker = c := Option.some.inj hc
    rw [← hmarker]
    exact e.marker_e

theorem exponentText_stops (e : Option Exponent) :
    NoDigit (exponentText e) ∧ (exponentText e).head? ≠ some '.' := by
  refine ⟨?_, ?_⟩
  · intro c hc
    rcases exponentText_head e c hc with h | h <;> rw [h] <;> decide
  · intro hpoint
    rcases exponentText_head e '.' hpoint with h | h <;> exact absurd h (by decide)

theorem exponentText_injective (e f : Option Exponent) (h : exponentText e = exponentText f) :
    e = f := by
  cases e with
  | none =>
    cases f with
    | none => rfl
    | some f => cases h
  | some e =>
    cases f with
    | none => cases h
    | some f =>
      obtain ⟨hmarker, hrest⟩ := List.cons.inj h
      obtain ⟨hsign, hdigits⟩ := sign_split e.sign f.sign e.digits f.digits
        (digits_head _ e.digit) (digits_head _ f.digit) hrest
      cases e
      cases f
      simp only at hmarker hsign hdigits
      subst hmarker hsign hdigits
      rfl

theorem afterWhole_stops (n : Numeral) :
    NoDigit (fractionText n.fraction ++ exponentText n.exponent) := by
  unfold fractionText
  split
  · exact (exponentText_stops n.exponent).1
  · intro c hc
    rw [← Option.some.inj hc]
    decide

/-- After the sign comes a digit or a point. -/
theorem afterSign_head (n : Numeral) :
    ∀ c ∈ (n.whole ++ (fractionText n.fraction ++ exponentText n.exponent)).head?,
      c ≠ '-' ∧ c ≠ '+' := by
  intro c hc
  cases hwhole : n.whole with
  | nil =>
    have hfraction : n.fraction ≠ [] := by
      have hne := n.digits_ne
      rw [hwhole] at hne
      exact hne
    rw [hwhole, fractionText, if_neg hfraction] at hc
    rw [← Option.some.inj hc]
    decide
  | cons d ds =>
    rw [hwhole] at hc
    rw [← Option.some.inj hc]
    apply digit_not_sign
    apply n.digit
    rw [hwhole]
    exact List.mem_cons_self

theorem Numeral.text_injective (n m : Numeral) (h : n.text = m.text) : n = m := by
  obtain ⟨hsign, hrest⟩ := sign_split _ _ _ _ (afterSign_head n) (afterSign_head m) h
  obtain ⟨hwhole, hrest⟩ := digits_split n.whole m.whole _ _
    (fun c hc => n.digit c (List.mem_append_left _ hc))
    (fun c hc => m.digit c (List.mem_append_left _ hc)) (afterWhole_stops n) (afterWhole_stops m) hrest
  obtain ⟨hn, hn'⟩ := exponentText_stops n.exponent
  obtain ⟨hm, hm'⟩ := exponentText_stops m.exponent
  obtain ⟨hfraction, hrest⟩ := fraction_split n.fraction m.fraction _ _
    (fun c hc => n.digit c (List.mem_append_right _ hc))
    (fun c hc => m.digit c (List.mem_append_right _ hc)) hn hm hn' hm' hrest
  have hexponent := exponentText_injective _ _ hrest
  cases n
  cases m
  simp only at hsign hwhole hfraction hexponent
  subst hsign hwhole hfraction hexponent
  rfl

/-! ### Fractions -/

theorem fractionValue_lt (digits : List Char) (h : ∀ c ∈ digits, c.isDigit = true) :
    0 ≤ fractionValue digits ∧ fractionValue digits < 1 := by
  have hlt := ofDigitChars_lt digits 0 h
  rw [Nat.zero_add, Nat.mul_one] at hlt
  have hpow : (0 : ℚ) < 10 ^ digits.length := by positivity
  unfold fractionValue
  refine ⟨by positivity, (div_lt_one hpow).mpr ?_⟩
  exact_mod_cast hlt

def trimZeros (digits : List Char) : List Char := digits.rdropWhile fun c => c == '0'

theorem trimZeros_append (digits : List Char) :
    ∃ k, digits = trimZeros digits ++ List.replicate k '0' := by
  induction digits using List.reverseRecOn with
  | nil => exact ⟨0, rfl⟩
  | append_singleton ds d ih =>
    unfold trimZeros at *
    by_cases hd : d = '0'
    · obtain ⟨k, hk⟩ := ih
      refine ⟨k + 1, ?_⟩
      rw [List.rdropWhile_concat_pos _ _ _ (by rw [hd]; rfl), List.replicate_succ',
        ← List.append_assoc, ← hk, hd]
    · refine ⟨0, ?_⟩
      rw [List.rdropWhile_concat_neg _ _ _ (by simpa using hd), List.replicate_zero, List.append_nil]

theorem trimZeros_digit (digits : List Char) (h : ∀ c ∈ digits, c.isDigit = true) :
    ∀ c ∈ trimZeros digits, c.isDigit = true := by
  obtain ⟨k, hk⟩ := trimZeros_append digits
  intro c hc
  apply h
  rw [hk]
  exact List.mem_append_left _ hc

theorem fractionValue_trim (digits : List Char) :
    fractionValue (trimZeros digits) = fractionValue digits := by
  obtain ⟨k, hk⟩ := trimZeros_append digits
  generalize trimZeros digits = t at hk
  rw [hk, fractionValue, fractionValue, Nat.ofDigitChars_append, Nat.ofDigitChars_replicate_zero,
    List.length_append, List.length_replicate, pow_add, Nat.cast_mul, Nat.cast_pow, Nat.cast_ofNat,
    mul_comm ((10 : ℚ) ^ k), mul_div_mul_right _ _ (by positivity)]

theorem fractionValue_padded (width n : ℕ) (hw : 0 < width) (h : n < 10 ^ width) :
    fractionValue (padded width n) = n / 10 ^ width := by
  rw [fractionValue, padded_value, padded_length width n hw h]

end Numerals
