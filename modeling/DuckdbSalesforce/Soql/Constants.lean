import DuckdbSalesforce.Soql.Expression
import DuckdbSalesforce.Library.Numeral
import DuckdbSalesforce.DeleteSync.Timestamps

/-!
# Constants and their texts

The constants of the types that `SoqlLiteral` accepts. Their texts come from
`Value::ToString` of DuckDB, which is not part of this repository: it is a
parameter that prints what DuckDB documents.
-/

namespace DuckdbSalesforce
open Calendar NumberScan Numerals

/-! ### Constants -/

inductive FloatValue where
  | nan
  | infinity (negative : Bool)
  | finite (x : ℚ)

/-- A count since 1970, or one of the two infinities. -/
inductive Instant where
  | infinity (negative : Bool)
  | finite (n : ℤ)

/-- A decimal is held by its unscaled number, a date by its day, a timestamp and
a time of day by their microseconds. -/
inductive DuckConstant where
  | null (type : LogicalType)
  | varchar (s : Text)
  | boolean (b : Bool)
  | integer (type : LogicalType) (n : ℤ)
  | float (type : LogicalType) (x : FloatValue)
  | decimal (width scale : ℕ) (unscaled : ℤ)
  | date (d : Instant)
  | timestamp (t : Instant)
  | time (us : ℕ)

def integerRange : LogicalType → Option (ℤ × ℤ)
  | .tinyint => some (-128, 127)
  | .smallint => some (-32768, 32767)
  | .integer => some (-2147483648, 2147483647)
  | .bigint => some (-9223372036854775808, 9223372036854775807)
  | .utinyint => some (0, 255)
  | .usmallint => some (0, 65535)
  | .uinteger => some (0, 4294967295)
  | .ubigint => some (0, 18446744073709551615)
  | _ => none

/-- Where the infinities stand among the finite counts, which `limit` bounds. -/
def Instant.key (limit : ℤ) : Instant → ℤ
  | .infinity negative => if negative then -limit else limit
  | .finite n => n

/-! ### Texts -/

def signOf (n : ℤ) : Option Bool := if n < 0 then some true else none

def integerNumeral (n : ℤ) : Numeral where
  sign := signOf n
  whole := natText n.natAbs
  fraction := []
  exponent := none
  digits_ne := by
    rw [List.append_nil]
    exact (natText_digits _).1
  digit := by
    rw [List.append_nil]
    exact (natText_digits _).2

/-- A decimal that has only digits after the point is printed without a zero in
front of it. -/
def decimalWhole (width scale : ℕ) (n : ℤ) : Text :=
  if scale < width ∨ scale = 0 then natText (n.natAbs / 10 ^ scale) else []

def decimalFraction (scale : ℕ) (n : ℤ) : Text :=
  if scale = 0 then [] else padded scale (n.natAbs % 10 ^ scale)

theorem decimal_digits_ne (width scale : ℕ) (n : ℤ) :
    decimalWhole width scale n ++ decimalFraction scale n ≠ [] := by
  intro h
  obtain ⟨hwhole, hfraction⟩ := List.append_eq_nil_iff.mp h
  unfold decimalWhole at hwhole
  unfold decimalFraction at hfraction
  by_cases hscale : scale = 0
  · rw [if_pos (Or.inr hscale)] at hwhole
    exact (natText_digits _).1 hwhole
  · rw [if_neg hscale] at hfraction
    exact padded_ne _ _ hfraction

theorem decimal_digit (width scale : ℕ) (n : ℤ) :
    ∀ c ∈ decimalWhole width scale n ++ decimalFraction scale n, c.isDigit = true := by
  intro c hc
  rcases List.mem_append.mp hc with hc | hc
  · unfold decimalWhole at hc
    split at hc
    · exact (natText_digits _).2 c hc
    · cases hc
  · unfold decimalFraction at hc
    split at hc
    · cases hc
    · exact padded_digit _ _ c hc

def decimalNumeral (width scale : ℕ) (n : ℤ) : Numeral where
  sign := signOf n
  whole := decimalWhole width scale n
  fraction := decimalFraction scale n
  exponent := none
  digits_ne := decimal_digits_ne width scale n
  digit := decimal_digit width scale n

/-- The year before year 1 is 1 BC. -/
def duckDate (d : Date) : Text :=
  if 0 < d.year then dateText 4 d
  else padded 4 (1 - d.year).toNat ++
    '-' :: (padded 2 d.month ++ '-' :: (padded 2 d.day ++ " (BC)".toList))

def clockDigits (hour minute second : ℕ) : Text :=
  padded 2 hour ++ ':' :: (padded 2 minute ++ ':' :: padded 2 second)

/-- The microseconds of a second, without zeros at the end. -/
def secondFraction (us : ℤ) : Text := trimZeros (padded 6 (us % 1000000).toNat)

def duckTimestamp (us : ℤ) : Text :=
  let m := momentOf (us / 1000000)
  duckDate m.date ++ ' ' :: (clockText m ++ fractionText (secondFraction us))

def duckTime (us : ℕ) : Text :=
  clockDigits (us / 3600000000) (us / 60000000 % 60) (us / 1000000 % 60) ++
    fractionText (secondFraction us)

def infinityText (name : String) (negative : Bool) : Text :=
  (if negative then ['-'] else []) ++ name.toList

/-- `Value::ToString`, with the order of the floats and the rounding of a number
to the nearest one. A finite float is printed so that it reads back. -/
structure DuckPrinter where
  text : DuckConstant → Text
  rank : LogicalType → FloatValue → ℤ
  nearest : LogicalType → ℚ → ℚ
  numeral : LogicalType → ℚ → Numeral
  reads_back : ∀ t x, nearest t x = x → nearest t (numeral t x).value = x
  text_integer : ∀ t n, text (.integer t n) = (integerNumeral n).text
  text_nan : ∀ t, text (.float t .nan) = "nan".toList
  text_inf : ∀ t negative, text (.float t (.infinity negative)) = infinityText "inf" negative
  text_float : ∀ t x, text (.float t (.finite x)) = (numeral t x).text
  text_decimal : ∀ width scale n,
    text (.decimal width scale n) = (decimalNumeral width scale n).text
  text_date_infinity : ∀ negative, text (.date (.infinity negative)) = infinityText "infinity" negative
  text_date : ∀ n, text (.date (.finite n)) = duckDate (dateOf n)
  text_timestamp_infinity : ∀ negative,
    text (.timestamp (.infinity negative)) = infinityText "infinity" negative
  text_timestamp : ∀ us, text (.timestamp (.finite us)) = duckTimestamp us
  text_time : ∀ us, text (.time us) = duckTime us

section Printer
variable (P : DuckPrinter)

def DuckConstant.value (c : DuckConstant) : Value :=
  match c with
  | .null t => .null t
  | .varchar s => .varchar s
  | .boolean b => .boolean b
  | .integer t n => .scalar t n (P.text c)
  | .float t x => .scalar t (P.rank t x) (P.text c)
  | .decimal width scale n => .scalar (.decimal width scale) n (P.text c)
  | .date d => .scalar .date (d.key 2147483647) (P.text c)
  | .timestamp t => .scalar .timestamp (t.key 9223372036854775807) (P.text c)
  | .time us => .scalar .time us (P.text c)

/-- The constants that there are: the integers of each type, the floats, the
decimals of their width, the days from 5877642-06-25 (BC) to 5881580-07-10, the
timestamps from 290309-12-22 (BC) on, the times up to 24:00:00. -/
def DuckConstant.Valid : DuckConstant → Prop
  | .integer t n => ∃ range, integerRange t = some range ∧ range.1 ≤ n ∧ n ≤ range.2
  | .float t (.finite x) => (t = .float ∨ t = .double) ∧ P.nearest t x = x
  | .float t _ => t = .float ∨ t = .double
  | .decimal width scale n => 0 < width ∧ width ≤ 38 ∧ scale ≤ width ∧ n.natAbs < 10 ^ width
  | .date (.finite n) => -2147483646 ≤ n ∧ n ≤ 2147483646
  | .timestamp (.finite us) => -9223372022400000000 ≤ us ∧ us ≤ 9223372036854775806
  | .time us => us ≤ 86400000000
  | _ => True

end Printer

/-! ### What the texts denote -/

theorem signed_natAbs (n : ℤ) : signedValue (signOf n) n.natAbs = n := by
  unfold signOf signedValue
  by_cases hneg : n < 0
  · rw [if_pos hneg, if_pos rfl]
    omega
  · rw [if_neg hneg, if_neg (by intro h; cases h)]
    omega

theorem integerNumeral_value (n : ℤ) : (integerNumeral n).value = n := by
  have hdigits : Nat.ofDigitChars 10 (natText n.natAbs) 0 = n.natAbs := by
    rw [natText_eq]
    exact Nat.ofDigitChars_ten_toDigits
  simp only [Numeral.value, integerNumeral, List.append_nil, hdigits, signed_natAbs, exponentValue]
  simp

theorem decimal_digits_value (width scale : ℕ) (n : ℤ) (hwidth : 0 < width) (hscale : scale ≤ width)
    (hn : n.natAbs < 10 ^ width) :
    Nat.ofDigitChars 10 (decimalWhole width scale n ++ decimalFraction scale n) 0 = n.natAbs ∧
      (decimalFraction scale n).length = scale := by
  unfold decimalWhole decimalFraction
  by_cases hzero : scale = 0
  · rw [if_pos (Or.inr hzero), if_pos hzero, List.append_nil, hzero, pow_zero, Nat.div_one, natText_eq]
    exact ⟨Nat.ofDigitChars_ten_toDigits, rfl⟩
  · have hlt : n.natAbs % 10 ^ scale < 10 ^ scale := Nat.mod_lt _ (by positivity)
    have hlen := padded_length scale (n.natAbs % 10 ^ scale) (by omega) hlt
    rw [if_neg hzero]
    refine ⟨?_, hlen⟩
    by_cases hwhole : scale < width
    · rw [if_pos (Or.inl hwhole), Nat.ofDigitChars_append, Nat.ofDigitChars_eq_ofDigitChars_zero,
        padded_value, hlen, natText_eq, Nat.ofDigitChars_ten_toDigits]
      exact Nat.div_add_mod _ _
    · have hsame : scale = width := by omega
      have hneither : ¬ (scale < width ∨ scale = 0) := by omega
      rw [if_neg hneither, List.nil_append, padded_value, hsame]
      exact Nat.mod_eq_of_lt hn

theorem decimalNumeral_value (width scale : ℕ) (n : ℤ) (hwidth : 0 < width) (hscale : scale ≤ width)
    (hn : n.natAbs < 10 ^ width) : (decimalNumeral width scale n).value = n / 10 ^ scale := by
  obtain ⟨hdigits, hlen⟩ := decimal_digits_value width scale n hwidth hscale hn
  simp only [Numeral.value, decimalNumeral, hdigits, hlen, signed_natAbs, exponentValue, zpow_zero,
    mul_one]

theorem secondFraction_digit (us : ℤ) : ∀ c ∈ secondFraction us, c.isDigit = true :=
  trimZeros_digit _ (padded_digit 6 _)

theorem secondFraction_value (us : ℤ) :
    fractionValue (secondFraction us) = ((us % 1000000 : ℤ) : ℚ) / 1000000 := by
  have hrange : 0 ≤ us % 1000000 ∧ us % 1000000 < 1000000 := by omega
  have hcast : (((us % 1000000).toNat : ℕ) : ℚ) = ((us % 1000000 : ℤ) : ℚ) := by
    rw [← Int.cast_natCast, Int.toNat_of_nonneg hrange.1]
  rw [secondFraction, fractionValue_trim, fractionValue_padded 6 _ (by decide) (by omega), hcast]
  norm_num

end DuckdbSalesforce
