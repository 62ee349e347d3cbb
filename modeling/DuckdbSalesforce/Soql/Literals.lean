import DuckdbSalesforce.Soql.Printed
import DuckdbSalesforce.Soql.Constants

/-!
# Pushed literals

What SOQL takes for a literal of each type, and which constants `SoqlLiteral`
turns into one of their value.
-/

namespace DuckdbSalesforce
open Calendar NumberScan Numerals ThreeValued

/-! ### The literals of SOQL -/

/-- Whether the service reads numbers with a plus sign, with no digit before the
point or with an exponent, and how many digits it reads after the seconds of a
dateTime and of a time. -/
structure LiteralForms where
  plus : Bool
  leadingPoint : Bool
  exponents : Bool
  dateTimeDigits : ℕ → Bool
  timeDigits : ℕ → Bool

structure LiteralForms.Admits (G : LiteralForms) (n : Numeral) : Prop where
  plus : n.sign = some false → G.plus = true
  point : n.whole = [] → G.leadingPoint = true
  exponent : n.exponent ≠ none → G.exponents = true

/-- `Z`, or an offset in hours and minutes. -/
inductive ZoneText : Text → ℤ → Prop
  | utc : ZoneText ['Z'] 0
  | ahead (hour minute : ℕ) (hh : hour < 24) (hm : minute < 60) :
    ZoneText ('+' :: (padded 2 hour ++ ':' :: padded 2 minute)) (hour * 3600 + minute * 60)
  | behind (hour minute : ℕ) (hh : hour < 24) (hm : minute < 60) :
    ZoneText ('-' :: (padded 2 hour ++ ':' :: padded 2 minute)) (-(hour * 3600 + minute * 60))

section Grammar
variable (G : LiteralForms)

def SoqlNumber (lit : Text) (q : ℚ) : Prop := ∃ n : Numeral, lit = n.text ∧ G.Admits n ∧ n.value = q

/-- `YYYY-MM-DD`, for a day since 1970. -/
def SoqlDate (lit : Text) (day : ℤ) : Prop :=
  ∃ d : Date, 0 ≤ d.year ∧ d.year ≤ 9999 ∧ lit = dateText 4 d ∧ d.number = day

/-- `YYYY-MM-DDThh:mm:ss`, perhaps a fraction, and a zone, for a microsecond
since 1970. -/
def SoqlDateTime (lit : Text) (us : ℤ) : Prop :=
  ∃ (m : Moment) (digits zone : Text) (offset : ℤ), (0 ≤ m.date.year ∧ m.date.year ≤ 9999) ∧
    (∀ c ∈ digits, c.isDigit = true) ∧ G.dateTimeDigits digits.length = true ∧ ZoneText zone offset ∧
    lit = dateText 4 m.date ++ 'T' :: (clockText m ++ (fractionText digits ++ zone)) ∧
    (us : ℚ) = ((m.seconds - offset : ℤ) + fractionValue digits) * 1000000

/-- `hh:mm:ss`, perhaps a fraction, and `Z`, for a microsecond of the day. -/
def SoqlTime (lit : Text) (us : ℤ) : Prop :=
  ∃ (hour minute second : ℕ) (digits : Text), (hour < 24 ∧ minute < 60 ∧ second < 60) ∧
    (∀ c ∈ digits, c.isDigit = true) ∧ G.timeDigits digits.length = true ∧
    lit = clockDigits hour minute second ++ (fractionText digits ++ ['Z']) ∧
    (us : ℚ) = ((hour * 3600 + minute * 60 + second : ℕ) + fractionValue digits) * 1000000

/-- The text is a literal that has the value of the constant; a number stands
for the nearest float. There is none for an infinity or NaN. -/
def LiteralOf (P : DuckPrinter) (lit : Text) : DuckConstant → Prop
  | .null _ => lit = "null".toList
  | .varchar s => lex lit = some [.atom (.str s)]
  | .boolean b => lit = if b then "true".toList else "false".toList
  | .integer _ n => SoqlNumber G lit n
  | .float t (.finite x) => ∃ q, SoqlNumber G lit q ∧ P.nearest t q = x
  | .float _ _ => False
  | .decimal _ scale n => SoqlNumber G lit (n / 10 ^ scale)
  | .date (.finite n) => SoqlDate lit n
  | .date (.infinity _) => False
  | .timestamp (.finite us) => SoqlDateTime G lit us
  | .timestamp (.infinity _) => False
  | .time us => SoqlTime G lit us

end Grammar

/-! ### The texts of dates -/

theorem zone_stops (zone : Text) (offset : ℤ) (h : ZoneText zone offset) :
    NoDigit zone ∧ zone.head? ≠ some '.' := by
  cases h with
  | utc | ahead _ _ _ _ | behind _ _ _ _ =>
    refine ⟨noDigit_of_cons _ _ (by decide), ?_⟩
    intro hpoint
    cases hpoint

theorem zone_no_bracket (zone : Text) (offset : ℤ) (h : ZoneText zone offset) : '(' ∉ zone := by
  cases h with
  | utc => decide
  | ahead hour minute _ _ | behind hour minute _ _ =>
    simp only [List.mem_cons, List.mem_append, not_or]
    exact ⟨by decide, padded_not_mem '(' (by decide) _ _, by decide, padded_not_mem '(' (by decide) _ _⟩

theorem fractionText_not_mem (c : Char) (hc : c.isDigit = false) (hpoint : c ≠ '.') (digits : Text)
    (h : ∀ d ∈ digits, d.isDigit = true) : c ∉ fractionText digits := by
  unfold fractionText
  split
  · exact List.not_mem_nil
  · intro hmem
    rcases List.mem_cons.mp hmem with hmem | hmem
    · exact hpoint hmem
    · have hdigit := h c hmem
      rw [hc] at hdigit
      cases hdigit

theorem mem_blankToT (c : Char) (hc : c ≠ ' ') (t : Text) (h : c ∈ t) : c ∈ blankToT t := by
  induction t with
  | nil => cases h
  | cons d t ih =>
    unfold blankToT
    rcases List.mem_cons.mp h with h | h
    · rw [if_neg (by rw [← h]; exact hc), h]
      exact List.mem_cons_self
    · split
      · exact List.mem_cons_of_mem _ h
      · exact List.mem_cons_of_mem _ (ih h)

theorem duckDate_bc (d : Date) (h : d.year ≤ 0) : '(' ∈ duckDate d := by
  rw [duckDate, if_neg (by omega)]
  simp

theorem duckDate_ad (d : Date) (h : 0 < d.year) : duckDate d = dateText 4 d := if_pos h

/-- A date with its year from 0 on is told by its text. -/
theorem dateText_year (d e : Date) (hd : 0 ≤ d.year) (he : 0 ≤ e.year) (s t : Text)
    (h : dateText 4 d ++ s = dateText 4 e ++ t) : d.year = e.year := by
  have hyear : ∀ d : Date, 0 ≤ d.year → yearText 4 d.year = padded 4 d.year.natAbs := by
    intro d hd
    exact if_neg (by omega)
  simp only [dateText, hyear d hd, hyear e he, List.append_assoc, List.cons_append] at h
  obtain ⟨hdigits, _⟩ := digits_split _ _ _ _ (padded_digit 4 _) (padded_digit 4 _)
    (noDigit_of_cons '-' _ (by decide)) (noDigit_of_cons '-' _ (by decide)) h
  have hvalue := congrArg (fun t => Nat.ofDigitChars 10 t 0) hdigits
  simp only [padded_value] at hvalue
  omega

/-- The years whose texts have four digits and no more. -/
theorem readable_year (d e : Date) (he : 0 ≤ e.year ∧ e.year ≤ 9999) (s t : Text)
    (hbracket : '(' ∉ dateText 4 e ++ t) (hbc : d.year ≤ 0 → '(' ∈ dateText 4 e ++ t)
    (had : 0 < d.year → dateText 4 d ++ s = dateText 4 e ++ t) : 1 ≤ d.year ∧ d.year ≤ 9999 := by
  by_cases hpos : 0 < d.year
  · have hyear := dateText_year d e (by omega) he.1 s t (had hpos)
    omega
  · exact absurd (hbc (by omega)) hbracket

/-! ### Literals by type -/

section Exact
variable (G : LiteralForms) (P : DuckPrinter)

theorem number_iff (n : Numeral) (q : ℚ) : SoqlNumber G n.text q ↔ G.Admits n ∧ n.value = q := by
  refine ⟨?_, ?_⟩
  · intro h
    obtain ⟨m, htext, hm⟩ := h
    rw [Numeral.text_injective n m htext]
    exact hm
  · intro h
    exact ⟨n, rfl, h⟩

theorem signOf_ne_plus (n : ℤ) : signOf n ≠ some false := by
  unfold signOf
  split
  · decide
  · intro h
    cases h

theorem integer_literal (n : ℤ) : SoqlNumber G (integerNumeral n).text n := by
  apply (number_iff G (integerNumeral n) n).mpr
  refine ⟨⟨fun h => absurd h (signOf_ne_plus n), fun h => absurd h (natText_digits _).1, ?_⟩,
    integerNumeral_value n⟩
  intro h
  exact absurd rfl h

theorem decimal_literal_iff (width scale : ℕ) (n : ℤ) (hwidth : 0 < width) (hscale : scale ≤ width)
    (hn : n.natAbs < 10 ^ width) :
    SoqlNumber G (decimalNumeral width scale n).text (n / 10 ^ scale) ↔
      (scale = width → G.leadingPoint = true) := by
  have hwhole : decimalWhole width scale n = [] ↔ scale = width := by
    unfold decimalWhole
    by_cases hlt : scale < width ∨ scale = 0
    · rw [if_pos hlt]
      refine ⟨fun h => absurd h (natText_digits _).1, ?_⟩
      intro h
      omega
    · rw [if_neg hlt]
      refine ⟨?_, fun _ => rfl⟩
      intro _
      omega
  rw [number_iff, ← hwhole]
  refine ⟨fun h => h.1.point, ?_⟩
  intro h
  refine ⟨⟨fun hplus => absurd hplus (signOf_ne_plus n), h, ?_⟩,
    decimalNumeral_value width scale n hwidth hscale hn⟩
  intro hexponent
  exact absurd rfl hexponent

theorem date_literal_iff (n : ℤ) :
    SoqlDate (duckDate (dateOf n)) n ↔ 1 ≤ (dateOf n).year ∧ (dateOf n).year ≤ 9999 := by
  refine ⟨?_, ?_⟩
  · intro h
    obtain ⟨e, hlow, hhigh, htext, _⟩ := h
    apply readable_year (dateOf n) e ⟨hlow, hhigh⟩ [] []
    · rw [List.append_nil]
      exact dateText_not_mem '(' (by decide) (by decide) 4 e
    · intro hbc
      rw [List.append_nil, ← htext]
      exact duckDate_bc _ hbc
    · intro hpos
      rw [List.append_nil, List.append_nil, ← htext, duckDate_ad _ hpos]
  · intro h
    exact ⟨dateOf n, by omega, h.2, duckDate_ad _ (by omega), dateOf_number n⟩

theorem splitMicros (us : ℤ) : (us : ℚ) =
    ((us / 1000000 : ℤ) + fractionValue (secondFraction us)) * 1000000 := by
  have hsplit : us = us / 1000000 * 1000000 + us % 1000000 := by omega
  have hcast : (us : ℚ) = ((us / 1000000 : ℤ) : ℚ) * 1000000 + ((us % 1000000 : ℤ) : ℚ) := by
    exact_mod_cast hsplit
  rw [secondFraction_value, add_mul, div_mul_cancel₀ _ (by norm_num), ← hcast]

theorem timestamp_literal_iff (us : ℤ) :
    SoqlDateTime G (blankToT (duckTimestamp us) ++ ['Z']) us ↔
      (1 ≤ (momentOf (us / 1000000)).date.year ∧ (momentOf (us / 1000000)).date.year ≤ 9999) ∧
        G.dateTimeDigits (secondFraction us).length = true := by
  have hmicros := secondFraction_digit us
  have had : 0 < (momentOf (us / 1000000)).date.year → blankToT (duckTimestamp us) ++ ['Z'] =
      dateText 4 (momentOf (us / 1000000)).date ++ 'T' ::
        (clockText (momentOf (us / 1000000)) ++ (fractionText (secondFraction us) ++ ['Z'])) := by
    intro hpos
    have hblank := dateText_not_mem ' ' rfl (by decide) 4 (momentOf (us / 1000000)).date
    simp only [duckTimestamp, duckDate_ad _ hpos]
    rw [blankToT_append _ _ hblank, blankToT, if_pos rfl]
    simp
  refine ⟨?_, ?_⟩
  · intro h
    obtain ⟨e, digits, zone, offset, heyear, hdigits, hcount, hzone, htext, _⟩ := h
    have hyear : 1 ≤ (momentOf (us / 1000000)).date.year ∧
        (momentOf (us / 1000000)).date.year ≤ 9999 := by
      apply readable_year _ e.date heyear _ _ _ _ fun hpos => (had hpos).symm.trans htext
      · simp only [List.mem_append, List.mem_cons, not_or]
        exact ⟨dateText_not_mem '(' (by decide) (by decide) 4 _, by decide,
          clockText_not_mem '(' (by decide) (by decide) _,
          fractionText_not_mem '(' (by decide) (by decide) _ hdigits, zone_no_bracket _ _ hzone⟩
      · intro hbc
        rw [← htext]
        apply List.mem_append_left
        apply mem_blankToT '(' (by decide)
        exact List.mem_append_left _ (duckDate_bc _ hbc)
    refine ⟨hyear, ?_⟩
    rw [had (by omega)] at htext
    have hdate := List.append_inj htext (by
      rw [dateText_length _ heyear, dateText_length _ (by omega)])
    have hclock := List.append_inj (List.cons.inj hdate.2).2 (by
      rw [clockText_length, clockText_length])
    obtain ⟨hstop, hpoint⟩ := zone_stops _ _ hzone
    obtain ⟨hfraction, _⟩ := fraction_split _ _ _ _ hmicros hdigits
      (noDigit_of_cons 'Z' [] (by decide)) hstop (by decide) hpoint hclock.2
    rw [hfraction]
    exact hcount
  · intro h
    obtain ⟨hyear, hcount⟩ := h
    refine ⟨momentOf (us / 1000000), secondFraction us, ['Z'], 0, by omega, hmicros, hcount, .utc,
      had (by omega), ?_⟩
    rw [momentOf_seconds, Int.sub_zero]
    exact splitMicros us

theorem clockDigits_length (hour minute second : ℕ) (hh : hour < 60) (hm : minute < 60)
    (hs : second < 60) : (clockDigits hour minute second).length = 8 := by
  simp only [clockDigits, List.length_append, List.length_cons, padded_two _ hh, padded_two _ hm,
    padded_two _ hs]

theorem time_literal_iff (us : ℕ) (hus : us ≤ 86400000000) :
    SoqlTime G (duckTime us ++ ['Z']) us ↔
      us < 86400000000 ∧ G.timeDigits (secondFraction us).length = true := by
  have hmicros := secondFraction_digit us
  have hshape : duckTime us ++ ['Z'] =
      clockDigits (us / 3600000000) (us / 60000000 % 60) (us / 1000000 % 60) ++
        (fractionText (secondFraction us) ++ ['Z']) := List.append_assoc _ _ _
  refine ⟨?_, ?_⟩
  · intro h
    obtain ⟨hour, minute, second, digits, ⟨hh, hm, hs⟩, hdigits, hcount, htext, hvalue⟩ := h
    refine ⟨?_, ?_⟩
    · -- the hours of the literal stop at 23
      have hfraction := fractionValue_lt digits hdigits
      have hclock : ((hour * 3600 + minute * 60 + second : ℕ) : ℚ) ≤ 86399 := by
        exact_mod_cast (by omega : hour * 3600 + minute * 60 + second ≤ 86399)
      have hlt : ((us : ℤ) : ℚ) < 86400000000 := by
        rw [hvalue]
        linarith
      exact_mod_cast hlt
    · rw [hshape] at htext
      have hclock := List.append_inj htext (by
        rw [clockDigits_length _ _ _ (by omega) (by omega) (by omega),
          clockDigits_length _ _ _ (by omega) hm hs])
      obtain ⟨hfraction, _⟩ := fraction_split _ _ _ _ hmicros hdigits
        (noDigit_of_cons 'Z' [] (by decide)) (noDigit_of_cons 'Z' [] (by decide)) (by decide)
        (by decide) hclock.2
      rw [hfraction]
      exact hcount
  · intro h
    obtain ⟨hlt, hcount⟩ := h
    refine ⟨us / 3600000000, us / 60000000 % 60, us / 1000000 % 60, secondFraction us,
      by omega, hmicros, hcount, hshape, ?_⟩
    have hseconds : us / 3600000000 * 3600 + us / 60000000 % 60 * 60 + us / 1000000 % 60 =
        us / 1000000 := by omega
    rw [hseconds]
    exact splitMicros us

/-- A float is printed in a form that the service reads, a decimal has a digit
before the point or needs none, a date and a timestamp lie in the years 1 to
9999, a time is before 24:00:00, and fractions of a second are not too long. -/
def Sendable : DuckConstant → Prop
  | .float t (.finite x) => G.Admits (P.numeral t x)
  | .float _ _ => False
  | .decimal width scale _ => scale = width → G.leadingPoint = true
  | .date (.finite n) => 1 ≤ (dateOf n).year ∧ (dateOf n).year ≤ 9999
  | .date (.infinity _) => False
  | .timestamp (.finite us) => (1 ≤ (momentOf (us / 1000000)).date.year ∧
      (momentOf (us / 1000000)).date.year ≤ 9999) ∧ G.dateTimeDigits (secondFraction us).length = true
  | .timestamp (.infinity _) => False
  | .time us => us < 86400000000 ∧ G.timeDigits (secondFraction us).length = true
  | _ => True

theorem soqlLiteral_integer (t : LogicalType) (range : ℤ × ℤ) (h : integerRange t = some range)
    (key : ℤ) (str : Text) : soqlLiteral (.scalar t key str) = some str := by
  cases t with
  | tinyint | smallint | integer | bigint | utinyint | usmallint | uinteger | ubigint => rfl
  | boolean | hugeint | float | double | decimal _ _ | date | time | timestamp | timestampTz | varchar
  | blob | struct | other => cases h

theorem soqlLiteral_float (t : LogicalType) (h : t = .float ∨ t = .double) (key : ℤ) (str : Text) :
    soqlLiteral (.scalar t key str) = some str := by
  rcases h with h | h <;> rw [h] <;> rfl

theorem literal_iff (c : DuckConstant) (hc : c.Valid P) :
    LiteralOf G P (literalText (c.value P)) c ↔ Sendable G P c := by
  cases c with
  | null t => exact iff_of_true rfl trivial
  | varchar s => exact iff_of_true (lex_string s) trivial
  | boolean b => exact iff_of_true rfl trivial
  | integer t n =>
    obtain ⟨range, hrange, _⟩ := hc
    rw [DuckConstant.value, literalText, soqlLiteral_integer t range hrange, Option.getD_some,
      P.text_integer]
    exact iff_of_true (integer_literal G n) trivial
  | float t x =>
    cases x with
    | nan | infinity _ => exact Iff.rfl
    | finite x =>
      rw [DuckConstant.value, literalText, soqlLiteral_float t hc.1, Option.getD_some, P.text_float]
      refine ⟨?_, ?_⟩
      · intro h
        obtain ⟨q, hq, _⟩ := h
        exact ((number_iff G _ q).mp hq).1
      · intro h
        exact ⟨_, (number_iff G _ _).mpr ⟨h, rfl⟩, P.reads_back t x hc.2⟩
  | decimal width scale n =>
    have htext : literalText ((DuckConstant.decimal width scale n).value P) =
        (decimalNumeral width scale n).text := P.text_decimal width scale n
    rw [htext]
    exact decimal_literal_iff G width scale n hc.1 hc.2.2.1 hc.2.2.2
  | date d =>
    cases d with
    | infinity _ => exact Iff.rfl
    | finite n =>
      have htext : literalText ((DuckConstant.date (.finite n)).value P) = duckDate (dateOf n) :=
        P.text_date n
      rw [htext]
      exact date_literal_iff n
  | timestamp t =>
    cases t with
    | infinity _ => exact Iff.rfl
    | finite us =>
      have htext : literalText ((DuckConstant.timestamp (.finite us)).value P) =
          blankToT (duckTimestamp us) ++ ['Z'] := by
        rw [← P.text_timestamp us]
        rfl
      rw [htext]
      exact timestamp_literal_iff G us
  | time us =>
    have htext : literalText ((DuckConstant.time us).value P) = duckTime us ++ ['Z'] := by
      rw [← P.text_time us]
      rfl
    rw [htext]
    exact time_literal_iff G us hc

/-! ### Conjuncts -/

/-- The conjunct becomes this SOQL, with the literal of the value in it. -/
def WritesLiteral (fields : List SalesforceField) (projectionToField : List ℕ) (e : Expr) (v : Value)
    (text : Text) : Prop :=
  ∃ clause exact, translateExpr fields projectionToField e = .ok (some (text, exact)) ∧
    clauseOf fields projectionToField e = .ok (some (clause, exact)) ∧ text = clauseText clause ∧
    ∃ p ∈ clause.leaves, v ∈ p.values

/-- Whatever conjunct the constant stands in, it stays behind or its literal is
one of SOQL. -/
def PushedValid (c : DuckConstant) : Prop :=
  ∀ fields projectionToField e text,
    WritesLiteral fields projectionToField e (c.value P) text →
      LiteralOf G P (literalText (c.value P)) c

def someField : SalesforceField := .flat "F".toList [] .varchar true true

/-- A comparison with any constant whose type `SoqlLiteral` accepts is pushed. -/
theorem comparison_writes (v : Value) (h : (soqlLiteral v).isSome = true) :
    ∃ text, WritesLiteral [someField] [0] (.comparison .compareLessThan (.columnRef 0) (.constant v)) v
      text := by
  have hclause : clauseOf [someField] [0]
      (.comparison .compareLessThan (.columnRef 0) (.constant v)) =
      .ok (some (.leaf (.compare "F".toList .lt v), true)) := by
    rw [clauseOf]
    show (if (soqlLiteral v).isSome then _ else _) = _
    rw [if_pos h]
    rfl
  refine ⟨_, _, _, ?_, hclause, rfl, _, List.mem_singleton_self _, List.mem_singleton_self _⟩
  rw [translateExpr_written, hclause]
  rfl

theorem value_accepted (c : DuckConstant) (hc : c.Valid P) :
    (soqlLiteral (c.value P)).isSome = true := by
  cases c with
  | null _ | varchar _ | boolean _ | decimal _ _ _ | date _ | timestamp _ | time _ => rfl
  | integer t n =>
    obtain ⟨range, hrange, _⟩ := hc
    rw [DuckConstant.value, soqlLiteral_integer t range hrange, Option.isSome_some]
  | float t x =>
    have ht : t = .float ∨ t = .double := by
      cases x with
      | nan | infinity _ => exact hc
      | finite _ => exact hc.1
    rw [DuckConstant.value, soqlLiteral_float t ht, Option.isSome_some]

/-- A constant is sent in a valid literal exactly when it is sendable. -/
theorem literals_valid_iff (c : DuckConstant) (hc : c.Valid P) :
    PushedValid G P c ↔ Sendable G P c := by
  rw [← literal_iff G P c hc]
  refine ⟨?_, ?_⟩
  · intro h
    obtain ⟨text, hwrites⟩ := comparison_writes (c.value P) (value_accepted P c hc)
    exact h _ _ _ text hwrites
  · intro h _ _ _ _ _
    exact h

end Exact

/-! ### A service and a printer -/

/-- Plain numbers, and milliseconds. -/
def plainForms : LiteralForms where
  plus := false
  leadingPoint := false
  exponents := false
  dateTimeDigits n := n ≤ 3
  timeDigits n := n ≤ 3

/-- A whole number with a zero after the point, as whole floats are printed. -/
def wholeNumeral (n : ℤ) : Numeral := decimalNumeral ((n * 10).natAbs + 2) 1 (n * 10)

theorem wholeNumeral_value (n : ℤ) : (wholeNumeral n).value = n := by
  have hlt : (n * 10).natAbs < 10 ^ ((n * 10).natAbs + 2) :=
    lt_trans (Nat.lt_pow_self (by decide)) (Nat.pow_lt_pow_right (by decide) (by omega))
  have hvalue := decimalNumeral_value ((n * 10).natAbs + 2) 1 (n * 10) (by omega) (by omega) hlt
  rw [wholeNumeral, hvalue]
  push_cast
  ring

def wholePrinterText : DuckConstant → Text
  | .null _ => "NULL".toList
  | .varchar s => s
  | .boolean b => if b then "true".toList else "false".toList
  | .integer _ n => (integerNumeral n).text
  | .float _ .nan => "nan".toList
  | .float _ (.infinity negative) => infinityText "inf" negative
  | .float _ (.finite x) => (wholeNumeral ⌊x⌋).text
  | .decimal width scale n => (decimalNumeral width scale n).text
  | .date (.infinity negative) => infinityText "infinity" negative
  | .date (.finite n) => duckDate (dateOf n)
  | .timestamp (.infinity negative) => infinityText "infinity" negative
  | .timestamp (.finite us) => duckTimestamp us
  | .time us => duckTime us

/-- A printer whose floats are the whole numbers. -/
def wholePrinter : DuckPrinter where
  text := wholePrinterText
  rank _ x := match x with
    | .finite x => ⌊x⌋
    | _ => 0
  nearest _ x := ⌊x⌋
  numeral _ x := wholeNumeral ⌊x⌋
  reads_back := by
    intro _ x hx
    rw [wholeNumeral_value, Int.floor_intCast]
    exact hx
  text_integer _ _ := rfl
  text_nan _ := rfl
  text_inf _ _ := rfl
  text_float _ _ := rfl
  text_decimal _ _ _ := rfl
  text_date_infinity _ := rfl
  text_date _ := rfl
  text_timestamp_infinity _ := rfl
  text_timestamp _ := rfl
  text_time _ := rfl

/-- `2024-02-29 12:30:00.5`. -/
theorem leap_day_valid :
    PushedValid plainForms wholePrinter (.timestamp (.finite 1709209800500000)) := by
  have hvalid : (DuckConstant.timestamp (.finite 1709209800500000)).Valid wholePrinter := by
    show (-9223372022400000000 : ℤ) ≤ _ ∧ _
    decide
  apply (literals_valid_iff plainForms wholePrinter _ hvalid).mpr
  show (1 ≤ (momentOf (1709209800500000 / 1000000)).date.year ∧ _) ∧ _
  decide +kernel

/-- `10000-01-01` is written as it is, and is no date of SOQL. -/
theorem year_10000_sent :
    ¬ ∀ (G : LiteralForms) (P : DuckPrinter) (c : DuckConstant), c.Valid P → PushedValid G P c := by
  intro h
  have hvalid : (DuckConstant.date (.finite 2932897)).Valid wholePrinter := by
    show (-2147483646 : ℤ) ≤ _ ∧ _
    decide
  obtain ⟨text, hwrites⟩ := comparison_writes _ (value_accepted wholePrinter _ hvalid)
  have hdate : SoqlDate (duckDate (dateOf 2932897)) 2932897 :=
    h plainForms wholePrinter _ hvalid _ _ _ text hwrites
  have hyear := (date_literal_iff 2932897).mp hdate
  exact absurd hyear.2 (by decide +kernel)

end DuckdbSalesforce
