import Mathlib
import DuckdbSalesforce.DeleteSync.Timestamps
import DuckdbSalesforce.Json.Decode
import DuckdbSalesforce.Soql.Constants

/-!
# Datetimes and times (salesforce_value.cpp)

ISO 8601 texts through `NormalizeDateTime`, `NormalizeTime` and DuckDB's cast:
what is stored is the clock as it is written, without its zone.
-/

namespace DuckdbSalesforce
open Calendar NumberScan

/-! ### The texts -/

/-- `Z`, `+hhmm`, `-hhmm`, `+hh:mm` or `-hh:mm`. -/
inductive ZoneDesignator where
  | utc
  | offset (negative colon : Bool) (hour minute : ℕ) (hour_lt : hour < 24) (minute_lt : minute < 60)

def ZoneDesignator.text : ZoneDesignator → Text
  | .utc => ['Z']
  | .offset negative colon hour minute _ _ =>
    (if negative then '-' else '+') :: (padded 2 hour ++ (if colon then [':'] else []) ++
      padded 2 minute)

/-- The seconds by which the clock is ahead of UTC. -/
def ZoneDesignator.seconds : ZoneDesignator → ℤ
  | .utc => 0
  | .offset negative _ hour minute _ _ =>
    if negative then -((hour * 60 + minute) * 60) else (hour * 60 + minute) * 60

/-- A text of a datetime, or of a time when the date is left out. The part of a
second has as many digits as it likes. -/
structure IsoStamp where
  moment : Moment
  year_ge : 0 ≤ moment.date.year
  year_le : moment.date.year ≤ 9999
  fraction : Text
  digits : ∀ c ∈ fraction, c.isDigit = true
  zone : ZoneDesignator

def fractionPart (fraction : Text) : Text := if fraction = [] then [] else '.' :: fraction

def IsoStamp.clock (s : IsoStamp) : Text := clockText s.moment ++ fractionPart s.fraction

def IsoStamp.dateTimeText (s : IsoStamp) : Text :=
  dateText 4 s.moment.date ++ 'T' :: (s.clock ++ s.zone.text)

def IsoStamp.timeText (s : IsoStamp) : Text := s.clock ++ s.zone.text

/-! ### The instants -/

def clockSeconds (m : Moment) : ℤ := (m.hour * 60 + m.minute) * 60 + m.second

/-- A timestamp is its microseconds since 1970, a time those since midnight. -/
def timestampValue (us : ℤ) : Value := .scalar .timestamp us (duckTimestamp us)

def timeValue (us : ℤ) : Value := .scalar .time us (duckTime us.toNat)

/-- DuckDB's casts of a clock without a zone; `micros` is what they make of the
digits of a part of a second. -/
structure CastsWallClock (casts : CastFunctions) (micros : Text → ℤ) : Prop where
  timestamp : ∀ s : IsoStamp,
    casts.defaultCastAs .timestamp (dateText 4 s.moment.date ++ ' ' :: s.clock) =
      some (timestampValue (s.moment.seconds * 1000000 + micros s.fraction))
  time : ∀ s : IsoStamp,
    casts.defaultCastAs .time s.clock =
      some (timeValue (clockSeconds s.moment * 1000000 + micros s.fraction))

section
variable (micros : Text → ℤ)

/-- The clock as it is written. -/
def IsoStamp.written (s : IsoStamp) : LogicalType → Value
  | .time => timeValue (clockSeconds s.moment * 1000000 + micros s.fraction)
  | _ => timestampValue (s.moment.seconds * 1000000 + micros s.fraction)

/-- The clock in UTC at the instant the text denotes. -/
def IsoStamp.inUtc (s : IsoStamp) : LogicalType → Value
  | .time =>
    timeValue ((clockSeconds s.moment - s.zone.seconds) % 86400 * 1000000 + micros s.fraction)
  | _ => timestampValue ((s.moment.seconds - s.zone.seconds) * 1000000 + micros s.fraction)

end

def IsoStamp.text (s : IsoStamp) : LogicalType → Text
  | .time => s.timeText
  | _ => s.dateTimeText

/-! ### What is cut off -/

theorem digit_unmarked (c : Char) (h : c.isDigit = true) : isZoneMark c = false :=
  clock_unmarked c (by rw [isClockChar, h]; rfl)

theorem clockText_chars (m : Moment) : ∀ c ∈ clockText m, isClockChar c = true := by
  intro c hc
  simp only [clockText, List.mem_append, List.mem_cons] at hc
  have hdigit : c.isDigit = true → isClockChar c = true := fun h => by rw [isClockChar, h]; rfl
  rcases hc with hc | rfl | hc | rfl | hc
  · exact hdigit (padded_digit _ _ c hc)
  · rfl
  · exact hdigit (padded_digit _ _ c hc)
  · rfl
  · exact hdigit (padded_digit _ _ c hc)

theorem clock_chars (s : IsoStamp) : ∀ c ∈ s.clock, isClockChar c = true := by
  intro c hc
  rcases List.mem_append.mp hc with hc | hc
  · exact clockText_chars s.moment c hc
  · unfold fractionPart at hc
    split at hc
    · cases hc
    · rcases List.mem_cons.mp hc with rfl | hc
      · rfl
      · rw [isClockChar, s.digits c hc]
        rfl

theorem clockChar_not_dash (c : Char) (h : isClockChar c = true) : (c != '-') = true := by
  rw [bne_iff_ne]
  intro heq
  subst heq
  exact absurd h (by decide)

theorem stripZone_dash (clock zone : Text) (hclock : ∀ c ∈ clock, isClockChar c = true)
    (hzone : zone.any isZoneMark = false) : stripZone (clock ++ '-' :: zone) = clock := by
  have hnone : (clock ++ '-' :: zone).any isZoneMark = false := by
    rw [List.any_append, List.any_cons, hzone, Bool.or_eq_false_iff]
    refine ⟨?_, rfl⟩
    rw [List.any_eq_false]
    intro c hc
    rw [clock_unmarked c (hclock c hc)]
    exact Bool.false_ne_true
  unfold stripZone
  rw [hnone, if_neg Bool.false_ne_true,
    List.takeWhile_append_of_pos fun c hc => clockChar_not_dash c (hclock c hc)]
  simp

theorem offset_unmarked (colon : Bool) (hour minute : ℕ) :
    (padded 2 hour ++ (if colon then [':'] else []) ++ padded 2 minute).any isZoneMark = false := by
  have hdigits : ∀ n, (padded 2 n).any isZoneMark = false := by
    intro n
    rw [List.any_eq_false]
    intro c hc
    rw [digit_unmarked c (padded_digit _ _ c hc)]
    exact Bool.false_ne_true
  rw [List.any_append, List.any_append, hdigits, hdigits]
  cases colon <;> rfl

/-- Every zone is cut off, whichever way it is written. -/
theorem stripZone_zone (clock : Text) (zone : ZoneDesignator)
    (hclock : ∀ c ∈ clock, isClockChar c = true) : stripZone (clock ++ zone.text) = clock := by
  cases zone with
  | utc => exact stripZone_clock clock [] 'Z' rfl hclock
  | offset negative colon hour minute _ _ =>
    cases negative with
    | false => exact stripZone_clock clock _ '+' rfl hclock
    | true => exact stripZone_dash clock _ hclock (offset_unmarked colon hour minute)

theorem dateText_chars (d : Date) (hyear : 0 ≤ d.year) :
    ∀ c ∈ dateText 4 d, c.isDigit = true ∨ c = '-' := by
  intro c hc
  have hnot : ¬ d.year < 0 := Int.not_lt.mpr hyear
  simp only [dateText, yearText, if_neg hnot, List.mem_append, List.mem_cons] at hc
  rcases hc with hc | hc | hc | hc | hc
  · exact Or.inl (padded_digit _ _ c hc)
  · exact Or.inr hc
  · exact Or.inl (padded_digit _ _ c hc)
  · exact Or.inr hc
  · exact Or.inl (padded_digit _ _ c hc)

theorem dateText_without (d : Date) (hyear : 0 ≤ d.year) (c : Char) (hc : c.isDigit = false)
    (hdash : c ≠ '-') : c ∉ dateText 4 d := by
  intro hmem
  rcases dateText_chars d hyear c hmem with h | h
  · rw [h] at hc
    cases hc
  · exact hdash h

theorem dateText_noT (d : Date) (hyear : 0 ≤ d.year) : ∀ c ∈ dateText 4 d, (c != 'T') = true := by
  intro c hc
  rw [bne_iff_ne]
  intro heq
  subst heq
  exact dateText_without d hyear 'T' rfl (by decide) hc

theorem normalizeDateTime_stamp (s : IsoStamp) :
    normalizeDateTime s.dateTimeText = dateText 4 s.moment.date ++ ' ' :: s.clock := by
  have hnot := dateText_noT s.moment.date s.year_ge
  unfold normalizeDateTime IsoStamp.dateTimeText
  rw [List.dropWhile_append_of_pos hnot, List.takeWhile_append_of_pos hnot]
  show dateText 4 s.moment.date ++ [] ++ ' ' :: stripZone (s.clock ++ s.zone.text) = _
  rw [stripZone_zone _ _ (clock_chars s), List.append_nil]

theorem normalizeTime_stamp (s : IsoStamp) : normalizeTime s.timeText = s.clock :=
  stripZone_zone _ _ (clock_chars s)

/-! ### What is stored -/

def IsTemporal (type : LogicalType) : Prop := type = .timestamp ∨ type = .time

theorem stores_written (casts : CastFunctions) (micros : Text → ℤ)
    (hcasts : CastsWallClock casts micros) (s : IsoStamp) (field : SalesforceField)
    (htype : IsTemporal field.duckdbType) :
    appendTypedCell casts field (s.text field.duckdbType) =
      .ok (.value (s.written micros field.duckdbType)) := by
  rcases htype with htype | htype
  · apply appendTypedCell_cast
    · rw [htype]
      decide
    · rw [htype]
      show casts.defaultCastAs .timestamp (normalizeDateTime s.dateTimeText) = _
      rw [normalizeDateTime_stamp]
      exact hcasts.timestamp s
  · apply appendTypedCell_cast
    · rw [htype]
      decide
    · rw [htype]
      show casts.defaultCastAs .time (normalizeTime s.timeText) = _
      rw [normalizeTime_stamp]
      exact hcasts.time s

theorem zone_bounds (z : ZoneDesignator) : -86400 < z.seconds ∧ z.seconds < 86400 := by
  cases z with
  | utc => decide
  | offset negative colon hour minute hour_lt minute_lt =>
    unfold ZoneDesignator.seconds
    cases negative <;> simp only [Bool.false_eq_true, if_true, if_false] <;> omega

theorem clockSeconds_bounds (m : Moment) : 0 ≤ clockSeconds m ∧ clockSeconds m < 86400 := by
  have hh := m.hour_lt
  have hm := m.minute_lt
  have hs := m.second_lt
  unfold clockSeconds
  omega

/-- The clock as written is that of UTC exactly without an offset. -/
theorem written_inUtc_iff (micros : Text → ℤ) (s : IsoStamp) (type : LogicalType)
    (htype : IsTemporal type) :
    s.written micros type = s.inUtc micros type ↔ s.zone.seconds = 0 := by
  obtain ⟨hlow, hhigh⟩ := zone_bounds s.zone
  obtain ⟨hmidnight, hday⟩ := clockSeconds_bounds s.moment
  rcases htype with rfl | rfl
  · constructor
    · intro h
      have hkey : s.moment.seconds * 1000000 + micros s.fraction =
          (s.moment.seconds - s.zone.seconds) * 1000000 + micros s.fraction := by
        injection h
      omega
    · intro h
      simp only [IsoStamp.written, IsoStamp.inUtc, h, sub_zero]
  · constructor
    · intro h
      have hkey : clockSeconds s.moment * 1000000 + micros s.fraction =
          (clockSeconds s.moment - s.zone.seconds) % 86400 * 1000000 + micros s.fraction := by
        injection h
      omega
    · intro h
      have hmod : clockSeconds s.moment % 86400 = clockSeconds s.moment :=
        Int.emod_eq_of_lt hmidnight hday
      simp only [IsoStamp.written, IsoStamp.inUtc, h, sub_zero, hmod]

/-- What is stored is the clock as it is written, which is that of UTC exactly
when the offset is zero. -/
theorem temporal_wall_clock (casts : CastFunctions) (micros : Text → ℤ)
    (hcasts : CastsWallClock casts micros) (s : IsoStamp) (field : SalesforceField)
    (htype : IsTemporal field.duckdbType) :
    appendTypedCell casts field (s.text field.duckdbType) =
        .ok (.value (s.written micros field.duckdbType)) ∧
      (appendTypedCell casts field (s.text field.duckdbType) =
        .ok (.value (s.inUtc micros field.duckdbType)) ↔ s.zone.seconds = 0) := by
  have hstored := stores_written casts micros hcasts s field htype
  refine ⟨hstored, ?_⟩
  rw [hstored, ← written_inUtc_iff micros s field.duckdbType htype]
  constructor
  · intro h
    injection h with h
    injection h
  · intro h
    rw [h]

/-! ### A cast that reads the clock -/

/-- The first six digits. -/
def cutMicros (fraction : Text) : ℤ := decimal ((fraction ++ List.replicate 6 '0').take 6)

def clockFraction (t : Text) : Text := (t.dropWhile (· ≠ '.')).tail

def wallCast : LogicalType → Text → Option Value
  | .timestamp, t =>
    some (timestampValue (timegm (tmOf (scanFormat isoSeparators (blankToT t))) * 1000000 +
      cutMicros (clockFraction t)))
  | .time, t =>
    match scanNumbers ['T', ':', ':'] ('T' :: t) with
    | [hour, minute, second] =>
      some (timeValue (((hour * 60 + minute) * 60 + second) * 1000000 +
        cutMicros (clockFraction t)))
    | _ => none
  | _, _ => none

def wallCasts : CastFunctions := ⟨wallCast, fun _ => []⟩

theorem fractionPart_noDigit (fraction : Text) : NoDigit (fractionPart fraction) := by
  unfold fractionPart
  split
  · exact noDigit_nil
  · exact noDigit_of_cons '.' _ rfl

theorem scan_clock_part (s : IsoStamp) :
    scanNumbers ['T', ':', ':'] ('T' :: s.clock) = clockFields s.moment := by
  have hlast := scan_padded ':' [] (fractionPart s.fraction) 2 s.moment.second
    (fractionPart_noDigit s.fraction)
  have hshape : 'T' :: s.clock = 'T' :: (padded 2 s.moment.hour ++ ':' ::
      (padded 2 s.moment.minute ++ ':' :: (padded 2 s.moment.second ++
        fractionPart s.fraction))) := by
    simp [IsoStamp.clock, clockText]
  rw [hshape, scan_padded _ _ _ _ _ (noDigit_of_cons ':' _ rfl),
    scan_padded _ _ _ _ _ (noDigit_of_cons ':' _ rfl), hlast]
  rfl

theorem fraction_read (lead : Text) (s : IsoStamp) (hlead : '.' ∉ lead) :
    clockFraction (lead ++ s.clock) = s.fraction := by
  have hclock : '.' ∉ clockText s.moment := by
    intro hc
    simp only [clockText, List.mem_append, List.mem_cons] at hc
    rcases hc with hc | hc | hc | hc | hc
    · exact absurd (padded_digit _ _ _ hc) (by decide)
    · exact absurd hc (by decide)
    · exact absurd (padded_digit _ _ _ hc) (by decide)
    · exact absurd hc (by decide)
    · exact absurd (padded_digit _ _ _ hc) (by decide)
  have hno : ∀ c ∈ lead ++ clockText s.moment, decide (c ≠ '.') = true := by
    intro c hc
    rw [decide_eq_true_eq]
    intro heq
    subst heq
    exact (List.mem_append.mp hc).elim hlead hclock
  rw [clockFraction, IsoStamp.clock, ← List.append_assoc, List.dropWhile_append_of_pos hno,
    fractionPart]
  split
  · rename_i hnil
    rw [hnil]
    rfl
  · rfl

theorem wallCasts_read : CastsWallClock wallCasts cutMicros := by
  constructor
  · intro s
    have hspace := dateText_without s.moment.date s.year_ge ' ' rfl (by decide)
    have hfull := dateText_without s.moment.date s.year_ge '.' rfl (by decide)
    have hblank : blankToT (dateText 4 s.moment.date ++ ' ' :: s.clock) =
        dateText 4 s.moment.date ++ 'T' :: s.clock := blankToT_append _ _ hspace
    have hscan := scan_date 4 s.moment.date ('T' :: s.clock) (noDigit_of_cons 'T' _ rfl)
    have hfraction := fraction_read (dateText 4 s.moment.date ++ [' ']) s (by simp [hfull])
    have hyear : inInt32 (s.moment.date.year - 1900) := by
      have hge := s.year_ge
      have hle := s.year_le
      unfold inInt32
      omega
    rw [List.append_assoc] at hfraction
    show some (timestampValue (timegm (tmOf (scanFormat isoSeparators (blankToT _))) * 1000000 +
      cutMicros (clockFraction (dateText 4 s.moment.date ++ ([' '] ++ s.clock))))) = _
    rw [hfraction, hblank, hscan, scan_clock_part, timegm_moment s.moment hyear]
  · intro s
    have hfraction := fraction_read [] s (by simp)
    show wallCast .time s.clock = _
    rw [wallCast, scan_clock_part, ← List.nil_append s.clock, hfraction]
    rfl

/-- Noon of a day, two hours and a half ahead of UTC. -/
def noonAhead : IsoStamp where
  moment := { midnight ⟨2024, 1, 15, by decide, by decide, by decide, by decide⟩ with
    hour := 12
    hour_lt := by decide }
  year_ge := by decide
  year_le := by decide
  fraction := []
  digits := List.forall_mem_nil _
  zone := .offset false true 2 30 (by decide) (by decide)

def whenField : SalesforceField :=
  .flat "Whn".toList "datetime".toList .timestamp true true

theorem noon_stored : appendTypedCell wallCasts whenField noonAhead.dateTimeText =
    .ok (.value (noonAhead.written cutMicros .timestamp)) :=
  (temporal_wall_clock wallCasts cutMicros wallCasts_read noonAhead whenField (Or.inl rfl)).1

/-- `2024-01-15T12:00:00+02:30` is half past nine in UTC, and noon is stored. -/
theorem offset_dropped :
    ¬ ∀ (casts : CastFunctions) (micros : Text → ℤ), CastsWallClock casts micros →
      ∀ (s : IsoStamp) (field : SalesforceField), IsTemporal field.duckdbType →
        appendTypedCell casts field (s.text field.duckdbType) =
          .ok (.value (s.inUtc micros field.duckdbType)) := by
  intro h
  have hutc := h wallCasts cutMicros wallCasts_read noonAhead whenField (Or.inl rfl)
  rw [stores_written wallCasts cutMicros wallCasts_read noonAhead whenField (Or.inl rfl)] at hutc
  have hsame : noonAhead.written cutMicros .timestamp = noonAhead.inUtc cutMicros .timestamp := by
    injection hutc with hutc
    injection hutc
  have hzero := (written_inUtc_iff cutMicros noonAhead .timestamp (Or.inl rfl)).mp hsame
  exact absurd hzero (by decide)

end DuckdbSalesforce
