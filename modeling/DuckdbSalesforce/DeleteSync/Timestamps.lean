import Mathlib
import DuckdbSalesforce.Library.Calendar
import DuckdbSalesforce.Library.NumberScan
import DuckdbSalesforce.Json.Reader
import DuckdbSalesforce.Soql.Translate

/-!
# Timestamps of the delete sync (`salesforce_delete_sync.cpp`)

`ParseIsoUtc` and `ToIsoUtc` on the C library's `sscanf`, `timegm`, `gmtime_r`
and `strftime`, or `_mkgmtime` and `gmtime_s` on Windows. A `time_point` is its
count of clock ticks.
-/

namespace DuckdbSalesforce
open Calendar NumberScan

/-! ### The C library -/

def inInt32 (n : ℤ) : Prop := -2147483648 ≤ n ∧ n ≤ 2147483647

instance (n : ℤ) : Decidable (inInt32 n) := inferInstanceAs (Decidable (_ ∧ _))

def wrap32 (n : ℤ) : ℤ := (n + 2147483648) % 4294967296 - 2147483648
def wrap64 (n : ℤ) : ℤ := (n + 9223372036854775808) % 18446744073709551616 - 9223372036854775808

/-- The seconds that `_mkgmtime` and `gmtime_s` convert. They are documented as
those of the years 1970 to 3000; some hours around these are served too. -/
structure TimeRange where
  first : ℤ
  last : ℤ
  first_near : -86400 < first ∧ first ≤ 0
  last_far : 32535215999 ≤ last

/-- The two branches of `#ifdef _WIN32`. -/
inductive TimeLibrary where
  | posix
  | win32 (range : TimeRange)

def TimeLibrary.knows : TimeLibrary → ℤ → Prop
  | .posix, _ => True
  | .win32 range, t => range.first ≤ t ∧ t ≤ range.last

instance (library : TimeLibrary) (t : ℤ) : Decidable (library.knows t) :=
  match library with
  | .posix => inferInstanceAs (Decidable True)
  | .win32 _ => inferInstanceAs (Decidable (_ ∧ _))

/-- What differs from one platform to the next: the ticks of `system_clock`, the
conversions between `tm` and `time_t`, the least number of digits `%Y` prints,
and what `%d` stores of a number that no `int` holds. -/
structure Platform where
  ticksPerSecond : ℤ
  ticks_ge : 1000000 ≤ ticksPerSecond
  ticks_le : ticksPerSecond ≤ 1000000000
  library : TimeLibrary
  yearWidth : ℕ
  storeInt : ℤ → ℤ
  storeInt_fits : ∀ n, inInt32 n → storeInt n = n

structure Tm where
  year : ℤ
  mon : ℤ
  mday : ℤ
  hour : ℤ
  min : ℤ
  sec : ℤ
  deriving DecidableEq, Repr

/-- The second of a `tm`, fields out of range carried over. -/
def Tm.seconds (tm : Tm) : ℤ :=
  let year := tm.year + 1900 + tm.mon / 12
  secondsOf (dayNumber year ((tm.mon % 12).toNat + 1) tm.mday) tm.hour tm.min tm.sec

/-- -1 when no `int` holds the year. -/
def timegm (tm : Tm) : ℤ :=
  if inInt32 (yearAt (tm.seconds / 86400 + 719162) - 1900) then tm.seconds else -1

/-- -1 for a second that is out of range. -/
def mkgmtime (range : TimeRange) (tm : Tm) : ℤ :=
  if range.first ≤ tm.seconds ∧ tm.seconds ≤ range.last then tm.seconds else -1

section Platform
variable (p : Platform)

/-- `timegm`, or `_mkgmtime`. -/
def utcSeconds (tm : Tm) : ℤ :=
  match p.library with
  | .posix => timegm tm
  | .win32 range => mkgmtime range tm

/-- `system_clock::from_time_t`. -/
def fromTimeT (t : ℤ) : ℤ := wrap64 (t * p.ticksPerSecond)

/-- `system_clock::to_time_t`, which cuts off the part of a second. -/
def toTimeT (tp : ℤ) : ℤ := tp.tdiv p.ticksPerSecond

/-! ### The functions -/

def isoSeparators : List Char := ['-', '-', 'T', ':', ':']

/-- The text handed to `sscanf`: one trailing `Z` dropped, the first blank a
`T`. A zero byte, which would end it, matches nothing in the format. -/
def scannedText (value : Text) : Text :=
  blankToT (if value.getLast? = some 'Z' then value.dropLast else value)

def tmOf (fields : List ℤ) : Tm where
  year := wrap32 (fields.getD 0 0 - 1900)
  mon := wrap32 (fields.getD 1 0 - 1)
  mday := fields.getD 2 0
  hour := fields.getD 3 0
  min := fields.getD 4 0
  sec := fields.getD 5 0

def notIsoError (label value : Text) : BinderException :=
  ⟨"salesforce_deleted_ids: ".toList ++ label ++ (" must be an ISO-8601 timestamp ".toList ++
    "(YYYY-MM-DD[THH:MM:SS]); got '".toList) ++ value ++ "'.".toList⟩

def notValidError (label value : Text) : BinderException :=
  ⟨"salesforce_deleted_ids: ".toList ++ label ++ " is not a valid timestamp ('".toList ++ value ++
    "').".toList⟩

def parseIsoUtc (value label : Text) : Except BinderException ℤ :=
  let fields := (scanFormat isoSeparators (scannedText value)).map p.storeInt
  if fields.length < 3 then .error (notIsoError label value)
  else if utcSeconds p (tmOf fields) = -1 then .error (notValidError label value)
  else .ok (fromTimeT p (utcSeconds p (tmOf fields)))

/-- `%Y`. -/
def yearText (width : ℕ) (year : ℤ) : Text :=
  if year < 0 then '-' :: padded width year.natAbs else padded width year.natAbs

def dateText (width : ℕ) (d : Date) : Text :=
  yearText width d.year ++ '-' :: (padded 2 d.month ++ '-' :: padded 2 d.day)

def clockText (m : Moment) : Text :=
  padded 2 m.hour ++ ':' :: (padded 2 m.minute ++ ':' :: padded 2 m.second)

/-- `%Y-%m-%dT%H:%M:%SZ` of a moment. -/
def isoText (width : ℕ) (m : Moment) : Text :=
  dateText width m.date ++ 'T' :: (clockText m ++ ['Z'])

/-- Of a second out of range `gmtime_s` sets every field of the `tm` to -1, and
`strftime` writes nothing of such a `tm`. -/
def utcText (t : ℤ) : Text :=
  if p.library.knows t then isoText p.yearWidth (momentOf t) else []

def toIsoUtc (tp : ℤ) : Text := utcText p (toTimeT p tp)

end Platform

/-! ### What is scanned -/

theorem wrap32_fits (n : ℤ) (h : inInt32 n) : wrap32 n = n := by
  unfold inInt32 at h
  unfold wrap32
  omega

theorem wrap64_fits (n : ℤ) (h : inInt64 n) : wrap64 n = n := by
  unfold inInt64 at h
  unfold wrap64
  omega

theorem wrap64_range (n : ℤ) : inInt64 (wrap64 n) := by
  unfold inInt64 wrap64
  omega

theorem blankToT_append (a t : Text) (h : ' ' ∉ a) :
    blankToT (a ++ t) = a ++ blankToT t := by
  induction a with
  | nil => rfl
  | cons c a ih =>
    have hc : ¬ c = ' ' := by
      intro hc
      apply h
      rw [hc]
      exact List.mem_cons_self
    rw [List.cons_append, blankToT, if_neg hc, ih fun hmem => h (List.mem_cons_of_mem _ hmem)]
    rfl

theorem blankToT_none (a : Text) (h : ' ' ∉ a) : blankToT a = a := by
  have happ := blankToT_append a [] h
  rw [List.append_nil] at happ
  rw [happ]
  exact List.append_nil a

theorem scannedText_zone (a : Text) : scannedText (a ++ ['Z']) = blankToT a := by
  have hlast : (a ++ ['Z']).getLast? = some 'Z' := List.getLast?_concat
  rw [scannedText, if_pos hlast, List.dropLast_concat]

theorem scannedText_plain (a : Text) (h : a.getLast? ≠ some 'Z') :
    scannedText a = blankToT a := by
  rw [scannedText, if_neg h]

/-- The year as `%d` takes it. -/
def yearNumber (width : ℕ) (year : ℤ) : Number :=
  { paddedNumber width year.natAbs with sign := if year < 0 then some true else none }

theorem yearNumber_value (width : ℕ) (year : ℤ) : (yearNumber width year).value = year := by
  have hdigits : Nat.ofDigitChars 10 (yearNumber width year).digits 0 = year.natAbs :=
    padded_value width year.natAbs
  rw [Number.value, hdigits, signedValue]
  by_cases hneg : year < 0
  · have hsign : (yearNumber width year).sign = some true := if_pos hneg
    rw [if_pos hsign]
    omega
  · have hsign : (yearNumber width year).sign ≠ some true := by
      rw [yearNumber, if_neg hneg]
      exact Option.some_ne_none true |>.symm
    rw [if_neg hsign]
    omega

theorem noDigit_of_cons (c : Char) (t : Text) (h : c.isDigit = false) : NoDigit (c :: t) := by
  intro d hd
  rw [← Option.some.inj hd]
  exact h

theorem noDigit_nil : NoDigit [] := fun _ hc => nomatch hc

theorem scan_padded (sep : Char) (seps rest : Text) (width n : ℕ) (hrest : NoDigit rest) :
    scanNumbers (sep :: seps) (sep :: (padded width n ++ rest)) =
      (n : ℤ) :: scanNumbers seps rest := by
  have hnext := scanNumbers_next sep seps rest (paddedNumber width n) hrest
  rw [paddedNumber_value] at hnext
  exact hnext

theorem yearText_number (width : ℕ) (year : ℤ) :
    yearText width year = (yearNumber width year).text := by
  unfold yearText Number.text yearNumber paddedNumber
  by_cases hneg : year < 0
  · simp only [if_pos hneg, signText, List.nil_append, List.cons_append]
  · simp only [if_neg hneg, signText, List.nil_append]

def dateFields (d : Date) : List ℤ := [d.year, d.month, d.day]

theorem scan_date (width : ℕ) (d : Date) (rest : Text) (hrest : NoDigit rest) :
    scanFormat isoSeparators (dateText width d ++ rest) =
      dateFields d ++ scanNumbers ['T', ':', ':'] rest := by
  have hshape : dateText width d ++ rest = (yearNumber width d.year).text ++
      '-' :: (padded 2 d.month ++ '-' :: (padded 2 d.day ++ rest)) := by
    simp [dateText, yearText_number]
  rw [hshape, isoSeparators, scanFormat_next _ _ _ (noDigit_of_cons '-' _ rfl), yearNumber_value,
    scan_padded _ _ _ _ _ (noDigit_of_cons '-' _ rfl), scan_padded _ _ _ _ _ hrest]
  rfl

def clockFields (m : Moment) : List ℤ := [m.hour, m.minute, m.second]

theorem scan_clock (m : Moment) :
    scanNumbers ['T', ':', ':'] ('T' :: clockText m) = clockFields m := by
  have hlast := scan_padded ':' [] [] 2 m.second noDigit_nil
  rw [List.append_nil] at hlast
  rw [clockText, scan_padded _ _ _ _ _ (noDigit_of_cons ':' _ rfl),
    scan_padded _ _ _ _ _ (noDigit_of_cons ':' _ rfl), hlast]
  rfl

/-! ### A moment that is scanned -/

theorem yearAt_moment (m : Moment) : yearAt (m.seconds / 86400 + 719162) = m.date.year := by
  have hmoment := momentOf_of_seconds m
  have hyear : (momentOf m.seconds).date.year = yearAt (m.seconds / 86400 + 719162) := rfl
  rw [← hyear, hmoment]

/-- The `tm` of a moment is normalised already. -/
theorem tm_seconds (m : Moment) (hyear : inInt32 (m.date.year - 1900)) :
    (tmOf (dateFields m.date ++ clockFields m)).seconds = m.seconds := by
  have hpos := m.date.month_pos
  have hle := m.date.month_le
  have hmon : wrap32 ((m.date.month : ℤ) - 1) = (m.date.month : ℤ) - 1 := by
    apply wrap32_fits
    unfold inInt32
    omega
  have htm : tmOf (dateFields m.date ++ clockFields m) =
      ⟨m.date.year - 1900, (m.date.month : ℤ) - 1, m.date.day, m.hour, m.minute, m.second⟩ := by
    rw [← hmon, ← wrap32_fits _ hyear]
    rfl
  have hmonth : (((m.date.month : ℤ) - 1) % 12).toNat + 1 = m.date.month := by omega
  have hcarry : m.date.year - 1900 + 1900 + ((m.date.month : ℤ) - 1) / 12 = m.date.year := by omega
  have hseconds : secondsOf (dayNumber m.date.year m.date.month m.date.day) m.hour m.minute m.second =
      m.seconds := rfl
  rw [htm, Tm.seconds]
  simp only
  rw [hmonth, hcarry, hseconds]

theorem timegm_moment (m : Moment) (hyear : inInt32 (m.date.year - 1900)) :
    timegm (tmOf (dateFields m.date ++ clockFields m)) = m.seconds := by
  rw [timegm, tm_seconds m hyear, yearAt_moment, if_pos hyear]

/-- A moment is converted, unless its second is out of range or is taken for the
error. -/
theorem utcSeconds_moment (p : Platform) (m : Moment) (hyear : inInt32 (m.date.year - 1900)) :
    utcSeconds p (tmOf (dateFields m.date ++ clockFields m)) =
      if p.library.knows m.seconds then m.seconds else -1 := by
  unfold utcSeconds
  cases hlib : p.library with
  | posix => rw [timegm_moment m hyear, if_pos (show TimeLibrary.posix.knows _ from trivial)]
  | win32 range =>
    by_cases hknows : range.first ≤ m.seconds ∧ m.seconds ≤ range.last
    · rw [if_pos (show (TimeLibrary.win32 range).knows _ from hknows)]
      simp only [mkgmtime, tm_seconds m hyear, if_pos hknows]
    · rw [if_neg (show ¬ (TimeLibrary.win32 range).knows _ from hknows)]
      simp only [mkgmtime, tm_seconds m hyear, if_neg hknows]

/-- A moment whose year fits, in a text that is scanned as its fields. -/
structure Scanned (value : Text) (m : Moment) : Prop where
  year_fits : inInt32 m.date.year ∧ inInt32 (m.date.year - 1900)
  fields : scanFormat isoSeparators (scannedText value) = dateFields m.date ++ clockFields m ∨
    scanFormat isoSeparators (scannedText value) = dateFields m.date ∧
      m.hour = 0 ∧ m.minute = 0 ∧ m.second = 0

theorem storeInt_fields (p : Platform) (m : Moment) (hyear : inInt32 m.date.year) :
    (dateFields m.date).map p.storeInt = dateFields m.date ∧
      (clockFields m).map p.storeInt = clockFields m := by
  have hmonth := m.date.month_le
  have hday := m.date.day_le_31
  have hh := m.hour_lt
  have hm := m.minute_lt
  have hs := m.second_lt
  have hsmall : ∀ n : ℕ, n ≤ 60 → p.storeInt n = n := by
    intro n hn
    apply p.storeInt_fits
    unfold inInt32
    omega
  refine ⟨?_, ?_⟩
  · simp only [dateFields, List.map_cons, List.map_nil, p.storeInt_fits _ hyear,
      hsmall m.date.month (by omega), hsmall m.date.day (by omega)]
  · simp only [clockFields, List.map_cons, List.map_nil, hsmall m.hour (by omega),
      hsmall m.minute (by omega), hsmall m.second (by omega)]

/-- The library converts the second, and not to the value that reports an error. -/
def converts (p : Platform) (t : ℤ) : Prop := p.library.knows t ∧ t ≠ -1

instance (p : Platform) (t : ℤ) : Decidable (converts p t) := inferInstanceAs (Decidable (_ ∧ _))

theorem parse_scanned (p : Platform) (value label : Text) (m : Moment) (h : Scanned value m) :
    parseIsoUtc p value label =
      if converts p m.seconds then .ok (fromTimeT p m.seconds)
      else .error (notValidError label value) := by
  obtain ⟨⟨hyear, htm⟩, hfields⟩ := h
  obtain ⟨hdate, hclock⟩ := storeInt_fields p m hyear
  have htime := utcSeconds_moment p m htm
  have hnumbers : (if utcSeconds p (tmOf (dateFields m.date ++ clockFields m)) = -1 then
      Except.error (notValidError label value)
      else .ok (fromTimeT p (utcSeconds p (tmOf (dateFields m.date ++ clockFields m))))) =
      if converts p m.seconds then .ok (fromTimeT p m.seconds)
      else .error (notValidError label value) := by
    rw [htime]
    by_cases hknows : p.library.knows m.seconds
    · rw [if_pos hknows]
      by_cases hlast : m.seconds = -1
      · rw [if_pos hlast, if_neg fun h : converts p m.seconds => h.2 hlast]
      · rw [if_neg hlast, if_pos (show converts p m.seconds from ⟨hknows, hlast⟩)]
    · rw [if_neg hknows, if_pos rfl, if_neg fun h : converts p m.seconds => hknows h.1]
  unfold parseIsoUtc
  simp only
  rcases hfields with hfull | ⟨hshort, hhour, hminute, hsecond⟩
  · have hsix : ¬ (dateFields m.date ++ clockFields m).length < 3 := by
      show ¬ 6 < 3
      decide
    rw [hfull, List.map_append, hdate, hclock, if_neg hsix, hnumbers]
  · -- the fields that are missing are zero
    have hzero : tmOf (dateFields m.date) = tmOf (dateFields m.date ++ clockFields m) := by
      rw [clockFields, hhour, hminute, hsecond]
      rfl
    have hthree : ¬ (dateFields m.date).length < 3 := Nat.lt_irrefl 3
    rw [hshort, hdate, hzero, if_neg hthree, hnumbers]

/-! ### Texts of moments -/

theorem padded_not_mem (c : Char) (hc : c.isDigit = false) (width n : ℕ) : c ∉ padded width n := by
  intro h
  have hdigit := padded_digit width n c h
  rw [hc] at hdigit
  cases hdigit

theorem yearText_not_mem (c : Char) (hc : c.isDigit = false) (hm : c ≠ '-') (width : ℕ) (year : ℤ) :
    c ∉ yearText width year := by
  unfold yearText
  split
  · exact List.not_mem_cons_of_ne_of_not_mem hm (padded_not_mem c hc _ _)
  · exact padded_not_mem c hc _ _

theorem dateText_not_mem (c : Char) (hc : c.isDigit = false) (hm : c ≠ '-') (width : ℕ) (d : Date) :
    c ∉ dateText width d := by
  simp only [dateText, List.mem_append, List.mem_cons, not_or]
  exact ⟨yearText_not_mem c hc hm _ _, hm, padded_not_mem c hc _ _, hm, padded_not_mem c hc _ _⟩

theorem clockText_not_mem (c : Char) (hc : c.isDigit = false) (hm : c ≠ ':') (m : Moment) :
    c ∉ clockText m := by
  simp only [clockText, List.mem_append, List.mem_cons, not_or]
  exact ⟨padded_not_mem c hc _ _, hm, padded_not_mem c hc _ _, hm, padded_not_mem c hc _ _⟩

theorem padded_last (a : Text) (width n : ℕ) : (a ++ padded width n).getLast? ≠ some 'Z' := by
  intro h
  rw [List.getLast?_append_of_ne_nil a (padded_ne width n)] at h
  exact padded_not_mem 'Z' rfl width n (List.mem_of_getLast? h)

theorem scanned_date (width : ℕ) (d : Date) : scannedText (dateText width d) = dateText width d := by
  have hlast : (dateText width d).getLast? ≠ some 'Z' := by
    have hshape : dateText width d =
        (yearText width d.year ++ '-' :: (padded 2 d.month ++ ['-'])) ++ padded 2 d.day := by
      simp [dateText]
    rw [hshape]
    exact padded_last _ _ _
  rw [scannedText_plain _ hlast, blankToT_none _ (dateText_not_mem ' ' rfl (by decide) _ _)]

/-- With a `T` or a blank between them and with or without a zone, date and
clock are scanned alike. -/
theorem scanned_moment (width : ℕ) (m : Moment) (sep : Char) (hsep : sep = 'T' ∨ sep = ' ')
    (zone : Text) (hzone : zone = [] ∨ zone = ['Z']) :
    scannedText (dateText width m.date ++ sep :: (clockText m ++ zone)) =
      dateText width m.date ++ 'T' :: clockText m := by
  have hdate := dateText_not_mem ' ' rfl (by decide) width m.date
  have hclock := clockText_not_mem ' ' rfl (by decide) m
  have hpatch : blankToT (dateText width m.date ++ sep :: clockText m) =
      dateText width m.date ++ 'T' :: clockText m := by
    rw [blankToT_append _ _ hdate]
    rcases hsep with hsep | hsep
    · have hrest : blankToT ('T' :: clockText m) = 'T' :: clockText m := by
        apply blankToT_none
        exact List.not_mem_cons_of_ne_of_not_mem (by decide) hclock
      rw [hsep, hrest]
    · rw [hsep, blankToT, if_pos rfl]
  rcases hzone with hzone | hzone
  · have hshape : dateText width m.date ++ sep :: (clockText m ++ zone) =
        (dateText width m.date ++ sep :: (padded 2 m.hour ++ ':' :: (padded 2 m.minute ++ [':']))) ++
          padded 2 m.second := by
      simp [hzone, clockText]
    have hplain : dateText width m.date ++ sep :: (clockText m ++ zone) =
        dateText width m.date ++ sep :: clockText m := by
      rw [hzone, List.append_nil]
    rw [scannedText_plain _ (by rw [hshape]; exact padded_last _ _ _), hplain, hpatch]
  · have hshape : dateText width m.date ++ sep :: (clockText m ++ zone) =
        (dateText width m.date ++ sep :: clockText m) ++ ['Z'] := by
      simp [hzone]
    rw [hshape, scannedText_zone, hpatch]

theorem moment_scanned (width : ℕ) (m : Moment) (sep : Char) (hsep : sep = 'T' ∨ sep = ' ')
    (zone : Text) (hzone : zone = [] ∨ zone = ['Z'])
    (hyear : inInt32 m.date.year ∧ inInt32 (m.date.year - 1900)) :
    Scanned (dateText width m.date ++ sep :: (clockText m ++ zone)) m := by
  refine ⟨hyear, Or.inl ?_⟩
  rw [scanned_moment width m sep hsep zone hzone, scan_date _ _ _ (noDigit_of_cons 'T' _ rfl),
    scan_clock]

def midnight (d : Date) : Moment := ⟨d, 0, 0, 0, by decide, by decide, by decide⟩

theorem date_scanned (width : ℕ) (d : Date) (hyear : inInt32 d.year ∧ inInt32 (d.year - 1900)) :
    Scanned (dateText width d) (midnight d) := by
  refine ⟨hyear, Or.inr ⟨?_, rfl, rfl, rfl⟩⟩
  have hscan := scan_date width d [] noDigit_nil
  rw [List.append_nil] at hscan
  rw [scanned_date, hscan]
  exact List.append_nil _

/-! ### Timestamps -/

/-- `YYYY-MM-DD`, and then T or a blank, `HH:MM:SS` and perhaps a `Z`, of a
moment of the calendar. -/
inductive IsoDenotes : Text → Moment → Prop
  | date (d : Date) (hyear : 0 ≤ d.year ∧ d.year ≤ 9999) : IsoDenotes (dateText 4 d) (midnight d)
  | full (m : Moment) (hyear : 0 ≤ m.date.year ∧ m.date.year ≤ 9999) (sep : Char)
      (hsep : sep = 'T' ∨ sep = ' ') (zone : Text) (hzone : zone = [] ∨ zone = ['Z']) :
    IsoDenotes (dateText 4 m.date ++ sep :: (clockText m ++ zone)) m

theorem year_fits (y : ℤ) (h : 0 ≤ y ∧ y ≤ 9999) : inInt32 y ∧ inInt32 (y - 1900) := by
  unfold inInt32
  omega

theorem iso_scanned (value : Text) (m : Moment) (h : IsoDenotes value m) : Scanned value m := by
  cases h with
  | date d hyear => exact date_scanned 4 d (year_fits _ hyear)
  | full m hyear sep hsep zone hzone =>
    exact moment_scanned 4 m sep hsep zone hzone (year_fits _ hyear)

section Exact
variable (p : Platform)

/-- A timestamp gives its instant, and any other text an error. -/
def ParsesExactly (value label : Text) : Prop :=
  (∀ m, IsoDenotes value m → parseIsoUtc p value label = .ok (m.seconds * p.ticksPerSecond)) ∧
    ((∀ m, ¬ IsoDenotes value m) → ∃ e, parseIsoUtc p value label = .error e)

/-- A timestamp names neither the second before 1970 nor a second that the library
does not convert or the clock cannot count to. Any other text does not start with
three numbers between hyphens, or the numbers it starts with, days and hours out
of range carried over, come to the second before 1970 or to one that the library
does not convert. -/
def ParseSafe (value : Text) : Prop :=
  (∀ m, IsoDenotes value m → converts p m.seconds ∧ inInt64 (m.seconds * p.ticksPerSecond)) ∧
    ((∀ m, ¬ IsoDenotes value m) →
      ∀ fields, ReadsFormat isoSeparators (scannedText value) fields →
        fields.length < 3 ∨ utcSeconds p (tmOf (fields.map p.storeInt)) = -1)

theorem parses_exactly_iff (value label : Text) :
    ParsesExactly p value label ↔ ParseSafe p value := by
  have hmoment : ∀ m, IsoDenotes value m →
      (parseIsoUtc p value label = .ok (m.seconds * p.ticksPerSecond) ↔
        converts p m.seconds ∧ inInt64 (m.seconds * p.ticksPerSecond)) := by
    intro m hm
    rw [parse_scanned p value label m (iso_scanned value m hm)]
    by_cases hconv : converts p m.seconds
    · rw [if_pos hconv, fromTimeT, Except.ok.injEq]
      refine ⟨?_, ?_⟩
      · intro h
        rw [← h]
        exact ⟨hconv, wrap64_range _⟩
      · intro h
        exact wrap64_fits _ h.2
    · rw [if_neg hconv]
      refine ⟨?_, ?_⟩
      · intro h
        cases h
      · intro h
        exact absurd h.1 hconv
  have hother : (∃ e, parseIsoUtc p value label = .error e) ↔
      ∀ fields, ReadsFormat isoSeparators (scannedText value) fields →
        fields.length < 3 ∨ utcSeconds p (tmOf (fields.map p.storeInt)) = -1 := by
    refine ⟨?_, ?_⟩
    · intro h fields hreads
      obtain ⟨e, he⟩ := h
      have hscan := reads_scanFormat _ _ _ hreads
      unfold parseIsoUtc at he
      rw [hscan] at he
      simp only [List.length_map] at he
      by_cases hshort : fields.length < 3
      · exact Or.inl hshort
      · rw [if_neg hshort] at he
        by_cases hlast : utcSeconds p (tmOf (fields.map p.storeInt)) = -1
        · exact Or.inr hlast
        · rw [if_neg hlast] at he
          cases he
    · intro h
      have hreads := h _ (scanFormat_reads isoSeparators (scannedText value))
      unfold parseIsoUtc
      simp only [List.length_map]
      by_cases hshort : (scanFormat isoSeparators (scannedText value)).length < 3
      · exact ⟨_, if_pos hshort⟩
      · rw [if_neg hshort, if_pos (hreads.resolve_left hshort)]
        exact ⟨_, rfl⟩
  unfold ParsesExactly ParseSafe
  rw [hother]
  exact and_congr_left fun _ => forall₂_congr hmoment

/-! ### There and back -/

/-- An instant of the years 0 to 9999 that the clock counts to. -/
def InYears (tp : ℤ) : Prop :=
  inInt64 tp ∧ (daysBeforeYear 0 - 719162) * 86400 * p.ticksPerSecond ≤ tp ∧
    tp < (daysBeforeYear 10000 - 719162) * 86400 * p.ticksPerSecond

theorem toTimeT_ge (tp a : ℤ) (h : a * p.ticksPerSecond ≤ tp) : a ≤ toTimeT p tp := by
  have hticks := p.ticks_ge
  have hpos : 0 < p.ticksPerSecond := by omega
  unfold toTimeT
  rcases le_or_gt 0 tp with htp | htp
  · rw [Int.tdiv_eq_ediv_of_nonneg htp]
    exact Int.le_ediv_of_mul_le hpos h
  · have hneg : tp.tdiv p.ticksPerSecond = -(-tp / p.ticksPerSecond) := by
      rw [← Int.tdiv_eq_ediv_of_nonneg (by omega : 0 ≤ -tp), Int.neg_tdiv, Int.neg_neg]
    have hle : -tp / p.ticksPerSecond ≤ -a := by
      apply Int.ediv_le_of_le_mul hpos
      rw [Int.neg_mul]
      omega
    rw [hneg]
    omega

theorem toTimeT_lt (tp b : ℤ) (hb : tp < b * p.ticksPerSecond) (hb0 : 0 < b) : toTimeT p tp < b := by
  have hticks := p.ticks_ge
  have hpos : 0 < p.ticksPerSecond := by omega
  unfold toTimeT
  rcases le_or_gt 0 tp with htp | htp
  · rw [Int.tdiv_eq_ediv_of_nonneg htp]
    exact Int.ediv_lt_of_lt_mul hpos hb
  · have hnonneg : 0 ≤ (-tp).tdiv p.ticksPerSecond := Int.tdiv_nonneg (by omega) (by omega)
    rw [Int.neg_tdiv] at hnonneg
    omega

theorem parse_empty (label : Text) : parseIsoUtc p [] label = .error (notIsoError label []) := rfl

/-- What is written of a second is read back as it, if the library converts it. -/
theorem parse_utcText (t : ℤ) (label : Text)
    (hyear : inInt32 (momentOf t).date.year ∧ inInt32 ((momentOf t).date.year - 1900)) :
    (converts p t → parseIsoUtc p (utcText p t) label = .ok (fromTimeT p t)) ∧
      (¬ converts p t → ∃ e, parseIsoUtc p (utcText p t) label = .error e) := by
  have hscanned : Scanned (isoText p.yearWidth (momentOf t)) (momentOf t) :=
    moment_scanned p.yearWidth _ 'T' (Or.inl rfl) ['Z'] (Or.inr rfl) hyear
  have hparse := parse_scanned p _ label _ hscanned
  rw [momentOf_seconds] at hparse
  refine ⟨?_, ?_⟩
  · intro hconv
    rw [utcText, if_pos hconv.1, hparse, if_pos hconv]
  · intro hconv
    by_cases hknows : p.library.knows t
    · rw [utcText, if_pos hknows, hparse, if_neg hconv]
      exact ⟨_, rfl⟩
    · rw [utcText, if_neg hknows]
      exact ⟨_, parse_empty p label⟩

theorem toTimeT_mul (tp : ℤ) : toTimeT p tp * p.ticksPerSecond = tp ↔ p.ticksPerSecond ∣ tp := by
  refine ⟨?_, ?_⟩
  · intro h
    exact ⟨toTimeT p tp, by rw [Int.mul_comm]; exact h.symm⟩
  · intro h
    exact Int.tdiv_mul_cancel h

theorem toTimeT_fits (tp : ℤ) (h : inInt64 tp) : inInt64 (toTimeT p tp * p.ticksPerSecond) := by
  have hticks := p.ticks_ge
  have hsplit := Int.tmod_add_tdiv_mul tp p.ticksPerSecond
  unfold inInt64 at *
  unfold toTimeT
  rcases le_or_gt 0 tp with htp | htp
  · have hlow := Int.tmod_nonneg p.ticksPerSecond htp
    have hdiv : 0 ≤ tp.tdiv p.ticksPerSecond * p.ticksPerSecond :=
      Int.mul_nonneg (Int.tdiv_nonneg htp (by omega)) (by omega)
    omega
  · have hlow := Int.tmod_nonneg p.ticksPerSecond (by omega : 0 ≤ -tp)
    rw [Int.neg_tmod] at hlow
    have hdiv : 0 ≤ (-tp).tdiv p.ticksPerSecond * p.ticksPerSecond :=
      Int.mul_nonneg (Int.tdiv_nonneg (by omega) (by omega)) (by omega)
    rw [Int.neg_tdiv, Int.neg_mul] at hdiv
    omega

theorem round_trip_iff (tp : ℤ) (label : Text) (h : InYears p tp) :
    parseIsoUtc p (toIsoUtc p tp) label = .ok tp ↔
      p.ticksPerSecond ∣ tp ∧ converts p (tp / p.ticksPerSecond) := by
  obtain ⟨hfits, hlow, hhigh⟩ := h
  have hge := toTimeT_ge p tp _ hlow
  have hlt := toTimeT_lt p tp _ hhigh (by decide)
  have hyears := year_bounds (momentOf (toTimeT p tp)) 0 10000
    (by rw [momentOf_seconds]; exact hge) (by rw [momentOf_seconds]; exact hlt)
  obtain ⟨hback, hlost⟩ := parse_utcText p (toTimeT p tp) label
    (year_fits _ ⟨hyears.1, by omega⟩)
  have hwhole : p.ticksPerSecond ∣ tp → tp / p.ticksPerSecond = toTimeT p tp := by
    intro hdvd
    rw [toTimeT, Int.tdiv_eq_ediv_of_dvd hdvd]
  rw [toIsoUtc]
  by_cases hconv : converts p (toTimeT p tp)
  · rw [hback hconv, fromTimeT, wrap64_fits _ (toTimeT_fits p tp hfits), Except.ok.injEq,
      toTimeT_mul]
    refine ⟨?_, fun h => h.1⟩
    intro hdvd
    rw [hwhole hdvd]
    exact ⟨hdvd, hconv⟩
  · obtain ⟨e, he⟩ := hlost hconv
    rw [he]
    refine ⟨?_, ?_⟩
    · intro h
      cases h
    · intro h
      rw [hwhole h.1] at h
      exact absurd h.2 hconv

end Exact

/-- Every text is parsed exactly when it is safe, and an instant comes back
when it is a whole second that the library converts, and not the one before
1970. -/
theorem iso_parsed_iff (p : Platform) :
    (∀ value label, ParsesExactly p value label ↔ ParseSafe p value) ∧
      ∀ tp label, InYears p tp →
        (parseIsoUtc p (toIsoUtc p tp) label = .ok tp ↔
          p.ticksPerSecond ∣ tp ∧ converts p (tp / p.ticksPerSecond)) :=
  ⟨parses_exactly_iff p, round_trip_iff p⟩

/-- Nanoseconds, as in libstdc++. -/
def nanoPlatform : Platform where
  ticksPerSecond := 1000000000
  ticks_ge := by decide
  ticks_le := by decide
  library := .posix
  yearWidth := 1
  storeInt := wrap32
  storeInt_fits := wrap32_fits

/-- Tenths of microseconds, and the years that are documented. -/
def windowsPlatform : Platform where
  ticksPerSecond := 10000000
  ticks_ge := by decide
  ticks_le := by decide
  library := .win32 ⟨0, 32535215999, by decide, by decide⟩
  yearWidth := 4
  storeInt := wrap32
  storeInt_fits := wrap32_fits

example : (parseIsoUtc windowsPlatform "1969-06-01".toList "since".toList).isOk = false ∧
    parseIsoUtc nanoPlatform "1969-06-01".toList "since".toList =
      .ok (-18489600 * 1000000000) := by
  decide +kernel

theorem padded_two (n : ℕ) (h : n < 60) : (padded 2 n).length = 2 :=
  padded_length 2 n (by decide) (by omega)

theorem dateText_length (d : Date) (hyear : 0 ≤ d.year ∧ d.year ≤ 9999) :
    (dateText 4 d).length = 10 := by
  have hmonth := d.month_le
  have hday := d.day_le_31
  have hy : (yearText 4 d.year).length = 4 := by
    rw [yearText, if_neg (by omega)]
    exact padded_length 4 _ (by decide) (by omega)
  simp only [dateText, List.length_append, List.length_cons, hy, padded_two d.month (by omega),
    padded_two d.day (by omega)]

theorem clockText_length (m : Moment) : (clockText m).length = 8 := by
  have hh := m.hour_lt
  have hm := m.minute_lt
  have hs := m.second_lt
  simp only [clockText, List.length_append, List.length_cons, padded_two m.hour (by omega),
    padded_two m.minute (by omega), padded_two m.second (by omega)]

theorem iso_length (value : Text) (m : Moment) (h : IsoDenotes value m) : value.length ≤ 20 := by
  cases h with
  | date d hyear =>
    rw [dateText_length d hyear]
    decide
  | full m hyear sep hsep zone hzone =>
    have hz : zone.length ≤ 1 := by
      rcases hzone with hzone | hzone <;> rw [hzone] <;> decide
    simp only [List.length_append, List.length_cons, dateText_length m.date hyear,
      clockText_length]
    omega

/-- `2026-01-01T00:00:00+05:00` is taken for midnight UTC. -/
theorem offset_ignored :
    ¬ ∀ value label, ParsesExactly nanoPlatform value label := by
  intro h
  obtain ⟨e, he⟩ := (h "2026-01-01T00:00:00+05:00".toList "since".toList).2 (by
    intro m hm
    have hlen := iso_length _ m hm
    exact absurd hlen (by decide))
  have hok : parseIsoUtc nanoPlatform "2026-01-01T00:00:00+05:00".toList "since".toList =
      .ok 1767225600000000000 := by
    decide +kernel
  rw [hok] at he
  cases he

theorem round_trip_2026 :
    parseIsoUtc nanoPlatform (toIsoUtc nanoPlatform 1767225600000000000) "until".toList =
      .ok 1767225600000000000 :=
  ((iso_parsed_iff nanoPlatform).2 1767225600000000000 "until".toList
    (by unfold InYears inInt64; decide)).mpr (by decide)

end DuckdbSalesforce
