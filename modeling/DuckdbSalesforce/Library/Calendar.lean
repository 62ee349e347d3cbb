import Mathlib

/-!
# The Gregorian calendar

Dates of the proleptic Gregorian calendar, years before the first counted 0,
-1 and so on, and the days and seconds since 1970-01-01. Days have 86400
seconds.
-/

namespace Calendar

def isLeap (year : ℤ) : Bool := year % 4 == 0 && (year % 100 != 0 || year % 400 == 0)

/-- The days before `month` in a year. -/
def daysBeforeMonth (leap : Bool) (month : ℕ) : ℤ :=
  let extra := if leap then 1 else 0
  match month with
  | 0 => 0
  | 1 => 0
  | 2 => 31
  | 3 => 59 + extra
  | 4 => 90 + extra
  | 5 => 120 + extra
  | 6 => 151 + extra
  | 7 => 181 + extra
  | 8 => 212 + extra
  | 9 => 243 + extra
  | 10 => 273 + extra
  | 11 => 304 + extra
  | 12 => 334 + extra
  | _ => 365 + extra

def monthLength (year : ℤ) (month : ℕ) : ℤ :=
  daysBeforeMonth (isLeap year) (month + 1) - daysBeforeMonth (isLeap year) month

/-- The days from the first of January of year 1. -/
def daysBeforeYear (year : ℤ) : ℤ :=
  365 * (year - 1) + (year - 1) / 4 - (year - 1) / 100 + (year - 1) / 400

structure Date where
  year : ℤ
  month : ℕ
  day : ℕ
  month_pos : 1 ≤ month
  month_le : month ≤ 12
  day_pos : 1 ≤ day
  day_le : day ≤ monthLength year month

/-- The number of a day, 1970-01-01 being day 0. The month and the day of the
month need not be those of a date. -/
def dayNumber (year : ℤ) (month : ℕ) (day : ℤ) : ℤ :=
  daysBeforeYear year + daysBeforeMonth (isLeap year) month + (day - 1) - 719162

def Date.number (d : Date) : ℤ := dayNumber d.year d.month d.day

/-! ### Years -/

theorem daysBeforeYear_succ (year : ℤ) :
    daysBeforeYear (year + 1) = daysBeforeYear year + if isLeap year then 366 else 365 := by
  unfold daysBeforeYear isLeap
  by_cases h4 : year % 4 = 0
  · by_cases h100 : year % 100 = 0
    · by_cases h400 : year % 400 = 0
      · simp only [h4, h100, h400, beq_self_eq_true, bne_self_eq_false, Bool.or_true, Bool.and_true,
          if_true]
        omega
      · have hno : (year % 400 == 0) = false := beq_false_of_ne h400
        simp only [h4, h100, hno, beq_self_eq_true, bne_self_eq_false, Bool.or_false, Bool.and_false,
          Bool.false_eq_true, if_false]
        omega
    · have hno : (year % 100 != 0) = true := bne_iff_ne.mpr h100
      simp only [h4, hno, beq_self_eq_true, Bool.true_or, Bool.and_true, if_true]
      omega
  · have hno : (year % 4 == 0) = false := beq_false_of_ne h4
    simp only [hno, Bool.false_and, Bool.false_eq_true, if_false]
    omega

theorem daysBeforeYear_mono (a b : ℤ) (h : a ≤ b) : daysBeforeYear a ≤ daysBeforeYear b := by
  unfold daysBeforeYear
  omega

/-- The year of the day `n` days after the first of January of year 1. -/
def yearAt (n : ℤ) : ℤ :=
  let guess := n * 400 / 146097 + 1
  if n < daysBeforeYear guess then guess - 1
  else if daysBeforeYear (guess + 1) ≤ n then guess + 1
  else guess

theorem yearAt_spec (n : ℤ) : daysBeforeYear (yearAt n) ≤ n ∧ n < daysBeforeYear (yearAt n + 1) := by
  unfold yearAt daysBeforeYear
  simp only
  split
  · omega
  · split
    · omega
    · omega

/-! ### Months -/

theorem daysBeforeMonth_next (leap : Bool) (a b : ℕ) (ha : 1 ≤ a) (hb : b ≤ 13) (h : a ≤ b) :
    daysBeforeMonth leap a ≤ daysBeforeMonth leap b := by
  interval_cases b <;> interval_cases a <;> cases leap <;> decide

theorem monthLength_le (year : ℤ) (month : ℕ) (h1 : 1 ≤ month) (h12 : month ≤ 12) :
    monthLength year month ≤ 31 := by
  unfold monthLength
  interval_cases month <;> cases isLeap year <;> decide

theorem Date.day_le_31 (d : Date) : d.day ≤ 31 := by
  have hlen := monthLength_le d.year d.month d.month_pos d.month_le
  have hday := d.day_le
  omega

/-- The month the day `n` of a year lies in, sought from `month` on. -/
def monthFrom (leap : Bool) (n : ℤ) : ℕ → ℕ → ℕ
  | 0, month => month
  | k + 1, month => if n < daysBeforeMonth leap (month + 1) then month else monthFrom leap n k (month + 1)

def monthAt (leap : Bool) (n : ℤ) : ℕ := monthFrom leap n 11 1

theorem monthFrom_spec (leap : Bool) (n : ℤ) (k month : ℕ) (h0 : daysBeforeMonth leap month ≤ n)
    (h1 : n < daysBeforeMonth leap (month + k + 1)) :
    month ≤ monthFrom leap n k month ∧ monthFrom leap n k month ≤ month + k ∧
      daysBeforeMonth leap (monthFrom leap n k month) ≤ n ∧
      n < daysBeforeMonth leap (monthFrom leap n k month + 1) := by
  induction k generalizing month with
  | zero => exact ⟨Nat.le_refl _, Nat.le_refl _, h0, h1⟩
  | succ k ih =>
    rw [monthFrom]
    by_cases hlt : n < daysBeforeMonth leap (month + 1)
    · rw [if_pos hlt]
      exact ⟨Nat.le_refl _, Nat.le_add_right _ _, h0, hlt⟩
    · have hnext : month + 1 + k + 1 = month + (k + 1) + 1 := by omega
      obtain ⟨hlow, hhigh, hle, hrest⟩ := ih (month + 1) (by omega) (by rw [hnext]; exact h1)
      rw [if_neg hlt]
      exact ⟨by omega, by omega, hle, hrest⟩

theorem monthAt_spec (leap : Bool) (n : ℤ) (h0 : 0 ≤ n) (h1 : n < daysBeforeMonth leap 13) :
    1 ≤ monthAt leap n ∧ monthAt leap n ≤ 12 ∧ daysBeforeMonth leap (monthAt leap n) ≤ n ∧
      n < daysBeforeMonth leap (monthAt leap n + 1) :=
  monthFrom_spec leap n 11 1 h0 h1

/-! ### Days and dates -/

theorem yearLength (year : ℤ) :
    daysBeforeYear (year + 1) = daysBeforeYear year + daysBeforeMonth (isLeap year) 13 := by
  rw [daysBeforeYear_succ]
  cases isLeap year <;> rfl

/-- The days from the first of January of its year. -/
def dayOfYear (n : ℤ) : ℤ := n - daysBeforeYear (yearAt n)

theorem dayOfYear_range (n : ℤ) :
    0 ≤ dayOfYear n ∧ dayOfYear n < daysBeforeMonth (isLeap (yearAt n)) 13 := by
  have hyear := yearAt_spec n
  have hlen := yearLength (yearAt n)
  unfold dayOfYear
  omega

theorem monthAt_day (n : ℤ) :
    1 ≤ monthAt (isLeap (yearAt n)) (dayOfYear n) ∧ monthAt (isLeap (yearAt n)) (dayOfYear n) ≤ 12 ∧
      daysBeforeMonth (isLeap (yearAt n)) (monthAt (isLeap (yearAt n)) (dayOfYear n)) ≤ dayOfYear n ∧
      dayOfYear n <
        daysBeforeMonth (isLeap (yearAt n)) (monthAt (isLeap (yearAt n)) (dayOfYear n) + 1) :=
  monthAt_spec _ _ (dayOfYear_range n).1 (dayOfYear_range n).2

def dayOfMonth (n : ℤ) : ℤ :=
  dayOfYear n - daysBeforeMonth (isLeap (yearAt n)) (monthAt (isLeap (yearAt n)) (dayOfYear n)) + 1

theorem dayOfMonth_pos (n : ℤ) : 1 ≤ dayOfMonth n := by
  have hmonth := monthAt_day n
  unfold dayOfMonth
  omega

theorem dayOfMonth_le (n : ℤ) :
    dayOfMonth n ≤ monthLength (yearAt n) (monthAt (isLeap (yearAt n)) (dayOfYear n)) := by
  have hmonth := monthAt_day n
  unfold dayOfMonth monthLength
  omega

/-- The date of a day. -/
def dateOf (n : ℤ) : Date where
  year := yearAt (n + 719162)
  month := monthAt (isLeap (yearAt (n + 719162))) (dayOfYear (n + 719162))
  day := (dayOfMonth (n + 719162)).toNat
  month_pos := (monthAt_day _).1
  month_le := (monthAt_day _).2.1
  day_pos := by
    have hpos := dayOfMonth_pos (n + 719162)
    omega
  day_le := by
    have hpos := dayOfMonth_pos (n + 719162)
    have hle := dayOfMonth_le (n + 719162)
    omega

theorem dateOf_number (n : ℤ) : (dateOf n).number = n := by
  have hpos := dayOfMonth_pos (n + 719162)
  have hyear : (dateOf n).year = yearAt (n + 719162) := rfl
  have hmonth : (dateOf n).month =
      monthAt (isLeap (yearAt (n + 719162))) (dayOfYear (n + 719162)) := rfl
  have hday : ((dateOf n).day : ℤ) = dayOfMonth (n + 719162) := Int.toNat_of_nonneg (by omega)
  have hrest : dayOfYear (n + 719162) = n + 719162 - daysBeforeYear (yearAt (n + 719162)) := rfl
  rw [Date.number, hyear, hmonth, hday, dayNumber, dayOfMonth]
  omega

theorem date_range (d : Date) :
    daysBeforeYear d.year ≤ d.number + 719162 ∧ d.number + 719162 < daysBeforeYear (d.year + 1) := by
  have hlen := yearLength d.year
  have hlow := daysBeforeMonth_next (isLeap d.year) 1 d.month (le_refl 1) (by have := d.month_le; omega)
    d.month_pos
  have hhigh := daysBeforeMonth_next (isLeap d.year) (d.month + 1) 13 (by omega) (le_refl 13)
    (by have := d.month_le; omega)
  have hfirst : daysBeforeMonth (isLeap d.year) 1 = 0 := rfl
  have hpos := d.day_pos
  have hle := d.day_le
  unfold monthLength at hle
  unfold Date.number dayNumber
  refine ⟨?_, ?_⟩
  · omega
  · omega

theorem year_of_range (a b n : ℤ) (ha : daysBeforeYear a ≤ n) (ha' : n < daysBeforeYear (a + 1))
    (hb : daysBeforeYear b ≤ n) (hb' : n < daysBeforeYear (b + 1)) : a = b := by
  rcases lt_trichotomy a b with hlt | heq | hgt
  · have hmono := daysBeforeYear_mono (a + 1) b (by omega)
    omega
  · exact heq
  · have hmono := daysBeforeYear_mono (b + 1) a (by omega)
    omega

theorem month_of_range (leap : Bool) (a b : ℕ) (n : ℤ) (ha : 1 ≤ a) (ha12 : a ≤ 12) (hb : 1 ≤ b)
    (hb12 : b ≤ 12) (hla : daysBeforeMonth leap a ≤ n) (hua : n < daysBeforeMonth leap (a + 1))
    (hlb : daysBeforeMonth leap b ≤ n) (hub : n < daysBeforeMonth leap (b + 1)) : a = b := by
  rcases lt_trichotomy a b with hlt | heq | hgt
  · have hmono := daysBeforeMonth_next leap (a + 1) b (by omega) (by omega) (by omega)
    omega
  · exact heq
  · have hmono := daysBeforeMonth_next leap (b + 1) a (by omega) (by omega) (by omega)
    omega

theorem number_injective (d e : Date) (h : d.number = e.number) : d = e := by
  have hd := date_range d
  have he := date_range e
  rw [← h] at he
  have hyear := year_of_range d.year e.year _ hd.1 hd.2 he.1 he.2
  have hdl := d.day_le
  have hel := e.day_le
  have hdp := d.day_pos
  have hep := e.day_pos
  unfold monthLength at hdl hel
  unfold Date.number dayNumber at h
  rw [← hyear] at h hel
  have hmonth := month_of_range (isLeap d.year) d.month e.month
    (daysBeforeMonth (isLeap d.year) d.month + (d.day - 1)) d.month_pos d.month_le e.month_pos
    e.month_le (by omega) (by omega) (by omega) (by omega)
  rw [← hmonth] at h
  have hday : d.day = e.day := by omega
  obtain ⟨_, _, _, _, _, _, _⟩ := d
  obtain ⟨_, _, _, _, _, _, _⟩ := e
  simp only at hyear hmonth hday
  subst hyear hmonth hday
  rfl

/-! ### Moments -/

/-- A second of a day. -/
structure Moment where
  date : Date
  hour : ℕ
  minute : ℕ
  second : ℕ
  hour_lt : hour < 24
  minute_lt : minute < 60
  second_lt : second < 60

/-- The seconds since 1970-01-01T00:00:00 of a day number and a time of day,
neither of which need be in range. -/
def secondsOf (day hour minute second : ℤ) : ℤ := ((day * 24 + hour) * 60 + minute) * 60 + second

def Moment.seconds (m : Moment) : ℤ := secondsOf m.date.number m.hour m.minute m.second

def momentOf (t : ℤ) : Moment where
  date := dateOf (t / 86400)
  hour := (t % 86400 / 3600).toNat
  minute := (t % 3600 / 60).toNat
  second := (t % 60).toNat
  hour_lt := by omega
  minute_lt := by omega
  second_lt := by omega

theorem momentOf_seconds (t : ℤ) : (momentOf t).seconds = t := by
  simp only [Moment.seconds, momentOf, dateOf_number, secondsOf]
  omega

theorem seconds_injective (a b : Moment) (h : a.seconds = b.seconds) : a = b := by
  have hah := a.hour_lt
  have ham := a.minute_lt
  have has := a.second_lt
  have hbh := b.hour_lt
  have hbm := b.minute_lt
  have hbs := b.second_lt
  unfold Moment.seconds secondsOf at h
  have hdate : a.date = b.date := number_injective _ _ (by omega)
  have hhour : a.hour = b.hour := by omega
  have hminute : a.minute = b.minute := by omega
  have hsecond : a.second = b.second := by omega
  obtain ⟨_, _, _, _, _, _, _⟩ := a
  obtain ⟨_, _, _, _, _, _, _⟩ := b
  simp only at hdate hhour hminute hsecond
  subst hdate hhour hminute hsecond
  rfl

theorem momentOf_of_seconds (m : Moment) : momentOf m.seconds = m :=
  seconds_injective _ _ (momentOf_seconds m.seconds)

/-- A moment is in the years from `a` on up to `b` when its second is. -/
theorem year_bounds (m : Moment) (a b : ℤ) (ha : (daysBeforeYear a - 719162) * 86400 ≤ m.seconds)
    (hb : m.seconds < (daysBeforeYear b - 719162) * 86400) : a ≤ m.date.year ∧ m.date.year < b := by
  have hrange := date_range m.date
  have hh := m.hour_lt
  have hm := m.minute_lt
  have hs := m.second_lt
  unfold Moment.seconds secondsOf at ha hb
  refine ⟨?_, ?_⟩
  · by_contra hlt
    have hmono := daysBeforeYear_mono (m.date.year + 1) a (by omega)
    omega
  · by_contra hle
    have hmono := daysBeforeYear_mono b m.date.year (by omega)
    omega

theorem seconds_ge (m : Moment) (a : ℤ) (h : a ≤ m.date.year) :
    (daysBeforeYear a - 719162) * 86400 ≤ m.seconds := by
  have hrange := date_range m.date
  have hmono := daysBeforeYear_mono a m.date.year h
  unfold Moment.seconds secondsOf
  omega

end Calendar
