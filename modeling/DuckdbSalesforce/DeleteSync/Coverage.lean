import Mathlib
import DuckdbSalesforce.Library.Numeral
import DuckdbSalesforce.DeleteSync.DeletedRecords

/-!
# What a delete sync covers

Instants are rational seconds since 1970. A slice asked for from `s` is covered
up to the date its answer reports.
-/

namespace DuckdbSalesforce
open Calendar NumberScan FirstSeen

/-! ### Reported dates -/

/-- A `latestDateCovered`: a second, perhaps a fraction of it, and a way of
writing UTC. Salesforce has no dates before 1700 nor after 4000. -/
structure ReportedDate where
  moment : Moment
  year_ge : 1700 ≤ moment.date.year
  year_le : moment.date.year ≤ 4000
  fraction : Text
  digits : ∀ c ∈ fraction, c.isDigit = true
  zone : Text
  utc : zone ∈ [[], "Z".toList, "+0000".toList, "+00:00".toList]

/-- `YYYY-MM-DDTHH:MM:SS`. -/
def stamp (m : Moment) : Text := dateText 4 m.date ++ 'T' :: clockText m

def ReportedDate.text (d : ReportedDate) : Text :=
  stamp d.moment ++ ((if d.fraction = [] then [] else '.' :: d.fraction) ++ d.zone)

def ReportedDate.instant (d : ReportedDate) : ℚ :=
  d.moment.seconds + (Nat.ofDigitChars 10 d.fraction 0 : ℚ) / 10 ^ d.fraction.length

theorem instant_bounds (d : ReportedDate) :
    (d.moment.seconds : ℚ) ≤ d.instant ∧ d.instant < d.moment.seconds + 1 := by
  have hinstant : d.instant = d.moment.seconds + Numerals.fractionValue d.fraction := rfl
  obtain ⟨hlow, hhigh⟩ := Numerals.fractionValue_lt d.fraction d.digits
  rw [hinstant]
  refine ⟨?_, ?_⟩
  · linarith
  · linarith

theorem reported_year (d : ReportedDate) :
    0 ≤ d.moment.date.year ∧ d.moment.date.year ≤ 9999 := by
  have hge := d.year_ge
  have hle := d.year_le
  omega

theorem stamp_length (m : Moment) (hyear : 0 ≤ m.date.year ∧ m.date.year ≤ 9999) :
    (stamp m).length = 19 := by
  rw [stamp, List.length_append, List.length_cons, dateText_length m.date hyear, clockText_length]

/-- The part of a second and the zone are cut off. -/
theorem normalize_reported (d : ReportedDate) : normalizeDeletedDate d.text = stamp d.moment := by
  have hlen := stamp_length d.moment (reported_year d)
  have hlong : ¬ d.text.length < 19 := by
    rw [ReportedDate.text, List.length_append, hlen]
    omega
  rw [normalizeDeletedDate, if_neg hlong, ReportedDate.text, ← hlen, List.take_left]

theorem reported_ne (d : ReportedDate) : d.text ≠ [] := by
  intro hnil
  have hlen := stamp_length d.moment (reported_year d)
  have happ := List.append_eq_nil_iff.mp hnil
  rw [happ.1] at hlen
  cases hlen

theorem parse_stamp (p : Platform) (m : Moment) (label : Text)
    (hyear : 0 ≤ m.date.year ∧ m.date.year ≤ 9999) :
    parseIsoUtc p (stamp m ++ ['Z']) label =
      if converts p m.seconds then .ok (fromTimeT p m.seconds)
      else .error (notValidError label (stamp m ++ ['Z'])) := by
  have hscanned := moment_scanned 4 m 'T' (Or.inl rfl) ['Z'] (Or.inr rfl) (year_fits _ hyear)
  have hshape : stamp m ++ ['Z'] = dateText 4 m.date ++ 'T' :: (clockText m ++ ['Z']) := by
    simp [stamp]
  rw [hshape]
  exact parse_scanned p _ label m hscanned

/-! ### Windows -/

/-- The seconds of the window that is asked for. -/
structure Window (p : Platform) (bind : DeletedIdsBindData) (s u : ℤ) : Prop where
  since : bind.since = isoText p.yearWidth (momentOf s)
  until_ : bind.until_ = isoText p.yearWidth (momentOf u)
  since_fits : inInt64 (s * p.ticksPerSecond)
  until_fits : inInt64 (u * p.ticksPerSecond)

theorem clock_bounds (p : Platform) (t : ℤ) (h : inInt64 (t * p.ticksPerSecond)) :
    -9223372036855 ≤ t ∧ t ≤ 9223372036855 := by
  have hticks := p.ticks_ge
  unfold inInt64 at h
  refine ⟨?_, ?_⟩
  · by_contra hlt
    have hmul : t * p.ticksPerSecond ≤ t * 1000000 := by
      apply Int.mul_le_mul_of_nonpos_left _ hticks
      omega
    omega
  · by_contra hgt
    have hmul : t * 1000000 ≤ t * p.ticksPerSecond := Int.mul_le_mul_of_nonneg_left hticks (by omega)
    omega

/-- The year of any instant of the clock fits. -/
theorem clock_year (p : Platform) (t : ℤ) (h : inInt64 (t * p.ticksPerSecond)) :
    inInt32 (momentOf t).date.year ∧ inInt32 ((momentOf t).date.year - 1900) := by
  obtain ⟨hlow, hhigh⟩ := clock_bounds p t h
  have hyears := year_bounds (momentOf t) (-300000) 300000
    (by
      rw [momentOf_seconds]
      exact le_trans (by decide) hlow)
    (by
      rw [momentOf_seconds]
      exact lt_of_le_of_lt hhigh (by decide))
  unfold inInt32
  omega

theorem parse_window (p : Platform) (t : ℤ) (label : Text) (h : inInt64 (t * p.ticksPerSecond)) :
    parseIsoUtc p (isoText p.yearWidth (momentOf t)) label =
      if converts p t then .ok (t * p.ticksPerSecond)
      else .error (notValidError label (isoText p.yearWidth (momentOf t))) := by
  have hscanned := moment_scanned p.yearWidth (momentOf t) 'T' (Or.inl rfl) ['Z'] (Or.inr rfl)
    (clock_year p t h)
  have hparse := parse_scanned p _ label (momentOf t) hscanned
  rw [momentOf_seconds, fromTimeT, wrap64_fits _ h] at hparse
  exact hparse

theorem parsed_window (p : Platform) (t tp : ℤ) (label : Text) (h : inInt64 (t * p.ticksPerSecond))
    (hparse : parseIsoUtc p (isoText p.yearWidth (momentOf t)) label = .ok tp) :
    tp = t * p.ticksPerSecond := by
  rw [parse_window p t label h] at hparse
  split at hparse
  · exact (Except.ok.inj hparse).symm
  · cases hparse

theorem timeArgument_fits (p : Platform) (arg : Option Text) (label : Text) (dflt t : ℤ)
    (hdflt : inInt64 dflt) (h : timeArgument p arg label dflt = .ok t) : inInt64 t := by
  cases arg with
  | none =>
    cases h
    exact hdflt
  | some value =>
    rw [timeArgument, parseIsoUtc] at h
    split at h
    · cases h
    · split at h
      · cases h
      · cases h
        exact wrap64_range _

theorem utcText_cases (p : Platform) (t : ℤ) :
    utcText p t = isoText p.yearWidth (momentOf t) ∨ utcText p t = [] := by
  unfold utcText
  split
  · exact Or.inl rfl
  · exact Or.inr rfl

/-- The texts that bind writes are those of a window, unless one of its ends is a
second that the library does not convert. -/
theorem bind_window (p : Platform) (now : ℤ) (input : DeletedIdsInput) (bind : DeletedIdsBindData)
    (hnow : inInt64 now) (h : deletedIdsBind p now input = .ok bind) :
    (∃ s u, Window p bind s u) ∨ bind.since = [] ∨ bind.until_ = [] := by
  unfold deletedIdsBind at h
  split at h
  · rename_i name _
    simp only at h
    split at h
    · cases h
    · split at h
      · cases h
      · rename_i since hsince
        split at h
        · cases h
        · rename_i until_ huntil
          split at h
          · cases h
          · split at h
            · cases h
            · cases h
              have hs := timeArgument_fits p _ _ _ since (wrap64_range _) hsince
              have hu := timeArgument_fits p _ _ _ until_ hnow huntil
              rcases utcText_cases p (toTimeT p since) with hsText | hsText
              · rcases utcText_cases p (toTimeT p until_) with huText | huText
                · exact Or.inl ⟨toTimeT p since, toTimeT p until_, hsText, huText,
                    toTimeT_fits p since hs, toTimeT_fits p until_ hu⟩
                · exact Or.inr (Or.inr huText)
              · exact Or.inr (Or.inl hsText)
  · cases h
  · cases h

/-! ### Slices -/

/-- An answer of getDeleted, as `DeletedAnswer` but with the date read. -/
structure SliceAnswer where
  records : List DeletedRecord
  covered : Option ReportedDate

def SliceAnswer.answer (a : SliceAnswer) : DeletedAnswer := ⟨a.records, a.covered.map ReportedDate.text⟩

abbrev Slice := ℤ × SliceAnswer

section Slices
variable (p : Platform)

/-- The instant lies in a slice, from its start up to the date reported. -/
def CoveredBy (slices : List Slice) (x : ℚ) : Prop :=
  ∃ slice ∈ slices, ∃ d, slice.2.covered = some d ∧
    (slice.1 : ℚ) / p.ticksPerSecond ≤ x ∧ x < d.instant

def WindowCovered (s u : ℤ) (slices : List Slice) : Prop :=
  ∀ x : ℚ, s ≤ x → x < u → CoveredBy p slices x

/-- All requests are used up, and the last date reported lies between the start
of its slice and the end of the window. -/
def CutOff (u : ℤ) (slices : List Slice) : Prop :=
  slices.length = kGetDeletedMaxLoops ∧ ∃ slice d, slices.getLast? = some slice ∧
    slice.2.covered = some d ∧ slice.1 < d.moment.seconds * p.ticksPerSecond ∧ d.moment.seconds < u

theorem covered_more (slices more : List Slice) (x : ℚ) (h : CoveredBy p slices x) :
    CoveredBy p (slices ++ more) x := by
  obtain ⟨slice, hmem, hrest⟩ := h
  exact ⟨slice, List.mem_append_left _ hmem, hrest⟩

/-- Instants that a finite list of dates does not reach. -/
theorem uncovered_instant (s u : ℤ) (hsu : s < u) (slices : List Slice)
    (hdates : ∀ slice ∈ slices, ∀ d, slice.2.covered = some d → d.instant < u) :
    ∃ x : ℚ, s ≤ x ∧ x < u ∧ ∀ slice ∈ slices, ∀ d, slice.2.covered = some d → d.instant ≤ x := by
  induction slices with
  | nil => exact ⟨s, le_refl _, by exact_mod_cast hsu, List.forall_mem_nil _⟩
  | cons slice slices ih =>
    obtain ⟨x, hlow, hhigh, hall⟩ := ih fun t ht => hdates t (List.mem_cons_of_mem _ ht)
    cases hd : slice.2.covered with
    | none =>
      refine ⟨x, hlow, hhigh, List.forall_mem_cons.mpr ⟨?_, hall⟩⟩
      intro d hsome
      rw [hd] at hsome
      cases hsome
    | some d =>
      have hlt := hdates slice List.mem_cons_self d hd
      refine ⟨max x d.instant, le_max_of_le_left hlow, max_lt hhigh hlt,
        List.forall_mem_cons.mpr ⟨?_, ?_⟩⟩
      · intro d' hsome
        rw [hd] at hsome
        cases hsome
        exact le_max_right _ _
      · intro t ht d' hd'
        exact le_max_of_le_left (hall t ht d' hd')

end Slices

/-! ### A run -/

section Run
variable (p : Platform) (apiVersion : Text) (bind : DeletedIdsBindData)
  (answer : ℕ → Text → Except Text Text) (said : Text → SliceAnswer) (s u : ℤ)

/-- The slices of a state, `said` being what a body says. -/
def slicesOf (g : LoadState) : List Slice := g.fetched.map fun f => (f.1, said f.2)

/-- Up to where a slice starts the window is covered, or it is altogether. -/
def Reached (since : ℤ) (g : LoadState) : Prop :=
  WindowCovered p s u (slicesOf said g) ∨
    ∃ t, since = t * p.ticksPerSecond ∧ s ≤ t ∧
      ∀ x : ℚ, s ≤ x → x < u → x < t → CoveredBy p (slicesOf said g) x

/-- What the window is covered up to, and what is shown of it. -/
structure Tracked (g : LoadState) : Prop where
  before : ∀ slice ∈ slicesOf said g, ∀ d, slice.2.covered = some d →
    ∀ x : ℚ, s ≤ x → x < u → x < d.instant → CoveredBy p (slicesOf said g) x
  shown : g.latestCovered = [] ∨ ∃ slice ∈ slicesOf said g, ∃ d, slice.2.covered = some d ∧
    g.latestCovered = stamp d.moment

theorem addRecords_latest (recs : List Text) (g : LoadState) :
    (recs.foldl addRecord g).latestCovered = g.latestCovered ∧
      (recs.foldl addRecord g).latestCoveredTp = g.latestCoveredTp := by
  induction recs generalizing g with
  | nil => exact ⟨rfl, rfl⟩
  | cons rec recs ih =>
    have hone : (addRecord g rec).latestCovered = g.latestCovered ∧
        (addRecord g rec).latestCoveredTp = g.latestCoveredTp := by
      unfold addRecord
      split
      · exact ⟨rfl, rfl⟩
      · exact ⟨rfl, rfl⟩
    obtain ⟨hlatest, htp⟩ := ih (addRecord g rec)
    exact ⟨hlatest.trans hone.1, htp.trans hone.2⟩

theorem ticks_pos : (0 : ℚ) < p.ticksPerSecond := by
  have hticks := p.ticks_ge
  have hpos : 0 < p.ticksPerSecond := by omega
  exact_mod_cast hpos

/-- A new slice reaches as far as its date. -/
theorem before_more (since : ℤ) (g : LoadState) (a : SliceAnswer) (d : ReportedDate)
    (hreached : Reached p said s u since g) (hd : a.covered = some d) (x : ℚ) (hs : s ≤ x)
    (hu : x < u) (hx : x < d.instant) : CoveredBy p (slicesOf said g ++ [(since, a)]) x := by
  rcases hreached with hall | ⟨t, hsince, _, hbefore⟩
  · exact covered_more p _ _ x (hall x hs hu)
  · by_cases hlt : x < t
    · exact covered_more p _ _ x (hbefore x hs hu hlt)
    · refine ⟨(since, a), List.mem_append_right _ (List.mem_singleton_self _), d, hd, ?_, hx⟩
      have hpos := ticks_pos p
      have hstart : ((since : ℤ) : ℚ) / p.ticksPerSecond = t := by
        rw [hsince, Int.cast_mul, mul_div_assoc, div_self (ne_of_gt hpos), mul_one]
      rw [hstart]
      exact not_lt.mp hlt

/-- Where the clock cannot count to a reported date, the date is after the
window. -/
theorem overflow_after (d : ReportedDate) (hu : inInt64 (u * p.ticksPerSecond))
    (hover : ¬ inInt64 (d.moment.seconds * p.ticksPerSecond)) : u < d.moment.seconds := by
  have hticks := p.ticks_ge
  have hle := p.ticks_le
  have hlow : -9223372036 ≤ d.moment.seconds :=
    le_trans (by decide) (seconds_ge d.moment 1700 d.year_ge)
  have hmin : -9223372036854775808 ≤ d.moment.seconds * p.ticksPerSecond := by
    by_cases hneg : d.moment.seconds < 0
    · have hmul : d.moment.seconds * 1000000000 ≤ d.moment.seconds * p.ticksPerSecond := by
        apply Int.mul_le_mul_of_nonpos_left _ hle
        omega
      omega
    · have hmul : 0 ≤ d.moment.seconds * p.ticksPerSecond := Int.mul_nonneg (by omega) (by omega)
      omega
  unfold inInt64 at hu hover
  by_contra hge
  have hmul : d.moment.seconds * p.ticksPerSecond ≤ u * p.ticksPerSecond :=
    Int.mul_le_mul_of_nonneg_right (by omega) (by omega)
  omega

/-- What the date of an answer does to the state and to the next start. -/
theorem dated_round (since : ℤ) (g₁ g' : LoadState) (d : ReportedDate) (next : Option ℤ) (tp : ℤ)
    (hparse : parseIsoUtc p (normalizeDeletedDate d.text ++ ['Z']) "latestDateCovered".toList = .ok tp)
    (hg' : g' = noteCovered g₁ d.text tp)
    (hnext : next = if tp ≤ since ∨ tp ≥ u * p.ticksPerSecond then none else some tp)
    (hu : inInt64 (u * p.ticksPerSecond)) :
    (g'.latestCovered = g₁.latestCovered ∨ g'.latestCovered = stamp d.moment) ∧
      ∀ t, next = some t → since < t ∧
        (t = d.moment.seconds * p.ticksPerSecond ∨ u < d.moment.seconds) := by
  rw [normalize_reported, parse_stamp p d.moment _ (reported_year d)] at hparse
  refine ⟨?_, ?_⟩
  · rw [hg', noteCovered]
    split
    · exact Or.inr (normalize_reported d)
    · exact Or.inl rfl
  · intro t ht
    rw [hnext] at ht
    split at ht
    · cases ht
    · rename_i hgo
      cases ht
      split at hparse
      · refine ⟨by omega, ?_⟩
        by_cases hfits : inInt64 (d.moment.seconds * p.ticksPerSecond)
        · refine Or.inl ?_
          rw [fromTimeT, wrap64_fits _ hfits] at hparse
          exact (Except.ok.inj hparse).symm
        · exact Or.inr (overflow_after p u d hu hfits)
      · cases hparse

/-- A round over what is tracked: the body its request brings, the state after it
and where the next slice starts. -/
structure TrackedRound (since : ℤ) (g g' : LoadState) (body : Text) (next : Option ℤ) : Prop where
  collected : Collected g
  tracked : Tracked p said s u g
  reached : Reached p said s u since g
  answered : answer g.fetched.length
    (getDeletedPath p apiVersion bind since (u * p.ticksPerSecond)) = .ok body
  said_of : AnswerText body (said body).answer
  after : afterBody p since (u * p.ticksPerSecond) g body = .ok (g', next)

section OneRound
variable {p apiVersion bind answer said s u} {since : ℤ} {g g' : LoadState} {body : Text}
  {next : Option ℤ} (hround : TrackedRound p apiVersion bind answer said s u since g g' body next)
include hround

theorem round_slices : slicesOf said g' = slicesOf said g ++ [(since, said body)] := by
  obtain ⟨_, hfetched⟩ := afterBody_frame p since (u * p.ticksPerSecond) g g' body next
    hround.after hround.collected
  rw [slicesOf, hfetched, List.map_append]
  rfl

theorem round_slice : (since, said body) ∈ slicesOf said g' := by
  rw [round_slices hround]
  exact List.mem_append_right _ (List.mem_singleton_self _)

/-- Before every reported date, that of the new slice too, the window is covered. -/
theorem round_before : ∀ slice ∈ slicesOf said g', ∀ d, slice.2.covered = some d →
    ∀ x : ℚ, s ≤ x → x < u → x < d.instant → CoveredBy p (slicesOf said g') x := by
  intro slice hslice d hd x hs hxu hx
  rw [round_slices hround] at hslice ⊢
  rcases List.mem_append.mp hslice with hslice | hslice
  · exact covered_more p _ _ x (hround.tracked.before slice hslice d hd x hs hxu hx)
  · rw [List.mem_singleton.mp hslice] at hd
    exact before_more p said s u since g (said body) d hround.reached hd x hs hxu hx

/-- A date that was shown is still one of a slice. -/
theorem round_kept (hsame : g'.latestCovered = g.latestCovered) :
    g'.latestCovered = [] ∨ ∃ slice ∈ slicesOf said g', ∃ d, slice.2.covered = some d ∧
      g'.latestCovered = stamp d.moment := by
  rw [hsame]
  rcases hround.tracked.shown with hempty | ⟨slice, hslice, d, hd, hstamp⟩
  · exact Or.inl hempty
  · refine Or.inr ⟨slice, ?_, d, hd, hstamp⟩
    rw [round_slices hround]
    exact List.mem_append_left _ hslice

/-- Where the next slice starts, the window is covered up to there, or altogether. -/
theorem round_reached (d : ReportedDate) (hd : (said body).covered = some d) (t : ℤ)
    (hlt : since < t) (hplace : t = d.moment.seconds * p.ticksPerSecond ∨ u < d.moment.seconds) :
    Reached p said s u t g' := by
  have hupto := round_before hround _ (round_slice hround) d hd
  have hbounds := instant_bounds d
  rcases hplace with hplace | hplace
  · rcases hround.reached with hall | ⟨t₀, hsince, hst, _⟩
    · refine Or.inl ?_
      intro x hs hxu
      rw [round_slices hround]
      exact covered_more p _ _ x (hall x hs hxu)
    · refine Or.inr ⟨d.moment.seconds, hplace, ?_, ?_⟩
      · have hticks := p.ticks_ge
        rw [hsince, hplace] at hlt
        have hmono := Int.lt_of_mul_lt_mul_right hlt (by omega)
        omega
      · intro x hs hxu hx
        exact hupto x hs hxu (lt_of_lt_of_le hx hbounds.1)
  · refine Or.inl ?_
    intro x hs hxu
    apply hupto x hs hxu
    have hcast : (u : ℚ) < d.moment.seconds := by exact_mod_cast hplace
    linarith

theorem round_tracks (hu : inInt64 (u * p.ticksPerSecond)) :
    Tracked p said s u g' ∧ ∀ t, next = some t → Reached p said s u t g' := by
  obtain ⟨_, hcovered⟩ := answer_read body _ hround.said_of
  obtain ⟨g₁, hg₁, hcase⟩ :=
    afterBody_cases p since (u * p.ticksPerSecond) g g' body next hround.after
  have hlatest : g₁.latestCovered = g.latestCovered := by
    rw [hg₁, addRecords]
    exact (addRecords_latest _ _).1
  cases hdate : (said body).covered with
  | none =>
    have hmissing : getString body "latestDateCovered".toList = [] := by
      rw [hcovered, SliceAnswer.answer, hdate]
      rfl
    rcases hcase with ⟨_, hg', hnext⟩ | ⟨tp, hne, _⟩
    · refine ⟨⟨round_before hround, round_kept hround (by rw [hg', hlatest])⟩, ?_⟩
      intro t ht
      rw [hnext] at ht
      cases ht
    · exact absurd hmissing hne
  | some d =>
    have htext : getString body "latestDateCovered".toList = d.text := by
      rw [hcovered, SliceAnswer.answer, hdate]
      rfl
    rcases hcase with ⟨hmissing, _⟩ | ⟨tp, _, hparse, hg', hnext⟩
    · rw [htext] at hmissing
      exact absurd hmissing (reported_ne d)
    · rw [htext] at hparse hg'
      obtain ⟨hshown, hgo⟩ := dated_round p u since g₁ g' d next tp hparse hg' hnext hu
      refine ⟨⟨round_before hround, ?_⟩, ?_⟩
      · rcases hshown with hsame | hnew
        · exact round_kept hround (hsame.trans hlatest)
        · exact Or.inr ⟨_, round_slice hround, d, hdate, hnew⟩
      · intro t ht
        obtain ⟨hlt, hplace⟩ := hgo t ht
        exact round_reached hround d hdate t hlt hplace

end OneRound

/-- A bind whose load ends normally has the texts of a window. -/
theorem loaded_window (now : ℤ) (input : DeletedIdsInput) (hnow : inInt64 now)
    (hbind : deletedIdsBind p now input = .ok bind) (l : LoadState)
    (hload : loadViaGetDeleted p apiVersion bind answer = .ok l) : ∃ s u, Window p bind s u := by
  obtain ⟨since, until_, hsince, huntil, _⟩ := load_cases p apiVersion bind answer l hload
  rcases bind_window p now input bind hnow hbind with hwindow | hempty | hempty
  · exact hwindow
  · rw [hempty, parse_empty] at hsince
    cases hsince
  · rw [hempty, parse_empty] at huntil
    cases huntil

/-- A load that ends normally runs the loop over the seconds of the window. -/
theorem window_loop (hwindow : Window p bind s u) (l : LoadState)
    (hload : loadViaGetDeleted p apiVersion bind answer = .ok l) :
    getDeletedLoop p apiVersion bind answer (u * p.ticksPerSecond) kGetDeletedMaxLoops
      (s * p.ticksPerSecond) LoadState.start = .ok l := by
  obtain ⟨since, until_, hsince, huntil, hloop⟩ := load_cases p apiVersion bind answer l hload
  rw [hwindow.since] at hsince
  rw [hwindow.until_] at huntil
  have hs := parsed_window p s since _ hwindow.since_fits hsince
  have hu := parsed_window p u until_ _ hwindow.until_fits huntil
  rw [hs, hu] at hloop
  exact hloop

theorem load_tracks (hwindow : Window p bind s u)
    (hsaid : ∀ i path body, answer i path = .ok body → AnswerText body (said body).answer)
    (l : LoadState) (hload : loadViaGetDeleted p apiVersion bind answer = .ok l) :
    Collected l ∧ Answered p apiVersion bind answer (u * p.ticksPerSecond) l ∧
      Tracked p said s u l := by
  have hloop := window_loop p apiVersion bind answer s u hwindow l hload
  apply loop_rule p apiVersion bind answer (u * p.ticksPerSecond)
    (fun since g => (Collected g ∧ Answered p apiVersion bind answer (u * p.ticksPerSecond) g ∧
      Tracked p said s u g) ∧ Reached p said s u since g)
    (fun g => Collected g ∧ Answered p apiVersion bind answer (u * p.ticksPerSecond) g ∧
      Tracked p said s u g) (fun _ _ h => h.1) ?_ kGetDeletedMaxLoops _ LoadState.start l ?_ hloop
  · intro since g body g' next hg _ hbody hafter
    obtain ⟨⟨hcollected, hanswered, htracked⟩, hreached⟩ := hg
    obtain ⟨hcollected', hfetched⟩ := afterBody_frame p since _ g g' body next hafter hcollected
    have hanswered' := answered_more p apiVersion bind answer _ since g g' body hanswered hbody hfetched
    have hround : TrackedRound p apiVersion bind answer said s u since g g' body next :=
      ⟨hcollected, htracked, hreached, hbody, hsaid _ _ body hbody, hafter⟩
    obtain ⟨htracked', hreached'⟩ := round_tracks hround hwindow.until_fits
    cases next with
    | none => exact ⟨hcollected', hanswered', htracked'⟩
    | some t => exact ⟨⟨hcollected', hanswered', htracked'⟩, hreached' t rfl⟩
  · refine ⟨⟨⟨fun _ => Iff.rfl, appearances_nil Prod.fst⟩, ?_, ?_, Or.inl rfl⟩, Or.inr ⟨s, rfl, le_refl s, ?_⟩⟩
    · intro i since body hi
      cases hi
    · intro slice hslice
      cases hslice
    · intro x hs hxu hx
      exact absurd hs (not_le.mpr hx)

/-! ### Gaps -/

/-- Everything in the window before the date a row shows is covered; and when
something in the window is not, a row shows no date or one before its end, and
the loop did not run out of requests. -/
structure GapVisible (slices : List Slice) (out : List DeletedIdsRow) : Prop where
  frontier : ∀ r ∈ out, ∀ t, r.latestDateCovered = some t →
    ∃ m : Moment, t = stamp m ∧
      ∀ x : ℚ, s ≤ x → x < u → x < m.seconds → CoveredBy p slices x
  gap : ¬ WindowCovered p s u slices →
    (∃ r ∈ out, r.latestDateCovered = none ∨
      ∃ m : Moment, r.latestDateCovered = some (stamp m) ∧ m.seconds < u) ∧ ¬ CutOff p u slices

/-- The window is empty, or a date reported is not before its end; or some
answer holds a record and the loop did not run out of requests. -/
def Settled (slices : List Slice) : Prop :=
  u ≤ s ∨ (∃ slice ∈ slices, ∃ d, slice.2.covered = some d ∧ (u : ℚ) ≤ d.instant) ∨
    (∃ slice ∈ slices, slice.2.records ≠ []) ∧ ¬ CutOff p u slices

theorem window_covered_iff (g : LoadState) (htracked : Tracked p said s u g) :
    WindowCovered p s u (slicesOf said g) ↔
      u ≤ s ∨ ∃ slice ∈ slicesOf said g, ∃ d, slice.2.covered = some d ∧ (u : ℚ) ≤ d.instant := by
  refine ⟨?_, ?_⟩
  · intro hall
    by_contra hno
    rw [not_or] at hno
    obtain ⟨hsu, hdates⟩ := hno
    obtain ⟨x, hs, hxu, hx⟩ := uncovered_instant s u (by omega) (slicesOf said g) (by
      intro slice hslice d hd
      by_contra hge
      exact hdates ⟨slice, hslice, d, hd, not_lt.mp hge⟩)
    obtain ⟨slice, hslice, d, hd, _, hlt⟩ := hall x hs hxu
    exact absurd (hx slice hslice d hd) (not_le.mpr hlt)
  · intro h x hs hxu
    rcases h with h | ⟨slice, hslice, d, hd, hge⟩
    · have hcast : (u : ℚ) ≤ s := by exact_mod_cast h
      linarith
    · exact htracked.before slice hslice d hd x hs hxu (lt_of_lt_of_le hxu hge)

theorem rows_of_records
    (hsaid : ∀ i path body, answer i path = .ok body → AnswerText body (said body).answer)
    (g : LoadState) (until_ : ℤ) (hcollected : Collected g)
    (hanswered : Answered p apiVersion bind answer until_ g) :
    g.rows ≠ [] ↔ ∃ slice ∈ slicesOf said g, slice.2.records ≠ [] := by
  have hread : ∀ f ∈ g.fetched, bodyRows f.2 = (said f.2).records.map answerRow := by
    intro f hf
    obtain ⟨i, hi⟩ := List.mem_iff_getElem?.mp hf
    exact (answer_read f.2 _ (hsaid i _ f.2 (hanswered i f.1 f.2 hi))).1
  have hkeys : g.rows ≠ [] ↔ fetchedRows g ≠ [] := by
    have hiff := hcollected.rows.keys
    refine not_congr ⟨?_, ?_⟩
    · intro hrows
      rw [List.eq_nil_iff_forall_not_mem]
      intro row hrow
      have hkey := (hiff row.1).mpr (List.mem_map_of_mem hrow)
      rw [hrows] at hkey
      cases hkey
    · intro hrows
      rw [List.eq_nil_iff_forall_not_mem]
      intro row hrow
      have hkey := (hiff row.1).mp (List.mem_map_of_mem hrow)
      rw [hrows] at hkey
      cases hkey
  rw [hkeys, fetchedRows, ne_eq, List.flatMap_eq_nil_iff]
  refine ⟨?_, ?_⟩
  · intro h
    by_contra hno
    apply h
    intro f hf
    rw [hread f hf, List.map_eq_nil_iff]
    by_contra hne
    exact hno ⟨(f.1, said f.2), List.mem_map_of_mem hf, hne⟩
  · intro h hall
    obtain ⟨slice, hslice, hne⟩ := h
    obtain ⟨f, hf, rfl⟩ := List.mem_map.mp hslice
    have hnil := hall f hf
    rw [hread f hf, List.map_eq_nil_iff] at hnil
    exact hne hnil

/-- The date that is shown, if any, is covered up to, and is before the end when
something is not covered. -/
theorem shown_date (g : LoadState) (htracked : Tracked p said s u g) :
    g.latestCovered = [] ∨ ∃ d : ReportedDate, g.latestCovered = stamp d.moment ∧
      (∀ x : ℚ, s ≤ x → x < u → x < d.moment.seconds → CoveredBy p (slicesOf said g) x) ∧
      (¬ WindowCovered p s u (slicesOf said g) → d.moment.seconds < u) := by
  rcases htracked.shown with hempty | ⟨slice, hslice, d, hd, hstamp⟩
  · exact Or.inl hempty
  · have hbounds := instant_bounds d
    refine Or.inr ⟨d, hstamp, ?_, ?_⟩
    · intro x hs hxu hx
      exact htracked.before slice hslice d hd x hs hxu (lt_of_lt_of_le hx hbounds.1)
    · intro hgap
      by_contra hge
      apply hgap
      apply (window_covered_iff p said s u g htracked).mpr
      refine Or.inr ⟨slice, hslice, d, hd, ?_⟩
      have hcast : (u : ℚ) ≤ d.moment.seconds := by exact_mod_cast not_lt.mp hge
      linarith

theorem frontier_covered (source : Text) (g : LoadState) (htracked : Tracked p said s u g) :
    ∀ r ∈ g.rows.map (outputRow source g.latestCovered), ∀ t, r.latestDateCovered = some t →
      ∃ m : Moment, t = stamp m ∧
        ∀ x : ℚ, s ≤ x → x < u → x < m.seconds → CoveredBy p (slicesOf said g) x := by
  intro r hr t ht
  obtain ⟨row, _, rfl⟩ := List.mem_map.mp hr
  have hnull : nullIfEmpty g.latestCovered = some t := ht
  unfold nullIfEmpty at hnull
  split at hnull
  · cases hnull
  · rename_i hne
    rcases shown_date p said s u g htracked with hempty | ⟨d, hstamp, hbefore, _⟩
    · exact absurd hempty hne
    · exact ⟨d.moment, (Option.some.inj hnull).symm.trans hstamp, hbefore⟩

theorem gap_shown (source : Text) (g : LoadState) (htracked : Tracked p said s u g)
    (hrows : g.rows ≠ []) (hgap : ¬ WindowCovered p s u (slicesOf said g)) :
    ∃ r ∈ g.rows.map (outputRow source g.latestCovered), r.latestDateCovered = none ∨
      ∃ m : Moment, r.latestDateCovered = some (stamp m) ∧ m.seconds < u := by
  obtain ⟨row, rows, hcons⟩ := List.exists_cons_of_ne_nil hrows
  refine ⟨outputRow source g.latestCovered row, ?_, ?_⟩
  · rw [hcons]
    exact List.mem_cons_self
  · rcases shown_date p said s u g htracked with hempty | ⟨d, hstamp, _, hlt⟩
    · refine Or.inl ?_
      rw [outputRow, hempty]
      rfl
    · refine Or.inr ⟨d.moment, ?_, hlt hgap⟩
      have hne : stamp d.moment ≠ [] := by
        intro hnil
        have hlen := stamp_length d.moment (reported_year d)
        rw [hnil] at hlen
        cases hlen
      rw [outputRow, hstamp]
      exact if_neg hne

/-- A run by getDeleted that ends normally lets the caller see a gap exactly
when it is settled. -/
theorem gaps_visible_iff (hwindow : Window p bind s u)
    (hsaid : ∀ i path body, answer i path = .ok body → AnswerText body (said body).answer)
    (l : LoadState) (out : List DeletedIdsRow)
    (hload : loadViaGetDeleted p apiVersion bind answer = .ok l)
    (hend : EndsWith (loadViaGetDeleted p apiVersion bind answer) bind out) :
    Answered p apiVersion bind answer (u * p.ticksPerSecond) l ∧
      (GapVisible p s u (slicesOf said l) out ↔ Settled p s u (slicesOf said l)) := by
  obtain ⟨l', hl', hout⟩ := (endsWith_iff _ bind out).mp hend
  rw [hload] at hl'
  cases hl'
  obtain ⟨hcollected, hanswered, htracked⟩ :=
    load_tracks p apiVersion bind answer said s u hwindow hsaid l hload
  have hcovered := window_covered_iff p said s u l htracked
  have hrecords := rows_of_records p apiVersion bind answer said hsaid l _ hcollected hanswered
  refine ⟨hanswered, ?_, ?_⟩
  · intro h
    by_cases hall : WindowCovered p s u (slicesOf said l)
    · rcases hcovered.mp hall with hempty | hdate
      · exact Or.inl hempty
      · exact Or.inr (Or.inl hdate)
    · obtain ⟨⟨r, hr, _⟩, hcut⟩ := h.gap hall
      refine Or.inr (Or.inr ⟨hrecords.mp ?_, hcut⟩)
      intro hnil
      rw [hout, hnil] at hr
      cases hr
  · intro h
    rw [hout]
    refine ⟨frontier_covered p said s u bind.source l htracked, ?_⟩
    intro hgap
    rcases h with hempty | hdate | ⟨hrecord, hcut⟩
    · exact absurd (hcovered.mpr (Or.inl hempty)) hgap
    · exact absurd (hcovered.mpr (Or.inr hdate)) hgap
    · exact ⟨gap_shown p said s u bind.source l htracked (hrecords.mpr hrecord) hgap, hcut⟩

end Run

/-! ### A lead of the first hour -/

def deletedBody (elements : JsonText.Elements) : JsonText.ObjectText :=
  ⟨.none, .none, memberOf "deletedRecords" (.array .none elements) .nil, .none⟩

def leadMembers : JsonText.Members := memberOf "id" (textOf "00Q1") .nil

/-- `[{"id":"00Q1"}]`. -/
def oneLead : JsonText.Elements := .cons .none (.object .none leadMembers) .none .nil

def elevenOClock : ReportedDate where
  moment := { midnight ⟨2026, 9, 30, by decide, by decide, by decide, by decide⟩ with
    hour := 11
    hour_lt := by decide }
  year_ge := by decide
  year_le := by decide
  fraction := List.replicate 3 '0'
  digits := by
    intro c hc
    rw [List.eq_of_mem_replicate hc]
    rfl
  zone := "Z".toList
  utc := by decide

def firstHour : JsonText.ObjectText :=
  ⟨.none, .none, memberOf "deletedRecords" (.array .none oneLead)
    (memberOf "latestDateCovered" (textOf "2026-09-30T11:00:00.000Z") .nil), .none⟩

def firstHourDeleted : SliceAnswer := ⟨[⟨"00Q1".toList, []⟩], some elevenOClock⟩

theorem firstHour_said : AnswerText firstHour.text firstHourDeleted.answer := by
  have hid : HasMember (recordObject .none leadMembers) "id".toList (textOf "00Q1") :=
    hasMember_of _ _ _ ⟨_, rfl, by decide, rfl⟩
  have hrecords : HasMember firstHour "deletedRecords".toList (.array .none oneLead) :=
    hasMember_of _ _ _ ⟨_, rfl, by decide, rfl⟩
  have hdate : LacksMember (recordObject .none leadMembers) "deletedDate".toList :=
    lacksMember_of _ _ rfl (by decide)
  have hcovered : HasMember firstHour "latestDateCovered".toList
      (textOf "2026-09-30T11:00:00.000Z") :=
    hasMember_of _ _ _ ⟨_, rfl, by decide, rfl⟩
  exact ⟨firstHour, rfl, ⟨.none, oneLead, hrecords,
    .cons .none .none leadMembers .none .nil ⟨"00Q1".toList, []⟩ []
      ⟨JsonText.spell "00Q1".toList, hid, by decide, by decide⟩ (Or.inr ⟨rfl, hdate⟩) .nil⟩,
    ⟨JsonText.spell "2026-09-30T11:00:00.000Z".toList, hcovered, by decide, by decide⟩⟩

def noneDeleted : SliceAnswer := ⟨[], none⟩

theorem noneDeleted_said : AnswerText (deletedBody .nil).text noneDeleted.answer := by
  have hrecords : HasMember (deletedBody .nil) "deletedRecords".toList (.array .none .nil) :=
    hasMember_of _ _ _ ⟨_, rfl, by decide, rfl⟩
  have hcovered : LacksMember (deletedBody .nil) "latestDateCovered".toList :=
    lacksMember_of _ _ rfl (by decide)
  exact ⟨deletedBody .nil, rfl, ⟨.none, .nil, hrecords, .nil⟩, Or.inl hcovered⟩

/-- The window of `leadBind`. -/
theorem lead_window : Window nanoPlatform leadBind 1790762400 1790769600 :=
  ⟨by decide +kernel, by decide +kernel, by decide, by decide⟩

/-- The second answer has neither a record nor a date. -/
def hourAnswer (i : ℕ) (_ : Text) : Except Text Text :=
  if i = 0 then .ok firstHour.text else .ok (deletedBody .nil).text

def hourSaid (body : Text) : SliceAnswer :=
  if body = firstHour.text then firstHourDeleted else noneDeleted

theorem hourAnswer_said (i : ℕ) (path body : Text) (h : hourAnswer i path = .ok body) :
    AnswerText body (hourSaid body).answer := by
  unfold hourAnswer at h
  split at h
  · rw [← Except.ok.inj h, hourSaid, if_pos rfl]
    exact firstHour_said
  · have hother : (deletedBody .nil).text ≠ firstHour.text := by decide
    rw [← Except.ok.inj h, hourSaid, if_neg hother]
    exact noneDeleted_said

def oneLoaded : LoadState :=
  ⟨[("00Q1".toList, [])], ["00Q1".toList], "2026-09-30T11:00:00".toList, 1790766000000000000,
    [(1790762400000000000, firstHour.text), (1790766000000000000, (deletedBody .nil).text)]⟩

/-- One record and one date, of which the caller sees that the second hour is not
covered. -/
theorem one_lead_visible :
    GapVisible nanoPlatform 1790762400 1790769600 (slicesOf hourSaid oneLoaded)
      [⟨"00Q1".toList, none, "getDeleted".toList, some "2026-09-30T11:00:00".toList⟩] := by
  have hload : loadViaGetDeleted nanoPlatform "v60.0".toList leadBind hourAnswer =
      .ok oneLoaded := by
    decide +kernel
  have hend := (endsWith_iff (loadViaGetDeleted nanoPlatform "v60.0".toList leadBind hourAnswer)
    leadBind [⟨"00Q1".toList, none, "getDeleted".toList,
      some "2026-09-30T11:00:00".toList⟩]).mpr ⟨oneLoaded, hload, by decide⟩
  have hfirst : slicesOf hourSaid oneLoaded =
      [(1790762400000000000, firstHourDeleted), (1790766000000000000, noneDeleted)] := by
    have hother : (deletedBody .nil).text ≠ firstHour.text := by decide
    simp only [slicesOf, oneLoaded, List.map_cons, List.map_nil, hourSaid, if_pos, if_neg hother]
  have hsettled : Settled nanoPlatform 1790762400 1790769600 (slicesOf hourSaid oneLoaded) := by
    rw [hfirst]
    refine Or.inr (Or.inr ⟨⟨_, List.mem_cons_self, List.cons_ne_nil _ _⟩, ?_⟩)
    intro hcut
    exact absurd hcut.1 (by decide)
  exact (gaps_visible_iff nanoPlatform "v60.0".toList leadBind hourAnswer hourSaid 1790762400
    1790769600 lead_window hourAnswer_said oneLoaded _ hload hend).2.mpr hsettled

/-- No record and no date: the result is empty, and nothing is covered. -/
theorem gap_hidden :
    ¬ ∀ (p : Platform) (apiVersion : Text) (bind : DeletedIdsBindData)
      (answer : ℕ → Text → Except Text Text) (said : Text → SliceAnswer) (s u : ℤ),
      Window p bind s u →
      (∀ i path body, answer i path = .ok body → AnswerText body (said body).answer) →
      ∀ (l : LoadState) (out : List DeletedIdsRow),
        loadViaGetDeleted p apiVersion bind answer = .ok l →
        EndsWith (loadViaGetDeleted p apiVersion bind answer) bind out →
        GapVisible p s u (slicesOf said l) out := by
  intro h
  have hload : loadViaGetDeleted nanoPlatform "v60.0".toList leadBind
      (fun _ _ => .ok (deletedBody .nil).text) =
      .ok ⟨[], [], [], 0, [(1790762400000000000, (deletedBody .nil).text)]⟩ := by
    decide +kernel
  have hend := (endsWith_iff (loadViaGetDeleted nanoPlatform "v60.0".toList leadBind
    (fun _ _ => .ok (deletedBody .nil).text)) leadBind []).mpr ⟨_, hload, rfl⟩
  have hvisible := h nanoPlatform "v60.0".toList leadBind (fun _ _ => .ok (deletedBody .nil).text)
    (fun _ => noneDeleted) 1790762400 1790769600 lead_window
    (by
      intro _ _ body hbody
      rw [← Except.ok.inj hbody]
      exact noneDeleted_said) _ [] hload hend
  have hgap : ¬ WindowCovered nanoPlatform 1790762400 1790769600
      (slicesOf (fun _ => noneDeleted)
        ⟨[], [], [], 0, [(1790762400000000000, (deletedBody .nil).text)]⟩) := by
    intro hall
    obtain ⟨slice, hslice, d, hd, _⟩ := hall 1790762400 (by norm_num) (by norm_num)
    rw [List.mem_singleton.mp hslice] at hd
    cases hd
  obtain ⟨⟨r, hr, _⟩, _⟩ := hvisible.gap hgap
  cases hr

end DuckdbSalesforce
