import Mathlib
import DuckdbSalesforce.DeleteSync.Timestamps
import DuckdbSalesforce.Quota.BulkStart

/-!
# The reserve in 64 bits

`reserve_pct` and `min_remaining` are any `BIGINT`, and the limits any `int64_t`
a response names. A product that no `int64_t` holds is taken to wrap.
-/

namespace DuckdbSalesforce

def reserve64 (reservePct apiMax : ℤ) : ℤ :=
  if 0 < reservePct then (wrap64 (apiMax * reservePct)).tdiv 100 else 0

def threshold64 (settings : QuotaSettings) (snap : SalesforceQuotaSnapshot) : ℤ :=
  max settings.minRemaining (reserve64 settings.reservePct snap.apiMax)

def quotaOk64 (settings : QuotaSettings) (snap : SalesforceQuotaSnapshot) : Bool :=
  if snap.bulkRemaining = 0 then false
  else threshold64 settings snap < snap.apiRemaining

/-- The values the computation goes through, in its order. -/
def reserveValues (settings : QuotaSettings) (snap : SalesforceQuotaSnapshot) : List ℤ :=
  (if 0 < settings.reservePct then [snap.apiMax * settings.reservePct] else []) ++
    [reserve64 settings.reservePct snap.apiMax, threshold64 settings snap, snap.apiRemaining]

structure ReserveExact (settings : QuotaSettings) (snap : SalesforceQuotaSnapshot) : Prop where
  range : ∀ v ∈ reserveValues settings snap, inInt64 v
  floor : reserve64 settings.reservePct snap.apiMax = snap.apiMax * settings.reservePct / 100

theorem reserve64_range (pct apiMax : ℤ) : inInt64 (reserve64 pct apiMax) := by
  unfold reserve64
  split
  · have hwrap := wrap64_range (apiMax * pct)
    have hquotient : (wrap64 (apiMax * pct)).tdiv 100 = wrap64 (apiMax * pct) / 100 +
        if 0 ≤ wrap64 (apiMax * pct) ∨ 100 ∣ wrap64 (apiMax * pct) then 0 else 1 :=
      Int.tdiv_eq_ediv
    rw [hquotient]
    unfold inInt64 at hwrap ⊢
    split <;> omega
  · decide

theorem threshold64_range (settings : QuotaSettings) (snap : SalesforceQuotaSnapshot)
    (hmin : inInt64 settings.minRemaining) : inInt64 (threshold64 settings snap) := by
  rcases max_choice settings.minRemaining (reserve64 settings.reservePct snap.apiMax) with h | h
  · rw [threshold64, h]
    exact hmin
  · rw [threshold64, h]
    exact reserve64_range _ _

theorem reserve64_exact (pct apiMax : ℤ) (hfits : inInt64 (apiMax * pct)) :
    reserve64 pct apiMax = quotaReserve pct apiMax := by
  unfold reserve64 quotaReserve
  rw [wrap64_fits _ hfits]

/-- As long as the product fits, the guard decides as in exact integers. -/
theorem quotaOk64_exact (settings : QuotaSettings) (snap : SalesforceQuotaSnapshot)
    (hfits : inInt64 (snap.apiMax * settings.reservePct)) :
    quotaOk64 settings snap = quotaOk settings snap := by
  unfold quotaOk64 quotaOk threshold64 quotaThreshold
  rw [reserve64_exact _ _ hfits]

/-- A negative percentage is taken as 0, which is its share of nothing only. -/
theorem floor_of_nonpos (pct apiMax : ℤ) (hpct : pct ≤ 0) (hmax : 0 ≤ apiMax) :
    0 = apiMax * pct / 100 ↔ 0 ≤ apiMax * pct := by
  have hle : apiMax * pct ≤ 0 := mul_nonpos_of_nonneg_of_nonpos hmax hpct
  omega

/-- The reserve is exact exactly when the product is not negative and fits. -/
theorem quota_reserve_iff (settings : QuotaSettings) (snap : SalesforceQuotaSnapshot)
    (hmin : inInt64 settings.minRemaining) (hmax : 0 ≤ snap.apiMax)
    (hremaining : inInt64 snap.apiRemaining) :
    ReserveExact settings snap ↔
      0 ≤ snap.apiMax * settings.reservePct ∧
        snap.apiMax * settings.reservePct ≤ 9223372036854775807 := by
  by_cases hpct : 0 < settings.reservePct
  · have hproduct : 0 ≤ snap.apiMax * settings.reservePct := Int.mul_nonneg hmax hpct.le
    constructor
    · intro h
      have hfits := h.range (snap.apiMax * settings.reservePct) (by simp [reserveValues, hpct])
      exact ⟨hproduct, hfits.2⟩
    · intro h
      have hfits : inInt64 (snap.apiMax * settings.reservePct) := by
        unfold inInt64
        omega
      refine ⟨?_, ?_⟩
      · intro v hv
        simp only [reserveValues, if_pos hpct, List.cons_append, List.nil_append, List.mem_cons,
          List.not_mem_nil, or_false] at hv
        rcases hv with rfl | rfl | rfl | rfl
        · exact hfits
        · exact reserve64_range _ _
        · exact threshold64_range settings snap hmin
        · exact hremaining
      · rw [reserve64_exact _ _ hfits, quotaReserve_floor _ _ hmax, if_pos hpct]
  · have hpct' : settings.reservePct ≤ 0 := Int.not_lt.mp hpct
    have hzero : reserve64 settings.reservePct snap.apiMax = 0 := if_neg hpct
    have hfloor := floor_of_nonpos settings.reservePct snap.apiMax hpct' hmax
    have hle : snap.apiMax * settings.reservePct ≤ 0 :=
      mul_nonpos_of_nonneg_of_nonpos hmax hpct'
    constructor
    · intro h
      have hfl := h.floor
      rw [hzero] at hfl
      exact ⟨hfloor.mp hfl, by omega⟩
    · intro h
      refine ⟨?_, ?_⟩
      · intro v hv
        simp only [reserveValues, if_neg hpct, List.nil_append, List.mem_cons,
          List.not_mem_nil, or_false] at hv
        rcases hv with rfl | rfl | rfl
        · exact reserve64_range _ _
        · exact threshold64_range settings snap hmin
        · exact hremaining
      · rw [hzero]
        exact hfloor.mpr h.1

/-! ### The percentage of a large maximum -/

def tenthReserved : QuotaSettings := ⟨true, true, true, 10, 1000, 60⟩

def freshLimits : SalesforceQuotaSnapshot := ⟨true, 100000, 2000, -1, -1⟩

theorem tenth_reserve_exact : ReserveExact tenthReserved freshLimits :=
  (quota_reserve_iff tenthReserved freshLimits (by decide) (by decide) (by decide)).mpr (by decide)

/-- With the percentage at 10^14 the reserve of 100000 requests wraps below 0,
and a job starts with 2000 requests left. -/
theorem reserve_wraps :
    ¬ (∀ (settings : QuotaSettings) (snap : SalesforceQuotaSnapshot),
      inInt64 settings.reservePct → inInt64 settings.minRemaining → 0 ≤ snap.apiMax →
      inInt64 snap.apiMax → 0 ≤ snap.apiRemaining → inInt64 snap.apiRemaining →
      ReserveExact settings snap) := by
  intro h
  have hexact := h { tenthReserved with reservePct := 100000000000000 } freshLimits (by decide)
    (by decide) (by decide) (by decide) (by decide) (by decide)
  exact absurd hexact.floor (by decide)

example : quotaOk64 { tenthReserved with reservePct := 100000000000000 } freshLimits = true ∧
    quotaOk { tenthReserved with reservePct := 100000000000000 } freshLimits = false := by decide

end DuckdbSalesforce
