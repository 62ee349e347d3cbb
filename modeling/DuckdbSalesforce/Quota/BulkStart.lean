import Mathlib
import DuckdbSalesforce.Json.Reader
import DuckdbSalesforce.Library.Runs
import DuckdbSalesforce.Session.AuthorizedSend

/-!
# The quota guard of Bulk job starts (salesforce_quota.cpp)

`QuotaGuardBulkStart` as `ScanFunction` calls it: `instance_url` is a reference
into the session's token, so a token refreshed while the limits are fetched
changes it. Times are ticks of `steady_clock`.
-/

namespace DuckdbSalesforce
open Runs

/-! ### `QueryLimits` -/

structure SalesforceQuotaSnapshot where
  available : Bool
  apiMax : ℤ
  apiRemaining : ℤ
  bulkMax : ℤ
  bulkRemaining : ℤ
  deriving DecidableEq

def SalesforceQuotaSnapshot.unavailable : SalesforceQuotaSnapshot := ⟨false, -1, -1, -1, -1⟩

/-- `Max` and `Remaining` of one limit. -/
def limitEntry (body name : Text) : ℤ × ℤ :=
  let entry := extractObject body name
  if entry = [] then (-1, -1)
  else (getInt entry "Max".toList (-1), getInt entry "Remaining".toList (-1))

def limitsSnapshot (resp : HttpResponse) : SalesforceQuotaSnapshot :=
  if resp.status ≠ 200 then .unavailable
  else
    let api := limitEntry resp.body "DailyApiRequests".toList
    let bulk := limitEntry resp.body "DailyBulkV2QueryJobs".toList
    ⟨0 ≤ api.1 ∧ 0 ≤ api.2, api.1, api.2, bulk.1, bulk.2⟩

/-- What the call leaves when an exception of `AuthorizedSend` is dropped. -/
def limitsOf : Except Text HttpResponse → SalesforceQuotaSnapshot
  | .error _ => .unavailable
  | .ok resp => limitsSnapshot resp

def limitsPath (apiVersion : Text) : Text :=
  "/services/data/".toList ++ apiVersion ++ "/limits".toList

section
variable {σ : Type}

def queryLimits (s : Session σ) : SessionRun σ HttpResponse :=
  authorizedSend false (limitsPath s.apiVersion) [] s

/-! ### The settings and the decision -/

/-- The `sf_quota_*` settings, `none` when unset or null. -/
structure QuotaVariables where
  enabled : Option Bool
  enforce : Option Bool
  failOpen : Option Bool
  reservePct : Option ℤ
  minRemaining : Option ℤ
  cacheSeconds : Option ℤ

structure QuotaSettings where
  enabled : Bool
  enforce : Bool
  failOpen : Bool
  reservePct : ℤ
  minRemaining : ℤ
  ttl : ℤ

def QuotaVariables.settings (v : QuotaVariables) : QuotaSettings where
  enabled := v.enabled.getD true
  enforce := v.enforce.getD true
  failOpen := v.failOpen.getD true
  reservePct := v.reservePct.getD 10
  minRemaining := v.minRemaining.getD 1000
  ttl := v.cacheSeconds.getD 60

/-- What `RecordDecision` keeps for `salesforce_last_quota()`. -/
structure QuotaDecision where
  limitName : Text
  max : ℤ
  remaining : ℤ
  threshold : ℤ
  allowed : Bool
  reason : Text

def intText (n : ℤ) : Text := (toString n).toList

def cachedNote (fromCache : Bool) : Text := if fromCache then " (cached)".toList else []

def quotaReserve (reservePct apiMax : ℤ) : ℤ :=
  if 0 < reservePct then (apiMax * reservePct).tdiv 100 else 0

def quotaThreshold (settings : QuotaSettings) (snap : SalesforceQuotaSnapshot) : ℤ :=
  max settings.minRemaining (quotaReserve settings.reservePct snap.apiMax)

def quotaOk (settings : QuotaSettings) (snap : SalesforceQuotaSnapshot) : Bool :=
  if snap.bulkRemaining = 0 then false
  else quotaThreshold settings snap < snap.apiRemaining

def exhaustedReason (settings : QuotaSettings) (snap : SalesforceQuotaSnapshot)
    (fromCache : Bool) : Text :=
  "DailyApiRequests Remaining ".toList ++ intText snap.apiRemaining ++ " <= threshold ".toList ++
    intText (quotaThreshold settings snap) ++ " (reserve ".toList ++ intText settings.reservePct ++
    "% of ".toList ++ intText snap.apiMax ++ ", min ".toList ++ intText settings.minRemaining ++
    ")".toList ++
    (if snap.bulkRemaining = 0 then "; DailyBulkV2QueryJobs exhausted".toList else []) ++
    cachedNote fromCache

def exhaustedError (reason : Text) : Text :=
  "salesforce quota guard: ".toList ++ reason ++
    (" — refusing to start a Bulk job. SET sf_quota_enforce=false " ++
      "to warn-only, sf_quota_enabled=false to disable, raise sf_quota_reserve_pct/" ++
      "sf_quota_min_remaining, or wait for the daily reset.").toList

def unavailableError : Text :=
  ("salesforce quota guard: /limits is unavailable and sf_quota_fail_open=false — " ++
    "refusing to start a Bulk job. Set sf_quota_fail_open=true to proceed, or " ++
    "sf_quota_enabled=false to disable the governor.").toList

def apiDecision (settings : QuotaSettings) (snap : SalesforceQuotaSnapshot) (allowed : Bool)
    (reason : Text) : QuotaDecision :=
  ⟨"DailyApiRequests".toList, snap.apiMax, snap.apiRemaining, quotaThreshold settings snap,
    allowed, reason⟩

/-- The guard behind the point where it has a snapshot. -/
def quotaDecide (settings : QuotaSettings) (snap : SalesforceQuotaSnapshot) (fromCache : Bool) :
    QuotaDecision × Except Text Unit :=
  if snap.available = false then
    if settings.failOpen then
      (⟨[], -1, -1, -1, true,
        "limits unavailable -> allowed (fail-open)".toList ++ cachedNote fromCache⟩, .ok ())
    else
      (⟨[], -1, -1, -1, false,
        "limits unavailable -> blocked (fail-closed)".toList ++ cachedNote fromCache⟩,
        .error unavailableError)
  else if quotaOk settings snap then
    (apiDecision settings snap true ("allowed: Remaining ".toList ++ intText snap.apiRemaining ++
      " > threshold ".toList ++ intText (quotaThreshold settings snap) ++ cachedNote fromCache),
      .ok ())
  else
    let reason := exhaustedReason settings snap fromCache
    if settings.enforce then
      (apiDecision settings snap false reason, .error (exhaustedError reason))
    else
      (apiDecision settings snap true
        ("WARN (sf_quota_enforce=false), proceeding: ".toList ++ reason), .ok ())

/-! ### The snapshot cache -/

/-- `time` is `at` of the source, read before the snapshot was fetched. -/
structure CacheEntry where
  snap : SalesforceQuotaSnapshot
  time : ℤ

abbrev QuotaCache := Text → Option CacheEntry

def ticksPerSecond : ℤ := 1000000000

def cachedSnapshot (ttl now : ℤ) : Option CacheEntry → Option SalesforceQuotaSnapshot
  | none => none
  | some entry =>
    if 0 < ttl ∧ (now - entry.time).tdiv ticksPerSecond < ttl then some entry.snap else none

def storeSnapshot (ttl now : ℤ) (url : Text) (snap : SalesforceQuotaSnapshot) (cache : QuotaCache) :
    QuotaCache :=
  if 0 < ttl ∧ snap.available = true then Function.update cache url (some ⟨snap, now⟩) else cache

structure QuotaGuardRun (σ : Type) where
  exchanges : List Exchange
  session : Session σ
  cache : QuotaCache
  decision : QuotaDecision
  result : Except Text Unit

def disabledDecision : QuotaDecision :=
  ⟨[], -1, -1, -1, true, "disabled: governor off -> allowed (no /limits)".toList⟩

def quotaGuardBulkStart (settings : QuotaSettings) (now : ℤ) (cache : QuotaCache) (s : Session σ) :
    QuotaGuardRun σ :=
  if settings.enabled = false then ⟨[], s, cache, disabledDecision, .ok ()⟩
  else
    match cachedSnapshot settings.ttl now (cache s.token.instanceUrl) with
    | some snap =>
      let outcome := quotaDecide settings snap true
      ⟨[], s, cache, outcome.1, outcome.2⟩
    | none =>
      let fetched := queryLimits s
      let snap := limitsOf fetched.result
      -- the reference reads the token the fetch has left
      let stored := storeSnapshot settings.ttl now fetched.session.token.instanceUrl snap cache
      let outcome := quotaDecide settings snap false
      ⟨fetched.exchanges, fetched.session, stored, outcome.1, outcome.2⟩

end

/-! ### One call -/

theorem limitsOf_available (answer : Except Text HttpResponse)
    (h : (limitsOf answer).available = true) :
    ∃ resp, answer = .ok resp ∧ resp.status = 200 ∧ limitsOf answer = limitsSnapshot resp := by
  cases answer with
  | error e => cases h
  | ok resp =>
    refine ⟨resp, rfl, ?_, rfl⟩
    by_contra hstatus
    have hsnap : limitsSnapshot resp = .unavailable := if_pos hstatus
    rw [limitsOf, hsnap] at h
    cases h

theorem limitsSnapshot_max (resp : HttpResponse) (h : (limitsSnapshot resp).available = true) :
    0 ≤ (limitsSnapshot resp).apiMax := by
  unfold limitsSnapshot at h ⊢
  split at h
  · cases h
  · rename_i hstatus
    rw [if_neg hstatus]
    exact (of_decide_eq_true h).1

/-- The guard's condition on a snapshot, in exact integers. -/
structure Affordable (settings : QuotaSettings) (snap : SalesforceQuotaSnapshot) : Prop where
  remaining : max settings.minRemaining
    (if 0 < settings.reservePct then snap.apiMax * settings.reservePct / 100 else 0) <
      snap.apiRemaining
  bulk : snap.bulkRemaining ≠ 0

theorem quotaReserve_floor (pct apiMax : ℤ) (h : 0 ≤ apiMax) :
    quotaReserve pct apiMax = if 0 < pct then apiMax * pct / 100 else 0 := by
  unfold quotaReserve
  split
  · rename_i hpct
    exact Int.tdiv_eq_ediv_of_nonneg (Int.mul_nonneg h hpct.le)
  · rfl

theorem quotaOk_affordable (settings : QuotaSettings) (snap : SalesforceQuotaSnapshot)
    (hmax : 0 ≤ snap.apiMax) (h : quotaOk settings snap = true) : Affordable settings snap := by
  unfold quotaOk at h
  split at h
  · cases h
  · rename_i hbulk
    refine ⟨?_, hbulk⟩
    rw [← quotaReserve_floor _ _ hmax]
    exact of_decide_eq_true h

/-- An enforcing guard that is not to fail open lets only what the snapshot
affords pass. -/
theorem quotaDecide_ok (settings : QuotaSettings) (snap : SalesforceQuotaSnapshot)
    (fromCache : Bool) (henforce : settings.enforce = true) (hclosed : settings.failOpen = false)
    (h : (quotaDecide settings snap fromCache).2 = .ok ()) :
    snap.available = true ∧ quotaOk settings snap = true := by
  unfold quotaDecide at h
  rw [henforce, hclosed] at h
  cases havailable : snap.available with
  | false =>
    rw [havailable] at h
    cases h
  | true =>
    refine ⟨rfl, ?_⟩
    rw [havailable] at h
    cases hok : quotaOk settings snap with
    | true => rfl
    | false =>
      rw [hok] at h
      cases h

/-- An entry is served for less than `ttl` seconds. -/
theorem cachedSnapshot_some (ttl now : ℤ) (found : Option CacheEntry)
    (snap : SalesforceQuotaSnapshot) (h : cachedSnapshot ttl now found = some snap) :
    ∃ entry, found = some entry ∧ entry.snap = snap ∧ now - entry.time < ttl * ticksPerSecond := by
  cases found with
  | none => cases h
  | some entry =>
    unfold cachedSnapshot at h
    simp only at h
    split at h
    · rename_i hserved
      refine ⟨entry, rfl, Option.some.inj h, ?_⟩
      obtain ⟨hpositive, hage⟩ := hserved
      unfold ticksPerSecond at hage ⊢
      by_cases hpast : 0 ≤ now - entry.time
      · rw [Int.tdiv_eq_ediv_of_nonneg hpast] at hage
        omega
      · omega
    · cases h

/-! ### Sequences of calls -/

/-- A request for the limits, sent at some time of a call. -/
structure LimitsFetch where
  exchange : Exchange
  sentAt : ℤ

/-- The cache, every request the guards have sent, and the time. -/
structure QuotaWorld where
  cache : QuotaCache
  fetches : List LimitsFetch
  clock : ℤ

def QuotaWorld.started (clock : ℤ) : QuotaWorld := ⟨fun _ => none, [], clock⟩

/-- A call of the guard for any session, and when its requests are sent. -/
structure QuotaCall (σ : Type) where
  options : QuotaVariables
  session : Session σ
  now : ℤ
  sentAt : ℕ → ℤ
  finish : ℤ

section
variable {σ : Type}

def QuotaCall.run (c : QuotaCall σ) (w : QuotaWorld) : QuotaGuardRun σ :=
  quotaGuardBulkStart c.options.settings c.now w.cache c.session

def QuotaCall.fetches (c : QuotaCall σ) (w : QuotaWorld) : List LimitsFetch :=
  (c.run w).exchanges.mapIdx fun i exchange => ⟨exchange, c.sentAt i⟩

/-- Time does not run back. -/
structure InOrder (w : QuotaWorld) (c : QuotaCall σ) : Prop where
  start : w.clock ≤ c.now
  sent : ∀ i, c.now ≤ c.sentAt i ∧ c.sentAt i ≤ c.finish

def quotaStep (w : QuotaWorld) (c : QuotaCall σ) : Option QuotaWorld :=
  some ⟨(c.run w).cache, w.fetches ++ c.fetches w, c.finish⟩

/-- The fetch was answered by the instance and the answer shows the snapshot. -/
structure LimitsFetch.Shows (f : LimitsFetch) (url : Text) (snap : SalesforceQuotaSnapshot) :
    Prop where
  instance_url : ∃ apiVersion,
    f.exchange.request.url = trimTrailingSlash url ++ limitsPath apiVersion
  answered : ∃ resp, f.exchange.answer = .ok resp ∧ resp.status = 200 ∧ snap = limitsSnapshot resp
  available : snap.available = true

/-- Every entry is what a fetch from its instance showed, and no older. -/
def CacheFetched (w : QuotaWorld) : Prop :=
  ∀ url entry, w.cache url = some entry →
    ∃ f ∈ w.fetches, f.Shows url entry.snap ∧ entry.time ≤ f.sentAt

/-- The cases of a call of an enabled guard. -/
theorem call_cases (c : QuotaCall σ) (w : QuotaWorld)
    (henabled : c.options.settings.enabled = true) :
    (∃ snap, cachedSnapshot c.options.settings.ttl c.now
        (w.cache c.session.token.instanceUrl) = some snap ∧
      c.run w = ⟨[], c.session, w.cache, (quotaDecide c.options.settings snap true).1,
        (quotaDecide c.options.settings snap true).2⟩) ∨
    c.run w = ⟨(queryLimits c.session).exchanges, (queryLimits c.session).session,
      storeSnapshot c.options.settings.ttl c.now (queryLimits c.session).session.token.instanceUrl
        (limitsOf (queryLimits c.session).result) w.cache,
      (quotaDecide c.options.settings (limitsOf (queryLimits c.session).result) false).1,
      (quotaDecide c.options.settings (limitsOf (queryLimits c.session).result) false).2⟩ := by
  have hon : ¬ c.options.settings.enabled = false := by simp [henabled]
  unfold QuotaCall.run quotaGuardBulkStart
  rw [if_neg hon]
  cases hcached : cachedSnapshot c.options.settings.ttl c.now
      (w.cache c.session.token.instanceUrl) with
  | some snap => exact Or.inl ⟨snap, rfl, rfl⟩
  | none => exact Or.inr rfl

/-- What a fetch of this call found is shown by the session's instance. -/
theorem call_shows (c : QuotaCall σ) (w : QuotaWorld) (hordered : InOrder w c)
    (hexchanges : (c.run w).exchanges = (queryLimits c.session).exchanges)
    (havailable : (limitsOf (queryLimits c.session).result).available = true) :
    ∃ f ∈ c.fetches w, f.Shows (queryLimits c.session).session.token.instanceUrl
      (limitsOf (queryLimits c.session).result) ∧ c.now ≤ f.sentAt := by
  obtain ⟨resp, hresult, hstatus, hsnap⟩ := limitsOf_available _ havailable
  have hmem := authorizedSend_ok false (limitsPath c.session.apiVersion) [] c.session resp hresult
  obtain ⟨i, hi, hat⟩ := List.getElem_of_mem hmem
  have hlen : i < (c.fetches w).length := by
    rw [QuotaCall.fetches, List.length_mapIdx, hexchanges]
    exact hi
  have hfetch : (c.fetches w)[i] = ⟨⟨authorizedRequest (queryLimits c.session).session.token false
      (limitsPath c.session.apiVersion) [], .ok resp⟩, c.sentAt i⟩ := by
    simp only [QuotaCall.fetches, List.getElem_mapIdx, hexchanges]
    exact congrArg (LimitsFetch.mk · _) hat
  refine ⟨_, List.getElem_mem hlen, ?_, ?_⟩
  · rw [hfetch]
    exact ⟨⟨c.session.apiVersion, rfl⟩, ⟨resp, rfl, hstatus, hsnap⟩, havailable⟩
  · rw [hfetch]
    exact (hordered.sent i).1

theorem quotaStep_keeps (w w' : QuotaWorld) (c : QuotaCall σ) (hinv : CacheFetched w)
    (hordered : InOrder w c) (hstep : quotaStep w c = some w') : CacheFetched w' := by
  have hw' := (Option.some.inj hstep).symm
  subst hw'
  -- what was fetched before stays fetched
  have hbefore : ∀ url entry, w.cache url = some entry →
      ∃ f ∈ w.fetches ++ c.fetches w, f.Shows url entry.snap ∧ entry.time ≤ f.sentAt := by
    intro url entry hentry
    obtain ⟨f, hf, hshows, htime⟩ := hinv url entry hentry
    exact ⟨f, List.mem_append_left _ hf, hshows, htime⟩
  intro url entry hentry
  simp only at hentry ⊢
  cases henabled : c.options.settings.enabled with
  | false =>
    have hsame : (c.run w).cache = w.cache := by
      unfold QuotaCall.run quotaGuardBulkStart
      rw [if_pos henabled]
    rw [hsame] at hentry
    exact hbefore url entry hentry
  | true =>
    rcases call_cases c w henabled with ⟨snap, -, hrun⟩ | hrun
    · rw [hrun] at hentry
      exact hbefore url entry hentry
    · have hexchanges := congrArg QuotaGuardRun.exchanges hrun
      rw [hrun] at hentry
      unfold storeSnapshot at hentry
      simp only at hentry
      split at hentry
      · rename_i hstored
        by_cases hurl : url = (queryLimits c.session).session.token.instanceUrl
        · rw [hurl, Function.update_self] at hentry
          rw [← Option.some.inj hentry, hurl]
          obtain ⟨f, hf, hshows, htime⟩ := call_shows c w hordered hexchanges hstored.2
          exact ⟨f, List.mem_append_right _ hf, hshows, htime⟩
        · rw [Function.update_of_ne hurl] at hentry
          exact hbefore url entry hentry
      · exact hbefore url entry hentry

theorem reaches_cacheFetched (start : ℤ) (w : QuotaWorld)
    (h : Reaches (@quotaStep σ) InOrder (.started start) w) : CacheFetched w :=
  reaches_invariant CacheFetched (by
    intro url entry hentry
    cases hentry)
    (fun s s' c hinv hordered hstep => quotaStep_keeps s s' c hinv hordered hstep) w h

/-! ### What a call may rely on -/

/-- The cache serves only what the instance showed to an earlier fetch. -/
def ServesOwnFetches (w : QuotaWorld) (c : QuotaCall σ) : Prop :=
  ∀ snap, cachedSnapshot c.options.settings.ttl c.now
      (w.cache c.session.token.instanceUrl) = some snap →
    ∃ f ∈ w.fetches, f.Shows c.session.token.instanceUrl snap

/-- A snapshot of the session's instance affords the job, fetched by the call
or less than `ttl` seconds before it. -/
def PaidFor (w : QuotaWorld) (c : QuotaCall σ) : Prop :=
  ∃ f snap, f.Shows (c.run w).session.token.instanceUrl snap ∧
    (f ∈ c.fetches w ∨
      f ∈ w.fetches ∧ c.now - f.sentAt < c.options.settings.ttl * ticksPerSecond) ∧
    Affordable c.options.settings snap

theorem shows_max (f : LimitsFetch) (url : Text) (snap : SalesforceQuotaSnapshot)
    (h : f.Shows url snap) : 0 ≤ snap.apiMax := by
  obtain ⟨resp, -, -, rfl⟩ := h.answered
  exact limitsSnapshot_max resp h.available

theorem servesOwnFetches (w : QuotaWorld) (c : QuotaCall σ) (hinv : CacheFetched w) :
    ServesOwnFetches w c := by
  intro snap hcached
  obtain ⟨entry, hentry, rfl, -⟩ := cachedSnapshot_some _ _ _ snap hcached
  obtain ⟨f, hf, hshows, -⟩ := hinv _ entry hentry
  exact ⟨f, hf, hshows⟩

theorem paidFor (w : QuotaWorld) (c : QuotaCall σ) (hinv : CacheFetched w)
    (hordered : InOrder w c) (henabled : c.options.settings.enabled = true)
    (henforce : c.options.settings.enforce = true)
    (hclosed : c.options.settings.failOpen = false) (hok : (c.run w).result = .ok ()) :
    PaidFor w c := by
  unfold PaidFor
  rcases call_cases c w henabled with ⟨snap, hcached, hrun⟩ | hrun
  · rw [hrun] at hok ⊢
    obtain ⟨-, hafford⟩ := quotaDecide_ok _ snap true henforce hclosed hok
    obtain ⟨entry, hentry, rfl, hage⟩ := cachedSnapshot_some _ _ _ snap hcached
    obtain ⟨f, hf, hshows, htime⟩ := hinv _ entry hentry
    exact ⟨f, entry.snap, hshows, Or.inr ⟨hf, by omega⟩,
      quotaOk_affordable _ _ (shows_max f _ _ hshows) hafford⟩
  · have hexchanges := congrArg QuotaGuardRun.exchanges hrun
    rw [hrun] at hok ⊢
    obtain ⟨havailable, hafford⟩ := quotaDecide_ok _ _ false henforce hclosed hok
    obtain ⟨f, hf, hshows, -⟩ := call_shows c w hordered hexchanges havailable
    exact ⟨f, _, hshows, Or.inl hf, quotaOk_affordable _ _ (shows_max f _ _ hshows) hafford⟩

/-- After any calls in order, the next one is let through only for a job that
the limits of its own instance afford. -/
theorem quota_guard_sound (start : ℤ) (w : QuotaWorld)
    (h : Reaches (@quotaStep σ) InOrder (.started start) w) (c : QuotaCall σ)
    (hordered : InOrder w c) :
    ServesOwnFetches w c ∧
      (c.options.settings.enabled = true → c.options.settings.enforce = true →
        c.options.settings.failOpen = false → (c.run w).result = .ok () → PaidFor w c) := by
  have hinv := reaches_cacheFetched start w h
  exact ⟨servesOwnFetches w c hinv, paidFor w c hinv hordered⟩

end

/-! ### Two jobs within a minute -/

/-- An org with 50 of 100 requests left. -/
def halfUsedClient : HttpClient Unit where
  post _ w := (.error [], w)
  get _ w := (.ok ⟨200,
    "\x7b\"DailyApiRequests\":\x7b\"Max\":100,\"Remaining\":50\x7d\x7d".toList, []⟩, w)

def halfUsedSession : Session Unit :=
  ⟨"v60.0".toList, "https://login".toList, fun _ => .error [], halfUsedClient, ⟨[], "https://na1".toList⟩, ()⟩

def enforcedOptions : QuotaVariables := ⟨none, none, some false, some 20, some 10, none⟩

def firstStart : QuotaCall Unit := ⟨enforcedOptions, halfUsedSession, 0, fun _ => 5, 9⟩

def secondStart : QuotaCall Unit :=
  ⟨enforcedOptions, halfUsedSession, 59999999999, fun _ => 60000000000, 60000000000⟩

def afterFirstStart : QuotaWorld :=
  ⟨(firstStart.run (.started 0)).cache, firstStart.fetches (.started 0), 9⟩

theorem secondStart_paid : PaidFor afterFirstStart secondStart := by
  have hreach : Reaches quotaStep InOrder (.started 0) afterFirstStart :=
    .step _ _ firstStart .start
      ⟨le_refl 0, fun _ => ⟨(by decide : (0 : ℤ) ≤ 5), (by decide : (5 : ℤ) ≤ 9)⟩⟩ rfl
  have hordered : InOrder afterFirstStart secondStart :=
    ⟨by decide, fun _ =>
      ⟨(by decide : (59999999999 : ℤ) ≤ 60000000000), le_refl 60000000000⟩⟩
  exact (quota_guard_sound 0 afterFirstStart hreach secondStart hordered).2 rfl rfl rfl
    (by decide +kernel)

end DuckdbSalesforce
