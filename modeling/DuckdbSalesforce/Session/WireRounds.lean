import DuckdbSalesforce.Session.LiveClient
import DuckdbSalesforce.Session.SessionCalls

/-!
# Rounds on the wire (salesforce_http_client.cpp)

`BuildHttpClientForContext` reads the retry settings and `Send` tries a request
again after a wait. What any call of a session puts on the wire are rounds: at
most three for each request it sends, with bounded attempts and waits.
-/

namespace DuckdbSalesforce
open Interaction

/-! ### The settings -/

/-- `sf_retry_max`, `sf_retry_backoff_ms` and `sf_timeout_read_s`. -/
structure HttpSettings where
  retryMax : Option ℤ
  retryBackoffMs : Option ℤ
  timeoutReadS : Option ℤ

/-- `static_cast<int>` of an `int64_t`. -/
def toInt (v : ℤ) : ℤ := Int.bmod v (2 ^ 32)

def clampInt (lo hi v : ℤ) : ℤ := if v < lo then lo else if v > hi then hi else v

structure TimedHttpClient where
  retryMax : ℤ
  backoffMs : ℤ
  readTimeoutS : ℤ
  /-- `__APPLE__`. -/
  apple : Bool

def createLiveHttpClient (apple : Bool) (retryMax backoffMs readTimeoutS : ℤ) : TimedHttpClient :=
  ⟨retryMax, backoffMs, clampInt 1 3600 readTimeoutS, apple⟩

/-- Without a mock. -/
def buildHttpClientForContext (apple : Bool) (settings : HttpSettings) : TimedHttpClient :=
  createLiveHttpClient apple (clampInt 1 10 (toInt (settings.retryMax.getD 3)))
    (clampInt 0 60000 (toInt (settings.retryBackoffMs.getD 200)))
    (clampInt 1 3600 (toInt (settings.timeoutReadS.getD 60)))

theorem clampInt_bounds (lo hi v : ℤ) (h : lo ≤ hi) :
    lo ≤ clampInt lo hi v ∧ clampInt lo hi v ≤ hi := by
  unfold clampInt
  split
  · exact ⟨le_refl lo, h⟩
  · split
    · exact ⟨h, le_refl hi⟩
    · omega

/-- What a client built from settings may be. -/
structure TimedHttpClient.Bounded (c : TimedHttpClient) : Prop where
  retryMax : 1 ≤ c.retryMax ∧ c.retryMax ≤ 10
  backoffMs : 0 ≤ c.backoffMs ∧ c.backoffMs ≤ 60000
  readTimeoutS : 1 ≤ c.readTimeoutS ∧ c.readTimeoutS ≤ 3600

theorem buildHttpClient_bounded (apple : Bool) (settings : HttpSettings) :
    (buildHttpClientForContext apple settings).Bounded :=
  ⟨clampInt_bounds 1 10 _ (by decide), clampInt_bounds 0 60000 _ (by decide),
    clampInt_bounds 1 3600 _ (by decide)⟩

/-! ### Send -/

/-- A request with the time to wait for its answer, and a pause. -/
inductive WireEvent where
  | attempt (a : Attempt) (readTimeoutS : ℤ)
  | sleep (ms : ℤ)

/-- The server, and what has happened on the wire. -/
structure TimedWire (ν : Type) where
  server : ν
  log : List WireEvent

section
variable {ν : Type} (net : Network ν) (c : TimedHttpClient)

def tryOnce (req : WireRequest) (w : TimedWire ν) : WireAnswer × TimedWire ν :=
  let done := net req w.server
  (done.1, ⟨done.2.2, w.log ++ [.attempt ⟨req, done.1, done.2.1⟩ c.readTimeoutS]⟩)

/-- `Backoff`. -/
def backoff (attempt : ℤ) (w : TimedWire ν) : TimedWire ν :=
  { w with log := w.log ++ [.sleep (c.backoffMs * attempt)] }

/-- The loop of `Send` from this attempt on. -/
def attemptFrom (req : WireRequest) (attempt : ℤ) (w : TimedWire ν) :
    Except Text HttpResponse × TimedWire ν :=
  if attempt ≤ c.retryMax then
    let tried := tryOnce net c req w
    match tried.1 with
    | .response r =>
      if isTransientStatus r.status = true ∧ attempt < c.retryMax then
        attemptFrom req (attempt + 1) (backoff c attempt tried.2)
      else (.ok r, tried.2)
    | .certificate => (.error (certificateError c.apple), tried.2)
    | .lost error =>
      if attempt < c.retryMax then attemptFrom req (attempt + 1) (backoff c attempt tried.2)
      else (.error error, tried.2)
  else (.error "exhausted retries".toList, w)
termination_by (c.retryMax + 1 - attempt).toNat

def TimedHttpClient.send (post : Bool) (req : HttpRequest) (w : TimedWire ν) :
    Except Text HttpResponse × TimedWire ν :=
  match parseUrl req.url with
  | none => (.error "URL must be an absolute https:// endpoint".toList, w)
  | some target =>
    if target.https then attemptFrom net c (wireRequest post target req) 1 w
    else (.error "URL must be an absolute https:// endpoint".toList, w)

def TimedHttpClient.client : HttpClient (TimedWire ν) where
  post := c.send net true
  get := c.send net false

/-! ### Without the waits -/

def WireEvent.attempt? : WireEvent → Option Attempt
  | .attempt a _ => some a
  | .sleep _ => none

def TimedWire.untimed (w : TimedWire ν) : Wire ν := ⟨w.server, w.log.filterMap WireEvent.attempt?⟩

def TimedHttpClient.untimed : LiveHttpClient := ⟨c.retryMax.toNat, c.apple⟩

theorem tryOnce_untimed (req : WireRequest) (w : TimedWire ν) :
    ((tryOnce net c req w).1, (tryOnce net c req w).2.untimed) = sendOnce net req w.untimed := by
  simp only [tryOnce, sendOnce, TimedWire.untimed, List.filterMap_append]
  rfl

theorem backoff_untimed (attempt : ℤ) (w : TimedWire ν) : (backoff c attempt w).untimed = w.untimed := by
  simp only [backoff, TimedWire.untimed, List.filterMap_append]
  exact congrArg (Wire.mk w.server) (List.append_nil _)

theorem sendAttempts_try (req : WireRequest) (n : ℕ) (w : TimedWire ν) :
    sendAttempts net c.apple req (n + 1) w.untimed =
      match (tryOnce net c req w).1 with
      | .response r =>
        if isTransientStatus r.status = true ∧ n ≠ 0 then
          sendAttempts net c.apple req n (tryOnce net c req w).2.untimed
        else (.ok r, (tryOnce net c req w).2.untimed)
      | .certificate => (.error (certificateError c.apple), (tryOnce net c req w).2.untimed)
      | .lost error =>
        if n ≠ 0 then sendAttempts net c.apple req n (tryOnce net c req w).2.untimed
        else (.error error, (tryOnce net c req w).2.untimed) := by
  have hsent := tryOnce_untimed net c req w
  rw [sendAttempts]
  generalize sendOnce net req w.untimed = sent at hsent ⊢
  subst hsent
  rfl

/-- Without its waits the loop is that of `sendAttempts`. -/
theorem attemptFrom_untimed (req : WireRequest) (attempt : ℤ) (w : TimedWire ν) :
    ((attemptFrom net c req attempt w).1, (attemptFrom net c req attempt w).2.untimed) =
      sendAttempts net c.apple req (c.retryMax + 1 - attempt).toNat w.untimed := by
  have hcount : ∀ attempt ≤ c.retryMax, (c.retryMax + 1 - attempt).toNat =
      (c.retryMax + 1 - (attempt + 1)).toNat + 1 := fun attempt h => by omega
  fun_induction attemptFrom net c req attempt w with
  | case1 attempt w hle tried r hanswer hretry ih =>
    rw [ih, backoff_untimed, hcount attempt hle, sendAttempts_try]
    simp only [tried] at hanswer
    rw [hanswer]
    exact (if_pos ⟨hretry.1, by omega⟩).symm
  | case2 attempt w hle tried r hanswer hretry =>
    rw [hcount attempt hle, sendAttempts_try]
    simp only [tried] at hanswer
    rw [hanswer]
    exact (if_neg fun h => hretry ⟨h.1, by omega⟩).symm
  | case3 attempt w hle tried hanswer =>
    rw [hcount attempt hle, sendAttempts_try]
    simp only [tried] at hanswer
    rw [hanswer]
  | case4 attempt w hle tried error hanswer hmore ih =>
    rw [ih, backoff_untimed, hcount attempt hle, sendAttempts_try]
    simp only [tried] at hanswer
    rw [hanswer]
    exact (if_pos (by omega)).symm
  | case5 attempt w hle tried error hanswer hmore =>
    rw [hcount attempt hle, sendAttempts_try]
    simp only [tried] at hanswer
    rw [hanswer]
    exact (if_neg (by omega)).symm
  | case6 attempt w hmore =>
    have hzero : (c.retryMax + 1 - attempt).toNat = 0 := by omega
    rw [hzero]
    rfl

/-- The client with waits sends and answers as the one of `LiveHttpClient`. -/
theorem send_untimed (post : Bool) (req : HttpRequest) (w : TimedWire ν) :
    ((c.send net post req w).1, (c.send net post req w).2.untimed) =
      c.untimed.send net post req w.untimed := by
  have hcount : (c.retryMax + 1 - 1).toNat = c.untimed.retryMax := by
    rw [Int.add_sub_cancel]
    rfl
  unfold TimedHttpClient.send LiveHttpClient.send
  cases parseUrl req.url with
  | none => rfl
  | some target =>
    dsimp only
    split
    · rw [attemptFrom_untimed, hcount]
      rfl
    · rfl

/-! ### A round -/

/-- What one request puts on the wire from an attempt on, and its result. -/
inductive Round (req : WireRequest) : ℤ → List WireEvent → Except Text HttpResponse → Prop
  | answered (k : ℤ) (a : Attempt) (r : HttpResponse) (hk : k ≤ c.retryMax) (hreq : a.request = req)
      (hanswer : a.answer = .response r)
      (hend : isTransientStatus r.status = false ∨ k = c.retryMax) :
      Round req k [.attempt a c.readTimeoutS] (.ok r)
  | certificate (k : ℤ) (a : Attempt) (hk : k ≤ c.retryMax) (hreq : a.request = req)
      (hanswer : a.answer = .certificate) :
      Round req k [.attempt a c.readTimeoutS] (.error (certificateError c.apple))
  | lost (a : Attempt) (error : Text) (hreq : a.request = req) (hanswer : a.answer = .lost error) :
      Round req c.retryMax [.attempt a c.readTimeoutS] (.error error)
  | again (k : ℤ) (a : Attempt) (rest : List WireEvent) (result : Except Text HttpResponse)
      (hk : k < c.retryMax) (hreq : a.request = req) (hfailed : a.Unanswered)
      (hrest : Round req (k + 1) rest result) :
      Round req k (.attempt a c.readTimeoutS :: .sleep (c.backoffMs * k) :: rest) result

theorem attemptFrom_round (req : WireRequest) (attempt : ℤ) (w : TimedWire ν)
    (hle : attempt ≤ c.retryMax) :
    ∃ events, (attemptFrom net c req attempt w).2.log = w.log ++ events ∧
      Round c req attempt events (attemptFrom net c req attempt w).1 := by
  -- another round after an attempt that was not answered
  have hagain : ∀ (attempt : ℤ) (w : TimedWire ν), attempt < c.retryMax →
      (Attempt.Unanswered ⟨req, (net req w.server).1, (net req w.server).2.1⟩) →
      (∃ events, (attemptFrom net c req (attempt + 1)
          (backoff c attempt (tryOnce net c req w).2)).2.log =
            (backoff c attempt (tryOnce net c req w).2).log ++ events ∧
        Round c req (attempt + 1) events
          (attemptFrom net c req (attempt + 1) (backoff c attempt (tryOnce net c req w).2)).1) →
      ∃ events, (attemptFrom net c req (attempt + 1)
          (backoff c attempt (tryOnce net c req w).2)).2.log = w.log ++ events ∧
        Round c req attempt events
          (attemptFrom net c req (attempt + 1) (backoff c attempt (tryOnce net c req w).2)).1 := by
    intro attempt w hmore hfailed hrest
    obtain ⟨events, hlog, hround⟩ := hrest
    refine ⟨_ :: _ :: events, ?_, .again attempt _ events _ hmore rfl hfailed hround⟩
    rw [hlog]
    simp only [backoff, tryOnce, List.append_assoc, List.cons_append, List.nil_append]
  fun_induction attemptFrom net c req attempt w with
  | case1 attempt w _ tried r hanswer hretry ih =>
    exact hagain attempt w hretry.2 (Or.inr ⟨r, hanswer, Or.inl hretry.1⟩) (ih (by omega))
  | case2 attempt w _ tried r hanswer hretry =>
    refine ⟨_, rfl, .answered attempt _ r hle rfl hanswer ?_⟩
    by_cases htransient : isTransientStatus r.status = true
    · have hlast : ¬ attempt < c.retryMax := fun hlt => hretry ⟨htransient, hlt⟩
      exact Or.inr (by omega)
    · exact Or.inl (by simpa using htransient)
  | case3 attempt w _ tried hanswer => exact ⟨_, rfl, .certificate attempt _ hle rfl hanswer⟩
  | case4 attempt w _ tried error hanswer hmore ih =>
    exact hagain attempt w hmore (Or.inl ⟨error, hanswer⟩) (ih (by omega))
  | case5 attempt w _ tried error hanswer hmore =>
    have hlast : attempt = c.retryMax := by omega
    subst hlast
    exact ⟨_, rfl, .lost _ error rfl hanswer⟩
  | case6 attempt w hmore => exact absurd hle hmore

def attemptsOf (events : List WireEvent) : List Attempt := events.filterMap WireEvent.attempt?

def WireEvent.sleepMs : WireEvent → ℤ
  | .attempt _ _ => 0
  | .sleep ms => ms

def sleptMs (events : List WireEvent) : ℤ := (events.map WireEvent.sleepMs).sum

/-- With `m` attempts from number `k` on the waits add up to those of the
attempts but the last. -/
theorem Round.counts {c : TimedHttpClient} {req : WireRequest} {k : ℤ} {events : List WireEvent}
    {result : Except Text HttpResponse} (h : Round c req k events result) :
    1 ≤ (attemptsOf events).length ∧ k + (attemptsOf events).length ≤ c.retryMax + 1 ∧
      2 * sleptMs events = c.backoffMs * (((attemptsOf events).length - 1) *
        (2 * k + (attemptsOf events).length - 2)) ∧
      ∀ a ∈ attemptsOf events, a.request = req := by
  have hone : ∀ (k : ℤ) (a : Attempt), k ≤ c.retryMax → a.request = req →
      1 ≤ (attemptsOf [.attempt a c.readTimeoutS]).length ∧
        k + (attemptsOf [.attempt a c.readTimeoutS]).length ≤ c.retryMax + 1 ∧
        2 * sleptMs [.attempt a c.readTimeoutS] =
          c.backoffMs * (((attemptsOf [.attempt a c.readTimeoutS]).length - 1) *
            (2 * k + (attemptsOf [.attempt a c.readTimeoutS]).length - 2)) ∧
        ∀ b ∈ attemptsOf [.attempt a c.readTimeoutS], b.request = req := by
    intro k a hk hreq
    have hlength : (attemptsOf [.attempt a c.readTimeoutS]).length = 1 := rfl
    have hslept : sleptMs [.attempt a c.readTimeoutS] = 0 := rfl
    rw [hlength, hslept]
    refine ⟨le_refl 1, by push_cast; omega, by push_cast; ring, ?_⟩
    intro b hb
    rw [List.mem_singleton.mp hb]
    exact hreq
  induction h with
  | answered k a r hk hreq hanswer hend => exact hone k a hk hreq
  | certificate k a hk hreq hanswer => exact hone k a hk hreq
  | lost a error hreq hanswer => exact hone c.retryMax a (le_refl _) hreq
  | again k a rest result hk hreq hfailed hrest ih =>
    obtain ⟨hmore, hlast, hslept, hsame⟩ := ih
    have hlength : (attemptsOf (.attempt a c.readTimeoutS :: .sleep (c.backoffMs * k) :: rest)).length =
        (attemptsOf rest).length + 1 := rfl
    have hsum : sleptMs (.attempt a c.readTimeoutS :: .sleep (c.backoffMs * k) :: rest) =
        0 + (c.backoffMs * k + sleptMs rest) := rfl
    rw [hlength, hsum]
    refine ⟨Nat.le_add_left 1 _, by push_cast; omega, by push_cast; linear_combination hslept, ?_⟩
    intro b hb
    rcases List.mem_cons.mp hb with rfl | hb
    · exact hreq
    · exact hsame b hb

/-! ### The rounds of a session -/

/-- A round of a request over TLS, from its first attempt on. -/
def IsRound (events : List WireEvent) : Prop :=
  ∃ req result, req.target.https = true ∧ Round c req 1 events result

/-- At most `n` rounds are added to the log. -/
def AddsRounds (n : ℕ) (w w' : TimedWire ν) : Prop :=
  ∃ rounds : List (List WireEvent), w'.log = w.log ++ rounds.flatten ∧ rounds.length ≤ n ∧
    ∀ events ∈ rounds, IsRound c events

theorem addsRounds_none (n : ℕ) (w : TimedWire ν) : AddsRounds c n w w :=
  ⟨[], (List.append_nil _).symm, Nat.zero_le n, List.forall_mem_nil _⟩

theorem AddsRounds.trans {c : TimedHttpClient} {m n : ℕ} {u v w : TimedWire ν}
    (huv : AddsRounds c m u v) (hvw : AddsRounds c n v w) : AddsRounds c (m + n) u w := by
  obtain ⟨before, hbefore, hm, hallBefore⟩ := huv
  obtain ⟨after, hafter, hn, hallAfter⟩ := hvw
  refine ⟨before ++ after, ?_, ?_, ?_⟩
  · rw [hafter, hbefore, List.flatten_append, List.append_assoc]
  · rw [List.length_append]
    omega
  · exact List.forall_mem_append.mpr ⟨hallBefore, hallAfter⟩

theorem send_adds_round (hc : 1 ≤ c.retryMax) (post : Bool) (req : HttpRequest) (w : TimedWire ν) :
    AddsRounds c 1 w (c.send net post req w).2 := by
  unfold TimedHttpClient.send
  cases parseUrl req.url with
  | none => exact addsRounds_none c 1 w
  | some target =>
    dsimp only
    split
    · rename_i hhttps
      obtain ⟨events, hlog, hround⟩ := attemptFrom_round net c (wireRequest post target req) 1 w hc
      refine ⟨[events], ?_, le_refl 1, ?_⟩
      · rw [hlog, List.flatten_singleton]
      · intro e he
        rw [List.mem_singleton.mp he]
        exact ⟨_, _, hhttps, hround⟩
    · exact addsRounds_none c 1 w

/-- What a request of a session may do: the client stays, and the log grows by
rounds. -/
def UsesRounds (n : ℕ) (s s' : Session (TimedWire ν)) : Prop :=
  s.client = c.client net → s'.client = c.client net ∧ AddsRounds c n s.world s'.world

theorem doReq_rounds (hc : 1 ≤ c.retryMax) (post : Bool) (path body : Text)
    (s : Session (TimedWire ν)) : UsesRounds net c 1 s (doReq post path body s).session := by
  intro hclient
  refine ⟨hclient, ?_⟩
  unfold doReq
  rw [hclient]
  cases post
  · exact send_adds_round net c hc false _ s.world
  · exact send_adds_round net c hc true _ s.world

theorem acquireToken_rounds (hc : 1 ≤ c.retryMax) (s : Session (TimedWire ν))
    (hclient : s.client = c.client net) : AddsRounds c 1 s.world (acquireToken s).2 := by
  unfold acquireToken
  cases s.tokenBody s.world with
  | error e => exact addsRounds_none c 1 s.world
  | ok form =>
    dsimp only
    rw [hclient]
    exact send_adds_round net c hc true _ s.world

theorem authorizedSend_rounds (hc : 1 ≤ c.retryMax) (post : Bool) (path body : Text)
    (s : Session (TimedWire ν)) : UsesRounds net c 3 s (authorizedSend post path body s).session := by
  intro hclient
  obtain ⟨hfirst, hadds⟩ := doReq_rounds net c hc post path body s hclient
  have hshort : AddsRounds c 3 s.world (doReq post path body s).session.world :=
    hadds.trans (addsRounds_none c 2 _)
  unfold authorizedSend
  dsimp only
  cases (doReq post path body s).result with
  | error e => exact ⟨hfirst, hshort⟩
  | ok resp =>
    dsimp only
    by_cases hexpired : resp.status = 401
    · rw [if_pos hexpired]
      have hlogin := acquireToken_rounds net c hc (doReq post path body s).session hfirst
      generalize acquireToken (doReq post path body s).session = acquired at hlogin ⊢
      obtain ⟨outcome, world⟩ := acquired
      have htwo := hadds.trans hlogin
      cases outcome with
      | error e => exact ⟨hfirst, htwo.trans (addsRounds_none c 1 _)⟩
      | ok token =>
        dsimp only
        obtain ⟨hlast, hthird⟩ := doReq_rounds net c hc post path body
          { (doReq post path body s).session with token := token, world := world } hfirst
        exact ⟨hlast, htwo.trans hthird⟩
    · rw [if_neg hexpired]
      exact ⟨hfirst, hshort⟩

theorem runCall_rounds (hc : 1 ≤ c.retryMax) {α : Type} (call : SessionCall α)
    (s : Session (TimedWire ν)) :
    UsesRounds net c (3 * call.asks serveSession s) s (runCall call s).2 := by
  refine run_counted serveSession (UsesRounds net c) ?_ ?_ 3 ?_ call s
  · exact fun s hclient => ⟨hclient, addsRounds_none c 0 s.world⟩
  · intro m n s t u hst htu hclient
    obtain ⟨ht, hfirst⟩ := hst hclient
    obtain ⟨hu, hrest⟩ := htu ht
    exact ⟨hu, hfirst.trans hrest⟩
  · exact fun r s => authorizedSend_rounds net c hc r.post r.path (bytesText r.body) s

/-! ### Bounds -/

theorem wait_bound (b m : ℤ) (hb : 0 ≤ b ∧ b ≤ 60000) (hm : 1 ≤ m ∧ m ≤ 10) :
    0 ≤ b * ((m - 1) * m) ∧ b * ((m - 1) * m) ≤ 60000 * 90 := by
  have hlow : 0 ≤ (m - 1) * m := mul_nonneg (by omega) (by omega)
  have hhigh : (m - 1) * m ≤ 9 * 10 := mul_le_mul (by omega) hm.2 (by omega) (by decide)
  exact ⟨mul_nonneg hb.1 hlow, mul_le_mul hb.2 hhigh hlow (by decide)⟩

/-- At most 10 attempts and 45 minutes of waiting. -/
structure RoundBounds (events : List WireEvent) : Prop where
  attempts : 1 ≤ (attemptsOf events).length ∧ (attemptsOf events).length ≤ 10
  slept : 0 ≤ sleptMs events ∧ sleptMs events ≤ 2700000
  tls : ∀ a ∈ attemptsOf events, a.request.target.https = true

theorem IsRound.bounds {c : TimedHttpClient} (hc : c.Bounded) {events : List WireEvent}
    (h : IsRound c events) : RoundBounds events := by
  obtain ⟨req, result, hhttps, hround⟩ := h
  obtain ⟨hone, hlast, hslept, hsame⟩ := hround.counts
  have hlen : (attemptsOf events).length ≤ 10 := by
    have hmax := hc.retryMax.2
    omega
  have hwait := wait_bound c.backoffMs (attemptsOf events).length hc.backoffMs
    ⟨by exact_mod_cast hone, by exact_mod_cast hlen⟩
  have hsum : 2 * sleptMs events =
      c.backoffMs * (((attemptsOf events).length - 1) * (attemptsOf events).length) := by
    rw [hslept]
    ring
  refine ⟨⟨hone, hlen⟩, ⟨by omega, by omega⟩, ?_⟩
  intro a ha
  rw [hsame a ha]
  exact hhttps

theorem rounds_bounds (rounds : List (List WireEvent)) (h : ∀ events ∈ rounds, RoundBounds events) :
    (attemptsOf rounds.flatten).length ≤ 10 * rounds.length ∧
      sleptMs rounds.flatten ≤ 2700000 * rounds.length := by
  induction rounds with
  | nil => exact ⟨le_refl 0, le_refl 0⟩
  | cons events rounds ih =>
    obtain ⟨hbounds, hrest⟩ := List.forall_mem_cons.mp h
    obtain ⟨hattempts, hslept⟩ := ih hrest
    have hsplit : attemptsOf (events ++ rounds.flatten) =
        attemptsOf events ++ attemptsOf rounds.flatten := List.filterMap_append
    have hsum : sleptMs (events ++ rounds.flatten) = sleptMs events + sleptMs rounds.flatten := by
      rw [sleptMs, List.map_append, List.sum_append]
      rfl
    have hten := hbounds.attempts.2
    have hwait := hbounds.slept.2
    rw [List.flatten_cons, hsplit, hsum, List.length_append, List.length_cons]
    push_cast
    exact ⟨by omega, by omega⟩

end

/-! ### How often a call asks -/

section
variable {σ : Type}

theorem asks_fetchPage (path : Text) (s : Session σ) :
    (SessionCall.fetchPage path).asks serveSession s = 1 := rfl

theorem asks_queryFrom (left : ℕ) (path : Text) (seen : List Text) (result : SalesforceQueryResult)
    (hleft : result.pageCount + left + 1 = kMaxPages) (s : Session σ) :
    (SessionCall.queryFrom path seen result).asks serveSession s ≤ left + 1 := by
  induction left generalizing path seen result s with
  | zero =>
    rw [SessionCall.queryFrom, asks_bind, asks_fetchPage]
    cases ((SessionCall.fetchPage path).run serveSession s).1 with
    | error e => exact le_refl 1
    | ok pg =>
      have hlimit : kMaxPages ≤ result.pageCount + 1 := by omega
      dsimp only
      split
      · exact le_refl 1
      · exact le_refl 1
  | succ left ih =>
    rw [SessionCall.queryFrom, asks_bind, asks_fetchPage]
    cases ((SessionCall.fetchPage path).run serveSession s).1 with
    | error e => exact Nat.le_add_left 1 _
    | ok pg =>
      have hlimit : ¬ kMaxPages ≤ result.pageCount + 1 := by omega
      dsimp only
      split
      · exact Nat.le_add_left 1 _
      · split
        · exact Nat.le_add_left 1 _
        · have hrest := ih pg.nextPath (pg.nextPath :: seen)
            ⟨result.records ++ pg.records, result.pageCount + 1⟩ (by dsimp only; omega)
            ((SessionCall.fetchPage path).run serveSession s).2
          omega

theorem asks_pollJob (apiVersion : Text) (budget : ℤ) (jobId : Text) (left i : ℕ)
    (hleft : i + left = maxPolls budget) (s : Session σ) :
    (SessionCall.pollJob apiVersion budget jobId i).asks serveSession s ≤ left + 1 := by
  induction left generalizing i s with
  | zero =>
    rw [SessionCall.pollJob, Program.asks]
    have hlimit : maxPolls budget ≤ i := by omega
    cases jobAnswer (serveSession (pollRequest apiVersion jobId) s).1 with
    | complete => exact le_refl 1
    | failed message => exact le_refl 1
    | pending =>
      dsimp only
      rw [if_pos hlimit]
      exact le_refl 1
  | succ left ih =>
    rw [SessionCall.pollJob, Program.asks]
    have hlimit : ¬ maxPolls budget ≤ i := by omega
    cases jobAnswer (serveSession (pollRequest apiVersion jobId) s).1 with
    | complete => exact Nat.le_add_left 1 _
    | failed message => exact Nat.le_add_left 1 _
    | pending =>
      dsimp only
      rw [if_neg hlimit]
      exact Nat.succ_le_succ (ih (i + 1) (by omega) _)

theorem asks_query (apiVersion : Text) (queryAll : Bool) (soql : Text) (s : Session σ) :
    (SessionCall.query apiVersion queryAll soql).asks serveSession s ≤ kMaxPages :=
  asks_queryFrom (kMaxPages - 1) _ [] ⟨[], 0⟩ rfl s

/-- Creating a job and asking for its state. -/
theorem asks_bulkStartJob (apiVersion : Text) (queryAll : Bool) (budget : ℤ) (soql : Bytes)
    (s : Session σ) :
    (SessionCall.bulkStartJob apiVersion queryAll budget soql).asks serveSession s ≤
      maxPolls budget + 2 := by
  rw [SessionCall.bulkStartJob, Program.asks]
  cases SessionCall.createdJob (serveSession (createRequest apiVersion queryAll soql) s).1 with
  | error e => exact Nat.le_add_left 1 _
  | ok jobId => exact Nat.succ_le_succ (asks_pollJob apiVersion budget jobId _ 0 (Nat.zero_add _) _)

end

/-! ### Any call over a live client -/

section
variable {ν : Type}

/-- The log grows by whole rounds, at most three for each of `asks` requests,
each of at most 10 attempts and 45 minutes of waiting, all over TLS. -/
def BoundedRounds (c : TimedHttpClient) (asks : ℕ) (w w' : TimedWire ν) : Prop :=
  ∃ rounds : List (List WireEvent), w'.log = w.log ++ rounds.flatten ∧
    (∀ events ∈ rounds, IsRound c events ∧ RoundBounds events) ∧ rounds.length ≤ 3 * asks ∧
    (attemptsOf rounds.flatten).length ≤ 30 * asks ∧
    sleptMs rounds.flatten ≤ 8100000 * asks

theorem BoundedRounds.mono {c : TimedHttpClient} {m n : ℕ} {w w' : TimedWire ν}
    (h : BoundedRounds c m w w') (hmn : m ≤ n) : BoundedRounds c n w w' := by
  obtain ⟨rounds, hlog, hall, hcount, hattempts, hslept⟩ := h
  exact ⟨rounds, hlog, hall, by omega, by omega, by omega⟩

theorem runCall_bounded {α : Type} (c : TimedHttpClient) (hc : c.Bounded) (net : Network ν)
    (call : SessionCall α) (s : Session (TimedWire ν)) (hclient : s.client = c.client net) :
    BoundedRounds c (call.asks serveSession s) s.world (runCall call s).2.world := by
  obtain ⟨_, rounds, hlog, hcount, hall⟩ := runCall_rounds net c hc.retryMax.1 call s hclient
  have hbounds : ∀ events ∈ rounds, RoundBounds events := fun events he => (hall events he).bounds hc
  obtain ⟨hattempts, hslept⟩ := rounds_bounds rounds hbounds
  refine ⟨rounds, hlog, fun events he => ⟨hall events he, hbounds events he⟩, hcount, by omega, ?_⟩
  have hcast : (rounds.length : ℤ) ≤ 3 * call.asks serveSession s := by exact_mod_cast hcount
  omega

/-- Whatever the settings, the network and the call. A query asks for a million
pages at most, and starting a job for its state as often as the budget allows. -/
theorem live_session_bounded (apple : Bool) (settings : HttpSettings) (net : Network ν)
    (s : Session (TimedWire ν))
    (hclient : s.client = (buildHttpClientForContext apple settings).client net) :
    (∀ (α : Type) (call : SessionCall α),
      BoundedRounds (buildHttpClientForContext apple settings) (call.asks serveSession s) s.world
        (runCall call s).2.world) ∧
    (∀ apiVersion queryAll soql,
      BoundedRounds (buildHttpClientForContext apple settings) kMaxPages s.world
        (runCall (SessionCall.query apiVersion queryAll soql) s).2.world) ∧
    ∀ apiVersion queryAll budget soql,
      BoundedRounds (buildHttpClientForContext apple settings) (maxPolls budget + 2) s.world
        (runCall (SessionCall.bulkStartJob apiVersion queryAll budget soql) s).2.world := by
  have hany : ∀ (α : Type) (call : SessionCall α), BoundedRounds
      (buildHttpClientForContext apple settings) (call.asks serveSession s) s.world
        (runCall call s).2.world := fun α call =>
    runCall_bounded _ (buildHttpClient_bounded apple settings) net call s hclient
  exact ⟨hany, fun apiVersion queryAll soql =>
    (hany _ _).mono (asks_query apiVersion queryAll soql s),
    fun apiVersion queryAll budget soql =>
      (hany _ _).mono (asks_bulkStartJob apiVersion queryAll budget soql s)⟩

end

/-! ### A server that is busy at first -/

/-- Two answers of 503, then the body. -/
def busyTwice : Network ℕ := fun _ n =>
  (.response ⟨if n < 2 then 503 else 200, "{}".toList, []⟩, false, n + 1)

def busySession : Session (TimedWire ℕ) where
  apiVersion := "v60.0".toList
  loginUrl := "https://login".toList
  tokenBody := fun _ => .ok []
  client := (buildHttpClientForContext false ⟨none, none, none⟩).client busyTwice
  token := ⟨"t".toList, "https://org".toList⟩
  world := ⟨0, []⟩

theorem busy_bounded : BoundedRounds (buildHttpClientForContext false ⟨none, none, none⟩) 1 ⟨0, []⟩
    (runCall (authorizedGet "/limits".toList) busySession).2.world :=
  (live_session_bounded false ⟨none, none, none⟩ busyTwice busySession rfl).1 _
    (authorizedGet "/limits".toList)

end DuckdbSalesforce
