import Mathlib
import DuckdbSalesforce.Bulk.JobPoll
import DuckdbSalesforce.Session.LiveClient

/-!
# The jobs that one start creates

`BulkStartJob` over the session and the live client: the request that creates
the job is sent again after a lost response, a 429, a 5xx and a refreshed
token, whatever the server has made of it.
-/

namespace DuckdbSalesforce

/-! ### The requests of a call -/

section
variable {σ : Type} (queryAll : Bool) (soql : Bytes)

def bytesText (b : Bytes) : Text := b.map fun c => Char.ofNat c.toNat

def Session.answer (s : Session σ) (r : Request) : SessionRun σ HttpResponse :=
  authorizedSend r.post r.path (bytesText r.body) s

def createdId (s : Session σ) : Text :=
  match (s.answer (createRequest s.apiVersion queryAll soql)).result with
  | .error _ => []
  | .ok cr => getString cr.body "id".toList

/-- The request that creates the job, then its polls. -/
def requestAt (s : Session σ) : ℕ → Request
  | 0 => createRequest s.apiVersion queryAll soql
  | _ + 1 => pollRequest s.apiVersion (createdId queryAll soql s)

/-- The session before the n-th request. -/
def sessionAt (s : Session σ) : ℕ → Session σ
  | 0 => s
  | n + 1 => ((sessionAt s n).answer (requestAt queryAll soql s n)).session

def sessionService (s : Session σ) : Service :=
  fun n r => ((sessionAt queryAll soql s n).answer r).result

def startJob (budget : ℤ) (s : Session σ) : JobRun :=
  bulkStartJob s.apiVersion queryAll budget soql (sessionService queryAll soql s)

/-- The session when the call is over. -/
def sessionAfter (budget : ℤ) (s : Session σ) : Session σ :=
  sessionAt queryAll soql s (startJob queryAll soql budget s).requests.length

/-! ### A call that starts a job -/

theorem startJob_created (budget : ℤ) (s : Session σ) (path : Text)
    (h : (startJob queryAll soql budget s).result = .ok path) :
    ∃ cr, (s.answer (createRequest s.apiVersion queryAll soql)).result = .ok cr ∧
      200 ≤ cr.status ∧ cr.status < 300 ∧ getString cr.body "id".toList ≠ [] := by
  unfold startJob bulkStartJob createJob at h
  have hsend : sessionService queryAll soql s 0 (createRequest s.apiVersion queryAll soql) =
      (s.answer (createRequest s.apiVersion queryAll soql)).result := rfl
  rw [hsend] at h
  cases hcr : (s.answer (createRequest s.apiVersion queryAll soql)).result with
  | error e =>
    rw [hcr] at h
    cases h
  | ok cr =>
    rw [hcr] at h
    dsimp only at h
    by_cases hstatus : cr.status < 200 ∨ 300 ≤ cr.status
    · rw [if_pos hstatus] at h
      cases h
    · rw [if_neg hstatus] at h
      by_cases hid : getString cr.body "id".toList = []
      · rw [if_pos hid] at h
        cases h
      · obtain ⟨hlow, hhigh⟩ := not_or.mp hstatus
        exact ⟨cr, rfl, Int.not_lt.mp hlow, Int.not_le.mp hhigh, hid⟩

end

/-! ### What a call puts on the wire -/

section
variable {ν : Type} (net : Network ν) (c : LiveHttpClient)

def jobsSuffix : Text := '/' :: "jobs/query".toList

def tokenSuffix : Text := "/services/oauth2/token".toList

/-- A query job is created by a POST to the jobs path only, and a 2xx answer to
one that names an id has created it. -/
structure ServerRules : Prop where
  only_create : ∀ req server, (net req server).2.1 = true →
    req.post = true ∧ jobsSuffix <:+ req.target.path
  answered : ∀ req server r, req.post = true → jobsSuffix <:+ req.target.path →
    (net req server).1 = .response r → 200 ≤ r.status → r.status < 300 →
    getString r.body "id".toList ≠ [] → (net req server).2.1 = true

def IsTokenAttempt (a : Attempt) : Prop :=
  ∃ login, parseUrl (login ++ tokenSuffix) = some a.request.target

/-- An attempt at the call's own path. -/
def IsOwnAttempt (post : Bool) (path : Text) (a : Attempt) : Prop :=
  a.request.post = post ∧ a.request.target.https = true ∧
    ∃ base, parseUrl (base ++ path) = some a.request.target

structure CallAttempts (post : Bool) (path : Text) (run : SessionRun (Wire ν) HttpResponse)
    (before added : List Attempt) : Prop where
  recorded : run.session.world.attempts = before ++ added
  each : ∀ a ∈ added, a.SeenBy net ∧ (IsTokenAttempt a ∨ IsOwnAttempt post path a)
  last : ∀ r, run.result = .ok r → ∃ earlier final, added = earlier ++ [final] ∧
    (∀ a ∈ earlier, a.Unanswered ∨ IsTokenAttempt a) ∧ final.answer = .response r ∧
    IsOwnAttempt post path final

theorem doReq_adds (post : Bool) (path body : Text) (s : Session (Wire ν))
    (hclient : s.client = c.client net) :
    ∃ added, (doReq post path body s).session.world.attempts = s.world.attempts ++ added ∧
      (∀ a ∈ added, a.SeenBy net ∧ IsOwnAttempt post path a) ∧
      ∀ r, (doReq post path body s).result = .ok r → EndsAnswered added r := by
  have hsend : (if post then s.client.post (authorizedRequest s.token post path body) s.world
      else s.client.get (authorizedRequest s.token post path body) s.world) =
      c.send net post (authorizedRequest s.token post path body) s.world := by
    rw [hclient]
    cases post <;> rfl
  obtain ⟨added, hadded, heach, hend⟩ :=
    send_adds net c post (authorizedRequest s.token post path body) s.world
  unfold doReq
  dsimp only
  rw [hsend]
  refine ⟨added, hadded, ?_, hend⟩
  intro a ha
  obtain ⟨hseen, hpost, htarget, hhttps⟩ := heach a ha
  exact ⟨hseen, hpost, hhttps, trimTrailingSlash s.token.instanceUrl, htarget⟩

theorem acquireToken_adds (s : Session (Wire ν)) (hclient : s.client = c.client net) :
    ∃ added, (acquireToken s).2.attempts = s.world.attempts ++ added ∧
      ∀ a ∈ added, a.SeenBy net ∧ IsTokenAttempt a := by
  unfold acquireToken
  cases s.tokenBody s.world with
  | error e => exact ⟨[], by simp, by simp⟩
  | ok body =>
    have hsend : s.client.post (tokenRequest s.loginUrl body) s.world =
        c.send net true (tokenRequest s.loginUrl body) s.world := by
      rw [hclient]
      rfl
    obtain ⟨added, hadded, heach, -⟩ := send_adds net c true (tokenRequest s.loginUrl body) s.world
    dsimp only
    rw [hsend]
    refine ⟨added, hadded, ?_⟩
    intro a ha
    obtain ⟨hseen, -, htarget, -⟩ := heach a ha
    exact ⟨hseen, trimTrailingSlash s.loginUrl, htarget⟩

theorem authorizedSend_keeps {σ : Type} (post : Bool) (path body : Text) (s : Session σ) :
    (authorizedSend post path body s).session.client = s.client ∧
      (authorizedSend post path body s).session.apiVersion = s.apiVersion := by
  unfold authorizedSend
  dsimp only
  split
  · exact ⟨rfl, rfl⟩
  · split
    · split
      · exact ⟨rfl, rfl⟩
      · exact ⟨rfl, rfl⟩
    · exact ⟨rfl, rfl⟩

theorem authorizedSend_adds (post : Bool) (path body : Text) (s : Session (Wire ν))
    (hclient : s.client = c.client net) :
    ∃ added, CallAttempts net post path (authorizedSend post path body s) s.world.attempts
      added := by
  obtain ⟨first, hfirst, heach, hend⟩ := doReq_adds net c post path body s hclient
  unfold authorizedSend
  dsimp only
  cases hresult : (doReq post path body s).result with
  | error e =>
    exact ⟨first, hfirst, fun a ha => ⟨(heach a ha).1, Or.inr (heach a ha).2⟩,
      fun r h => by cases h⟩
  | ok resp =>
    obtain ⟨failed, last, rfl, hfailed, hlast⟩ := hend resp hresult
    dsimp only
    by_cases hexpired : resp.status = 401
    · rw [if_pos hexpired]
      -- the refused attempt is asked again with a new token
      have hrefused : last.Unanswered := Or.inr ⟨resp, hlast, Or.inr hexpired⟩
      have hclient' : (doReq post path body s).session.client = c.client net := hclient
      obtain ⟨token, htoken, hisToken⟩ := acquireToken_adds net c _ hclient'
      cases hacquired : acquireToken (doReq post path body s).session with
      | mk outcome world =>
        rw [hacquired] at htoken
        dsimp only at htoken
        cases outcome with
        | error e =>
          refine ⟨failed ++ [last] ++ token, ?_, ?_, fun r h => by cases h⟩
          · dsimp only
            rw [htoken, hfirst]
            simp only [List.append_assoc]
          · intro a ha
            rcases List.mem_append.mp ha with ha | ha
            · exact ⟨(heach a ha).1, Or.inr (heach a ha).2⟩
            · exact ⟨(hisToken a ha).1, Or.inl (hisToken a ha).2⟩
        | ok newToken =>
          dsimp only
          obtain ⟨second, hsecond, heach', hend'⟩ := doReq_adds net c post path body
            { (doReq post path body s).session with token := newToken, world := world } hclient'
          refine ⟨failed ++ [last] ++ token ++ second, ?_, ?_, ?_⟩
          · rw [hsecond]
            dsimp only
            rw [htoken, hfirst]
            simp only [List.append_assoc]
          · intro a ha
            rcases List.mem_append.mp ha with ha | ha
            · rcases List.mem_append.mp ha with ha | ha
              · exact ⟨(heach a ha).1, Or.inr (heach a ha).2⟩
              · exact ⟨(hisToken a ha).1, Or.inl (hisToken a ha).2⟩
            · exact ⟨(heach' a ha).1, Or.inr (heach' a ha).2⟩
          · intro r hr
            obtain ⟨failed', last', rfl, hfailed', hlast'⟩ :=
              hend' r (secondResult_ok path _ r hr)
            refine ⟨failed ++ [last] ++ token ++ failed', last', by simp, ?_, hlast',
              (heach' last' (by simp)).2⟩
            intro a ha
            simp only [List.mem_append, List.mem_singleton] at ha
            rcases ha with ((ha | rfl) | ha) | ha
            · exact Or.inl (hfailed a ha)
            · exact Or.inl hrefused
            · exact Or.inr (hisToken a ha).2
            · exact Or.inl (hfailed' a ha)
    · rw [if_neg hexpired]
      refine ⟨failed ++ [last], hfirst, fun a ha => ⟨(heach a ha).1, Or.inr (heach a ha).2⟩, ?_⟩
      intro r hr
      rw [checkRequestLimit_ok resp r hr]
      exact ⟨failed, last, rfl, fun a ha => Or.inl (hfailed a ha), hlast,
        (heach last (by simp)).2⟩

/-! ### What the server makes of it -/

theorem token_not_created (rules : ServerRules net) (a : Attempt) (hseen : a.SeenBy net)
    (h : IsTokenAttempt a) : a.created = false := by
  obtain ⟨server, -, hcreated⟩ := hseen
  by_contra hmade
  rw [Bool.not_eq_false, hcreated] at hmade
  obtain ⟨-, hsuffix⟩ := rules.only_create a.request server hmade
  obtain ⟨login, hparse⟩ := h
  rcases parseUrl_path _ _ hparse with hpath | hpath
  · rw [hpath] at hsuffix
    exact absurd hsuffix (by decide)
  · have hjobs : jobsSuffix <:+ tokenSuffix :=
      List.suffix_of_suffix_length_le (hsuffix.trans hpath) (List.suffix_append _ _) (by decide)
    exact absurd hjobs (by decide)

theorem get_not_created (rules : ServerRules net) (a : Attempt) (hseen : a.SeenBy net)
    (h : a.request.post = false) : a.created = false := by
  obtain ⟨server, -, hcreated⟩ := hseen
  by_contra hmade
  rw [Bool.not_eq_false, hcreated] at hmade
  obtain ⟨hpost, -⟩ := rules.only_create a.request server hmade
  rw [h] at hpost
  cases hpost

theorem answered_created (rules : ServerRules net) (apiVersion : Text) (a : Attempt)
    (hseen : a.SeenBy net) (h : IsOwnAttempt true (jobsPath apiVersion) a) (r : HttpResponse)
    (hanswer : a.answer = .response r) (hlow : 200 ≤ r.status) (hhigh : r.status < 300)
    (hid : getString r.body "id".toList ≠ []) : a.created = true := by
  obtain ⟨server, hsaid, hcreated⟩ := hseen
  obtain ⟨hpost, hhttps, base, hparse⟩ := h
  have hjobs : jobsPath apiVersion = "/services/data/".toList ++ apiVersion ++ jobsSuffix := rfl
  have hends : jobsSuffix <:+ base ++ jobsPath apiVersion := by
    rw [hjobs, ← List.append_assoc]
    exact List.suffix_append _ _
  have hlong : 8 + jobsSuffix.length ≤ (base ++ jobsPath apiVersion).length := by
    have hdata : "/services/data/".toList.length = 15 := rfl
    rw [hjobs]
    simp only [List.length_append, hdata]
    omega
  have hpath : jobsSuffix <:+ a.request.target.path :=
    parseUrl_suffix _ _ _ hparse hhttps hlong hends
  rw [hcreated]
  exact rules.answered a.request server r hpost hpath (by rw [← hsaid, hanswer]) hlow hhigh hid

/-! ### The jobs of a call -/

section
variable (queryAll : Bool) (soql : Bytes)

theorem sessionAt_client (s : Session (Wire ν)) (n : ℕ) :
    (sessionAt queryAll soql s n).client = s.client := by
  induction n with
  | zero => rfl
  | succ n ih =>
    rw [sessionAt, Session.answer, (authorizedSend_keeps _ _ _ _).1]
    exact ih

/-- The polls create nothing. -/
theorem polls_add (rules : ServerRules net) (s : Session (Wire ν))
    (hclient : s.client = c.client net) (n : ℕ) :
    ∃ added, (sessionAt queryAll soql s (n + 1)).world.attempts =
        (sessionAt queryAll soql s 1).world.attempts ++ added ∧
      ∀ a ∈ added, a.created = false := by
  induction n with
  | zero => exact ⟨[], by simp, by simp⟩
  | succ n ih =>
    obtain ⟨added, hadded, hidle⟩ := ih
    have hclient' : (sessionAt queryAll soql s (n + 1)).client = c.client net := by
      rw [sessionAt_client, hclient]
    obtain ⟨poll, hpoll⟩ := authorizedSend_adds net c false
      (pollRequest s.apiVersion (createdId queryAll soql s)).path
      (bytesText (pollRequest s.apiVersion (createdId queryAll soql s)).body) _ hclient'
    refine ⟨added ++ poll, ?_, ?_⟩
    · rw [← List.append_assoc, ← hadded]
      exact hpoll.recorded
    · intro a ha
      rcases List.mem_append.mp ha with ha | ha
      · exact hidle a ha
      · obtain ⟨hseen, htoken | hown⟩ := hpoll.each a ha
        · exact token_not_created net rules a hseen htoken
        · exact get_not_created net rules a hseen hown.1

/-- The attempts of one call of `BulkStartJob`. -/
def startAttempts (budget : ℤ) (s : Session (Wire ν)) : List Attempt :=
  (sessionAfter queryAll soql budget s).world.attempts.drop s.world.attempts.length

def jobsCreated (attempts : List Attempt) : ℕ := attempts.countP fun a => a.created

/-- A call that returns: attempts that were not answered, the one that was and
that created its job, and requests that create nothing. -/
theorem startJob_attempts (rules : ServerRules net) (budget : ℤ) (s : Session (Wire ν))
    (hclient : s.client = c.client net) (path : Text)
    (h : (startJob queryAll soql budget s).result = .ok path) :
    ∃ earlier final rest, startAttempts queryAll soql budget s = earlier ++ final :: rest ∧
      (∀ a ∈ earlier, a.created = true → a.Unanswered) ∧
      final.created = true ∧ ¬ final.Unanswered ∧ ∀ a ∈ rest, a.created = false := by
  obtain ⟨cr, hcr, hlow, hhigh, hid⟩ := startJob_created queryAll soql budget s path h
  obtain ⟨added, hadded⟩ := authorizedSend_adds net c true (jobsPath s.apiVersion)
    (bytesText (bulkCreateBody queryAll soql)) s hclient
  obtain ⟨earlier, final, rfl, hearlier, hanswer, hown⟩ := hadded.last cr hcr
  have hpos : ∃ n, (startJob queryAll soql budget s).requests.length = n + 1 := by
    apply Nat.exists_eq_succ_of_ne_zero
    unfold startJob bulkStartJob
    split <;> simp
  obtain ⟨n, hn⟩ := hpos
  obtain ⟨rest, hrest, hidle⟩ := polls_add net c queryAll soql rules s hclient n
  have hfirst : (sessionAt queryAll soql s 1).world.attempts =
      s.world.attempts ++ (earlier ++ [final]) := hadded.recorded
  refine ⟨earlier, final, rest, ?_, ?_, ?_, ?_, hidle⟩
  · rw [startAttempts, sessionAfter, hn, hrest, hfirst, List.append_assoc, List.drop_left,
      List.append_assoc]
    rfl
  · intro a ha hcreated
    rcases hearlier a ha with hfailed | htoken
    · exact hfailed
    · have hseen := (hadded.each a (List.mem_append_left _ ha)).1
      rw [token_not_created net rules a hseen htoken] at hcreated
      cases hcreated
  · exact answered_created net rules s.apiVersion final (hadded.each final (by simp)).1 hown cr
      hanswer hlow hhigh hid
  · intro hor
    rcases hor with ⟨error, hlost⟩ | ⟨r, hr, hstatus⟩
    · rw [hanswer] at hlost
      cases hlost
    · rw [hanswer] at hr
      injection hr with hr
      rw [← hr] at hstatus
      have hnot : isTransientStatus cr.status = false := by
        simp only [isTransientStatus, Bool.or_eq_false_iff, beq_eq_false_iff_ne,
          decide_eq_false_iff_not]
        omega
      rw [hnot] at hstatus
      rcases hstatus with h | h
      · cases h
      · omega

/-- One call creates one job exactly when the server has made nothing of the
attempts it did not answer. -/
theorem one_job_iff (rules : ServerRules net) (budget : ℤ) (s : Session (Wire ν))
    (hclient : s.client = c.client net) (path : Text)
    (h : (startJob queryAll soql budget s).result = .ok path) :
    jobsCreated (startAttempts queryAll soql budget s) ≤ 1 ↔
      ∀ a ∈ startAttempts queryAll soql budget s, a.Unanswered → a.created = false := by
  obtain ⟨earlier, final, rest, hattempts, hearlier, hfinal, hanswered, hidle⟩ :=
    startJob_attempts net c queryAll soql rules budget s hclient path h
  have hrest : rest.countP (fun a => a.created) = 0 := by
    rw [List.countP_eq_zero]
    intro a ha
    rw [hidle a ha]
    exact Bool.false_ne_true
  have hcount : jobsCreated (startAttempts queryAll soql budget s) =
      earlier.countP (fun a => a.created) + 1 := by
    rw [hattempts, jobsCreated, List.countP_append, List.countP_cons, hrest, hfinal]
    rfl
  rw [hcount, hattempts]
  constructor
  · intro hle a ha hfailed
    have hnone : earlier.countP (fun a => a.created) = 0 := by omega
    rcases List.mem_append.mp ha with ha | ha
    · simpa using List.countP_eq_zero.mp hnone a ha
    · rcases List.mem_cons.mp ha with rfl | ha
      · exact absurd hfailed hanswered
      · exact hidle a ha
  · intro hall
    have hnone : earlier.countP (fun a => a.created) = 0 := by
      rw [List.countP_eq_zero]
      intro a ha hcreated
      have hno := hall a (List.mem_append_left _ ha) (hearlier a ha hcreated)
      rw [hno] at hcreated
      cases hcreated
    omega

end

end

/-! ### A response lost once -/

/-- A server that creates a job at every request for one; the response to its
first request is lost. -/
def lossyServer : Network ℕ := fun req n =>
  if req.post = true ∧ jobsSuffix <:+ req.target.path then
    if n = 0 then (.lost "Failed to read connection".toList, true, 1)
    else (.response ⟨200, "\x7b\"id\":\"750\"\x7d".toList, []⟩, true, n + 1)
  else (.response ⟨200, "\x7b\"state\":\"JobComplete\"\x7d".toList, []⟩, false, n)

theorem lossyServer_rules : ServerRules lossyServer where
  only_create := by
    intro req n h
    by_contra hother
    rw [lossyServer, if_neg hother] at h
    cases h
  answered := by
    intro req n r hpost hpath _ _ _ _
    rw [lossyServer, if_pos ⟨hpost, hpath⟩]
    split <;> rfl

/-- A session with a server that has been asked for so many jobs. -/
def lossySession (n : ℕ) : Session (Wire ℕ) where
  apiVersion := "v60.0".toList
  loginUrl := "https://login".toList
  tokenBody := fun _ => .error []
  client := (LiveHttpClient.mk 3 false).client lossyServer
  token := ⟨"t".toList, "https://org".toList⟩
  world := ⟨n, []⟩

def accountQuery : Bytes := "SELECT Id FROM Account".toList.map fun c => UInt8.ofNat c.toNat

def lossyResults : Text := "/services/data/v60.0/jobs/query/750/results".toList

/-- A server that loses the first request for a job and refuses the second, and
creates one at each further request. -/
def refusingServer : Network ℕ := fun req n =>
  if req.post = true ∧ jobsSuffix <:+ req.target.path then
    match n with
    | 0 => (.lost "Failed to read connection".toList, false, 1)
    | 1 => (.response ⟨503, [], []⟩, false, 2)
    | n + 2 => (.response ⟨200, "\x7b\"id\":\"750\"\x7d".toList, []⟩, true, n + 3)
  else (.response ⟨200, "\x7b\"state\":\"JobComplete\"\x7d".toList, []⟩, false, n)

theorem refusingServer_rules : ServerRules refusingServer where
  only_create := by
    intro req n h
    by_contra hother
    unfold refusingServer at h
    rw [if_neg hother] at h
    cases h
  answered := by
    intro req n r hpost hpath hresponse hlow hhigh hid
    unfold refusingServer at hresponse ⊢
    rw [if_pos ⟨hpost, hpath⟩] at hresponse ⊢
    match n with
    | 0 => cases hresponse
    | 1 =>
      cases hresponse
      exact absurd hhigh (by decide)
    | n + 2 => rfl

def refusingSession : Session (Wire ℕ) where
  apiVersion := "v60.0".toList
  loginUrl := "https://login".toList
  tokenBody := fun _ => .error []
  client := (LiveHttpClient.mk 3 false).client refusingServer
  token := ⟨"t".toList, "https://org".toList⟩
  world := ⟨0, []⟩

/-- One job for four attempts: one lost, one refused, one answered and the poll. -/
theorem answered_once :
    jobsCreated (startAttempts false accountQuery 600 refusingSession) ≤ 1 ∧
      (startAttempts false accountQuery 600 refusingSession).length = 4 ∧
      ∀ a ∈ startAttempts false accountQuery 600 refusingSession,
        a.Unanswered → a.created = false := by
  have hone : jobsCreated (startAttempts false accountQuery 600 refusingSession) ≤ 1 := by
    decide +kernel
  exact ⟨hone, by decide +kernel, (one_job_iff refusingServer ⟨3, false⟩ false accountQuery
    refusingServer_rules 600 refusingSession rfl lossyResults (by decide +kernel)).mp hone⟩

/-- The request whose response was lost has created a job of its own. -/
theorem lost_response_doubles :
    ServerRules lossyServer ∧
      (startJob false accountQuery 600 (lossySession 0)).result = .ok lossyResults ∧
      ¬ jobsCreated (startAttempts false accountQuery 600 (lossySession 0)) ≤ 1 :=
  ⟨lossyServer_rules, by decide +kernel, by decide +kernel⟩

end DuckdbSalesforce
