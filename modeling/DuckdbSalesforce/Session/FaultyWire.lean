import DuckdbSalesforce.Session.WireRounds

/-!
# Failures and expired tokens (`salesforce_http_client.cpp`, `salesforce_session.cpp`)

A network may lose requests, be busy and let tokens expire before it answers for
a service. As long as it fails less often in a row than the client tries, a
session over it gets what the service itself would answer.
-/

namespace DuckdbSalesforce
open Interaction

/-! ### The service and what stands before it -/

/-- A service that takes every request, whoever asks. -/
structure OrgService (C : Type) where
  answer : Request → C → HttpResponse × C
  authorized : ∀ r c, (answer r c).1.status ≠ 401
  settled : ∀ r c, isTransientStatus (answer r c).1.status = false

def OrgService.direct {C : Type} (service : OrgService C) :
    Server Request (Except Text HttpResponse) C :=
  fun r c => (checkRequestLimit (service.answer r c).1, (service.answer r c).2)

def WireAnswer.Failed : WireAnswer → Prop
  | .response r => isTransientStatus r.status = true
  | .certificate => False
  | .lost _ => True

/-- An https URL with a host. -/
def HttpsHost (url : Text) : Prop :=
  ∃ c rest, url = "https://".toList ++ c :: rest ∧ c ≠ '/' ∧ c ≠ ':'

/-- Behind the network is the service in its state. The network fails so often at
most before it answers, and a fresh token is one it has not refused yet. -/
structure Front (ν C : Type) where
  org : ν → C
  faults : ν → ℕ
  fresh : SalesforceTokenSet → ν → Prop

section
variable {ν C : Type} (front : Front ν C) (service : OrgService C) (net : Network ν)

/-- The state of the service is kept, and so are fresh tokens. -/
structure Front.Keeps (n n' : ν) : Prop where
  org : front.org n' = front.org n
  fresh : ∀ t, front.fresh t n → front.fresh t n'

theorem Front.Keeps.refl (n : ν) : front.Keeps n n := ⟨rfl, fun _ h => h⟩

theorem Front.Keeps.trans {front : Front ν C} {a b c : ν} (hab : front.Keeps a b)
    (hbc : front.Keeps b c) : front.Keeps a c :=
  ⟨hbc.org.trans hab.org, fun t h => hbc.fresh t (hab.fresh t h)⟩

def ownWire (t : SalesforceTokenSet) (r : Request) (target : ParsedUrl) : WireRequest :=
  wireRequest r.post target (authorizedRequest t r.post r.path (bytesText r.body))

def loginWire (loginUrl form : Text) (target : ParsedUrl) : WireRequest :=
  wireRequest true target (tokenRequest loginUrl form)

/-- A 401 leaves the service alone and is not for a fresh token. -/
def Refused (t : SalesforceTokenSet) (n : ν) (resp : HttpResponse) (n' : ν) : Prop :=
  resp.status = 401 ∧ front.org n' = front.org n ∧ ¬ front.fresh t n

def Taken (r : Request) (n : ν) (resp : HttpResponse) (n' : ν) : Prop :=
  resp = (service.answer r (front.org n)).1 ∧ front.org n' = (service.answer r (front.org n)).2

structure Front.Before (loginUrl : Text) (retryMax : ℤ) : Prop where
  patient : ∀ n, (front.faults n : ℤ) < retryMax
  failed : ∀ req n, (net req n).1.Failed →
    front.Keeps n (net req n).2.2 ∧ front.faults (net req n).2.2 < front.faults n
  own : ∀ t r target n, ¬ (net (ownWire t r target) n).1.Failed →
    ∃ resp, (net (ownWire t r target) n).1 = .response resp ∧
      (Refused front t n resp (net (ownWire t r target) n).2.2 ∨
        Taken front service r n resp (net (ownWire t r target) n).2.2)
  login : ∀ form target n, ¬ (net (loginWire loginUrl form target) n).1.Failed →
    ∃ resp t, (net (loginWire loginUrl form target) n).1 = .response resp ∧
      handleTokenResponse (tokenRequest loginUrl form).url (.ok resp) = .ok t ∧
      HttpsHost t.instanceUrl ∧ front.fresh t (net (loginWire loginUrl form target) n).2.2 ∧
      front.org (net (loginWire loginUrl form target) n).2.2 = front.org n

end

/-! ### A URL with a host -/

theorem trimTrailingSlash_host (before rest : Text) (c : Char) (hc : c ≠ '/') :
    ∃ rest', trimTrailingSlash (before ++ c :: rest) = before ++ c :: rest' := by
  unfold trimTrailingSlash
  induction rest using List.reverseRecOn with
  | nil =>
    refine ⟨[], List.rdropWhile_concat_neg _ _ _ ?_⟩
    simpa using hc
  | append_singleton rest d ih =>
    have hsplit : before ++ c :: (rest ++ [d]) = (before ++ c :: rest) ++ [d] := by
      rw [List.append_assoc, List.cons_append]
    by_cases hd : (d == '/') = true
    · rw [hsplit, List.rdropWhile_concat_pos (· == '/') _ d hd]
      exact ih
    · rw [hsplit, List.rdropWhile_concat_neg (· == '/') _ d hd, ← hsplit]
      exact ⟨rest ++ [d], rfl⟩

theorem parseUrl_host (url path : Text) (h : HttpsHost url) :
    ∃ target, parseUrl (trimTrailingSlash url ++ path) = some target ∧ target.https = true := by
  obtain ⟨c, rest, rfl, hslash, hcolon⟩ := h
  obtain ⟨rest', hrest⟩ := trimTrailingSlash_host "https://".toList rest c hslash
  have hstart : findText "://".toList ("https://".toList ++ c :: (rest' ++ path)) = some 5 := rfl
  have hhost : ((c :: (rest' ++ path)).takeWhile (· != '/')).takeWhile (· != ':') ≠ [] := by
    rw [List.takeWhile_cons_of_pos (by simpa using hslash),
      List.takeWhile_cons_of_pos (by simpa using hcolon)]
    exact List.cons_ne_nil _ _
  rw [hrest, List.append_assoc, List.cons_append]
  unfold parseUrl
  rw [hstart]
  refine ⟨_, if_neg hhost, rfl⟩

/-! ### One request -/

section
variable {ν C : Type} {front : Front ν C} {service : OrgService C} {net : Network ν} {loginUrl : Text}
  {c : TimedHttpClient}

/-- The network came by failures from `n` to a state in which it answers `req`,
and `out` is that answer. -/
def AnsweredFrom (front : Front ν C) (net : Network ν) (req : WireRequest) (n : ν)
    (out : Except Text HttpResponse × TimedWire ν) : Prop :=
  ∃ n', front.Keeps n n' ∧ ¬ (net req n').1.Failed ∧ out.2.server = (net req n').2.2 ∧
    ∀ resp, (net req n').1 = .response resp → out.1 = .ok resp

/-- What is answered after a failure is answered. -/
theorem AnsweredFrom.again {req : WireRequest} {n : ν} {out : Except Text HttpResponse × TimedWire ν}
    (hkeeps : front.Keeps n (net req n).2.2) (h : AnsweredFrom front net req (net req n).2.2 out) :
    AnsweredFrom front net req n out := by
  obtain ⟨n', hkept, hrest⟩ := h
  exact ⟨n', hkeeps.trans hkept, hrest⟩

/-- The loop goes on to an answer. -/
theorem attemptFrom_settles (hfront : front.Before service net loginUrl c.retryMax)
    (req : WireRequest) (k : ℤ) (w : TimedWire ν) (hk : k + front.faults w.server ≤ c.retryMax) :
    AnsweredFrom front net req w.server (attemptFrom net c req k w) := by
  fun_induction attemptFrom net c req k w with
  | case1 k w _ tried r hanswer hretry ih =>
    have hthis : (net req w.server).1 = .response r := hanswer
    have hfailed : (net req w.server).1.Failed := by
      rw [hthis]
      exact hretry.1
    obtain ⟨hkeeps, hless⟩ := hfront.failed req w.server hfailed
    have hserver : (backoff c k tried.2).server = (net req w.server).2.2 := rfl
    rw [hserver] at ih
    exact .again hkeeps (ih (by omega))
  | case2 k w _ tried r hanswer hretry =>
    have hthis : (net req w.server).1 = .response r := hanswer
    refine ⟨w.server, .refl front w.server, ?_, rfl, ?_⟩
    · intro hfailed
      have hless := (hfront.failed req w.server hfailed).2
      rw [hthis] at hfailed
      exact hretry ⟨hfailed, by omega⟩
    · intro resp hresp
      rw [hthis] at hresp
      cases hresp
      rfl
  | case3 k w _ tried hanswer =>
    have hthis : (net req w.server).1 = .certificate := hanswer
    refine ⟨w.server, .refl front w.server, ?_, rfl, ?_⟩
    · rw [hthis]
      exact id
    · intro resp hresp
      rw [hthis] at hresp
      cases hresp
  | case4 k w _ tried error hanswer hmore ih =>
    have hthis : (net req w.server).1 = .lost error := hanswer
    have hfailed : (net req w.server).1.Failed := by
      rw [hthis]
      trivial
    obtain ⟨hkeeps, hless⟩ := hfront.failed req w.server hfailed
    have hserver : (backoff c k tried.2).server = (net req w.server).2.2 := rfl
    rw [hserver] at ih
    exact .again hkeeps (ih (by omega))
  | case5 k w _ tried error hanswer hmore =>
    -- the last attempt fails only if the network had a failure left
    have hthis : (net req w.server).1 = .lost error := hanswer
    have hfailed : (net req w.server).1.Failed := by
      rw [hthis]
      trivial
    have hless := (hfront.failed req w.server hfailed).2
    omega
  | case6 k w hmore => omega

theorem send_settles (hfront : front.Before service net loginUrl c.retryMax) (post : Bool)
    (req : HttpRequest) (target : ParsedUrl) (w : TimedWire ν)
    (hparse : parseUrl req.url = some target) (hhttps : target.https = true) :
    AnsweredFrom front net (wireRequest post target req) w.server (c.send net post req w) := by
  have hbudget := hfront.patient w.server
  unfold TimedHttpClient.send
  rw [hparse]
  dsimp only
  rw [if_pos hhttps]
  exact attemptFrom_settles hfront _ 1 w (by omega)

/-! ### A session and the service -/

/-- The session can log in and stands before the service in this state. -/
structure Fronts (front : Front ν C) (net : Network ν) (loginUrl : Text) (c : TimedHttpClient)
    (s : Session (TimedWire ν)) (org : C) : Prop where
  client : s.client = c.client net
  loginUrl : s.loginUrl = loginUrl
  signs : ∀ w, ∃ form, s.tokenBody w = .ok form
  instanceUrl : HttpsHost s.token.instanceUrl
  org : front.org s.world.server = org

variable {s : Session (TimedWire ν)} {org : C}

theorem doReq_sends (hclient : s.client = c.client net) (post : Bool) (path body : Text) :
    (doReq post path body s).result =
        (c.send net post (authorizedRequest s.token post path body) s.world).1 ∧
      (doReq post path body s).session = { s with
        world := (c.send net post (authorizedRequest s.token post path body) s.world).2 } := by
  unfold doReq
  rw [hclient]
  cases post with
  | false => exact ⟨rfl, rfl⟩
  | true => exact ⟨rfl, rfl⟩

theorem doReq_settles (hfront : front.Before service net loginUrl c.retryMax)
    (h : Fronts front net loginUrl c s org) (r : Request) :
    ∃ resp, (doReq r.post r.path (bytesText r.body) s).result = .ok resp ∧
      ((resp.status = 401 ∧ ¬ front.fresh s.token s.world.server ∧
          Fronts front net loginUrl c (doReq r.post r.path (bytesText r.body) s).session org) ∨
        resp = (service.answer r org).1 ∧ Fronts front net loginUrl c
          (doReq r.post r.path (bytesText r.body) s).session (service.answer r org).2) := by
  let req := authorizedRequest s.token r.post r.path (bytesText r.body)
  obtain ⟨hdone, hsession⟩ := doReq_sends h.client r.post r.path (bytesText r.body)
  obtain ⟨target, hparse, hhttps⟩ := parseUrl_host s.token.instanceUrl r.path h.instanceUrl
  obtain ⟨n, hkeeps, hanswered, hserver, hresult⟩ :=
    send_settles hfront r.post req target s.world hparse hhttps
  obtain ⟨resp, hresp, hcase⟩ := hfront.own s.token r target n hanswered
  have hstands : ∀ org', front.org (net (ownWire s.token r target) n).2.2 = org' →
      Fronts front net loginUrl c { s with world := (c.send net r.post req s.world).2 } org' := by
    intro org' horg
    refine ⟨h.client, h.loginUrl, h.signs, h.instanceUrl, ?_⟩
    rw [← horg]
    exact congrArg front.org hserver
  have hbehind : front.org n = org := hkeeps.org.trans h.org
  rw [hdone, hsession]
  refine ⟨resp, hresult resp hresp, ?_⟩
  obtain hrefused | htaken := hcase
  · exact Or.inl ⟨hrefused.1, fun hfresh => hrefused.2.2 (hkeeps.fresh _ hfresh),
      hstands org (hrefused.2.1.trans hbehind)⟩
  · rw [← hbehind]
    exact Or.inr ⟨htaken.1, hstands _ htaken.2⟩

theorem acquireToken_fresh (hfront : front.Before service net loginUrl c.retryMax)
    (hlogin : HttpsHost loginUrl) (h : Fronts front net loginUrl c s org) :
    ∃ t w, acquireToken s = (.ok t, w) ∧ front.fresh t w.server ∧
      Fronts front net loginUrl c { s with token := t, world := w } org := by
  obtain ⟨form, hform⟩ := h.signs s.world
  let req := tokenRequest loginUrl form
  obtain ⟨target, hparse, hhttps⟩ :=
    parseUrl_host loginUrl "/services/oauth2/token".toList hlogin
  obtain ⟨n, hkeeps, hanswered, hserver, hresult⟩ :=
    send_settles hfront true req target s.world hparse hhttps
  obtain ⟨resp, t, hresp, htoken, hinstance, hfresh, horg⟩ := hfront.login form target n hanswered
  have hacquire : acquireToken s = (.ok t, (c.send net true req s.world).2) := by
    unfold acquireToken
    rw [hform, h.client, h.loginUrl]
    show (handleTokenResponse req.url (c.send net true req s.world).1, _) = _
    rw [hresult resp hresp, htoken]
    rfl
  have hsame : (c.send net true req s.world).2.server =
      (net (loginWire loginUrl form target) n).2.2 := hserver
  refine ⟨t, _, hacquire, ?_, h.client, h.loginUrl, h.signs, hinstance, ?_⟩
  · rw [hsame]
    exact hfresh
  · rw [hsame, horg, hkeeps.org, h.org]

/-- A request of the session is one of the service, with a login or without. -/
theorem authorizedSend_direct (hfront : front.Before service net loginUrl c.retryMax)
    (hlogin : HttpsHost loginUrl) (h : Fronts front net loginUrl c s org) (r : Request) :
    (s.answer r).result = (service.direct r org).1 ∧
      Fronts front net loginUrl c (s.answer r).session (service.direct r org).2 := by
  have hauthorized := service.authorized r org
  obtain ⟨resp, hresult, hcase⟩ := doReq_settles hfront h r
  unfold Session.answer authorizedSend
  dsimp only
  rw [hresult]
  dsimp only
  obtain ⟨hexpired, -, hfirst⟩ | ⟨rfl, hfirst⟩ := hcase
  · rw [if_pos hexpired]
    obtain ⟨t, w, hacquired, hfresh, hrenewed⟩ := acquireToken_fresh hfront hlogin hfirst
    obtain ⟨again, hagain, hsecond⟩ := doReq_settles hfront hrenewed r
    rw [hacquired]
    dsimp only
    obtain ⟨-, hstale, -⟩ | ⟨rfl, hlast⟩ := hsecond
    · exact absurd hfresh hstale
    · refine ⟨?_, hlast⟩
      rw [hagain]
      exact if_neg hauthorized
  · rw [if_neg hauthorized]
    exact ⟨rfl, hfirst⟩

end

/-! ### A token for one request only -/

structure FlickerState where
  down : Bool
  even : Bool
  asked : ℕ

def flickerToken (even : Bool) : Text := if even then "even".toList else "odd".toList

def flickerGrant (even : Bool) : Text :=
  "\x7b\"access_token\":\"".toList ++ flickerToken even ++
    "\",\"instance_url\":\"https://eu1\"\x7d".toList

/-- Two pages with a record each. -/
def pagedOrg : OrgService ℕ where
  answer := fun _ asked =>
    (⟨200, if asked = 0 then
        "\x7b\"done\":false,\"nextRecordsUrl\":\"/next\",\"records\":[\x7b\"Id\":\"1\"\x7d]\x7d".toList
      else "\x7b\"done\":true,\"records\":[\x7b\"Id\":\"2\"\x7d]\x7d".toList, []⟩, asked + 1)
  authorized := fun _ _ => by
    show (200 : ℤ) ≠ 401
    decide
  settled := fun _ _ => rfl

/-- Loses every other request, and takes a token once. -/
def flicker : Network FlickerState := fun req n =>
  if n.down then (.lost "reset".toList, false, { n with down := false })
  else if req.headers.all fun h => h.1 ≠ "Authorization".toList then
    (.response ⟨200, flickerGrant n.even, []⟩, false, { n with down := true })
  else if ("Authorization".toList, "Bearer ".toList ++ flickerToken n.even) ∈ req.headers then
    (.response (pagedOrg.answer ⟨false, [], []⟩ n.asked).1, false, ⟨true, !n.even, n.asked + 1⟩)
  else (.response ⟨401, [], []⟩, false, { n with down := true })

def flickerFront : Front FlickerState ℕ where
  org := FlickerState.asked
  faults := fun n => if n.down then 1 else 0
  fresh := fun t n => t.accessToken = flickerToken n.even

theorem ownWire_headers (t : SalesforceTokenSet) (r : Request) (target : ParsedUrl) :
    (ownWire t r target).headers = [("Authorization".toList, "Bearer ".toList ++ t.accessToken),
      ("Accept".toList, "application/json".toList)] := by
  unfold ownWire wireRequest authorizedRequest
  cases r.post with
  | false => rfl
  | true => rfl

theorem flicker_own (t : SalesforceTokenSet) (r : Request) (target : ParsedUrl) (even : Bool)
    (asked : ℕ) : flicker (ownWire t r target) ⟨false, even, asked⟩ =
      if t.accessToken = flickerToken even then
        (.response (pagedOrg.answer ⟨false, [], []⟩ asked).1, false, ⟨true, !even, asked + 1⟩)
      else (.response ⟨401, [], []⟩, false, ⟨true, even, asked⟩) := by
  have hown : ¬ (ownWire t r target).headers.all (fun h => h.1 ≠ "Authorization".toList) = true := by
    rw [ownWire_headers]
    exact Bool.false_ne_true
  have hkeys : "Authorization".toList ≠ "Accept".toList := by decide
  unfold flicker
  rw [if_neg Bool.false_ne_true, if_neg hown, ownWire_headers]
  by_cases hfresh : t.accessToken = flickerToken even
  · rw [if_pos hfresh, hfresh, if_pos List.mem_cons_self]
  · rw [if_neg hfresh, if_neg]
    intro hmem
    obtain hbearer | haccept := List.mem_cons.mp hmem
    · exact hfresh (List.append_cancel_left (congrArg Prod.snd hbearer)).symm
    · exact absurd (congrArg Prod.fst (List.mem_singleton.mp haccept)) hkeys

theorem flicker_before : flickerFront.Before pagedOrg flicker "https://login".toList 2 where
  patient n := by
    show ((if n.down = true then 1 else 0 : ℕ) : ℤ) < 2
    cases n.down <;> decide
  failed req n hfailed := by
    obtain ⟨down, even, asked⟩ := n
    cases down with
    | true => exact ⟨⟨rfl, fun t h => h⟩, Nat.zero_lt_one⟩
    | false =>
      unfold flicker at hfailed
      simp only [Bool.false_eq_true, if_false] at hfailed
      split at hfailed
      · cases hfailed
      · split at hfailed
        · cases hfailed
        · cases hfailed
  own t r target n hanswered := by
    obtain ⟨down, even, asked⟩ := n
    cases down with
    | true => exact absurd trivial hanswered
    | false =>
      by_cases hfresh : t.accessToken = flickerToken even
      · rw [flicker_own, if_pos hfresh]
        exact ⟨_, rfl, Or.inr ⟨rfl, rfl⟩⟩
      · rw [flicker_own, if_neg hfresh]
        exact ⟨_, rfl, Or.inl ⟨rfl, rfl, hfresh⟩⟩
  login form target n hanswered := by
    obtain ⟨down, even, asked⟩ := n
    cases down with
    | true => exact absurd trivial hanswered
    | false =>
      refine ⟨⟨200, flickerGrant even, []⟩, ⟨flickerToken even, "https://eu1".toList⟩, rfl, ?_,
        ⟨'e', "u1".toList, rfl, by decide, by decide⟩, rfl, rfl⟩
      cases even with
      | true => rfl
      | false => rfl

/-- With an expired token. -/
def flickerSession : Session (TimedWire FlickerState) where
  apiVersion := "v60.0".toList
  loginUrl := "https://login".toList
  tokenBody := fun _ => .ok []
  client := (createLiveHttpClient false 2 0 60).client flicker
  token := ⟨"old".toList, "https://na1".toList⟩
  world := ⟨⟨true, true, 0⟩, []⟩

theorem flickerSession_fronts : Fronts flickerFront flicker "https://login".toList
    (createLiveHttpClient false 2 0 60) flickerSession 0 where
  client := rfl
  loginUrl := rfl
  signs := fun _ => ⟨[], rfl⟩
  instanceUrl := ⟨'n', "a1".toList, rfl, by decide, by decide⟩
  org := rfl

/-- The service's own two pages. -/
theorem pagedOrg_query : (SessionCall.query "v60.0".toList false []).run pagedOrg.direct 0 =
    (.ok ⟨["\x7b\"Id\":\"1\"\x7d".toList, "\x7b\"Id\":\"2\"\x7d".toList], 2⟩, 2) := by
  have hfirst : (SessionCall.fetchPage (queryPath "v60.0".toList false [])).run pagedOrg.direct 0 =
      (.ok ⟨["\x7b\"Id\":\"1\"\x7d".toList], false, "/next".toList⟩, 1) := rfl
  have hnext : (SessionCall.fetchPage "/next".toList).run pagedOrg.direct 1 =
      (.ok ⟨["\x7b\"Id\":\"2\"\x7d".toList], true, []⟩, 2) := rfl
  have hmore : ¬ (false || "/next".toList.isEmpty) = true := by decide
  have hfew : ¬ kMaxPages ≤ 0 + 1 := by decide
  rw [SessionCall.query, SessionCall.queryFrom, run_bind, hfirst]
  dsimp only
  rw [if_neg hmore, dif_neg hfew, if_neg List.not_mem_nil, SessionCall.queryFrom, run_bind, hnext]
  rfl

end DuckdbSalesforce
