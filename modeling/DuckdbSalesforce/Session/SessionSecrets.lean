import DuckdbSalesforce.Session.AttachSecrets
import DuckdbSalesforce.Session.SessionCalls

/-!
# What a session reveals (salesforce_session.cpp, salesforce_auth.cpp)

Sessions that differ in their credentials and tokens only, before servers that
answer them alike: every call, whatever it asks and however often its token is
refused, gives the same result, so that no error and no row holds a secret.
-/

namespace DuckdbSalesforce
open TwoRuns Interaction JsonText

section
variable {σ σ' : Type}

/-- The session of a configuration; `now` is `std::time`. -/
def SalesforceConfig.session (config : SalesforceConfig)
    (signRs256 : Text → Text → Except Text Bytes) (now : σ → ℤ) (client : HttpClient σ)
    (token : SalesforceTokenSet) (world : σ) : Session σ where
  apiVersion := config.apiVersion
  loginUrl := config.loginUrl
  tokenBody := fun w => tokenBody signRs256 config (now w)
  client := client
  token := token
  world := world

/-- A call after `Authenticate`. -/
def openedCall {α : Type} (call : SessionCall α) (s : Session σ) : Except Text α × Session σ :=
  match acquireToken s with
  | (.error e, world) => (.error e, { s with world := world })
  | (.ok token, world) => runCall call { s with token := token, world := world }

/-- Two answers to a login: of a token that is given only the instance is the
same. -/
def AlikeLogin (a a' : Except Text HttpResponse) : Prop :=
  a = a' ∨ ∃ r r', a = .ok r ∧ a' = .ok r' ∧ r.status = 200 ∧ r'.status = 200 ∧
    getString r.body "instance_url".toList = getString r'.body "instance_url".toList ∧
    (getString r.body "access_token".toList = [] ↔ getString r'.body "access_token".toList = [])

def HttpClient.send (client : HttpClient σ) (post : Bool) (req : HttpRequest) (w : σ) :
    Except Text HttpResponse × σ :=
  if post then client.post req w else client.get req w

/-- Clients that answer alike whatever the bearer and the form are. -/
structure AlikeClients (R : σ → σ' → Prop) (loginUrl : Text) (client : HttpClient σ)
    (client' : HttpClient σ') : Prop where
  own : ∀ (token token' : SalesforceTokenSet), token.instanceUrl = token'.instanceUrl →
    ∀ (post : Bool) (path body : Text) (w : σ) (w' : σ'), R w w' →
      (client.send post (authorizedRequest token post path body) w).1 =
          (client'.send post (authorizedRequest token' post path body) w').1 ∧
        R (client.send post (authorizedRequest token post path body) w).2
          (client'.send post (authorizedRequest token' post path body) w').2
  login : ∀ (body body' : Text) (w : σ) (w' : σ'), R w w' →
    AlikeLogin (client.post (tokenRequest loginUrl body) w).1
        (client'.post (tokenRequest loginUrl body') w').1 ∧
      R (client.post (tokenRequest loginUrl body) w).2
        (client'.post (tokenRequest loginUrl body') w').2

structure AlikeSessions (R : σ → σ' → Prop) (s : Session σ) (s' : Session σ') : Prop where
  apiVersion : s.apiVersion = s'.apiVersion
  loginUrl : s.loginUrl = s'.loginUrl
  instanceUrl : s.token.instanceUrl = s'.token.instanceUrl
  world : R s.world s'.world
  signing : ∀ w w', R w w' → Agree (fun _ _ => True) (s.tokenBody w) (s'.tokenBody w')
  clients : AlikeClients R s.loginUrl s.client s'.client

variable {R : σ → σ' → Prop} {s : Session σ} {s' : Session σ'}

/-! ### The token -/

def SameInstance (t t' : SalesforceTokenSet) : Prop := t.instanceUrl = t'.instanceUrl

theorem handleTokenResponse_alike (url : Text) (a a' : Except Text HttpResponse)
    (h : AlikeLogin a a') :
    Agree SameInstance (handleTokenResponse url a) (handleTokenResponse url a') := by
  rcases h with rfl | ⟨r, r', rfl, rfl, hr, hr', hinstance, haccess⟩
  · exact Agree.refl (fun t => (rfl : t.instanceUrl = t.instanceUrl)) _
  · unfold handleTokenResponse
    dsimp only
    rw [if_neg (not_not.mpr hr), if_neg (not_not.mpr hr')]
    refine Agree.ite haccess (fun _ => Agree.error _) fun _ => ?_
    exact Agree.ite (by rw [hinstance]) (fun _ => Agree.error _) fun _ => Agree.ok hinstance

theorem acquireToken_alike (h : AlikeSessions R s s') :
    Agree SameInstance (acquireToken s).1 (acquireToken s').1 ∧
      R (acquireToken s).2 (acquireToken s').2 := by
  unfold acquireToken
  rcases (h.signing s.world s'.world h.world).cases with ⟨body, body', hb, hb', -⟩ | ⟨e, he, he'⟩
  · rw [hb, hb', ← h.loginUrl]
    obtain ⟨hanswer, hworld⟩ := h.clients.login body body' s.world s'.world h.world
    exact ⟨handleTokenResponse_alike _ _ _ hanswer, hworld⟩
  · rw [he, he']
    exact ⟨Agree.error e, h.world⟩

/-! ### One request -/

theorem alike_world (h : AlikeSessions R s s') (token token' : SalesforceTokenSet)
    (htoken : SameInstance token token') (w : σ) (w' : σ') (hworld : R w w') :
    AlikeSessions R { s with token := token, world := w } { s' with token := token', world := w' } :=
  ⟨h.apiVersion, h.loginUrl, htoken, hworld, h.signing, h.clients⟩

theorem doReq_alike (h : AlikeSessions R s s') (post : Bool) (path body : Text) :
    (doReq post path body s).result = (doReq post path body s').result ∧
      AlikeSessions R (doReq post path body s).session (doReq post path body s').session := by
  obtain ⟨hanswer, hworld⟩ :=
    h.clients.own s.token s'.token h.instanceUrl post path body s.world s'.world h.world
  exact ⟨hanswer, alike_world h s.token s'.token h.instanceUrl _ _ hworld⟩

theorem authorizedSend_alike (h : AlikeSessions R s s') (post : Bool) (path body : Text) :
    (authorizedSend post path body s).result = (authorizedSend post path body s').result ∧
      AlikeSessions R (authorizedSend post path body s).session
        (authorizedSend post path body s').session := by
  obtain ⟨hfirst, hsession⟩ := doReq_alike h post path body
  unfold authorizedSend
  dsimp only
  rw [← hfirst]
  cases (doReq post path body s).result with
  | error e => exact ⟨rfl, hsession⟩
  | ok resp =>
    dsimp only
    by_cases hexpired : resp.status = 401
    · rw [if_pos hexpired, if_pos hexpired]
      obtain ⟨htoken, hworld⟩ := acquireToken_alike hsession
      generalize acquireToken (doReq post path body s).session = acquired at htoken hworld ⊢
      generalize acquireToken (doReq post path body s').session = acquired' at htoken hworld ⊢
      obtain ⟨outcome, w⟩ := acquired
      obtain ⟨outcome', w'⟩ := acquired'
      rcases htoken.cases with ⟨token, token', rfl, rfl, hsame⟩ | ⟨e, rfl, rfl⟩
      · obtain ⟨hsecond, hafter⟩ :=
          doReq_alike (alike_world hsession token token' hsame w w' hworld) post path body
        exact ⟨congrArg (secondResult path) hsecond, hafter⟩
      · exact ⟨rfl, hsession.apiVersion, hsession.loginUrl, hsession.instanceUrl, hworld,
          hsession.signing, hsession.clients⟩
    · rw [if_neg hexpired, if_neg hexpired]
      exact ⟨rfl, hsession⟩

/-! ### Every call -/

theorem call_alike {α : Type} (call : SessionCall α) (h : AlikeSessions R s s') :
    (runCall call s).1 = (runCall call s').1 ∧
      AlikeSessions R (runCall call s).2 (runCall call s').2 :=
  run_related serveSession serveSession (AlikeSessions R)
    (fun r _ _ hs => authorizedSend_alike hs r.post r.path (bytesText r.body)) call s s' h

theorem openedCall_alike {α : Type} (call : SessionCall α) (h : AlikeSessions R s s') :
    (openedCall call s).1 = (openedCall call s').1 := by
  obtain ⟨htoken, hworld⟩ := acquireToken_alike h
  unfold openedCall
  generalize acquireToken s = acquired at htoken hworld ⊢
  generalize acquireToken s' = acquired' at htoken hworld ⊢
  obtain ⟨outcome, w⟩ := acquired
  obtain ⟨outcome', w'⟩ := acquired'
  rcases htoken.cases with ⟨token, token', rfl, rfl, hsame⟩ | ⟨e, rfl, rfl⟩
  · exact (call_alike call (alike_world h token token' hsame w w' hworld)).1
  · rfl

/-- The signature is the only thing made of a private key. -/
def AlikeSigning (signRs256 : Text → Text → Except Text Bytes) (c c' : SalesforceConfig) : Prop :=
  ∀ input, Agree (fun _ _ => True) (signRs256 c.privateKey input) (signRs256 c'.privateKey input)

theorem jwtSigningInput_public (c c' : SalesforceConfig) (hc : AlikeConfig c c') (now : ℤ) :
    jwtSigningInput c now = jwtSigningInput c' now := by
  have hpublic : c.public = c'.public := hc
  have hid : c.clientId = c'.clientId := congrArg (fun d => d.clientId) hpublic
  have huser : c.username = c'.username := congrArg (fun d => d.username) hpublic
  have hlogin : c.loginUrl = c'.loginUrl := congrArg (fun d => d.loginUrl) hpublic
  have hclaims : jwtClaims c now = jwtClaims c' now := by
    unfold jwtClaims
    rw [hid, huser, hlogin]
  unfold jwtSigningInput
  rw [hclaims]

theorem tokenBody_alike (signRs256 : Text → Text → Except Text Bytes) (c c' : SalesforceConfig)
    (hc : AlikeConfig c c') (hsign : AlikeSigning signRs256 c c') (now : ℤ) :
    Agree (fun _ _ => True) (tokenBody signRs256 c now) (tokenBody signRs256 c' now) := by
  have hpublic : c.public = c'.public := hc
  have hmethod : c.authMethod = c'.authMethod := congrArg (fun d => d.authMethod) hpublic
  unfold tokenBody
  rw [hmethod]
  refine Agree.ite Iff.rfl (fun _ => ?_) fun _ => Agree.ok trivial
  unfold jwtBearerBody jwtAssertion
  rw [jwtSigningInput_public c c' hc now]
  exact Agree.map (Agree.map (S := fun _ _ => True) (hsign _) fun _ _ _ => trivial)
    fun _ _ _ => trivial

end

/-! ### A refused token -/

def refusal (n : ℕ) : Except Text HttpResponse :=
  .ok ⟨if n = 0 then 401 else 404, "\x7b\"errorCode\":\"INVALID_TYPE\"\x7d".toList, []⟩

/-- A server that refuses the first request and gives out one token. -/
def refusingClient (grant : Text) : HttpClient ℕ where
  post := fun req n =>
    (if (req.headers.head?.map Prod.fst) = some "Authorization".toList then refusal n
      else .ok ⟨200, grant, []⟩, n + 1)
  get := fun _ n => (refusal n, n + 1)

def firstGrant : Text := "\x7b\"access_token\":\"00D1\",\"instance_url\":\"https://org\"\x7d".toList
def otherGrant : Text := "\x7b\"access_token\":\"00D2\",\"instance_url\":\"https://org\"\x7d".toList

theorem refusingClient_alike (loginUrl : Text) :
    AlikeClients (fun n n' => n = n') loginUrl (refusingClient firstGrant)
      (refusingClient otherGrant) := by
  refine ⟨?_, ?_⟩
  · intro token token' _ post path body w w' hw
    subst hw
    have hown : ∀ (grant : Text) (t : SalesforceTokenSet), (refusingClient grant).send post
        (authorizedRequest t post path body) w = (refusal w, w + 1) := by
      intro grant t
      cases post with
      | false => rfl
      | true =>
        have hbearer : ((authorizedRequest t true path body).headers.head?.map Prod.fst) =
            some "Authorization".toList := rfl
        show (if _ then _ else _, _) = _
        rw [if_pos hbearer]
    rw [hown, hown]
    exact ⟨rfl, rfl⟩
  · intro body body' w w' hw
    subst hw
    have hlogin : ∀ (grant form : Text), (refusingClient grant).post
        (tokenRequest loginUrl form) w = (.ok ⟨200, grant, []⟩, w + 1) := by
      intro grant form
      have hform : ((tokenRequest loginUrl form).headers.head?.map Prod.fst) =
          some "Content-Type".toList := rfl
      show (if _ then _ else _, _) = _
      rw [if_neg (by rw [hform]; decide)]
    rw [hlogin, hlogin]
    refine ⟨Or.inr ⟨_, _, rfl, rfl, rfl, rfl, ?_, ?_⟩, rfl⟩
    · decide
    · decide

def otherSecret : SalesforceConfig := { ampersandConfig with clientSecret := "swordfish".toList }

end DuckdbSalesforce
