import DuckdbSalesforce.Session.SessionCalls
import DuckdbSalesforce.Session.TokenForm

/-!
# The requests of a session (salesforce_session.cpp)

What goes over a client while a session runs any of its calls: each request
carries the token of the last login, a refused one is followed by at most one
login and one second try, and a token goes to its own instance only.
-/

namespace DuckdbSalesforce
open Interaction

section
variable {σ : Type}

/-! ### What is recorded -/

def recordingClient (client : HttpClient σ) : HttpClient (σ × List Exchange) where
  post := fun req w =>
    let answer := client.post req w.1
    (answer.1, answer.2, w.2 ++ [⟨req, answer.1⟩])
  get := fun req w =>
    let answer := client.get req w.1
    (answer.1, answer.2, w.2 ++ [⟨req, answer.1⟩])

/-- The session over a recording client. -/
def Session.recording (s : Session σ) (before : List Exchange) : Session (σ × List Exchange) where
  apiVersion := s.apiVersion
  loginUrl := s.loginUrl
  tokenBody := fun w => s.tokenBody w.1
  client := recordingClient s.client
  token := s.token
  world := (s.world, before)

def IsOwn (t : SalesforceTokenSet) (post : Bool) (path body : Text) (e : Exchange) : Prop :=
  e.request = authorizedRequest t post path body

def IsLogin (loginUrl : Text) (e : Exchange) : Prop := ∃ form, e.request = tokenRequest loginUrl form

def IsRefused (e : Exchange) : Prop := ∃ r, e.answer = .ok r ∧ r.status = 401

def granted (e : Exchange) : Except Text SalesforceTokenSet :=
  handleTokenResponse e.request.url e.answer

/-- The exchanges between two tokens of a session. -/
inductive AuthTrace (loginUrl : Text) :
    SalesforceTokenSet → List Exchange → SalesforceTokenSet → Prop
  | silent (t) : AuthTrace loginUrl t [] t
  | answered (t post path body e) (own : IsOwn t post path body e) (accepted : ¬ IsRefused e) :
    AuthTrace loginUrl t [e] t
  | unsigned (t post path body e) (own : IsOwn t post path body e) (refused : IsRefused e) :
    AuthTrace loginUrl t [e] t
  | denied (t post path body e l error) (own : IsOwn t post path body e) (refused : IsRefused e)
    (login : IsLogin loginUrl l) (no : granted l = .error error) : AuthTrace loginUrl t [e, l] t
  | renewed (t u post path body e l e') (own : IsOwn t post path body e) (refused : IsRefused e)
    (login : IsLogin loginUrl l) (yes : granted l = .ok u) (again : IsOwn u post path body e') :
    AuthTrace loginUrl t [e, l, e'] u
  | append (t u v before after) (first : AuthTrace loginUrl t before u)
    (rest : AuthTrace loginUrl u after v) : AuthTrace loginUrl t (before ++ after) v

/-! ### One call -/

theorem doReq_recorded (s : Session σ) (before : List Exchange) (post : Bool) (path body : Text) :
    doReq post path body (s.recording before) =
      { exchanges := (doReq post path body s).exchanges
        session := (doReq post path body s).session.recording
          (before ++ (doReq post path body s).exchanges)
        result := (doReq post path body s).result } := by
  cases post <;> rfl

/-- What `acquireToken` sends. -/
def loginExchanges (s : Session σ) : List Exchange :=
  match s.tokenBody s.world with
  | .error _ => []
  | .ok form =>
    [⟨tokenRequest s.loginUrl form, (s.client.post (tokenRequest s.loginUrl form) s.world).1⟩]

theorem acquireToken_recorded (s : Session σ) (before : List Exchange) :
    acquireToken (s.recording before) =
      ((acquireToken s).1, (acquireToken s).2, before ++ loginExchanges s) := by
  unfold acquireToken loginExchanges
  show (match s.tokenBody s.world with
    | .error e => _
    | .ok form => _) = _
  cases s.tokenBody s.world with
  | error e => exact Prod.ext rfl (Prod.ext rfl (List.append_nil before).symm)
  | ok form => rfl

/-- What a call sends, its login included. -/
def sentExchanges (post : Bool) (path body : Text) (s : Session σ) : List Exchange :=
  let first := doReq post path body s
  match first.result with
  | .error _ => first.exchanges
  | .ok resp =>
    if resp.status = 401 then
      match acquireToken first.session with
      | (.error _, _) => first.exchanges ++ loginExchanges first.session
      | (.ok token, world) =>
        first.exchanges ++ loginExchanges first.session ++
          (doReq post path body { first.session with token := token, world := world }).exchanges
    else first.exchanges

theorem authorizedSend_recorded (s : Session σ) (before : List Exchange) (post : Bool)
    (path body : Text) :
    (authorizedSend post path body (s.recording before)).result =
        (authorizedSend post path body s).result ∧
      (authorizedSend post path body (s.recording before)).session =
        (authorizedSend post path body s).session.recording
          (before ++ sentExchanges post path body s) := by
  unfold authorizedSend sentExchanges
  dsimp only
  rw [doReq_recorded]
  dsimp only
  cases (doReq post path body s).result with
  | error e => exact ⟨rfl, rfl⟩
  | ok resp =>
    dsimp only
    by_cases hexpired : resp.status = 401
    · rw [if_pos hexpired, if_pos hexpired, if_pos hexpired, acquireToken_recorded]
      generalize acquireToken (doReq post path body s).session = acquired
      obtain ⟨outcome, world⟩ := acquired
      cases outcome with
      | error e =>
        dsimp only
        rw [← List.append_assoc]
        exact ⟨rfl, rfl⟩
      | ok token =>
        dsimp only
        have hsecond := doReq_recorded
          { (doReq post path body s).session with token := token, world := world }
          (before ++ (doReq post path body s).exchanges ++ loginExchanges (doReq post path body s).session)
          post path body
        simp only [Session.recording] at hsecond ⊢
        rw [hsecond]
        simp only [List.append_assoc]
        exact ⟨trivial, trivial⟩
    · rw [if_neg hexpired, if_neg hexpired, if_neg hexpired]
      exact ⟨rfl, rfl⟩

theorem doReq_own (s : Session σ) (post : Bool) (path body : Text) :
    ∃ e, (doReq post path body s).exchanges = [e] ∧ IsOwn s.token post path body e ∧
      e.answer = (doReq post path body s).result ∧
      (doReq post path body s).session.token = s.token ∧
      (doReq post path body s).session.loginUrl = s.loginUrl :=
  ⟨_, rfl, rfl, rfl, rfl, rfl⟩

theorem loginExchanges_cases (s : Session σ) :
    (loginExchanges s = [] ∧ ∃ error, (acquireToken s).1 = .error error) ∨
      ∃ l, loginExchanges s = [l] ∧ IsLogin s.loginUrl l ∧ granted l = (acquireToken s).1 := by
  unfold loginExchanges acquireToken
  cases s.tokenBody s.world with
  | error e => exact Or.inl ⟨rfl, e, rfl⟩
  | ok form => exact Or.inr ⟨_, rfl, ⟨form, rfl⟩, rfl⟩

/-- What a call sends takes the session from its token to the next. -/
theorem sentExchanges_trace (s : Session σ) (post : Bool) (path body : Text) :
    AuthTrace s.loginUrl s.token (sentExchanges post path body s)
        (authorizedSend post path body s).session.token ∧
      (authorizedSend post path body s).session.loginUrl = s.loginUrl := by
  obtain ⟨e, hsent, hown, hanswer, htoken, hlogin⟩ := doReq_own s post path body
  unfold sentExchanges authorizedSend
  dsimp only
  rw [hsent]
  cases hresult : (doReq post path body s).result with
  | error error =>
    refine ⟨.answered s.token post path body e hown ?_, hlogin⟩
    intro hrefused
    obtain ⟨r, hr, -⟩ := hrefused
    rw [hanswer, hresult] at hr
    cases hr
  | ok resp =>
    dsimp only
    by_cases hexpired : resp.status = 401
    · rw [if_pos hexpired, if_pos hexpired]
      have hrefused : IsRefused e := ⟨resp, by rw [hanswer, hresult], hexpired⟩
      have hlast := loginExchanges_cases (doReq post path body s).session
      rw [hlogin] at hlast
      generalize acquireToken (doReq post path body s).session = acquired at hlast ⊢
      obtain ⟨outcome, world⟩ := acquired
      dsimp only at hlast
      rcases hlast with ⟨hnone, error, rfl⟩ | ⟨l, hone, hisLogin, hgranted⟩
      · rw [hnone]
        exact ⟨.unsigned s.token post path body e hown hrefused, hlogin⟩
      · rw [hone]
        cases outcome with
        | error error =>
          exact ⟨.denied s.token post path body e l error hown hrefused hisLogin hgranted, hlogin⟩
        | ok token =>
          dsimp only
          obtain ⟨e', hagain, hown', -, htoken', hlogin'⟩ := doReq_own
            { (doReq post path body s).session with token := token, world := world } post path body
          rw [hagain, htoken', hlogin']
          exact ⟨.renewed s.token token post path body e l e' hown hrefused hisLogin hgranted hown',
            hlogin⟩
    · rw [if_neg hexpired, if_neg hexpired]
      refine ⟨.answered s.token post path body e hown ?_, hlogin⟩
      intro hrefused
      obtain ⟨r, hr, h401⟩ := hrefused
      rw [hanswer, hresult] at hr
      rw [← Except.ok.inj hr] at h401
      exact hexpired h401

/-! ### Every call -/

/-- The session and its recording side by side. -/
def Recorded (loginUrl : Text) (t : SalesforceTokenSet) (s : Session σ)
    (r : Session (σ × List Exchange)) : Prop :=
  ∃ trace, r = s.recording trace ∧ s.loginUrl = loginUrl ∧ AuthTrace loginUrl t trace s.token

theorem recorded_run {α : Type} (call : SessionCall α) (s : Session σ) :
    (runCall call s).1 = (runCall call (s.recording [])).1 ∧
      Recorded s.loginUrl s.token (runCall call s).2 (runCall call (s.recording [])).2 := by
  refine run_related serveSession serveSession (Recorded s.loginUrl s.token) ?_ call s
    (s.recording []) ⟨[], rfl, rfl, .silent s.token⟩
  intro r t t' ht
  obtain ⟨trace, rfl, hlogin, htrace⟩ := ht
  obtain ⟨hresult, hsession⟩ := authorizedSend_recorded t trace r.post r.path (bytesText r.body)
  obtain ⟨hsent, hkept⟩ := sentExchanges_trace t r.post r.path (bytesText r.body)
  rw [hlogin] at hsent hkept
  exact ⟨hresult.symm, _, hsession, hkept, .append _ _ _ _ _ htrace hsent⟩

theorem trace_tokens (loginUrl : Text) (t u : SalesforceTokenSet) (trace : List Exchange)
    (h : AuthTrace loginUrl t trace u) :
    (u = t ∨ ∃ l ∈ trace, IsLogin loginUrl l ∧ granted l = .ok u) ∧
      ∀ e ∈ trace, IsLogin loginUrl e ∨ ∃ v post path body, IsOwn v post path body e ∧
        (v = t ∨ ∃ l ∈ trace, IsLogin loginUrl l ∧ granted l = .ok v) := by
  induction h with
  | silent t => exact ⟨Or.inl rfl, fun e he => absurd he List.not_mem_nil⟩
  | answered t post path body e own accepted =>
    refine ⟨Or.inl rfl, fun e' he' => Or.inr ⟨t, post, path, body, ?_, Or.inl rfl⟩⟩
    rw [List.mem_singleton.mp he']
    exact own
  | unsigned t post path body e own refused =>
    refine ⟨Or.inl rfl, fun e' he' => Or.inr ⟨t, post, path, body, ?_, Or.inl rfl⟩⟩
    rw [List.mem_singleton.mp he']
    exact own
  | denied t post path body e l error own refused login no =>
    refine ⟨Or.inl rfl, fun e' he' => ?_⟩
    simp only [List.mem_cons, List.not_mem_nil, or_false] at he'
    rcases he' with rfl | rfl
    · exact Or.inr ⟨t, post, path, body, own, Or.inl rfl⟩
    · exact Or.inl login
  | renewed t u post path body e l e' own refused login yes again =>
    have hissued : ∃ l' ∈ [e, l, e'], IsLogin loginUrl l' ∧ granted l' = .ok u :=
      ⟨l, by simp, login, yes⟩
    refine ⟨Or.inr hissued, fun d hd => ?_⟩
    simp only [List.mem_cons, List.not_mem_nil, or_false] at hd
    rcases hd with rfl | rfl | rfl
    · exact Or.inr ⟨t, post, path, body, own, Or.inl rfl⟩
    · exact Or.inl login
    · exact Or.inr ⟨u, post, path, body, again, Or.inr hissued⟩
  | append t u v before after first rest ihfirst ihrest =>
    obtain ⟨hu, hbefore⟩ := ihfirst
    obtain ⟨hv, hafter⟩ := ihrest
    have hleft : ∀ w, (w = t ∨ ∃ l ∈ before, IsLogin loginUrl l ∧ granted l = .ok w) →
        w = t ∨ ∃ l ∈ before ++ after, IsLogin loginUrl l ∧ granted l = .ok w := by
      intro w hw
      rcases hw with hw | ⟨l, hl, hlogin⟩
      · exact Or.inl hw
      · exact Or.inr ⟨l, List.mem_append_left after hl, hlogin⟩
    have hright : ∀ w, (w = u ∨ ∃ l ∈ after, IsLogin loginUrl l ∧ granted l = .ok w) →
        w = t ∨ ∃ l ∈ before ++ after, IsLogin loginUrl l ∧ granted l = .ok w := by
      intro w hw
      rcases hw with rfl | ⟨l, hl, hlogin⟩
      · exact hleft _ hu
      · exact Or.inr ⟨l, List.mem_append_right before hl, hlogin⟩
    refine ⟨hright v hv, fun e he => ?_⟩
    rcases List.mem_append.mp he with he | he
    · rcases hbefore e he with hlogin | ⟨w, post, path, body, hown, hw⟩
      · exact Or.inl hlogin
      · exact Or.inr ⟨w, post, path, body, hown, hleft w hw⟩
    · rcases hafter e he with hlogin | ⟨w, post, path, body, hown, hw⟩
      · exact Or.inl hlogin
      · exact Or.inr ⟨w, post, path, body, hown, hright w hw⟩

/-- Recording changes no result. What any call sends follows the protocol from
the token of the session to the one it leaves, and every request that is no
login carries a token, to the instance of that token, which the session had
before or was given by a login. -/
theorem session_trace {α : Type} (call : SessionCall α) (s : Session σ) :
    (runCall call (s.recording [])).1 = (runCall call s).1 ∧
      ∃ trace, (runCall call (s.recording [])).2.world.2 = trace ∧
        AuthTrace s.loginUrl s.token trace (runCall call s).2.token ∧
        ∀ e ∈ trace, IsLogin s.loginUrl e ∨ ∃ v post path body, IsOwn v post path body e ∧
          (v = s.token ∨ ∃ l ∈ trace, IsLogin s.loginUrl l ∧ granted l = .ok v) := by
  obtain ⟨hresult, trace, hrun, -, htrace⟩ := recorded_run call s
  exact ⟨hresult.symm, trace, by rw [hrun]; rfl, htrace,
    (trace_tokens s.loginUrl s.token _ trace htrace).2⟩

end

end DuckdbSalesforce
