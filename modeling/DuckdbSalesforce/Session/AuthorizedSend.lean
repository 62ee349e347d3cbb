import Mathlib
import DuckdbSalesforce.Bulk.ResultPages
import DuckdbSalesforce.Library.Fallible

/-!
# Authenticated requests (salesforce_session.cpp, salesforce_auth.cpp)

A client answers in a world, which holds whatever its answers depend on; an
error is a request without a response. On a 401 the session gets a new token,
which may name another instance, and asks once more.
-/

namespace DuckdbSalesforce

structure HttpRequest where
  url : Text
  headers : List (Text × Text)
  body : Text
  deriving DecidableEq

structure HttpClient (σ : Type) where
  post : HttpRequest → σ → Except Text HttpResponse × σ
  get : HttpRequest → σ → Except Text HttpResponse × σ

structure SalesforceTokenSet where
  accessToken : Text
  instanceUrl : Text
  deriving DecidableEq

def trimTrailingSlash (s : Text) : Text := s.rdropWhile (· == '/')

/-! ### The token exchange -/

def tokenHint (err : Text) : Text :=
  if err = "invalid_grant".toList then
    (" (refresh token / JWT assertion is invalid, expired, or the " ++
      "user is not authorized for this Connected App — re-authorize)").toList
  else if err = "invalid_client".toList ∨ err = "invalid_client_id".toList then
    " (client_id / client_secret is incorrect for this org)".toList
  else []

def tokenRefused (resp : HttpResponse) : Text :=
  let error := getString resp.body "error".toList
  let err := if error = [] then "unknown_error".toList else error
  let desc := getString resp.body "error_description".toList
  "salesforce OAuth token exchange failed (HTTP ".toList ++ (toString resp.status).toList ++
    "): ".toList ++ err ++ (if desc = [] then [] else " - ".toList) ++ desc ++ tokenHint err ++
    ".".toList

def handleTokenResponse (url : Text) : Except Text HttpResponse → Except Text SalesforceTokenSet
  | .error e =>
    .error ("salesforce OAuth: token request failed to reach ".toList ++ url ++ " (".toList ++ e ++
      ").".toList)
  | .ok resp =>
    if resp.status ≠ 200 then .error (tokenRefused resp)
    else
      let ts : SalesforceTokenSet :=
        ⟨getString resp.body "access_token".toList, getString resp.body "instance_url".toList⟩
      if ts.accessToken = [] then
        .error "salesforce OAuth: token response did not contain an access_token.".toList
      else if ts.instanceUrl = [] then
        .error "salesforce OAuth: token response did not contain an instance_url.".toList
      else .ok ts

/-- `tokenBody` is the form that the configured flow posts, or why it cannot
sign. -/
structure Session (σ : Type) where
  apiVersion : Text
  loginUrl : Text
  tokenBody : σ → Except Text Text
  client : HttpClient σ
  token : SalesforceTokenSet
  world : σ

section
variable {σ : Type}

def tokenRequest (loginUrl body : Text) : HttpRequest where
  url := trimTrailingSlash loginUrl ++ "/services/oauth2/token".toList
  headers := [("Content-Type".toList, "application/x-www-form-urlencoded".toList),
    ("Accept".toList, "application/json".toList)]
  body := body

def acquireToken (s : Session σ) : Except Text SalesforceTokenSet × σ :=
  match s.tokenBody s.world with
  | .error e => (.error e, s.world)
  | .ok body =>
    let req := tokenRequest s.loginUrl body
    let answer := s.client.post req s.world
    (handleTokenResponse req.url answer.1, answer.2)

/-! ### A request and its second try -/

def authorizedRequest (token : SalesforceTokenSet) (post : Bool) (path jsonBody : Text) :
    HttpRequest where
  url := trimTrailingSlash token.instanceUrl ++ path
  headers := [("Authorization".toList, "Bearer ".toList ++ token.accessToken),
      ("Accept".toList, "application/json".toList)] ++
    if post then [("Content-Type".toList, "application/json".toList)] else []
  body := if post then jsonBody else []

structure Exchange where
  request : HttpRequest
  answer : Except Text HttpResponse

/-- What a call did: the requests for its own path, the session it leaves, and
its result. -/
structure SessionRun (σ α : Type) where
  exchanges : List Exchange
  session : Session σ
  result : Except Text α

/-- `do_req`. -/
def doReq (post : Bool) (path jsonBody : Text) (s : Session σ) : SessionRun σ HttpResponse :=
  let req := authorizedRequest s.token post path jsonBody
  let answer := if post then s.client.post req s.world else s.client.get req s.world
  ⟨[⟨req, answer.1⟩], { s with world := answer.2 }, answer.1⟩

def unreachableError (path e : Text) : Text :=
  "salesforce: request to ".toList ++ path ++ " failed to reach the server (".toList ++ e ++
    ").".toList

def refusedTwiceError : Text :=
  "salesforce: authentication failed (HTTP 401) after refreshing the token.".toList

def requestLimitError : Text :=
  ("salesforce: daily API request limit exhausted (REQUEST_LIMIT_EXCEEDED). This " ++
    "resets at the org's midnight and is not retried. Reduce usage, raise the org " ++
    "limit, or wait for the reset.").toList

def checkRequestLimit (resp : HttpResponse) : Except Text HttpResponse :=
  if 400 ≤ resp.status ∧
      getString resp.body "errorCode".toList = "REQUEST_LIMIT_EXCEEDED".toList then
    .error requestLimitError
  else .ok resp

def secondResult (path : Text) : Except Text HttpResponse → Except Text HttpResponse
  | .error e => .error (unreachableError path e)
  | .ok resp => if resp.status = 401 then .error refusedTwiceError else checkRequestLimit resp

def authorizedSend (post : Bool) (path jsonBody : Text) (s : Session σ) :
    SessionRun σ HttpResponse :=
  let first := doReq post path jsonBody s
  match first.result with
  | .error e => ⟨first.exchanges, first.session, .error (unreachableError path e)⟩
  | .ok resp =>
    if resp.status = 401 then
      match acquireToken first.session with
      | (.error e, world) => ⟨first.exchanges, { first.session with world := world }, .error e⟩
      | (.ok token, world) =>
        let second := doReq post path jsonBody { first.session with token := token, world := world }
        ⟨first.exchanges ++ second.exchanges, second.session, secondResult path second.result⟩
    else ⟨first.exchanges, first.session, checkRequestLimit resp⟩

/-! ### What a call leaves behind -/

theorem checkRequestLimit_ok (resp r : HttpResponse) (h : checkRequestLimit resp = .ok r) :
    r = resp := by
  unfold checkRequestLimit at h
  split at h
  · cases h
  · exact (Except.ok.inj h).symm

theorem secondResult_ok (path : Text) (answer : Except Text HttpResponse) (r : HttpResponse)
    (h : secondResult path answer = .ok r) : answer = .ok r := by
  cases answer with
  | error e => cases h
  | ok resp =>
    unfold secondResult at h
    simp only at h
    split at h
    · cases h
    · rw [checkRequestLimit_ok resp r h]

/-- A response comes from the instance of the token that the session holds
afterwards. -/
theorem authorizedSend_ok (post : Bool) (path jsonBody : Text) (s : Session σ) (r : HttpResponse)
    (h : (authorizedSend post path jsonBody s).result = .ok r) :
    ⟨authorizedRequest (authorizedSend post path jsonBody s).session.token post path jsonBody,
      .ok r⟩ ∈ (authorizedSend post path jsonBody s).exchanges := by
  unfold authorizedSend at h ⊢
  simp only at h ⊢
  cases hfirst : (doReq post path jsonBody s).result with
  | error e =>
    rw [hfirst] at h
    cases h
  | ok resp =>
    rw [hfirst] at h
    simp only at h ⊢
    by_cases hexpired : resp.status = 401
    · rw [if_pos hexpired] at h ⊢
      generalize acquireToken (doReq post path jsonBody s).session = acquired at h ⊢
      obtain ⟨token | token, world⟩ := acquired
      · cases h
      · simp only at h ⊢
        have hsecond := secondResult_ok path _ r h
        apply List.mem_append_right
        rw [← hsecond]
        exact List.mem_singleton_self _
    · rw [if_neg hexpired] at h ⊢
      rw [checkRequestLimit_ok resp r h, ← hfirst]
      exact List.mem_singleton_self _

end

end DuckdbSalesforce
