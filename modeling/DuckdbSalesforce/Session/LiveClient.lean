import Mathlib
import DuckdbSalesforce.Json.Reader
import DuckdbSalesforce.Library.NumberScan
import DuckdbSalesforce.Session.AuthorizedSend

/-!
# The live HTTP client (salesforce_http_client.cpp)

`Send` tries a request again after a status of 429 or from 500 on and after a
lost connection. The network with the server behind it is a parameter; what it
was asked and did is recorded.
-/

namespace DuckdbSalesforce
open NumberScan

structure ParsedUrl where
  https : Bool
  host : Text
  port : ℤ
  path : Text
  deriving DecidableEq

/-- `std::atoi`. -/
def atoi (t : Text) : ℤ := ((readNumber t).map Prod.fst).getD 0

def parseUrl (url : Text) : Option ParsedUrl :=
  match findText "://".toList url with
  | none => none
  | some schemeEnd =>
    let scheme := url.take schemeEnd
    let https := scheme == "https".toList || scheme == "HTTPS".toList
    let rest := url.drop (schemeEnd + 3)
    let authority := rest.takeWhile (· != '/')
    let path := if '/' ∈ rest then rest.dropWhile (· != '/') else "/".toList
    let host := authority.takeWhile (· != ':')
    let port := if ':' ∈ authority then atoi (authority.dropWhile (· != ':')).tail
      else if https then 443 else 80
    if host = [] then none else some ⟨https, host, port, path⟩

/-- What `httplib` is asked to send. -/
structure WireRequest where
  post : Bool
  target : ParsedUrl
  headers : List (Text × Text)
  contentType : Text
  body : Text

def wireRequest (post : Bool) (target : ParsedUrl) (req : HttpRequest) : WireRequest where
  post := post
  target := target
  headers := req.headers.filter fun h => !ciEquals h.1 "Content-Type".toList
  contentType := ((req.headers.filter fun h => ciEquals h.1 "Content-Type".toList).getLast?.map
    Prod.snd).getD "application/x-www-form-urlencoded".toList
  body := req.body

/-- A response, a certificate that does not verify, or another error. -/
inductive WireAnswer where
  | response (r : HttpResponse)
  | certificate
  | lost (error : Text)

/-- One request on the wire, and whether it made the server create a query job. -/
structure Attempt where
  request : WireRequest
  answer : WireAnswer
  created : Bool

/-- The server, and what has been sent to it. -/
structure Wire (ν : Type) where
  server : ν
  attempts : List Attempt

/-- The answer to a request, whether it created a query job, and the server
afterwards. -/
abbrev Network (ν : Type) := WireRequest → ν → WireAnswer × Bool × ν

def isTransientStatus (status : ℤ) : Bool := status == 429 || 500 ≤ status

structure LiveHttpClient where
  retryMax : ℕ
  /-- `__APPLE__`. -/
  apple : Bool

def certificateError (apple : Bool) : Text :=
  if apple then
    ("TLS certificate verification failed. On macOS, OpenSSL has " ++
      "no default CA bundle; set SSL_CERT_FILE to one and retry, " ++
      "e.g. export SSL_CERT_FILE=$(brew --prefix)/etc/openssl@3/cert.pem " ++
      "(or a certifi bundle: export " ++
      "SSL_CERT_FILE=$(python3 -m certifi))").toList
  else "TLS certificate verification failed".toList

section
variable {ν : Type} (net : Network ν)

def sendOnce (req : WireRequest) (w : Wire ν) : WireAnswer × Wire ν :=
  let done := net req w.server
  (done.1, ⟨done.2.2, w.attempts ++ [⟨req, done.1, done.2.1⟩]⟩)

/-- The loop with so many attempts left. -/
def sendAttempts (apple : Bool) (req : WireRequest) :
    ℕ → Wire ν → Except Text HttpResponse × Wire ν
  | 0, w => (.error "exhausted retries".toList, w)
  | n + 1, w =>
    let sent := sendOnce net req w
    match sent.1 with
    | .response r =>
      if isTransientStatus r.status = true ∧ n ≠ 0 then sendAttempts apple req n sent.2
      else (.ok r, sent.2)
    | .certificate => (.error (certificateError apple), sent.2)
    | .lost error => if n ≠ 0 then sendAttempts apple req n sent.2 else (.error error, sent.2)

def LiveHttpClient.send (c : LiveHttpClient) (post : Bool) (req : HttpRequest) (w : Wire ν) :
    Except Text HttpResponse × Wire ν :=
  match parseUrl req.url with
  | none => (.error "URL must be an absolute https:// endpoint".toList, w)
  | some target =>
    if target.https then sendAttempts net c.apple (wireRequest post target req) c.retryMax w
    else (.error "URL must be an absolute https:// endpoint".toList, w)

def LiveHttpClient.client (c : LiveHttpClient) : HttpClient (Wire ν) where
  post := c.send net true
  get := c.send net false

/-! ### What a request puts on the wire -/

/-- An attempt after which the client or the session asks again. -/
def Attempt.Unanswered (a : Attempt) : Prop :=
  (∃ error, a.answer = .lost error) ∨
    ∃ r, a.answer = .response r ∧ (isTransientStatus r.status = true ∨ r.status = 401)

/-- The attempt is one that the network saw. -/
def Attempt.SeenBy (a : Attempt) : Prop :=
  ∃ server, a.answer = (net a.request server).1 ∧ a.created = (net a.request server).2.1

/-- A response ends the attempts, and those before it were not answered. -/
def EndsAnswered (added : List Attempt) (r : HttpResponse) : Prop :=
  ∃ failed last, added = failed ++ [last] ∧ (∀ a ∈ failed, a.Unanswered) ∧
    last.answer = .response r

theorem sendAttempts_adds (apple : Bool) (req : WireRequest) (n : ℕ) (w : Wire ν) :
    ∃ added, (sendAttempts net apple req n w).2.attempts = w.attempts ++ added ∧
      (∀ a ∈ added, a.SeenBy net ∧ a.request = req) ∧
      ∀ r, (sendAttempts net apple req n w).1 = .ok r → EndsAnswered added r := by
  induction n generalizing w with
  | zero => exact ⟨[], by simp [sendAttempts], by simp, fun r h => by cases h⟩
  | succ n ih =>
    let a : Attempt := ⟨req, (net req w.server).1, (net req w.server).2.1⟩
    have hseen : a.SeenBy net ∧ a.request = req := ⟨⟨w.server, rfl, rfl⟩, rfl⟩
    have honce : (sendOnce net req w).2.attempts = w.attempts ++ [a] := rfl
    have hanswer : (sendOnce net req w).1 = a.answer := rfl
    -- another round after an attempt that was not answered
    have hagain : a.Unanswered →
        ∃ added, (sendAttempts net apple req n (sendOnce net req w).2).2.attempts =
            w.attempts ++ added ∧ (∀ b ∈ added, b.SeenBy net ∧ b.request = req) ∧
          ∀ r, (sendAttempts net apple req n (sendOnce net req w).2).1 = .ok r →
            EndsAnswered added r := by
      intro hfailed
      obtain ⟨added, hadded, hall, hend⟩ := ih (sendOnce net req w).2
      refine ⟨a :: added, ?_, ?_, ?_⟩
      · rw [hadded, honce, List.append_assoc]
        rfl
      · intro b hb
        rcases List.mem_cons.mp hb with rfl | hb
        · exact hseen
        · exact hall b hb
      · intro r hr
        obtain ⟨failed, last, rfl, hfail, hlast⟩ := hend r hr
        refine ⟨a :: failed, last, rfl, ?_, hlast⟩
        intro b hb
        rcases List.mem_cons.mp hb with rfl | hb
        · exact hfailed
        · exact hfail b hb
    have hstop : ∀ result : Except Text HttpResponse,
        (∀ r, result = .ok r → a.answer = .response r) →
        ∃ added, (sendOnce net req w).2.attempts = w.attempts ++ added ∧
          (∀ b ∈ added, b.SeenBy net ∧ b.request = req) ∧
          ∀ r, result = .ok r → EndsAnswered added r := by
      intro result hresult
      refine ⟨[a], honce, ?_, ?_⟩
      · intro b hb
        rw [List.mem_singleton.mp hb]
        exact hseen
      · intro r hr
        exact ⟨[], a, rfl, by simp, hresult r hr⟩
    unfold sendAttempts
    dsimp only
    rw [hanswer]
    cases hcase : a.answer with
    | response r =>
      dsimp only
      by_cases hretry : isTransientStatus r.status = true ∧ n ≠ 0
      · rw [if_pos hretry]
        exact hagain (Or.inr ⟨r, hcase, Or.inl hretry.1⟩)
      · rw [if_neg hretry]
        apply hstop
        intro r' hr'
        rw [hcase, Except.ok.inj hr']
    | certificate => exact hstop _ fun r h => by cases h
    | lost error =>
      dsimp only
      by_cases hmore : n ≠ 0
      · rw [if_pos hmore]
        exact hagain (Or.inl ⟨error, hcase⟩)
      · rw [if_neg hmore]
        exact hstop _ fun r h => by cases h

theorem send_adds (c : LiveHttpClient) (post : Bool) (req : HttpRequest) (w : Wire ν) :
    ∃ added, (c.send net post req w).2.attempts = w.attempts ++ added ∧
      (∀ a ∈ added, a.SeenBy net ∧ a.request.post = post ∧
        parseUrl req.url = some a.request.target ∧ a.request.target.https = true) ∧
      ∀ r, (c.send net post req w).1 = .ok r → EndsAnswered added r := by
  have hnone : ∃ added, w.attempts = w.attempts ++ added ∧
      (∀ a ∈ added, a.SeenBy net ∧ a.request.post = post ∧
        parseUrl req.url = some a.request.target ∧ a.request.target.https = true) ∧
      ∀ r, (Except.error "URL must be an absolute https:// endpoint".toList :
        Except Text HttpResponse) = .ok r → EndsAnswered added r :=
    ⟨[], by simp, by simp, fun r h => by cases h⟩
  unfold LiveHttpClient.send
  cases hparse : parseUrl req.url with
  | none =>
    rw [hparse] at hnone
    exact hnone
  | some target =>
    dsimp only
    split
    · rename_i hhttps
      obtain ⟨added, hadded, hall, hend⟩ :=
        sendAttempts_adds net c.apple (wireRequest post target req) c.retryMax w
      refine ⟨added, hadded, ?_, hend⟩
      intro a ha
      obtain ⟨hseen, hreq⟩ := hall a ha
      rw [hreq]
      exact ⟨hseen, rfl, rfl, hhttps⟩
    · rw [hparse] at hnone
      exact hnone

/-! ### The path on the wire -/

/-- The path is the end of the URL. -/
theorem parseUrl_path (url : Text) (target : ParsedUrl) (h : parseUrl url = some target) :
    target.path = ['/'] ∨ target.path <:+ url := by
  unfold parseUrl at h
  split at h
  · cases h
  · dsimp only at h
    split at h
    · cases h
    · rw [← Option.some.inj h]
      dsimp only
      split
      · exact Or.inr ((List.dropWhile_suffix _).trans (List.drop_suffix _ _))
      · exact Or.inl rfl

theorem suffix_dropWhile (tail t : Text) (h : ('/' :: tail) <:+ t) :
    '/' ∈ t ∧ ('/' :: tail) <:+ t.dropWhile (· != '/') := by
  obtain ⟨before, rfl⟩ := h
  refine ⟨by simp, ?_⟩
  rw [List.dropWhile_append]
  split
  · simp
  · exact List.suffix_append _ _

/-- What a long URL ends with from a slash on, its path ends with. -/
theorem parseUrl_suffix (url tail : Text) (target : ParsedUrl) (h : parseUrl url = some target)
    (hhttps : target.https = true) (hlong : 8 + ('/' :: tail).length ≤ url.length)
    (htail : ('/' :: tail) <:+ url) : ('/' :: tail) <:+ target.path := by
  unfold parseUrl at h
  split at h
  · cases h
  · rename_i schemeEnd _
    dsimp only at h
    split at h
    · cases h
    · rw [← Option.some.inj h] at hhttps ⊢
      dsimp only at hhttps ⊢
      have hscheme : (url.take schemeEnd).length = 5 := by
        simp only [Bool.or_eq_true, beq_iff_eq] at hhttps
        rcases hhttps with hs | hs <;> rw [hs] <;> rfl
      have hend : schemeEnd + 3 = 8 := by
        rw [List.length_take] at hscheme
        omega
      have hrest : ('/' :: tail) <:+ url.drop 8 := by
        apply List.suffix_of_suffix_length_le htail (List.drop_suffix 8 url)
        rw [List.length_drop]
        omega
      obtain ⟨hslash, hpath⟩ := suffix_dropWhile tail _ hrest
      rw [hend, if_pos hslash]
      exact hpath

end

end DuckdbSalesforce
