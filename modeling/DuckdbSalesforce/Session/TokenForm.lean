import DuckdbSalesforce.Library.PercentText
import DuckdbSalesforce.Session.JwtAssertion

/-!
# The login form (salesforce_auth.cpp)

`ExchangeRefreshToken` posts the credentials as a form, `ExchangeJwtBearer` the
signed assertion. `FormEncode` and `UrlEncodeComponent` (salesforce_url.hpp) are
the same loop.
-/

namespace DuckdbSalesforce
open Base64Text PercentText JsonText

def unreserved (c : Char) : Bool := isAlnum c || c == '-' || c == '_' || c == '.' || c == '~'

def formEncode (s : Text) : Text := PercentText.encode unreserved s

def urlEncodeComponent (s : Text) : Text := PercentText.encode unreserved s

/-- The body of `ExchangeRefreshToken`. -/
def refreshTokenBody (config : SalesforceConfig) : Text :=
  "grant_type=refresh_token".toList ++ "&client_id=".toList ++ formEncode config.clientId ++
    "&client_secret=".toList ++ formEncode config.clientSecret ++
    "&refresh_token=".toList ++ formEncode config.refreshToken

def jwtGrantType : Text := "urn:ietf:params:oauth:grant-type:jwt-bearer".toList

/-- The body of `ExchangeJwtBearer`. -/
def jwtBearerBody (signRs256 : Text → Text → Except Text Bytes) (config : SalesforceConfig)
    (now : ℤ) : Except Text Text :=
  (jwtAssertion signRs256 config now).map fun assertion =>
    "grant_type=".toList ++ formEncode jwtGrantType ++ "&assertion=".toList ++ formEncode assertion

/-- What `AcquireToken` posts. -/
def tokenBody (signRs256 : Text → Text → Except Text Bytes) (config : SalesforceConfig) (now : ℤ) :
    Except Text Text :=
  if config.authMethod = .jwt then jwtBearerBody signRs256 config now
  else .ok (refreshTokenBody config)

/-! ### The characters that are kept -/

theorem unreserved_safe : FormSafe unreserved where
  percent := by decide
  plus := by decide
  ampersand := by decide
  equals := by decide

theorem urlAlphabet_bytes (c : Char) (h : c ∈ urlAlphabet) : c.toNat < 256 := by
  have hall : (urlAlphabet.all fun c => decide (c.toNat < 256)) = true := by decide +kernel
  exact of_decide_eq_true (List.all_eq_true.mp hall c h)

theorem base64Url_chars (bytes : Bytes) : ∀ c ∈ base64Url bytes, c ∈ urlAlphabet := by
  rw [base64Url_eq]
  exact urlEncode_chars bytes

theorem literal_bytes (t : Text) (h : (t.all fun c => decide (c.toNat < 256)) = true) :
    IsBytes t := fun c hc => of_decide_eq_true (List.all_eq_true.mp h c hc)

/-! ### The forms -/

def refreshTokenFields (config : SalesforceConfig) : List (Text × Text) :=
  [("grant_type".toList, "refresh_token".toList), ("client_id".toList, config.clientId),
    ("client_secret".toList, config.clientSecret), ("refresh_token".toList, config.refreshToken)]

theorem refreshTokenBody_form (config : SalesforceConfig) :
    refreshTokenBody config = form unreserved (refreshTokenFields config) := by
  have hname : ∀ name : Text, name.all unreserved = true → PercentText.encode unreserved name = name :=
    fun name h => encode_kept unreserved name (List.all_eq_true.mp h)
  have hgrant : "grant_type=refresh_token".toList =
      "grant_type".toList ++ '=' :: "refresh_token".toList := by decide
  have hid : "&client_id=".toList = '&' :: ("client_id".toList ++ ['=']) := by decide
  have hsecret : "&client_secret=".toList = '&' :: ("client_secret".toList ++ ['=']) := by decide
  have htoken : "&refresh_token=".toList = '&' :: ("refresh_token".toList ++ ['=']) := by decide
  unfold refreshTokenBody refreshTokenFields form pairText formEncode
  simp only [List.map_cons, List.map_nil, List.intercalate_cons_cons, List.intercalate_singleton,
    hname "grant_type".toList (by decide), hname "refresh_token".toList (by decide),
    hname "client_id".toList (by decide), hname "client_secret".toList (by decide), hgrant, hid,
    hsecret, htoken, List.append_assoc, List.cons_append, List.nil_append]

theorem jwtBearerBody_form (assertion : Text) :
    "grant_type=".toList ++ formEncode jwtGrantType ++ "&assertion=".toList ++ formEncode assertion =
      form unreserved
        [("grant_type".toList, jwtGrantType), ("assertion".toList, assertion)] := by
  have hname : ∀ name : Text, name.all unreserved = true → PercentText.encode unreserved name = name :=
    fun name h => encode_kept unreserved name (List.all_eq_true.mp h)
  have hgrant : "grant_type=".toList = "grant_type".toList ++ ['='] := by decide
  have hassertion : "&assertion=".toList = '&' :: ("assertion".toList ++ ['=']) := by decide
  unfold form pairText formEncode
  simp only [List.map_cons, List.map_nil, List.intercalate_cons_cons, List.intercalate_singleton,
    hname "grant_type".toList (by decide), hname "assertion".toList (by decide), hgrant, hassertion,
    List.append_assoc, List.cons_append, List.nil_append]

/-! ### What the service reads -/

/-- The strings of a configuration hold bytes. -/
structure SalesforceConfig.HoldsBytes (config : SalesforceConfig) : Prop where
  clientId : IsBytes config.clientId
  clientSecret : IsBytes config.clientSecret
  refreshToken : IsBytes config.refreshToken

theorem refreshTokenFields_bytes (config : SalesforceConfig) (h : config.HoldsBytes) :
    ∀ pair ∈ refreshTokenFields config, IsBytes pair.1 ∧ IsBytes pair.2 := by
  intro pair hpair
  simp only [refreshTokenFields, List.mem_cons, List.not_mem_nil, or_false] at hpair
  rcases hpair with hpair | hpair | hpair | hpair
  · rw [hpair]
    exact ⟨literal_bytes _ (by decide), literal_bytes _ (by decide)⟩
  · rw [hpair]
    exact ⟨literal_bytes "client_id".toList (by decide), h.clientId⟩
  · rw [hpair]
    exact ⟨literal_bytes "client_secret".toList (by decide), h.clientSecret⟩
  · rw [hpair]
    exact ⟨literal_bytes "refresh_token".toList (by decide), h.refreshToken⟩

theorem jwtAssertion_bytes (signRs256 : Text → Text → Except Text Bytes)
    (config : SalesforceConfig) (now : ℤ) (t : Text)
    (h : jwtAssertion signRs256 config now = .ok t) : IsBytes t := by
  rw [jwtAssertion] at h
  cases hsign : signRs256 config.privateKey (jwtSigningInput config now) with
  | error e =>
    rw [hsign] at h
    cases h
  | ok sig =>
    rw [hsign] at h
    have ht : jwtSigningInput config now ++ '.' :: base64Url sig = t := Except.ok.inj h
    have hpart : ∀ bytes, ∀ c ∈ base64Url bytes, c.toNat < 256 :=
      fun bytes c hc => urlAlphabet_bytes c (base64Url_chars bytes c hc)
    have hcons : ∀ u : Text, IsBytes u → IsBytes ('.' :: u) := by
      intro u hu c hc
      rcases List.mem_cons.mp hc with hc | hc
      · rw [hc]
        decide
      · exact hu c hc
    have happend : ∀ u v : Text, IsBytes u → IsBytes v → IsBytes (u ++ v) := by
      intro u v hu hv c hc
      rcases List.mem_append.mp hc with hc | hc
      · exact hu c hc
      · exact hv c hc
    rw [← ht, jwtSigningInput]
    exact happend _ _ (happend _ _ (hpart _) (hcons _ (hpart _))) (hcons _ (hpart _))

/-- A service that reads the posted form gets the credentials of the refresh
flow as they are, and of the JWT flow the header, the claims and their
signature. -/
theorem token_form_read (signRs256 : Text → Text → Except Text Bytes) (config : SalesforceConfig)
    (now : ℤ) (body : Text) (hbytes : config.HoldsBytes)
    (h : tokenBody signRs256 config now = .ok body) :
    (config.authMethod = .refreshToken → readForm body = some (refreshTokenFields config)) ∧
      (config.authMethod = .jwt → ∃ assertion sig,
        readForm body =
          some [("grant_type".toList, jwtGrantType), ("assertion".toList, assertion)] ∧
        signRs256 config.privateKey (jwtSigningInput config now) = .ok sig ∧
        (assertion.splitOn '.').map urlDecode =
          [some (ascii jwtHeader), some (ascii (jwtClaims config now)), some sig]) := by
  unfold tokenBody at h
  split at h
  · rename_i hjwt
    refine ⟨fun hrefresh => absurd (hjwt.symm.trans hrefresh) (by decide), fun _ => ?_⟩
    rw [jwtBearerBody] at h
    cases hassertion : jwtAssertion signRs256 config now with
    | error e =>
      rw [hassertion] at h
      cases h
    | ok assertion =>
      rw [hassertion] at h
      have hbody : "grant_type=".toList ++ formEncode jwtGrantType ++ "&assertion=".toList ++
        formEncode assertion = body := Except.ok.inj h
      obtain ⟨sig, hsig, hparts⟩ := jwtAssertion_parts signRs256 config now assertion hassertion
      refine ⟨assertion, sig, ?_, hsig, hparts⟩
      rw [← hbody, jwtBearerBody_form]
      apply readForm_form unreserved_safe
      intro pair hpair
      simp only [List.mem_cons, List.not_mem_nil, or_false] at hpair
      rcases hpair with hpair | hpair
      · rw [hpair]
        exact ⟨literal_bytes _ (by decide), literal_bytes _ (by decide)⟩
      · rw [hpair]
        exact ⟨literal_bytes "assertion".toList (by decide),
          jwtAssertion_bytes signRs256 config now assertion hassertion⟩
  · rename_i hmethod
    refine ⟨fun _ => ?_, fun hjwt => absurd hjwt hmethod⟩
    rw [← Except.ok.inj h, refreshTokenBody_form]
    exact readForm_form unreserved_safe _ (refreshTokenFields_bytes config hbytes)

/-- A secret that holds the separators of a form. -/
def ampersandConfig : SalesforceConfig where
  org := "prod".toList
  authMethod := .refreshToken
  clientId := "id".toList
  clientSecret := "a&b=c %2B".toList
  refreshToken := "5Aep+/".toList
  username := []
  privateKey := []
  loginUrl := "https://login.salesforce.com".toList
  apiVersion := "v60.0".toList
  queryMode := []
  transport := []
  bulkChunks := 0

theorem token_form_read_ampersand : ∃ body,
    tokenBody (fun _ _ => .error []) ampersandConfig 0 = .ok body ∧
      readForm body = some (refreshTokenFields ampersandConfig) := by
  have hbytes : ampersandConfig.HoldsBytes :=
    ⟨literal_bytes _ (by decide), literal_bytes _ (by decide), literal_bytes _ (by decide)⟩
  exact ⟨_, rfl, (token_form_read (fun _ _ => .error []) ampersandConfig 0 _ hbytes rfl).1 rfl⟩

end DuckdbSalesforce
