import DuckdbSalesforce.Scan.ScanRows

/-!
# Credentials in one URL (`ParseSfdxAuthUrl`, salesforce_config.cpp)

`force://<clientId>:<clientSecret>:<refreshToken>@<instance>`. The last `@`
ends the credentials and the first two colons part them, so that the refresh
token may hold both. `LTrim` and `RTrim` are DuckDB's.
-/

namespace DuckdbSalesforce

/-- `std::string::rfind` of a character. -/
def rfindChar (c : Char) : Text → Option ℕ
  | [] => none
  | d :: t =>
    match rfindChar c t with
    | some k => some (k + 1)
    | none => if d = c then some 0 else none

def kForce : Text := "force://".toList
def kHttps : Text := "https://".toList

def loginUrlError (url : Text) : Text :=
  "salesforce ATTACH: 'login_url' must be an absolute https:// URL (got: '".toList ++ url ++
    "').".toList

def validateLoginUrl (url : Text) : Except Text Unit :=
  if !kHttps.isPrefixOf (lower url) ∨ url.length ≤ kHttps.length then .error (loginUrlError url)
  else .ok ()

def sfdxError : Text :=
  ("salesforce ATTACH: SF_SFDX_AUTH_URL is not a valid SFDX auth URL " ++
    "(expected force://<clientId>:<clientSecret>:<refreshToken>@<instance>).").toList

section
variable (lTrim rTrim : Text → Text)

def trimmed (s : Text) : Text := rTrim (lTrim s)

def parseSfdxAuthUrl (url : Text) (cfg : SalesforceConfig) : Except Text SalesforceConfig :=
  if !kForce.isPrefixOf url then .error sfdxError
  else
    let rest := url.drop kForce.length
    match rfindChar '@' rest with
    | none => .error sfdxError
    | some sep =>
      let creds := rest.take sep
      let host := trimTrailingSlash (trimmed lTrim rTrim (rest.drop (sep + 1)))
      if host = [] then .error sfdxError
      else
        match findText [':'] creds with
        | none => .error sfdxError
        | some p1 =>
          match findText [':'] (creds.drop (p1 + 1)) with
          | none => .error sfdxError
          | some k =>
            let p2 := p1 + 1 + k
            let parsed := { cfg with
              clientId := creds.take p1
              clientSecret := (creds.drop (p1 + 1)).take (p2 - p1 - 1)
              refreshToken := creds.drop (p2 + 1)
              loginUrl := kHttps ++ host }
            if parsed.clientId = [] ∨ parsed.refreshToken = [] then .error sfdxError
            else (validateLoginUrl parsed.loginUrl).map fun _ => parsed

/-! ### The parts of a URL -/

/-- What the separators of a URL part it into. -/
structure SfdxParts where
  clientId : Text
  clientSecret : Text
  refreshToken : Text
  authority : Text
  idPlain : ':' ∉ clientId
  secretPlain : ':' ∉ clientSecret
  authorityPlain : '@' ∉ authority

def SfdxParts.creds (p : SfdxParts) : Text :=
  p.clientId ++ ':' :: (p.clientSecret ++ ':' :: p.refreshToken)

def SfdxParts.text (p : SfdxParts) : Text := kForce ++ (p.creds ++ '@' :: p.authority)

def SfdxParts.host (p : SfdxParts) : Text := trimTrailingSlash (trimmed lTrim rTrim p.authority)

def SfdxParts.Complete (p : SfdxParts) : Prop :=
  p.clientId ≠ [] ∧ p.refreshToken ≠ [] ∧ p.host lTrim rTrim ≠ []

def SfdxParts.config (p : SfdxParts) (cfg : SalesforceConfig) : SalesforceConfig :=
  { cfg with
    clientId := p.clientId
    clientSecret := p.clientSecret
    refreshToken := p.refreshToken
    loginUrl := kHttps ++ p.host lTrim rTrim }

/-! ### Searching -/

theorem rfindChar_absent (c : Char) (t : Text) (h : c ∉ t) : rfindChar c t = none := by
  induction t with
  | nil => rfl
  | cons d t ih =>
    have hd : d ≠ c := fun hdc => h (by rw [hdc]; exact List.mem_cons_self)
    rw [rfindChar, ih fun hmem => h (List.mem_cons_of_mem d hmem)]
    exact if_neg hd

theorem rfindChar_last (c : Char) (a b : Text) (h : c ∉ b) :
    rfindChar c (a ++ c :: b) = some a.length := by
  induction a with
  | nil =>
    rw [List.nil_append, rfindChar, rfindChar_absent c b h]
    exact if_pos rfl
  | cons d a ih =>
    rw [List.cons_append, rfindChar, ih]
    rfl

theorem rfindChar_cases (c : Char) (t : Text) :
    rfindChar c t = none ∨ ∃ a b, t = a ++ c :: b ∧ c ∉ b ∧ rfindChar c t = some a.length := by
  by_cases h : c ∈ t
  · obtain ⟨b, a, hsplit, hb⟩ := List.eq_append_cons_of_mem (List.mem_reverse.mpr h)
    have ht : t = a.reverse ++ c :: b.reverse := by
      rw [← List.reverse_reverse t, hsplit]
      simp
    have hplain : c ∉ b.reverse := fun hmem => hb (List.mem_reverse.mp hmem)
    refine Or.inr ⟨a.reverse, b.reverse, ht, hplain, ?_⟩
    rw [ht, rfindChar_last c _ _ hplain]
  · exact Or.inl (rfindChar_absent c t h)

theorem findText_first (c : Char) (a b : Text) (h : c ∉ a) :
    findText [c] (a ++ c :: b) = some a.length := by
  rw [findText_skip c a _ h, findText_here, Option.map_some, Nat.zero_add]

/-! ### The login URL -/

theorem validateLoginUrl_https (host : Text) :
    validateLoginUrl (kHttps ++ host) = .ok () ↔ host ≠ [] := by
  have hscheme : kHttps.isPrefixOf (lower (kHttps ++ host)) = true := by
    rw [lower, List.map_append]
    exact List.isPrefixOf_iff_prefix.mpr ⟨host.map Char.toLower, rfl⟩
  have hlen : (kHttps ++ host).length ≤ kHttps.length ↔ host = [] := by
    rw [List.length_append, ← List.length_eq_zero_iff]
    omega
  rw [validateLoginUrl, hscheme]
  by_cases hhost : host = []
  · rw [if_pos (Or.inr (hlen.mpr hhost))]
    simp [hhost]
  · rw [if_neg (by simpa [hlen] using hhost)]
    simp [hhost]

/-! ### The parser -/

theorem sep_take (a b : Text) (c : Char) : (a ++ c :: b).take a.length = a := List.take_left

theorem sep_drop (a b : Text) (c : Char) : (a ++ c :: b).drop (a.length + 1) = b := by
  rw [← List.drop_drop, List.drop_left]
  rfl

theorem starts_force (t : Text) : kForce.isPrefixOf (kForce ++ t) = true :=
  List.isPrefixOf_iff_prefix.mpr (List.prefix_append _ _)

theorem creds_drop (p : SfdxParts) :
    p.creds.drop (p.clientId.length + 1) = p.clientSecret ++ ':' :: p.refreshToken :=
  sep_drop p.clientId _ ':'

/-- The parser takes a URL apart where its parts were joined. -/
theorem parse_parts (p : SfdxParts) (cfg : SalesforceConfig) (h : p.Complete lTrim rTrim) :
    parseSfdxAuthUrl lTrim rTrim p.text cfg = .ok (p.config lTrim rTrim cfg) := by
  obtain ⟨hid, htoken, hhost⟩ := h
  have hscheme : kForce.isPrefixOf p.text = true := starts_force _
  have hrest : p.text.drop kForce.length = p.creds ++ '@' :: p.authority := List.drop_left
  have hsep := rfindChar_last '@' p.creds p.authority p.authorityPlain
  have hfirst : findText [':'] p.creds = some p.clientId.length :=
    findText_first ':' p.clientId _ p.idPlain
  have hsecond : findText [':'] (p.clientSecret ++ ':' :: p.refreshToken) =
      some p.clientSecret.length := findText_first ':' p.clientSecret _ p.secretPlain
  have hclientId : p.creds.take p.clientId.length = p.clientId := List.take_left
  have hsecret : (p.clientSecret ++ ':' :: p.refreshToken).take
      (p.clientId.length + 1 + p.clientSecret.length - p.clientId.length - 1) = p.clientSecret := by
    rw [List.take_left' (by omega)]
  have hrefresh : p.creds.drop (p.clientId.length + 1 + p.clientSecret.length + 1) =
      p.refreshToken := by
    rw [Nat.add_assoc (p.clientId.length + 1), ← List.drop_drop, creds_drop, sep_drop]
  have hurl := (validateLoginUrl_https (p.host lTrim rTrim)).mpr hhost
  unfold SfdxParts.host at hhost hurl
  unfold parseSfdxAuthUrl
  simp only [hscheme, Bool.not_true, Bool.false_eq_true, if_false, hrest, hsep, sep_take, sep_drop,
    hhost, hfirst, creds_drop, hsecond, hclientId, hsecret, hrefresh, hid, htoken, or_self, hurl]
  rfl

/-- What does not come apart into complete parts is refused, with an error that
holds nothing of the URL. -/
theorem parse_cases (url : Text) (cfg : SalesforceConfig) :
    parseSfdxAuthUrl lTrim rTrim url cfg = .error sfdxError ∨
      ∃ p : SfdxParts, p.text = url ∧ p.Complete lTrim rTrim := by
  by_cases hscheme : kForce <+: url
  swap
  · left
    have hfalse : kForce.isPrefixOf url = false := by
      rw [← Bool.not_eq_true, List.isPrefixOf_iff_prefix]
      exact hscheme
    rw [parseSfdxAuthUrl, hfalse]
    rfl
  obtain ⟨rest, rfl⟩ := hscheme
  have hrest : (kForce ++ rest).drop kForce.length = rest := List.drop_left
  rcases rfindChar_cases '@' rest with hsep | ⟨creds, authority, rfl, hauthority, hsep⟩
  · left
    unfold parseSfdxAuthUrl
    simp only [starts_force, Bool.not_true, Bool.false_eq_true, if_false, hrest, hsep]
  by_cases hhost : trimTrailingSlash (trimmed lTrim rTrim authority) = []
  · left
    unfold parseSfdxAuthUrl
    simp only [starts_force, Bool.not_true, Bool.false_eq_true, if_false, hrest, hsep, sep_drop,
      hhost, if_true]
  rcases findText_cases ':' creds with ⟨-, hfirst⟩ | ⟨clientId, more, rfl, hid, hfirst⟩
  · left
    unfold parseSfdxAuthUrl
    simp only [starts_force, Bool.not_true, Bool.false_eq_true, if_false, hrest, hsep, sep_drop,
      sep_take, hhost, hfirst]
  rcases findText_cases ':' more with ⟨-, hsecond⟩ | ⟨secret, refresh, rfl, hsecret, hsecond⟩
  · left
    unfold parseSfdxAuthUrl
    simp only [starts_force, Bool.not_true, Bool.false_eq_true, if_false, hrest, hsep, sep_drop,
      sep_take, hhost, hfirst, hsecond]
  by_cases hempty : clientId = [] ∨ refresh = []
  · left
    have hrefresh : (clientId ++ ':' :: (secret ++ ':' :: refresh)).drop
        (clientId.length + 1 + secret.length + 1) = refresh := by
      rw [Nat.add_assoc (clientId.length + 1), ← List.drop_drop, sep_drop, sep_drop]
    unfold parseSfdxAuthUrl
    simp only [starts_force, Bool.not_true, Bool.false_eq_true, if_false, hrest, hsep, sep_drop,
      sep_take, hhost, hfirst, hsecond, hrefresh, hempty, if_true]
  · right
    obtain ⟨hidNe, hrefreshNe⟩ := not_or.mp hempty
    exact ⟨⟨clientId, secret, refresh, authority, hid, hsecret, hauthority⟩, rfl, hidNe, hrefreshNe,
      hhost⟩

theorem parse_ok_iff (url : Text) (cfg c : SalesforceConfig) :
    parseSfdxAuthUrl lTrim rTrim url cfg = .ok c ↔
      ∃ p : SfdxParts, p.text = url ∧ p.Complete lTrim rTrim ∧ c = p.config lTrim rTrim cfg := by
  constructor
  · intro h
    rcases parse_cases lTrim rTrim url cfg with herror | ⟨p, rfl, hcomplete⟩
    · rw [herror] at h
      cases h
    · rw [parse_parts lTrim rTrim p cfg hcomplete] at h
      exact ⟨p, rfl, hcomplete, (Except.ok.inj h).symm⟩
  · intro h
    obtain ⟨p, rfl, hcomplete, rfl⟩ := h
    exact parse_parts lTrim rTrim p cfg hcomplete

end

/-! ### Round trip -/

theorem host_bare (lTrim rTrim : Text → Text) (p : SfdxParts)
    (hleft : ∀ t : Text, (∀ c ∈ t.head?, isSpace c = false) → lTrim t = t)
    (hright : ∀ t : Text, (∀ c ∈ t.getLast?, isSpace c = false) → rTrim t = t)
    (hhead : ∀ c ∈ p.authority.head?, isSpace c = false)
    (hlast : ∀ c ∈ p.authority.getLast?, isSpace c = false ∧ c ≠ '/') :
    p.host lTrim rTrim = p.authority := by
  have hslash : trimTrailingSlash p.authority = p.authority := by
    rw [trimTrailingSlash, List.rdropWhile_eq_self_iff]
    intro hne
    have hmem : p.authority.getLast hne ∈ p.authority.getLast? :=
      List.getLast_mem_getLast? hne
    simpa using (hlast _ hmem).2
  rw [SfdxParts.host, trimmed, hleft _ hhead, hright _ fun c hc => (hlast c hc).1, hslash]

/-- The parts of a URL are read back, whatever the refresh token holds; a URL
that lacks its scheme, a separator or a part other than the secret, or of whose
host nothing is left, is refused. -/
theorem sfdx_round_trip (lTrim rTrim : Text → Text)
    (hleft : ∀ t : Text, (∀ c ∈ t.head?, isSpace c = false) → lTrim t = t)
    (hright : ∀ t : Text, (∀ c ∈ t.getLast?, isSpace c = false) → rTrim t = t)
    (cfg : SalesforceConfig) :
    (∀ p : SfdxParts, p.clientId ≠ [] → p.refreshToken ≠ [] →
      (∀ c ∈ p.authority.head?, isSpace c = false) →
      (∀ c ∈ p.authority.getLast?, isSpace c = false ∧ c ≠ '/') →
      validateLoginUrl (kHttps ++ p.authority) = .ok () →
      parseSfdxAuthUrl lTrim rTrim p.text cfg = .ok { cfg with
        clientId := p.clientId
        clientSecret := p.clientSecret
        refreshToken := p.refreshToken
        loginUrl := kHttps ++ p.authority }) ∧
    (∀ url : Text,
      (¬ ∃ p : SfdxParts, p.text = url ∧ p.clientId ≠ [] ∧ p.refreshToken ≠ [] ∧
        p.authority ≠ [] ∧ p.host lTrim rTrim ≠ []) →
      parseSfdxAuthUrl lTrim rTrim url cfg = .error sfdxError) := by
  refine ⟨?_, ?_⟩
  · intro p hid hrefresh hhead hlast hurl
    have hhost := host_bare lTrim rTrim p hleft hright hhead hlast
    have hne : p.host lTrim rTrim ≠ [] := by
      rw [hhost]
      exact (validateLoginUrl_https p.authority).mp hurl
    rw [parse_parts lTrim rTrim p cfg ⟨hid, hrefresh, hne⟩, SfdxParts.config, hhost]
  · intro url hlacks
    rcases parse_cases lTrim rTrim url cfg with herror | ⟨p, htext, hid, hrefresh, hhost⟩
    · exact herror
    · refine absurd ⟨p, htext, hid, hrefresh, ?_, hhost⟩ hlacks
      intro hauthority
      have hempty := host_bare lTrim rTrim p hleft hright (by simp [hauthority])
        (by simp [hauthority])
      exact hhost (by rw [hempty, hauthority])

def blankConfig : SalesforceConfig where
  org := "production".toList
  authMethod := .refreshToken
  clientId := []
  clientSecret := []
  refreshToken := []
  username := []
  privateKey := []
  loginUrl := []
  apiVersion := []
  queryMode := []
  transport := []
  bulkChunks := 0

/-- No secret, and separators in the refresh token. -/
def separatorParts : SfdxParts where
  clientId := "PlatformCLI".toList
  clientSecret := []
  refreshToken := "5Aep:86@1k".toList
  authority := "na1.salesforce.com".toList
  idPlain := by decide
  secretPlain := by decide
  authorityPlain := by decide

theorem separators_in_token :
    parseSfdxAuthUrl (List.dropWhile isSpace) (List.rdropWhile isSpace)
        "force://PlatformCLI::5Aep:86@1k@na1.salesforce.com".toList blankConfig =
      .ok { blankConfig with
        clientId := "PlatformCLI".toList
        clientSecret := []
        refreshToken := "5Aep:86@1k".toList
        loginUrl := "https://na1.salesforce.com".toList } := by
  have hleft : ∀ t : Text, (∀ c ∈ t.head?, isSpace c = false) → t.dropWhile isSpace = t := by
    intro t ht
    cases t with
    | nil => rfl
    | cons c t => exact List.dropWhile_cons_of_neg (by simpa using ht c rfl)
  have hright : ∀ t : Text, (∀ c ∈ t.getLast?, isSpace c = false) → t.rdropWhile isSpace = t := by
    intro t ht
    rw [List.rdropWhile_eq_self_iff]
    intro hne
    simpa using ht _ (List.getLast_mem_getLast? hne)
  have hhead : ∀ c ∈ separatorParts.authority.head?, isSpace c = false := by
    intro c hc
    rw [← Option.some.inj hc]
    rfl
  have hlast : ∀ c ∈ separatorParts.authority.getLast?, isSpace c = false ∧ c ≠ '/' := by
    intro c hc
    have hm : 'm' = c := Option.some.inj hc
    rw [← hm]
    decide
  exact (sfdx_round_trip (List.dropWhile isSpace) (List.rdropWhile isSpace) hleft hright
    blankConfig).1 separatorParts (by decide) (by decide) hhead hlast
    ((validateLoginUrl_https _).mpr (by decide))

end DuckdbSalesforce
