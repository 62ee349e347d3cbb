import DuckdbSalesforce.Session.AttachConfig

/-!
# What an ATTACH reveals (salesforce_config.cpp)

Two ATTACHes that differ in secrets only fail alike, and what they configure
differs in secrets only: no secret is in an error, and none decides how the
session is set up.
-/

namespace DuckdbSalesforce
open TwoRuns Fallible

def SalesforceConfig.public (c : SalesforceConfig) : SalesforceConfig :=
  { c with clientSecret := [], refreshToken := [], privateKey := [] }

/-- The two differ in their secrets at most. -/
def AlikeConfig (c c' : SalesforceConfig) : Prop := c.public = c'.public

def IsSecretOption (key : Text) : Prop :=
  ciEquals key "client_secret".toList = true ∨ ciEquals key "refresh_token".toList = true

section
variable (lTrim rTrim : Text → Text)

/-- Whether a secret is blank may be known, as it is an error. -/
def AlikeOption (o o' : Text × Text) : Prop :=
  o.1 = o'.1 ∧ (o.2 = o'.2 ∨
    IsSecretOption o.1 ∧ (trimmed lTrim rTrim o.2 = [] ↔ trimmed lTrim rTrim o'.2 = []))

abbrev AlikeOptions (opts opts' : AttachOptions) : Prop :=
  List.Forall₂ (AlikeOption lTrim rTrim) opts opts'

/-- Two SFDX URLs whose secret and refresh token differ. -/
def AlikeUrl (url url' : Text) : Prop :=
  url = url' ∨ ∃ p p' : SfdxParts, p.text = url ∧ p'.text = url' ∧ p.clientId = p'.clientId ∧
    p.authority = p'.authority ∧ (p.refreshToken = [] ↔ p'.refreshToken = [])

def AlikeKey (pem pem' : Text) : Prop :=
  (IsPem pem ↔ IsPem pem') ∧ (IsEncrypted pem ↔ IsEncrypted pem')

/-- Both absent or both there and alike. -/
def AlikeValue (R : Text → Text → Prop) : Option Text → Option Text → Prop
  | none, none => True
  | some v, some v' => R v v'
  | _, _ => False

def secretVariables : List Text :=
  ["SF_CLIENT_SECRET".toList, "SF_REFRESH_TOKEN".toList, "SF_SFDX_AUTH_URL".toList]

structure AlikeWorld (w w' : AttachWorld) : Prop where
  plain : ∀ name ∉ secretVariables,
    envLookup lTrim rTrim w name = envLookup lTrim rTrim w' name
  secret : AlikeValue (fun _ _ => True) (envLookup lTrim rTrim w "SF_CLIENT_SECRET".toList)
    (envLookup lTrim rTrim w' "SF_CLIENT_SECRET".toList)
  token : AlikeValue (fun _ _ => True) (envLookup lTrim rTrim w "SF_REFRESH_TOKEN".toList)
    (envLookup lTrim rTrim w' "SF_REFRESH_TOKEN".toList)
  url : AlikeValue AlikeUrl (envLookup lTrim rTrim w "SF_SFDX_AUTH_URL".toList)
    (envLookup lTrim rTrim w' "SF_SFDX_AUTH_URL".toList)
  file : ∀ path, AlikeValue AlikeKey (w.readFile path) (w'.readFile path)

/-! ### Options -/

variable {opts opts' : AttachOptions} {w w' : AttachWorld}

theorem readOptions_alike (options options' : List (Text × Text))
    (h : AlikeOptions lTrim rTrim options options') (hopts : AlikeOptions lTrim rTrim opts opts') :
    Agree (AlikeOptions lTrim rTrim) (readOptions options opts) (readOptions options' opts') := by
  induction h generalizing opts opts' with
  | nil => exact hopts
  | @cons o o' rest rest' ho _ ih =>
    obtain ⟨key, value⟩ := o
    obtain ⟨key', value'⟩ := o'
    have hkey : key = key' := ho.1
    subst hkey
    rw [readOptions, readOptions]
    refine Agree.ite Iff.rfl (fun _ => ih hopts) fun _ => ?_
    exact Agree.ite Iff.rfl (fun _ => Agree.error _) fun _ => ih (List.Forall₂.cons ho hopts)

theorem optionValue_alike (h : AlikeOptions lTrim rTrim opts opts') (key : Text) :
    optionValue opts key = optionValue opts' key ∨
      ∃ v v', optionValue opts key = some v ∧ optionValue opts' key = some v' ∧
        IsSecretOption key ∧ (trimmed lTrim rTrim v = [] ↔ trimmed lTrim rTrim v' = []) := by
  induction h with
  | nil => exact Or.inl rfl
  | @cons o o' rest rest' ho _ ih =>
    obtain ⟨hkey, hvalue⟩ := ho
    rw [optionValue, optionValue, List.find?_cons, List.find?_cons, ← hkey]
    by_cases hfound : ciEquals o.1 key = true
    · rw [hfound]
      rcases hvalue with hvalue | ⟨hsecret, hblank⟩
      · left
        simp [hvalue]
      · refine Or.inr ⟨o.2, o'.2, rfl, rfl, ?_, hblank⟩
        have hlower : lower o.1 = lower key := by simpa [ciEquals] using hfound
        unfold IsSecretOption ciEquals at hsecret ⊢
        rw [← hlower]
        exact hsecret
    · rw [Bool.not_eq_true] at hfound
      rw [hfound]
      exact ih

theorem givenOption_plain (h : AlikeOptions lTrim rTrim opts opts') (key : Text) (hkey : ¬ IsSecretOption key) :
    givenOption lTrim rTrim opts key = givenOption lTrim rTrim opts' key := by
  rcases optionValue_alike lTrim rTrim h key with heq | ⟨_, _, _, _, hsecret, _⟩
  · rw [givenOption, givenOption, heq]
  · exact absurd hsecret hkey

theorem requireOption_plain (h : AlikeOptions lTrim rTrim opts opts') (key : Text)
    (hkey : ¬ IsSecretOption key) :
    requireOption lTrim rTrim opts key = requireOption lTrim rTrim opts' key := by
  rw [requireOption, requireOption, givenOption_plain lTrim rTrim h key hkey]

theorem requireOption_alike (h : AlikeOptions lTrim rTrim opts opts') (key : Text) :
    Agree (fun _ _ => True) (requireOption lTrim rTrim opts key)
      (requireOption lTrim rTrim opts' key) := by
  rcases optionValue_alike lTrim rTrim h key with heq | ⟨v, v', hv, hv', _, hblank⟩
  · rw [requireOption, requireOption, givenOption, givenOption, heq]
    exact Agree.refl (fun _ => trivial) _
  · rw [requireOption, requireOption, givenOption, givenOption, hv, hv']
    by_cases hempty : trimmed lTrim rTrim v = []
    · simp only [Option.filter, hempty, hblank.mp hempty]
      exact Agree.error _
    · have hempty' : trimmed lTrim rTrim v' ≠ [] := fun he => hempty (hblank.mpr he)
      simp only [Option.filter, hempty, hempty', ne_eq, not_false_eq_true, decide_true, if_true]
      exact Agree.ok trivial

/-! ### Credentials -/

theorem AlikeConfig.refl (c : SalesforceConfig) : AlikeConfig c c := rfl

theorem setLoginUrl_alike (url : Option Text) (c c' : SalesforceConfig) (hc : AlikeConfig c c') :
    Agree AlikeConfig (setLoginUrl lTrim rTrim url c) (setLoginUrl lTrim rTrim url c') := by
  have hset : ∀ u : Text, AlikeConfig { c with loginUrl := u } { c' with loginUrl := u } := by
    intro u
    exact congrArg (fun d : SalesforceConfig => { d with loginUrl := u }) hc
  cases url with
  | none => exact hset _
  | some url =>
    unfold setLoginUrl
    exact Agree.map (Agree.same _) fun _ _ _ => hset _

variable {lTrim rTrim}

theorem requireEnv_alike (name : Text)
    (h : AlikeValue (fun _ _ => True) (envLookup lTrim rTrim w name)
      (envLookup lTrim rTrim w' name)) :
    Agree (fun _ _ => True) (requireEnv lTrim rTrim w name) (requireEnv lTrim rTrim w' name) := by
  unfold requireEnv
  cases hv : envLookup lTrim rTrim w name with
  | none =>
    cases hv' : envLookup lTrim rTrim w' name with
    | none => exact Agree.error _
    | some v' =>
      rw [hv, hv'] at h
      exact h.elim
  | some v =>
    cases hv' : envLookup lTrim rTrim w' name with
    | none =>
      rw [hv, hv'] at h
      exact h.elim
    | some v' => exact Agree.ok trivial

theorem requireEnv_plain (h : AlikeWorld lTrim rTrim w w') (name : Text)
    (hname : name ∉ secretVariables) :
    requireEnv lTrim rTrim w name = requireEnv lTrim rTrim w' name := by
  rw [requireEnv, requireEnv, h.plain name hname]

/-- Where the parts of a URL are not all there it is refused. -/
theorem parse_incomplete (p : SfdxParts) (cfg : SalesforceConfig)
    (h : ¬ p.Complete lTrim rTrim) :
    parseSfdxAuthUrl lTrim rTrim p.text cfg = .error sfdxError := by
  have hscheme : kForce.isPrefixOf p.text = true := starts_force _
  have hrest : p.text.drop kForce.length = p.creds ++ '@' :: p.authority := List.drop_left
  have hsep := rfindChar_last '@' p.creds p.authority p.authorityPlain
  have hfirst : findText [':'] p.creds = some p.clientId.length :=
    findText_first ':' p.clientId _ p.idPlain
  have hsecond : findText [':'] (p.clientSecret ++ ':' :: p.refreshToken) =
      some p.clientSecret.length := findText_first ':' p.clientSecret _ p.secretPlain
  have hclientId : p.creds.take p.clientId.length = p.clientId := List.take_left
  have hrefresh : p.creds.drop (p.clientId.length + 1 + p.clientSecret.length + 1) =
      p.refreshToken := by
    rw [Nat.add_assoc (p.clientId.length + 1), ← List.drop_drop, creds_drop, sep_drop]
  unfold parseSfdxAuthUrl
  simp only [hscheme, Bool.not_true, Bool.false_eq_true, if_false, hrest, hsep, sep_take, sep_drop]
  by_cases hhost : trimTrailingSlash (trimmed lTrim rTrim p.authority) = []
  · rw [if_pos hhost]
  · have hempty : p.clientId = [] ∨ p.refreshToken = [] := by
      by_contra hne
      obtain ⟨hid, htoken⟩ := not_or.mp hne
      exact h ⟨hid, htoken, hhost⟩
    simp only [hhost, if_false, hfirst, creds_drop, hsecond, hclientId, hrefresh, hempty, if_true]

theorem parseSfdxAuthUrl_alike (url url' : Text) (cfg : SalesforceConfig) (h : AlikeUrl url url') :
    Agree AlikeConfig (parseSfdxAuthUrl lTrim rTrim url cfg)
      (parseSfdxAuthUrl lTrim rTrim url' cfg) := by
  rcases h with rfl | ⟨p, p', rfl, rfl, hid, hauthority, htoken⟩
  · exact Agree.refl AlikeConfig.refl _
  · have hhost : p.host lTrim rTrim = p'.host lTrim rTrim := by
      rw [SfdxParts.host, SfdxParts.host, hauthority]
    by_cases hcomplete : p.Complete lTrim rTrim
    · have hcomplete' : p'.Complete lTrim rTrim :=
        ⟨hid ▸ hcomplete.1, fun hempty => hcomplete.2.1 (htoken.mpr hempty), hhost ▸ hcomplete.2.2⟩
      rw [parse_parts lTrim rTrim p cfg hcomplete, parse_parts lTrim rTrim p' cfg hcomplete']
      show SalesforceConfig.public _ = SalesforceConfig.public _
      rw [SfdxParts.config, SfdxParts.config, hid, hhost]
      rfl
    · have hcomplete' : ¬ p'.Complete lTrim rTrim := by
        intro hc
        exact hcomplete ⟨hid ▸ hc.1, fun hempty => hc.2.1 (htoken.mp hempty), hhost ▸ hc.2.2⟩
      rw [parse_incomplete p cfg hcomplete, parse_incomplete p' cfg hcomplete']
      exact Agree.error _

theorem loadPrivateKeyFile_alike (h : AlikeWorld lTrim rTrim w w') (path : Text) :
    Agree (fun _ _ => True) (loadPrivateKeyFile w path) (loadPrivateKeyFile w' path) := by
  have hfile := h.file path
  unfold loadPrivateKeyFile
  cases hpem : w.readFile path with
  | none =>
    cases hpem' : w'.readFile path with
    | none => exact Agree.error _
    | some pem' =>
      rw [hpem, hpem'] at hfile
      exact hfile.elim
  | some pem =>
    cases hpem' : w'.readFile path with
    | none =>
      rw [hpem, hpem'] at hfile
      exact hfile.elim
    | some pem' =>
      rw [hpem, hpem'] at hfile
      refine Agree.ite (not_congr hfile.1) (fun _ => Agree.error _) fun _ => ?_
      exact Agree.ite hfile.2 (fun _ => Agree.error _) fun _ => Agree.ok trivial

theorem optionCredentials_alike (h : AlikeOptions lTrim rTrim opts opts') (cfg : SalesforceConfig) :
    Agree AlikeConfig (optionCredentials lTrim rTrim opts cfg)
      (optionCredentials lTrim rTrim opts' cfg) := by
  unfold optionCredentials
  rw [requireOption_plain lTrim rTrim h "client_id".toList (by unfold IsSecretOption; decide),
    givenOption_plain lTrim rTrim h "login_url".toList (by unfold IsSecretOption; decide)]
  refine Agree.bind (Agree.same _) fun clientId _ hid => ?_
  refine Agree.bind (requireOption_alike lTrim rTrim h _) fun secret secret' _ => ?_
  refine Agree.bind (requireOption_alike lTrim rTrim h _) fun token token' _ => ?_
  subst hid
  exact setLoginUrl_alike lTrim rTrim _ _ _ rfl

theorem envCredentials_alike (hw : AlikeWorld lTrim rTrim w w') (cfg : SalesforceConfig) :
    Agree AlikeConfig (envCredentials lTrim rTrim w cfg) (envCredentials lTrim rTrim w' cfg) := by
  unfold envCredentials
  rw [requireEnv_plain hw "SF_CLIENT_ID".toList (by decide),
    hw.plain "SF_LOGIN_URL".toList (by decide)]
  refine Agree.bind (Agree.same _) fun clientId _ hid => ?_
  refine Agree.bind (requireEnv_alike _ hw.secret) fun secret secret' _ => ?_
  refine Agree.bind (requireEnv_alike _ hw.token) fun token token' _ => ?_
  subst hid
  exact setLoginUrl_alike lTrim rTrim _ _ _ rfl

theorem sfdxCredentials_alike (hw : AlikeWorld lTrim rTrim w w') (cfg : SalesforceConfig) :
    Agree AlikeConfig (sfdxCredentials lTrim rTrim w cfg) (sfdxCredentials lTrim rTrim w' cfg) := by
  have hurl := hw.url
  unfold sfdxCredentials requireEnv
  cases hv : envLookup lTrim rTrim w "SF_SFDX_AUTH_URL".toList with
  | none =>
    cases hv' : envLookup lTrim rTrim w' "SF_SFDX_AUTH_URL".toList with
    | none => exact Agree.error _
    | some url' =>
      rw [hv, hv'] at hurl
      exact hurl.elim
  | some url =>
    cases hv' : envLookup lTrim rTrim w' "SF_SFDX_AUTH_URL".toList with
    | none =>
      rw [hv, hv'] at hurl
      exact hurl.elim
    | some url' =>
      rw [hv, hv'] at hurl
      exact parseSfdxAuthUrl_alike url url' cfg hurl

theorem jwtCredentials_alike (hw : AlikeWorld lTrim rTrim w w')
    (h : AlikeOptions lTrim rTrim opts opts') (cfg : SalesforceConfig) :
    Agree AlikeConfig (jwtCredentials lTrim rTrim w opts cfg)
      (jwtCredentials lTrim rTrim w' opts' cfg) := by
  have hpath : keyPath lTrim rTrim w opts = keyPath lTrim rTrim w' opts' := by
    unfold keyPath
    rw [givenOption_plain lTrim rTrim h "private_key_file".toList (by unfold IsSecretOption; decide),
      hw.plain "SF_JWT_KEY_FILE".toList (by decide)]
  unfold jwtCredentials
  rw [requireOption_plain lTrim rTrim h "client_id".toList (by unfold IsSecretOption; decide),
    requireOption_plain lTrim rTrim h "username".toList (by unfold IsSecretOption; decide), hpath,
    givenOption_plain lTrim rTrim h "login_url".toList (by unfold IsSecretOption; decide)]
  refine Agree.bind (Agree.same _) fun clientId _ hid => ?_
  refine Agree.bind (Agree.same _) fun username _ huser => ?_
  refine Agree.bind (Agree.same _) fun path _ hsame => ?_
  subst hid huser hsame
  refine Agree.bind (loadPrivateKeyFile_alike hw _) fun key key' _ => ?_
  exact setLoginUrl_alike lTrim rTrim _ _ _ rfl

theorem credentials_alike (hw : AlikeWorld lTrim rTrim w w')
    (h : AlikeOptions lTrim rTrim opts opts') (cfg : SalesforceConfig) :
    Agree AlikeConfig (credentials lTrim rTrim w opts cfg)
      (credentials lTrim rTrim w' opts' cfg) := by
  have hsource : authSource lTrim rTrim opts = authSource lTrim rTrim opts' := by
    unfold authSource
    rw [givenOption_plain lTrim rTrim h "auth_source".toList (by unfold IsSecretOption; decide)]
  unfold credentials
  rw [hsource]
  refine Agree.ite Iff.rfl (fun _ => optionCredentials_alike h cfg) fun _ => ?_
  refine Agree.ite Iff.rfl (fun _ => envCredentials_alike hw cfg) fun _ => ?_
  refine Agree.ite Iff.rfl (fun _ => sfdxCredentials_alike hw cfg) fun _ => ?_
  exact Agree.ite Iff.rfl (fun _ => jwtCredentials_alike hw h cfg) fun _ => Agree.error _

/-! ### The whole -/

theorem setApiVersion_alike (h : AlikeOptions lTrim rTrim opts opts') (c c' : SalesforceConfig)
    (hc : AlikeConfig c c') :
    Agree AlikeConfig (setApiVersion lTrim rTrim opts c) (setApiVersion lTrim rTrim opts' c') := by
  have hset : ∀ v : Text, AlikeConfig { c with apiVersion := v } { c' with apiVersion := v } := by
    intro v
    exact congrArg (fun d : SalesforceConfig => { d with apiVersion := v }) hc
  unfold setApiVersion
  rw [givenOption_plain lTrim rTrim h "api_version".toList (by unfold IsSecretOption; decide)]
  cases givenOption lTrim rTrim opts' "api_version".toList with
  | none => exact Agree.ok (hset _)
  | some raw =>
    refine Agree.map (Agree.same _) fun v _ hv => ?_
    subst hv
    exact hset v

theorem setQueryMode_alike (h : AlikeOptions lTrim rTrim opts opts') (c c' : SalesforceConfig)
    (hc : AlikeConfig c c') :
    Agree AlikeConfig (setQueryMode lTrim rTrim opts c) (setQueryMode lTrim rTrim opts' c') := by
  have hset : ∀ v : Text, AlikeConfig { c with queryMode := v } { c' with queryMode := v } := by
    intro v
    exact congrArg (fun d : SalesforceConfig => { d with queryMode := v }) hc
  unfold setQueryMode
  rw [givenOption_plain lTrim rTrim h "query_mode".toList (by unfold IsSecretOption; decide)]
  cases givenOption lTrim rTrim opts' "query_mode".toList with
  | none => exact Agree.ok hc
  | some value => exact Agree.ite Iff.rfl (fun _ => Agree.error _) fun _ => Agree.ok (hset _)

theorem setTransport_alike (h : AlikeOptions lTrim rTrim opts opts') (c c' : SalesforceConfig)
    (hc : AlikeConfig c c') :
    Agree AlikeConfig (setTransport lTrim rTrim opts c) (setTransport lTrim rTrim opts' c') := by
  have hset : ∀ v : Text, AlikeConfig { c with transport := v } { c' with transport := v } := by
    intro v
    exact congrArg (fun d : SalesforceConfig => { d with transport := v }) hc
  unfold setTransport
  rw [givenOption_plain lTrim rTrim h "transport".toList (by unfold IsSecretOption; decide)]
  cases givenOption lTrim rTrim opts' "transport".toList with
  | none => exact Agree.ok hc
  | some value => exact Agree.ite Iff.rfl (fun _ => Agree.error _) fun _ => Agree.ok (hset _)

theorem setBulkChunks_alike (h : AlikeOptions lTrim rTrim opts opts') (c c' : SalesforceConfig)
    (hc : AlikeConfig c c') :
    Agree AlikeConfig (setBulkChunks lTrim rTrim opts c) (setBulkChunks lTrim rTrim opts' c') := by
  have hset : ∀ n : ℤ, AlikeConfig { c with bulkChunks := n } { c' with bulkChunks := n } := by
    intro n
    exact congrArg (fun d : SalesforceConfig => { d with bulkChunks := n }) hc
  unfold setBulkChunks
  rw [givenOption_plain lTrim rTrim h "bulk_chunks".toList (by unfold IsSecretOption; decide)]
  cases givenOption lTrim rTrim opts' "bulk_chunks".toList with
  | none => exact Agree.ok hc
  | some value => exact Agree.ite Iff.rfl (fun _ => Agree.error _) fun _ => Agree.ok (hset _)

end

/-- The secret in the options, no environment. -/
def secretOptions (secret version : Text) : AttachOptions :=
  [("type".toList, "salesforce".toList), ("Client_Id".toList, "id".toList),
    ("CLIENT_SECRET".toList, secret), ("refresh_token".toList, "rt".toList),
    ("api_version".toList, version)]

def bareWorld : AttachWorld := ⟨none, fun _ => none, fun _ => none⟩

theorem bareWorld_alike : AlikeWorld (List.dropWhile isSpace) (List.rdropWhile isSpace) bareWorld
    bareWorld := ⟨fun _ _ => rfl, trivial, trivial, trivial, fun _ => trivial⟩

end DuckdbSalesforce
