import DuckdbSalesforce.Session.AttachConfig

/-!
# What an ATTACH accepts (salesforce_config.cpp)

The configurations that `ParseAndValidate` returns, and the scans over them: the
overrides of a catalog stand before the settings of the session and never fail.
-/

namespace DuckdbSalesforce
open Fallible

/-! ### The version -/

def AllDigits (t : Text) : Prop := ∀ c ∈ t, c.isDigit = true

/-- `NN.N` -/
def IsVersionNumber (t : Text) : Prop :=
  ∃ a b : Text, t = a ++ '.' :: b ∧ a ≠ [] ∧ b ≠ [] ∧ AllDigits a ∧ AllDigits b

def VersionScan.Accepts (s : VersionScan) : Prop :=
  s.seenDigit = true ∧ s.seenDot = true ∧ s.digitAfterDot = true

theorem allDigits_cons (c : Char) (t : Text) :
    AllDigits (c :: t) ↔ c.isDigit = true ∧ AllDigits t := List.forall_mem_cons

theorem scanVersion_fraction (t : Text) (d : Bool) :
    (scanVersion t ⟨true, true, d⟩).Accepts ↔ AllDigits t ∧ (d = true ∨ t ≠ []) := by
  induction t generalizing d with
  | nil => simp [scanVersion, VersionScan.Accepts, AllDigits]
  | cons c t ih =>
    rw [scanVersion, allDigits_cons]
    by_cases hc : c.isDigit = true
    · rw [if_pos hc, if_pos rfl, ih]
      simp [hc]
    · rw [if_neg hc, if_neg (by simp)]
      simp [hc, VersionScan.Accepts]

theorem scanVersion_number (t : Text) :
    (scanVersion t ⟨true, false, false⟩).Accepts ↔
      ∃ a b : Text, t = a ++ '.' :: b ∧ b ≠ [] ∧ AllDigits a ∧ AllDigits b := by
  induction t with
  | nil => simp [scanVersion, VersionScan.Accepts]
  | cons c t ih =>
    rw [scanVersion]
    by_cases hc : c.isDigit = true
    · rw [if_pos hc]
      simp only [Bool.false_eq_true, if_false]
      rw [ih]
      constructor
      · intro h
        obtain ⟨a, b, rfl, hb, hda, hdb⟩ := h
        exact ⟨c :: a, b, rfl, hb, (allDigits_cons c a).mpr ⟨hc, hda⟩, hdb⟩
      · intro h
        obtain ⟨a, b, ht, hb, hda, hdb⟩ := h
        cases a with
        | nil =>
          rw [(List.cons.inj ht).1] at hc
          exact absurd hc (by decide)
        | cons a as =>
          exact ⟨as, b, (List.cons.inj ht).2, hb, ((allDigits_cons a as).mp hda).2, hdb⟩
    · rw [if_neg hc]
      by_cases hdot : c = '.'
      · rw [if_pos ⟨hdot, rfl, rfl⟩, scanVersion_fraction, hdot]
        constructor
        · intro h
          exact ⟨[], t, rfl, by simpa using h.2, by simp [AllDigits], h.1⟩
        · intro h
          obtain ⟨a, b, ht, hb, hda, hdb⟩ := h
          cases a with
          | nil =>
            rw [(List.cons.inj ht).2]
            exact ⟨hdb, Or.inr hb⟩
          | cons a as =>
            have ha := ((allDigits_cons a as).mp hda).1
            rw [← (List.cons.inj ht).1] at ha
            exact absurd ha (by decide)
      · rw [if_neg fun h => hdot h.1]
        constructor
        · intro h
          exact absurd h.1 (by simp)
        · intro h
          obtain ⟨a, b, ht, hb, hda, hdb⟩ := h
          cases a with
          | nil => exact absurd (List.cons.inj ht).1 hdot
          | cons a as =>
            have ha := ((allDigits_cons a as).mp hda).1
            rw [← (List.cons.inj ht).1] at ha
            exact absurd ha hc

theorem scanVersion_iff (t : Text) :
    (scanVersion t ⟨false, false, false⟩).Accepts ↔ IsVersionNumber t := by
  cases t with
  | nil => simp [scanVersion, VersionScan.Accepts, IsVersionNumber]
  | cons c t =>
    rw [scanVersion]
    by_cases hc : c.isDigit = true
    · rw [if_pos hc]
      simp only [Bool.false_eq_true, if_false]
      rw [scanVersion_number]
      constructor
      · intro h
        obtain ⟨a, b, rfl, hb, hda, hdb⟩ := h
        exact ⟨c :: a, b, rfl, List.cons_ne_nil c a, hb, (allDigits_cons c a).mpr ⟨hc, hda⟩, hdb⟩
      · intro h
        obtain ⟨a, b, ht, ha, hb, hda, hdb⟩ := h
        obtain ⟨a, as, rfl⟩ := List.exists_cons_of_ne_nil ha
        exact ⟨as, b, (List.cons.inj ht).2, hb, ((allDigits_cons a as).mp hda).2, hdb⟩
    · rw [if_neg hc, if_neg (by simp)]
      constructor
      · intro h
        exact absurd h.1 (by simp)
      · intro h
        obtain ⟨a, b, ht, ha, hb, hda, hdb⟩ := h
        obtain ⟨a, as, rfl⟩ := List.exists_cons_of_ne_nil ha
        have hdigit := ((allDigits_cons a as).mp hda).1
        rw [← (List.cons.inj ht).1] at hdigit
        exact absurd hdigit hc

section
variable (lTrim rTrim : Text → Text)

theorem normaliseApiVersion_cases (raw : Text) :
    (IsVersionNumber (versionDigits (trimmed lTrim rTrim raw)) ∧
      normaliseApiVersion lTrim rTrim raw =
        .ok ('v' :: versionDigits (trimmed lTrim rTrim raw))) ∨
    (¬ IsVersionNumber (versionDigits (trimmed lTrim rTrim raw)) ∧
      normaliseApiVersion lTrim rTrim raw = .error (apiVersionError raw)) := by
  have hiff := scanVersion_iff (versionDigits (trimmed lTrim rTrim raw))
  unfold normaliseApiVersion
  dsimp only
  generalize scanVersion (versionDigits (trimmed lTrim rTrim raw)) ⟨false, false, false⟩ = s at hiff ⊢
  by_cases haccepts : s.Accepts
  · obtain ⟨hdigit, hdot, hafter⟩ := haccepts
    exact Or.inl ⟨hiff.mp ⟨hdigit, hdot, hafter⟩, if_neg (by simp [hdigit, hdot, hafter])⟩
  · refine Or.inr ⟨fun h => haccepts (hiff.mpr h), if_pos ?_⟩
    by_contra hnone
    simp only [not_or, Bool.not_eq_false] at hnone
    exact haccepts hnone

/-! ### The configurations -/

/-- The version of a configuration: `vNN.N`. -/
def IsApiVersion (t : Text) : Prop := ∃ n, t = 'v' :: n ∧ IsVersionNumber n

structure SalesforceConfig.Valid (c : SalesforceConfig) : Prop where
  org : c.org ≠ []
  clientId : c.clientId ≠ []
  refreshFlow : c.authMethod = .refreshToken →
    c.refreshToken ≠ [] ∧ c.username = [] ∧ c.privateKey = []
  jwtFlow : c.authMethod = .jwt →
    c.username ≠ [] ∧ IsPem c.privateKey ∧ ¬ IsEncrypted c.privateKey ∧
      c.clientSecret = [] ∧ c.refreshToken = []
  loginUrl : validateLoginUrl c.loginUrl = .ok ()
  apiVersion : IsApiVersion c.apiVersion
  queryMode : c.queryMode ∈ [[], "query".toList, "queryAll".toList]
  transport : c.transport ∈ [[], "rest".toList, "bulk".toList, "auto".toList]
  bulkChunks : 0 ≤ c.bulkChunks ∧ c.bulkChunks ≤ 8

theorem allDigits_of_all (t : Text) (h : t.all Char.isDigit = true) : AllDigits t :=
  List.all_eq_true.mp h

theorem defaultApiVersion_is : IsApiVersion kDefaultApiVersion :=
  ⟨"60.0".toList, rfl, "60".toList, "0".toList, rfl, by decide, by decide,
    allDigits_of_all _ (by decide), allDigits_of_all _ (by decide)⟩

/-- What the credentials leave to the rest of the options. -/
structure Credentialed (org : Text) (c : SalesforceConfig) : Prop where
  org : c.org = org
  clientId : c.clientId ≠ []
  refreshFlow : c.authMethod = .refreshToken →
    c.refreshToken ≠ [] ∧ c.username = [] ∧ c.privateKey = []
  jwtFlow : c.authMethod = .jwt →
    c.username ≠ [] ∧ IsPem c.privateKey ∧ ¬ IsEncrypted c.privateKey ∧
      c.clientSecret = [] ∧ c.refreshToken = []
  loginUrl : validateLoginUrl c.loginUrl = .ok ()
  blank : c.apiVersion = [] ∧ c.queryMode = [] ∧ c.transport = [] ∧ c.bulkChunks = 0

variable {lTrim rTrim} {w : AttachWorld} {opts : AttachOptions}

theorem givenOption_some {key v : Text} (h : givenOption lTrim rTrim opts key = some v) :
    trimmed lTrim rTrim v ≠ [] := by
  have hmem := Option.filter_eq_some_iff.mp h
  exact of_decide_eq_true hmem.2

theorem requireOption_ok (htrim : trimmed lTrim rTrim [] = []) {key v : Text}
    (h : requireOption lTrim rTrim opts key = .ok v) : v ≠ [] := by
  unfold requireOption at h
  split at h
  · cases h
  · rename_i v' hv
    rw [← Except.ok.inj h]
    intro hempty
    exact givenOption_some hv (by rw [hempty, htrim])

theorem mockLookup_some (name v : Text) (entries : List Text)
    (h : mockLookup lTrim rTrim name entries = some v) : v ≠ [] := by
  induction entries with
  | nil => cases h
  | cons entry rest ih =>
    rw [mockLookup] at h
    split at h
    · exact ih h
    · split at h
      · split at h
        · cases h
        · rename_i hne
          rw [← Option.some.inj h]
          exact hne
      · exact ih h

theorem envLookup_some (name v : Text) (h : envLookup lTrim rTrim w name = some v) : v ≠ [] := by
  have hos : (w.getenv name).filter (· ≠ []) = some v → v ≠ [] := fun h =>
    of_decide_eq_true (Option.filter_eq_some_iff.mp h).2
  unfold envLookup at h
  dsimp only at h
  split at h
  · exact hos h
  · split at h
    · exact hos h
    · exact mockLookup_some name v _ h

theorem requireEnv_ok {name v : Text} (h : requireEnv lTrim rTrim w name = .ok v) : v ≠ [] := by
  unfold requireEnv at h
  split at h
  · cases h
  · rename_i v' hv
    rw [← Except.ok.inj h]
    exact envLookup_some name v' hv

theorem defaultLoginUrl_valid : validateLoginUrl kDefaultLoginUrl = .ok () := by decide

theorem setLoginUrl_ok {url : Option Text} {c c' : SalesforceConfig}
    (h : setLoginUrl lTrim rTrim url c = .ok c') :
    ∃ u, c' = { c with loginUrl := u } ∧ validateLoginUrl u = .ok () := by
  cases url with
  | none => exact ⟨kDefaultLoginUrl, (Except.ok.inj h).symm, defaultLoginUrl_valid⟩
  | some url =>
    obtain ⟨_, hvalid, hc⟩ := map_ok h
    exact ⟨trimmed lTrim rTrim url, hc.symm, hvalid⟩

theorem loadPrivateKeyFile_ok {path pem : Text} (h : loadPrivateKeyFile w path = .ok pem) :
    IsPem pem ∧ ¬ IsEncrypted pem := by
  unfold loadPrivateKeyFile at h
  split at h
  · cases h
  · split at h
    · cases h
    · rename_i hpem
      split at h
      · cases h
      · rename_i hencrypted
        rw [← Except.ok.inj h]
        exact ⟨not_not.mp hpem, hencrypted⟩

theorem refresh_not_jwt : SalesforceAuthMethod.refreshToken ≠ .jwt := by decide

theorem credentials_ok (htrim : trimmed lTrim rTrim [] = []) (org : Text) (c : SalesforceConfig)
    (h : credentials lTrim rTrim w opts (newConfig org) = .ok c) : Credentialed org c := by
  unfold credentials at h
  dsimp only at h
  split at h
  · obtain ⟨clientId, hid, h⟩ := bind_ok h
    obtain ⟨secret, _, h⟩ := bind_ok h
    obtain ⟨token, htoken, h⟩ := bind_ok h
    obtain ⟨u, rfl, hu⟩ := setLoginUrl_ok h
    exact ⟨rfl, requireOption_ok htrim hid, fun _ => ⟨requireOption_ok htrim htoken, rfl, rfl⟩,
      fun hjwt => absurd hjwt refresh_not_jwt, hu, ⟨rfl, rfl, rfl, rfl⟩⟩
  split at h
  · obtain ⟨clientId, hid, h⟩ := bind_ok h
    obtain ⟨secret, _, h⟩ := bind_ok h
    obtain ⟨token, htoken, h⟩ := bind_ok h
    obtain ⟨u, rfl, hu⟩ := setLoginUrl_ok h
    exact ⟨rfl, requireEnv_ok hid, fun _ => ⟨requireEnv_ok htoken, rfl, rfl⟩,
      fun hjwt => absurd hjwt refresh_not_jwt, hu, ⟨rfl, rfl, rfl, rfl⟩⟩
  split at h
  · obtain ⟨url, _, h⟩ := bind_ok h
    obtain ⟨p, -, hcomplete, rfl⟩ := (parse_ok_iff lTrim rTrim url (newConfig org) c).mp h
    exact ⟨rfl, hcomplete.1, fun _ => ⟨hcomplete.2.1, rfl, rfl⟩,
      fun hjwt => absurd hjwt refresh_not_jwt, (validateLoginUrl_https _).mpr hcomplete.2.2,
      ⟨rfl, rfl, rfl, rfl⟩⟩
  split at h
  · obtain ⟨clientId, hid, h⟩ := bind_ok h
    obtain ⟨username, huser, h⟩ := bind_ok h
    obtain ⟨path, _, h⟩ := bind_ok h
    obtain ⟨key, hkey, h⟩ := bind_ok h
    obtain ⟨u, rfl, hu⟩ := setLoginUrl_ok h
    obtain ⟨hpem, hencrypted⟩ := loadPrivateKeyFile_ok hkey
    exact ⟨rfl, requireOption_ok htrim hid, fun hrefresh => absurd hrefresh.symm refresh_not_jwt,
      fun _ => ⟨requireOption_ok htrim huser, hpem, hencrypted, rfl, rfl⟩, hu,
      ⟨rfl, rfl, rfl, rfl⟩⟩
  · cases h

theorem setApiVersion_ok {c c' : SalesforceConfig}
    (h : setApiVersion lTrim rTrim opts c = .ok c') :
    ∃ v, c' = { c with apiVersion := v } ∧ IsApiVersion v := by
  unfold setApiVersion at h
  split at h
  · rename_i raw _
    obtain ⟨v, hv, hc⟩ := map_ok h
    rcases normaliseApiVersion_cases lTrim rTrim raw with ⟨hnumber, hok⟩ | ⟨_, herror⟩
    · rw [hok] at hv
      exact ⟨v, hc.symm, _, (Except.ok.inj hv).symm, hnumber⟩
    · rw [herror] at hv
      cases hv
  · exact ⟨kDefaultApiVersion, (Except.ok.inj h).symm, defaultApiVersion_is⟩

theorem setQueryMode_ok {c c' : SalesforceConfig} (h : setQueryMode lTrim rTrim opts c = .ok c') :
    c' = c ∨ ∃ v ∈ ["query".toList, "queryAll".toList], c' = { c with queryMode := v } := by
  unfold setQueryMode at h
  split at h
  · exact Or.inl (Except.ok.inj h).symm
  · dsimp only at h
    split at h
    · cases h
    · rename_i hallowed
      refine Or.inr ⟨_, ?_, (Except.ok.inj h).symm⟩
      split
      · simp
      · rename_i hquery
        have hmode := not_and_or.mp hallowed
        simp only [not_not, hquery, or_false] at hmode
        simp [hmode]

theorem setTransport_ok {c c' : SalesforceConfig} (h : setTransport lTrim rTrim opts c = .ok c') :
    c' = c ∨ ∃ v ∈ ["rest".toList, "bulk".toList, "auto".toList], c' = { c with transport := v } := by
  unfold setTransport at h
  split at h
  · exact Or.inl (Except.ok.inj h).symm
  · dsimp only at h
    split at h
    · cases h
    · rename_i hallowed
      refine Or.inr ⟨_, ?_, (Except.ok.inj h).symm⟩
      simp only [List.mem_cons, List.not_mem_nil, or_false]
      simpa only [not_and_or, not_not] using hallowed

theorem setBulkChunks_ok {c c' : SalesforceConfig}
    (h : setBulkChunks lTrim rTrim opts c = .ok c') :
    c' = c ∨ ∃ n : ℤ, 1 ≤ n ∧ n ≤ 8 ∧ c' = { c with bulkChunks := n } := by
  unfold setBulkChunks at h
  split at h
  · exact Or.inl (Except.ok.inj h).symm
  · dsimp only at h
    split at h
    · cases h
    · rename_i hrange
      exact Or.inr ⟨_, by omega, by omega, (Except.ok.inj h).symm⟩

/-! ### The whole -/

theorem parseAndValidate_valid (htrim : trimmed lTrim rTrim [] = []) (path : Text)
    (options : List (Text × Text)) (c : SalesforceConfig)
    (h : parseAndValidate lTrim rTrim w path options = .ok c) : c.Valid := by
  unfold parseAndValidate at h
  split at h
  · cases h
  dsimp only at h
  split at h
  · cases h
  rename_i horg
  obtain ⟨opts, _, h⟩ := bind_ok h
  obtain ⟨c₁, hc₁, h⟩ := bind_ok h
  obtain ⟨c₂, hc₂, h⟩ := bind_ok h
  obtain ⟨c₃, hc₃, h⟩ := bind_ok h
  obtain ⟨c₄, hc₄, h⟩ := bind_ok h
  have hcred := credentials_ok htrim _ c₁ hc₁
  obtain ⟨v, rfl, hv⟩ := setApiVersion_ok hc₂
  obtain ⟨hversion, hmode, htransport, hchunks⟩ := hcred.blank
  have hvalid : ∀ mode ∈ [[], "query".toList, "queryAll".toList],
      ∀ transport ∈ [[], "rest".toList, "bulk".toList, "auto".toList],
      ∀ chunks : ℤ, 0 ≤ chunks → chunks ≤ 8 →
      SalesforceConfig.Valid
        { c₁ with apiVersion := v, queryMode := mode, transport := transport, bulkChunks := chunks } := by
    intro mode hm transport ht chunks hlow hhigh
    exact ⟨hcred.org ▸ horg, hcred.clientId, hcred.refreshFlow, hcred.jwtFlow, hcred.loginUrl, hv,
      hm, ht, hlow, hhigh⟩
  have hc₃' : ∃ mode ∈ [[], "query".toList, "queryAll".toList],
      c₃ = { c₁ with apiVersion := v, queryMode := mode } := by
    rcases setQueryMode_ok hc₃ with rfl | ⟨mode, hm, rfl⟩
    · exact ⟨[], List.mem_cons_self, by rw [← hmode]⟩
    · exact ⟨mode, List.mem_cons_of_mem _ hm, rfl⟩
  obtain ⟨mode, hm, rfl⟩ := hc₃'
  have hc₄' : ∃ transport ∈ [[], "rest".toList, "bulk".toList, "auto".toList],
      c₄ = { c₁ with apiVersion := v, queryMode := mode, transport := transport } := by
    rcases setTransport_ok hc₄ with rfl | ⟨transport, ht, rfl⟩
    · exact ⟨[], List.mem_cons_self, by rw [← htransport]⟩
    · exact ⟨transport, List.mem_cons_of_mem _ ht, rfl⟩
  obtain ⟨transport, ht, rfl⟩ := hc₄'
  rcases setBulkChunks_ok h with rfl | ⟨n, hlow, hhigh, rfl⟩
  · have hself := hvalid mode hm transport ht 0 (by omega) (by omega)
    rw [← hchunks] at hself
    exact hself
  · exact hvalid mode hm transport ht n (by omega) hhigh

/-! ### Scans over them -/

/-- The session's own value is checked also where it is overridden. -/
theorem textSetting_ok (setting allowed : Text) (values : List Text) (dflt : Text)
    (set : Option Text) (override v : Text)
    (h : textSetting setting allowed values dflt set override = .ok v) :
    (set.map lower).getD dflt ∈ values ∧
      v = if override = [] then (set.map lower).getD dflt else lower override := by
  unfold textSetting at h
  dsimp only at h
  split at h
  · cases h
  · rename_i hvalue
    exact ⟨not_not.mp hvalue, (Except.ok.inj h).symm⟩

/-- The transport of the catalog, else of the session. -/
def SalesforceConfig.scanTransport (c : SalesforceConfig) (settings : ScanSettings) : Text :=
  if c.transport = [] then (settings.forceTransport.map lower).getD "rest".toList else c.transport

/-- The query mode of the catalog, else of the session. -/
def SalesforceConfig.scanQueryAll (c : SalesforceConfig) (settings : ScanSettings) : Bool :=
  if c.queryMode = [] then (settings.queryMode.map lower).getD "query".toList == "queryall".toList
  else c.queryMode == "queryAll".toList

/-- The session is set to a transport and a mode that there are, or to none. -/
def ScanSettings.Allowed (settings : ScanSettings) : Prop :=
  (settings.forceTransport.map lower).getD "rest".toList ∈
      ["rest".toList, "bulk".toList, "auto".toList] ∧
    (settings.queryMode.map lower).getD "query".toList ∈ ["query".toList, "queryall".toList]

def ScanSettings.chunks (settings : ScanSettings) (c : SalesforceConfig) : ℤ :=
  if c.bulkChunks > 0 then c.bulkChunks else settings.bulkChunks.getD 1

/-- REST pages or a COUNT(). -/
def ScanPlan.OverRest (bind : SalesforceScanBindData) (columnIds : List ℕ) (plan : ScanPlan) : Prop :=
  plan = .rest (rowSoql bind columnIds) ∨ ∃ n, plan = .countOnly n

def ScanPlan.OverBulk (bind : SalesforceScanBindData) (columnIds : List ℕ)
    (answers : ScanAnswers) (chunks : ℤ) (plan : ScanPlan) : Prop :=
  plan = .bulk (bulkChunkSoqls bind answers.minMaxId chunks columnIds)

/-- `auto` takes Bulk for more rows than the threshold, as the probe counted
them, when there is a probe, a column and no base64 field. -/
def AutoBulk (bind : SalesforceScanBindData) (settings : ScanSettings) (answers : ScanAnswers)
    (columnIds : List ℕ) : Prop :=
  projectedBase64 bind columnIds = [] ∧ aggregateOnly bind columnIds = false ∧
    settings.autoProbe.getD true = true ∧
    ∃ n, answers.estimateCount (countSoql bind) = some n ∧ n > settings.autoBulkThreshold.getD 50000

/-- How a scan over the catalog runs that has started. -/
structure RunsAs (c : SalesforceConfig) (settings : ScanSettings) (answers : ScanAnswers)
    (bind : SalesforceScanBindData) (columnIds : List ℕ) (start : ScanStart) : Prop where
  allowed : settings.Allowed
  mode : start.queryAll = c.scanQueryAll settings
  aggregate : bind.pushedAggregates ≠ [] →
    ∃ s, scanInitAggregate bind answers.aggregateQuery = .ok s ∧ start.plan = .aggregate s
  rest : bind.pushedAggregates = [] → c.scanTransport settings = "rest".toList →
    start.plan.OverRest bind columnIds
  bulk : bind.pushedAggregates = [] → c.scanTransport settings = "bulk".toList →
    start.plan.OverBulk bind columnIds answers (settings.chunks c)
  autoBulk : bind.pushedAggregates = [] → c.scanTransport settings = "auto".toList →
    AutoBulk bind settings answers columnIds →
    start.plan.OverBulk bind columnIds answers (settings.chunks c)
  autoRest : bind.pushedAggregates = [] → c.scanTransport settings = "auto".toList →
    ¬ AutoBulk bind settings answers columnIds → start.plan.OverRest bind columnIds

theorem valid_scanTransport (c : SalesforceConfig) (hvalid : c.Valid) (settings : ScanSettings)
    (v : Text) (h : scanTransport c.overrides settings = .ok v) : v = c.scanTransport settings := by
  have hlower : c.transport ≠ [] → lower c.transport = c.transport := by
    intro hne
    have hmem := hvalid.transport
    simp only [List.mem_cons, List.not_mem_nil, or_false, hne, false_or] at hmem
    rcases hmem with hmem | hmem | hmem
    · rw [hmem]
      rfl
    · rw [hmem]
      rfl
    · rw [hmem]
      rfl
  have hoverride : c.overrides.transport = c.transport := rfl
  rw [(textSetting_ok _ _ _ _ _ _ _ h).2, hoverride, SalesforceConfig.scanTransport]
  by_cases hne : c.transport = []
  · rw [if_pos hne, if_pos hne]
  · rw [if_neg hne, if_neg hne, hlower hne]

theorem valid_scanQueryMode (c : SalesforceConfig) (hvalid : c.Valid) (settings : ScanSettings)
    (v : Text) (h : scanQueryMode c.overrides settings = .ok v) :
    (v == "queryall".toList) = c.scanQueryAll settings := by
  have hset := (textSetting_ok _ _ _ _ _ _ _ h).2
  have hmem := hvalid.queryMode
  have hoverride : c.overrides.queryMode = c.queryMode := rfl
  rw [hset, hoverride, SalesforceConfig.scanQueryAll]
  simp only [List.mem_cons, List.not_mem_nil, or_false] at hmem
  rcases hmem with hmem | hmem | hmem
  · rw [hmem]
    rfl
  · rw [hmem]
    rfl
  · rw [hmem]
    rfl

section
variable (bind : SalesforceScanBindData) (settings : ScanSettings) (answers : ScanAnswers)
  (columnIds : List ℕ)

theorem effectiveTransport_auto :
    effectiveTransport bind settings answers columnIds "auto".toList = "bulk".toList ∧
        (projectedBase64 bind columnIds = [] → AutoBulk bind settings answers columnIds) ∨
      effectiveTransport bind settings answers columnIds "auto".toList = "rest".toList ∧
        ¬ AutoBulk bind settings answers columnIds := by
  unfold effectiveTransport
  rw [if_pos rfl]
  by_cases hagg : aggregateOnly bind columnIds = true
  · rw [if_pos hagg]
    exact .inr ⟨rfl, fun h => Bool.false_ne_true (h.2.1.symm.trans hagg)⟩
  · rw [if_neg hagg]
    by_cases hprobe : settings.autoProbe.getD true = true
    · rw [if_pos hprobe]
      cases hcount : answers.estimateCount (countSoql bind) with
      | none =>
        refine .inr ⟨rfl, ?_⟩
        rintro ⟨-, -, -, n, hn, -⟩
        rw [hcount] at hn
        cases hn
      | some n =>
        dsimp only
        by_cases hmany : n > settings.autoBulkThreshold.getD 50000
        · rw [if_pos hmany]
          exact .inl ⟨rfl, fun hpath => ⟨hpath, Bool.not_eq_true _ ▸ hagg, hprobe, n, hcount, hmany⟩⟩
        · rw [if_neg hmany]
          refine .inr ⟨rfl, ?_⟩
          rintro ⟨-, -, -, m, hm, hgt⟩
          rw [hcount, Option.some.injEq] at hm
          exact hmany (hm ▸ hgt)
    · rw [if_neg hprobe]
      exact .inr ⟨rfl, fun h => hprobe h.2.2.1⟩

theorem guarded_auto (effective : Text)
    (h : guardedTransport (projectedBase64 bind columnIds) "auto".toList
      (effectiveTransport bind settings answers columnIds "auto".toList) = .ok effective) :
    effective = "bulk".toList ∧ AutoBulk bind settings answers columnIds ∨
      effective ≠ "bulk".toList ∧ ¬ AutoBulk bind settings answers columnIds := by
  have hne : "rest".toList ≠ "bulk".toList := by decide
  obtain ⟨hpath, hguarded⟩ | ⟨hpath, -, hguarded⟩ := guardedTransport_ok _ _ _ _ h
  · obtain ⟨hbulk, hauto⟩ | ⟨hrest, hnot⟩ := effectiveTransport_auto bind settings answers columnIds
    · exact .inl ⟨hguarded.trans hbulk, hauto hpath⟩
    · exact .inr ⟨fun heq => hne (hrest.symm.trans (hguarded.symm.trans heq)), hnot⟩
  · refine .inr ⟨?_, fun hauto => hpath hauto.1⟩
    rw [hguarded]
    by_cases hbulk : effectiveTransport bind settings answers columnIds "auto".toList = "bulk".toList
    · rw [if_pos hbulk]
      exact hne
    · rw [if_neg hbulk]
      exact hbulk

/-- A forced transport that the guard lets through is what runs. -/
theorem guarded_forced (transport effective : Text) (hauto : transport ≠ "auto".toList)
    (h : guardedTransport (projectedBase64 bind columnIds) transport
      (effectiveTransport bind settings answers columnIds transport) = .ok effective) :
    effective = transport := by
  have heffective : effectiveTransport bind settings answers columnIds transport = transport := by
    unfold effectiveTransport
    exact if_neg hauto
  rw [heffective] at h
  obtain ⟨-, hguarded⟩ | ⟨-, hbulk, hguarded⟩ := guardedTransport_ok _ _ _ _ h
  · exact hguarded
  · rw [hguarded, if_neg hbulk]

theorem runsAs (c : SalesforceConfig) (hvalid : c.Valid) (start : ScanStart)
    (h : scanInitGlobal bind c.overrides settings answers columnIds = .ok start) :
    RunsAs c settings answers bind columnIds start := by
  obtain ⟨transport, mode, htransport, hmode, hall, hstart⟩ :=
    scanInitGlobal_ok bind c.overrides settings answers columnIds start h
  have hchosen := valid_scanTransport c hvalid settings transport htransport
  have hover : ∀ effective, scanPlan bind c.overrides settings answers columnIds effective =
      .ok start.plan → (effective = "bulk".toList →
        start.plan.OverBulk bind columnIds answers (settings.chunks c)) ∧
      (effective ≠ "bulk".toList → start.plan.OverRest bind columnIds) := by
    intro effective hplan
    obtain ⟨heq, hbulk⟩ | ⟨hne, hrest⟩ :=
      scanPlan_ok bind c.overrides settings answers columnIds effective start.plan hplan
    · exact ⟨fun _ => hbulk, fun hnot => absurd heq hnot⟩
    · exact ⟨fun heq => absurd heq hne, fun _ => hrest.imp id fun hn => ⟨hn.choose, hn.choose_spec.2⟩⟩
  refine ⟨⟨(textSetting_ok _ _ _ _ _ _ _ htransport).1, (textSetting_ok _ _ _ _ _ _ _ hmode).1⟩,
    hall.trans (valid_scanQueryMode c hvalid settings mode hmode), ?_, ?_, ?_, ?_, ?_⟩
  · intro hagg
    obtain ⟨-, s, hs⟩ | ⟨hrows, -⟩ := hstart
    · exact ⟨s, hs⟩
    · exact absurd hrows hagg
  all_goals
    intro hrows ht
    obtain ⟨hagg, -⟩ | ⟨-, effective, hguard, hplan⟩ := hstart
    · exact absurd hrows hagg
    rw [hchosen, ht] at hguard
  · have heffective := guarded_forced bind settings answers columnIds _ effective (by decide) hguard
    exact (hover effective hplan).2 (by rw [heffective]; decide)
  · have heffective := guarded_forced bind settings answers columnIds _ effective (by decide) hguard
    exact (hover effective hplan).1 heffective
  · intro hauto
    obtain ⟨hbulk, -⟩ | ⟨-, hnot⟩ := guarded_auto bind settings answers columnIds effective hguard
    · exact (hover effective hplan).1 hbulk
    · exact absurd hauto hnot
  · intro hnot
    obtain ⟨-, hauto⟩ | ⟨hne, -⟩ := guarded_auto bind settings answers columnIds effective hguard
    · exact absurd hauto hnot
    · exact (hover effective hplan).2 hne

end

/-- What ATTACH accepts is well formed, and every scan over it that starts runs
in the mode and over the transport that the catalog overrides. -/
theorem attach_valid (htrim : trimmed lTrim rTrim [] = []) (path : Text)
    (options : List (Text × Text)) (c : SalesforceConfig)
    (h : parseAndValidate lTrim rTrim w path options = .ok c) :
    c.Valid ∧ ∀ (bind : SalesforceScanBindData) (settings : ScanSettings) (answers : ScanAnswers)
      (columnIds : List ℕ) (start : ScanStart),
      scanInitGlobal bind c.overrides settings answers columnIds = .ok start →
        RunsAs c settings answers bind columnIds start := by
  have hvalid := parseAndValidate_valid htrim path options c h
  exact ⟨hvalid, fun bind settings answers columnIds start hstart =>
    runsAs bind settings answers columnIds c hvalid start hstart⟩

end

def overridden : List (Text × Text) :=
  [("client_id".toList, "id".toList), ("client_secret".toList, "s".toList),
    ("refresh_token".toList, "rt".toList), ("query_mode".toList, "QueryALL ".toList),
    ("transport".toList, "Bulk".toList), ("bulk_chunks".toList, " 3abc".toList),
    ("api_version".toList, " V61.0".toList)]

def overriddenConfig : SalesforceConfig where
  org := "prod".toList
  authMethod := .refreshToken
  clientId := "id".toList
  clientSecret := "s".toList
  refreshToken := "rt".toList
  username := []
  privateKey := []
  loginUrl := kDefaultLoginUrl
  apiVersion := "v61.0".toList
  queryMode := "queryAll".toList
  transport := "bulk".toList
  bulkChunks := 3

def noEnvironment : AttachWorld := ⟨none, fun _ => none, fun _ => none⟩

def leadNames : SalesforceScanBindData :=
  ⟨"Lead".toList, [.flat "Name".toList "string".toList .varchar true true], [], [], 0, []⟩

/-- A count of chunks is read up to its first letter; without a range of Ids
there is one chunk. The session is set to REST. -/
theorem attach_valid_overridden :
    overriddenConfig.Valid ∧
      RunsAs overriddenConfig ⟨some "REST".toList, none, none, none, none, none⟩
        ⟨fun _ => none, fun _ => none, fun _ => none⟩ leadNames [0]
        ⟨true, .bulk ["SELECT Name FROM Lead".toList]⟩ := by
  have hparse : parseAndValidate (List.dropWhile isSpace) (List.rdropWhile isSpace) noEnvironment
      "Salesforce://prod".toList overridden = .ok overriddenConfig := rfl
  have h := @attach_valid (List.dropWhile isSpace) (List.rdropWhile isSpace) noEnvironment rfl _ _ _
    hparse
  exact ⟨h.1, h.2 _ _ _ _ _ rfl⟩

end DuckdbSalesforce
