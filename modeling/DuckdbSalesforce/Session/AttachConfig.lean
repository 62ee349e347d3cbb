import DuckdbSalesforce.Library.TwoRuns
import DuckdbSalesforce.Session.SfdxAuthUrl

/-!
# The configuration of an ATTACH (salesforce_config.cpp)

`ParseAndValidate` turns the path and the options of an ATTACH into a
`SalesforceConfig`. An option is its key with the text of its value; a secret
may also come from the environment, which a test setting can stand in for, or
from a key file.
-/

namespace DuckdbSalesforce
open TwoRuns Fallible

/-! ### The surroundings -/

/-- `sf_mock_env` when it is set, `std::getenv`, and what a file holds. -/
structure AttachWorld where
  sfMockEnv : Option Text
  getenv : Text → Option Text
  readFile : Text → Option Text

def kScheme : Text := "salesforce://".toList
def kDefaultLoginUrl : Text := "https://login.salesforce.com".toList
def kDefaultApiVersion : Text := "v60.0".toList

section
variable (lTrim rTrim : Text → Text)

/-- The first entry of the name decides. -/
def mockLookup (name : Text) : List Text → Option Text
  | [] => none
  | entry :: rest =>
    match findText ['='] entry with
    | none => mockLookup name rest
    | some eq =>
      if trimmed lTrim rTrim (entry.take eq) = name then
        if entry.drop (eq + 1) = [] then none else some (entry.drop (eq + 1))
      else mockLookup name rest

def envLookup (w : AttachWorld) (name : Text) : Option Text :=
  let fromOs := (w.getenv name).filter (· ≠ [])
  match w.sfMockEnv with
  | none => fromOs
  | some blob =>
    if trimmed lTrim rTrim blob = [] then fromOs
    else mockLookup lTrim rTrim name (blob.splitOn ';')

def missingVariableError (name : Text) : Text :=
  "salesforce ATTACH: missing required environment variable '".toList ++ name ++ "'.".toList

def requireEnv (w : AttachWorld) (name : Text) : Except Text Text :=
  match envLookup lTrim rTrim w name with
  | none => .error (missingVariableError name)
  | some v => .ok v

/-! ### The options -/

/-- `case_insensitive_map_t`, the newest entry first. -/
abbrev AttachOptions := List (Text × Text)

def optionValue (opts : AttachOptions) (key : Text) : Option Text :=
  (opts.find? fun o => ciEquals o.1 key).map Prod.snd

/-- The value of an option that is there and not blank. -/
def givenOption (opts : AttachOptions) (key : Text) : Option Text :=
  (optionValue opts key).filter fun v => trimmed lTrim rTrim v ≠ []

def missingOptionError (key : Text) : Text :=
  "salesforce ATTACH: missing required option '".toList ++ key ++
    ("'. Expected: ATTACH 'salesforce://<org>' (client_id '...', client_secret '...', " ++
      "refresh_token '...').").toList

def requireOption (opts : AttachOptions) (key : Text) : Except Text Text :=
  match givenOption lTrim rTrim opts key with
  | none => .error (missingOptionError key)
  | some v => .ok v

def attachOptionNames : List Text :=
  ["auth_source".toList, "client_id".toList, "client_secret".toList, "refresh_token".toList,
    "username".toList, "private_key_file".toList, "login_url".toList, "api_version".toList,
    "query_mode".toList, "transport".toList, "bulk_chunks".toList, "read_only".toList]

def unknownOptionError (key : Text) : Text :=
  "salesforce ATTACH: unknown option '".toList ++ key ++
    ("'. Valid options: auth_source, client_id, client_secret, refresh_token, username, " ++
      "private_key_file, login_url, api_version, query_mode, transport, bulk_chunks, " ++
      "read_only.").toList

/-- `type` routes the ATTACH. -/
def readOptions : List (Text × Text) → AttachOptions → Except Text AttachOptions
  | [], opts => .ok opts
  | (key, value) :: rest, opts =>
    if ciEquals key "type".toList then readOptions rest opts
    else if !attachOptionNames.any (ciEquals key) then .error (unknownOptionError key)
    else readOptions rest ((key, value) :: opts)

/-! ### Credentials -/

def setLoginUrl (url : Option Text) (cfg : SalesforceConfig) : Except Text SalesforceConfig :=
  match url with
  | some url =>
    (validateLoginUrl (trimmed lTrim rTrim url)).map fun _ =>
      { cfg with loginUrl := trimmed lTrim rTrim url }
  | none => .ok { cfg with loginUrl := kDefaultLoginUrl }

def optionCredentials (opts : AttachOptions) (cfg : SalesforceConfig) :
    Except Text SalesforceConfig :=
  (requireOption lTrim rTrim opts "client_id".toList).bind fun clientId =>
  (requireOption lTrim rTrim opts "client_secret".toList).bind fun clientSecret =>
  (requireOption lTrim rTrim opts "refresh_token".toList).bind fun refreshToken =>
    setLoginUrl lTrim rTrim (givenOption lTrim rTrim opts "login_url".toList)
      { cfg with clientId := clientId, clientSecret := clientSecret, refreshToken := refreshToken }

def envCredentials (w : AttachWorld) (cfg : SalesforceConfig) : Except Text SalesforceConfig :=
  (requireEnv lTrim rTrim w "SF_CLIENT_ID".toList).bind fun clientId =>
  (requireEnv lTrim rTrim w "SF_CLIENT_SECRET".toList).bind fun clientSecret =>
  (requireEnv lTrim rTrim w "SF_REFRESH_TOKEN".toList).bind fun refreshToken =>
    setLoginUrl lTrim rTrim (envLookup lTrim rTrim w "SF_LOGIN_URL".toList)
      { cfg with clientId := clientId, clientSecret := clientSecret, refreshToken := refreshToken }

def sfdxCredentials (w : AttachWorld) (cfg : SalesforceConfig) : Except Text SalesforceConfig :=
  (requireEnv lTrim rTrim w "SF_SFDX_AUTH_URL".toList).bind fun url =>
    parseSfdxAuthUrl lTrim rTrim url cfg

def keyPathError : Text :=
  ("salesforce ATTACH (jwt): set 'private_key_file' or the SF_JWT_KEY_FILE environment variable " ++
    "to a PEM private key path.").toList

def keyPath (w : AttachWorld) (opts : AttachOptions) : Except Text Text :=
  match givenOption lTrim rTrim opts "private_key_file".toList with
  | some path => .ok (trimmed lTrim rTrim path)
  | none =>
    match envLookup lTrim rTrim w "SF_JWT_KEY_FILE".toList with
    | some path => .ok path
    | none => .error keyPathError

def keyFileError (path : Text) : Text :=
  "salesforce ATTACH (jwt): cannot open private key file '".toList ++ path ++ "'.".toList

def keyPemError (path : Text) : Text :=
  "salesforce ATTACH (jwt): file '".toList ++ path ++ "' is not a PEM private key.".toList

def keyEncryptedError (path : Text) : Text :=
  ("salesforce ATTACH (jwt): encrypted private keys are not supported; provide an unencrypted " ++
    "PKCS#1/PKCS#8 PEM key (file '").toList ++ path ++ "').".toList

def IsPem (pem : Text) : Prop := (findText "-----BEGIN".toList pem).isSome
def IsEncrypted (pem : Text) : Prop := (findText "ENCRYPTED".toList pem).isSome

instance (pem : Text) : Decidable (IsPem pem) := inferInstanceAs (Decidable (_ = true))
instance (pem : Text) : Decidable (IsEncrypted pem) := inferInstanceAs (Decidable (_ = true))

def loadPrivateKeyFile (w : AttachWorld) (path : Text) : Except Text Text :=
  match w.readFile path with
  | none => .error (keyFileError path)
  | some pem =>
    if ¬ IsPem pem then .error (keyPemError path)
    else if IsEncrypted pem then .error (keyEncryptedError path)
    else .ok pem

def jwtCredentials (w : AttachWorld) (opts : AttachOptions) (cfg : SalesforceConfig) :
    Except Text SalesforceConfig :=
  (requireOption lTrim rTrim opts "client_id".toList).bind fun clientId =>
  (requireOption lTrim rTrim opts "username".toList).bind fun username =>
  (keyPath lTrim rTrim w opts).bind fun path =>
  (loadPrivateKeyFile w (trimmed lTrim rTrim path)).bind fun privateKey =>
    setLoginUrl lTrim rTrim (givenOption lTrim rTrim opts "login_url".toList)
      { cfg with authMethod := .jwt, clientId := clientId, username := username, privateKey := privateKey }

def authSourceError (authSource : Text) : Text :=
  "salesforce ATTACH: 'auth_source' must be 'options', 'env', 'sfdx_url', or 'jwt' (got: '".toList ++
    authSource ++ "').".toList

def authSource (opts : AttachOptions) : Text :=
  match givenOption lTrim rTrim opts "auth_source".toList with
  | none => "options".toList
  | some v => lower (trimmed lTrim rTrim v)

def credentials (w : AttachWorld) (opts : AttachOptions) (cfg : SalesforceConfig) :
    Except Text SalesforceConfig :=
  let source := authSource lTrim rTrim opts
  if source = "options".toList then optionCredentials lTrim rTrim opts cfg
  else if source = "env".toList then envCredentials lTrim rTrim w cfg
  else if source = "sfdx_url".toList then sfdxCredentials lTrim rTrim w cfg
  else if source = "jwt".toList then jwtCredentials lTrim rTrim w opts cfg
  else .error (authSourceError source)

/-! ### The version -/

structure VersionScan where
  seenDigit : Bool
  seenDot : Bool
  digitAfterDot : Bool

def scanVersion : Text → VersionScan → VersionScan
  | [], s => s
  | c :: t, s =>
    if c.isDigit then
      scanVersion t
        (if s.seenDot then { s with digitAfterDot := true } else { s with seenDigit := true })
    else if c = '.' ∧ s.seenDot = false ∧ s.seenDigit = true then
      scanVersion t { s with seenDot := true }
    else { s with seenDigit := false }

def apiVersionError (raw : Text) : Text :=
  "salesforce ATTACH: 'api_version' must look like 'vNN.N' or 'NN.N' (got: '".toList ++ raw ++
    "').".toList

/-- `v.substr(i)`: what follows the letter. -/
def versionDigits (v : Text) : Text :=
  match v with
  | [] => []
  | c :: t => if c = 'v' ∨ c = 'V' then t else c :: t

def normaliseApiVersion (raw : Text) : Except Text Text :=
  let digits := versionDigits (trimmed lTrim rTrim raw)
  let s := scanVersion digits ⟨false, false, false⟩
  if s.seenDigit = false ∨ s.seenDot = false ∨ s.digitAfterDot = false then
    .error (apiVersionError raw)
  else .ok ('v' :: digits)

def setApiVersion (opts : AttachOptions) (cfg : SalesforceConfig) : Except Text SalesforceConfig :=
  match givenOption lTrim rTrim opts "api_version".toList with
  | some raw =>
    (normaliseApiVersion lTrim rTrim raw).map fun version => { cfg with apiVersion := version }
  | none => .ok { cfg with apiVersion := kDefaultApiVersion }

/-! ### The overrides -/

def queryModeError (value : Text) : Text :=
  "salesforce ATTACH: query_mode must be 'query' or 'queryAll' (got '".toList ++ value ++ "').".toList

def setQueryMode (opts : AttachOptions) (cfg : SalesforceConfig) : Except Text SalesforceConfig :=
  match givenOption lTrim rTrim opts "query_mode".toList with
  | none => .ok cfg
  | some value =>
    let mode := lower (trimmed lTrim rTrim value)
    if mode ≠ "query".toList ∧ mode ≠ "queryall".toList then .error (queryModeError value)
    else .ok { cfg with queryMode := if mode = "queryall".toList then "queryAll".toList else mode }

def transportError (value : Text) : Text :=
  "salesforce ATTACH: transport must be 'rest', 'bulk' or 'auto' (got '".toList ++ value ++
    "').".toList

def setTransport (opts : AttachOptions) (cfg : SalesforceConfig) : Except Text SalesforceConfig :=
  match givenOption lTrim rTrim opts "transport".toList with
  | none => .ok cfg
  | some value =>
    let transport := lower (trimmed lTrim rTrim value)
    if transport ≠ "rest".toList ∧ transport ≠ "bulk".toList ∧ transport ≠ "auto".toList then
      .error (transportError value)
    else .ok { cfg with transport := transport }

/-- `std::strtoll` to base 10. -/
def strtoll (t : Text) : ℤ :=
  let t := t.dropWhile isSpace
  let negative := t.head? = some '-'
  let t := if t.head? = some '-' ∨ t.head? = some '+' then t.drop 1 else t
  let n : ℤ := Nat.ofDigitChars 10 (t.takeWhile Char.isDigit) 0
  max (-2 ^ 63) (min (2 ^ 63 - 1) (if negative then -n else n))

def bulkChunksError (value : Text) : Text :=
  "salesforce ATTACH: bulk_chunks must be between 1 and 8 (got '".toList ++ value ++ "').".toList

def setBulkChunks (opts : AttachOptions) (cfg : SalesforceConfig) : Except Text SalesforceConfig :=
  match givenOption lTrim rTrim opts "bulk_chunks".toList with
  | none => .ok cfg
  | some value =>
    let chunks := strtoll (trimmed lTrim rTrim value)
    if chunks < 1 ∨ chunks > 8 then .error (bulkChunksError value)
    else .ok { cfg with bulkChunks := chunks }

/-! ### The whole -/

def pathError (path : Text) : Text :=
  "salesforce ATTACH: path must start with 'salesforce://' (got: '".toList ++ path ++ "').".toList

def missingOrgError : Text :=
  ("salesforce ATTACH: missing org in path. Expected 'salesforce://<org>' (e.g. " ++
    "'salesforce://production').").toList

def newConfig (org : Text) : SalesforceConfig where
  org := org
  authMethod := .refreshToken
  clientId := []
  clientSecret := []
  refreshToken := []
  username := []
  privateKey := []
  loginUrl := []
  apiVersion := []
  queryMode := []
  transport := []
  bulkChunks := 0

/-- What follows the reading of the options. -/
def configOf (w : AttachWorld) (org : Text) (opts : AttachOptions) : Except Text SalesforceConfig :=
  (credentials lTrim rTrim w opts (newConfig org)).bind fun cfg =>
  (setApiVersion lTrim rTrim opts cfg).bind fun cfg =>
  (setQueryMode lTrim rTrim opts cfg).bind fun cfg =>
  (setTransport lTrim rTrim opts cfg).bind fun cfg =>
    setBulkChunks lTrim rTrim opts cfg

def parseAndValidate (w : AttachWorld) (path : Text) (options : List (Text × Text)) :
    Except Text SalesforceConfig :=
  if !kScheme.isPrefixOf (lower path) then .error (pathError path)
  else
    let org := trimmed lTrim rTrim (path.drop kScheme.length)
    if org = [] then .error missingOrgError
    else (readOptions options []).bind fun opts => configOf lTrim rTrim w org opts

end

end DuckdbSalesforce
