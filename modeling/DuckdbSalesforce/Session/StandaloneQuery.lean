import DuckdbSalesforce.Catalog.MetadataTables
import DuckdbSalesforce.Scan.ExplicitAggregate
import DuckdbSalesforce.Session.AttachConfig
import DuckdbSalesforce.Session.SessionSecrets

/-!
# Queries of a function (`salesforce_query.cpp`, `salesforce_describe.cpp`, `salesforce_report.cpp`)

`salesforce_query` logs in, follows the pages of a query and emits their records
with a number; `salesforce_reports` and `salesforce_aggregate` ask over the
session of a catalog. A query that succeeds has followed every page to the last.
-/

namespace DuckdbSalesforce
open Interaction JsonText TableChunks

/-! ### Binds without a catalog -/

/-- A parameter that was not given is empty. -/
def namedParam (params : List (Text × Text)) (key : Text) : Text :=
  match params.find? fun kv => ciEquals kv.1 key with
  | some kv => kv.2
  | none => []

def missingError (function key : Text) : Text :=
  function ++ ": missing required named parameter '".toList ++ key ++ "'".toList

/-- `require`. -/
def requireParam (function v key : Text) : Except Text Unit :=
  if v = [] then .error (missingError function key) else .ok ()

def orDefault (t dflt : Text) : Text := if t = [] then dflt else t

def standaloneConfig (org : Text) (params : List (Text × Text)) : SalesforceConfig where
  org := org
  authMethod := .refreshToken
  clientId := namedParam params "client_id".toList
  clientSecret := namedParam params "client_secret".toList
  refreshToken := namedParam params "refresh_token".toList
  username := []
  privateKey := []
  loginUrl := orDefault (namedParam params "login_url".toList) kDefaultLoginUrl
  apiVersion := orDefault (namedParam params "api_version".toList) kDefaultApiVersion
  queryMode := []
  transport := []
  bulkChunks := 0

def requireCredentials (function : Text) (cfg : SalesforceConfig) : Except Text Unit :=
  (requireParam function cfg.clientId "client_id".toList).bind fun _ =>
    (requireParam function cfg.clientSecret "client_secret".toList).bind fun _ =>
      requireParam function cfg.refreshToken "refresh_token".toList

section
variable {σ α : Type} (connect : SalesforceConfig → σ → Session σ)

/-- The login and the call of a bind, once the parameters are there. -/
def standaloneCall (function usage org : Text) (call : SalesforceConfig → Text → SessionCall α)
    (inputs : List Text) (params : List (Text × Text)) (w : σ) : Except Text α × σ :=
  match inputs with
  | [] => (.error usage, w)
  | input :: _ =>
    let cfg := standaloneConfig org params
    match requireCredentials function cfg with
    | .error e => (.error e, w)
    | .ok () =>
      let r := openedCall (call cfg input) (connect cfg w)
      (r.1, r.2.world)

def queryBind : List Text → List (Text × Text) → σ → Except Text SalesforceQueryResult × σ :=
  standaloneCall connect "salesforce_query".toList
    "salesforce_query(soql) requires the SOQL string as the first argument".toList "query".toList
    fun cfg soql => SessionCall.query cfg.apiVersion false soql

def describeBind : List Text → List (Text × Text) → σ → Except Text (List DescribeField) × σ :=
  standaloneCall connect "salesforce_describe".toList
    "salesforce_describe(object) requires the sObject name as the first argument".toList
    "describe".toList
    fun cfg object => (SessionCall.describeJson cfg.apiVersion object).map fun body =>
      body.map describeFields

/-- `salesforce_query`, called `n` times behind its bind. -/
def salesforceQuery (inputs : List Text) (params : List (Text × Text)) (v n : ℕ) (w : σ) :
    Except Text (Option (List (List (OutValue Value)))) × σ :=
  let r := queryBind connect inputs params w
  (r.1.map fun result =>
    (emitCalls queryColumns result.records.zipIdx v n 0).map Prod.fst, r.2)

end

/-- `salesforce_describe`, called `n` times behind its bind. -/
def salesforceDescribe {σ : Type} (connect : SalesforceConfig → σ → Session σ)
    (typeText : LogicalType → Text) (inputs : List Text) (params : List (Text × Text)) (v n : ℕ)
    (w : σ) : Except Text (Option (List (List (OutValue Value)))) × σ :=
  let r := describeBind connect inputs params w
  (r.1.map fun fields => (emitCalls (describeColumns typeText) fields v n 0).map Prod.fst, r.2)

/-! ### The pages of a query -/

def SalesforceQueryPage.isLast (pg : SalesforceQueryPage) : Bool := pg.done || pg.nextPath.isEmpty

section
variable {σ : Type}

/-- The session is answered these pages, from the path on to a last one. -/
inductive ServedPages : Session σ → Text → List SalesforceQueryPage → Session σ → Prop where
  | last (s s' : Session σ) (path : Text) (pg : SalesforceQueryPage)
      (fetched : runCall (SessionCall.fetchPage path) s = (.ok pg, s')) (done : pg.isLast = true) :
      ServedPages s path [pg] s'
  | more (s m s' : Session σ) (path : Text) (pg : SalesforceQueryPage)
      (pgs : List SalesforceQueryPage)
      (fetched : runCall (SessionCall.fetchPage path) s = (.ok pg, m)) (goesOn : pg.isLast = false)
      (rest : ServedPages m pg.nextPath pgs s') : ServedPages s path (pg :: pgs) s'

theorem ServedPages.ne_nil {s s' : Session σ} {path : Text} {pgs : List SalesforceQueryPage}
    (h : ServedPages s path pgs s') : pgs ≠ [] := by
  cases h with
  | last => exact List.cons_ne_nil _ _
  | more => exact List.cons_ne_nil _ _

/-- The paths that were followed. -/
def nextPaths (pgs : List SalesforceQueryPage) : List Text :=
  pgs.dropLast.map SalesforceQueryPage.nextPath

theorem nextPaths_cons (pg : SalesforceQueryPage) (pgs : List SalesforceQueryPage) (h : pgs ≠ []) :
    nextPaths (pg :: pgs) = pg.nextPath :: nextPaths pgs := by
  unfold nextPaths
  rw [List.dropLast_cons_of_ne_nil h, List.map_cons]

/-- What `Query` allows: no path followed twice, and not too many pages. -/
structure QueryAllows (seen : List Text) (count : ℕ) (pgs : List SalesforceQueryPage) : Prop where
  short : pgs.length + count ≤ kMaxPages
  once : (nextPaths pgs).Nodup
  new : ∀ q ∈ nextPaths pgs, q ∉ seen

theorem queryAllows_last (seen : List Text) (count : ℕ) (pg : SalesforceQueryPage)
    (hcount : count < kMaxPages) : QueryAllows seen count [pg] := by
  refine ⟨?_, List.nodup_nil, List.forall_mem_nil _⟩
  rw [List.length_singleton]
  omega

theorem queryAllows_more (seen : List Text) (count : ℕ) (pg : SalesforceQueryPage)
    (pgs : List SalesforceQueryPage) (hne : pgs ≠ []) :
    QueryAllows seen count (pg :: pgs) ↔ count + 1 < kMaxPages ∧ pg.nextPath ∉ seen ∧
      QueryAllows (pg.nextPath :: seen) (count + 1) pgs := by
  have hpos := List.length_pos_of_ne_nil hne
  refine ⟨?_, ?_⟩
  · intro h
    have hshort := h.short
    have honce := h.once
    have hnew := h.new
    rw [List.length_cons] at hshort
    rw [nextPaths_cons pg pgs hne] at honce hnew
    obtain ⟨hfresh, honce⟩ := List.nodup_cons.mp honce
    refine ⟨by omega, hnew _ List.mem_cons_self, by omega, honce, ?_⟩
    intro q hq hmem
    rcases List.mem_cons.mp hmem with heq | hseen
    · rw [heq] at hq
      exact hfresh hq
    · exact hnew q (List.mem_cons_of_mem _ hq) hseen
  · intro h
    obtain ⟨_, hfresh, hrest⟩ := h
    have hshort := hrest.short
    refine ⟨by rw [List.length_cons]; omega, ?_, ?_⟩
    · rw [nextPaths_cons pg pgs hne]
      exact List.nodup_cons.mpr ⟨fun hq => hrest.new _ hq List.mem_cons_self, hrest.once⟩
    · rw [nextPaths_cons pg pgs hne]
      intro q hq
      rcases List.mem_cons.mp hq with heq | hq
      · rw [heq]
        exact hfresh
      · exact fun hseen => hrest.new q hq (List.mem_cons_of_mem _ hseen)

/-- What one round does with the page it got. -/
theorem queryFrom_run (s s' : Session σ) (path : Text) (seen : List Text)
    (result : SalesforceQueryResult) (pg : SalesforceQueryPage)
    (hfetch : runCall (SessionCall.fetchPage path) s = (.ok pg, s')) :
    runCall (SessionCall.queryFrom path seen result) s =
      if pg.isLast then (.ok ⟨result.records ++ pg.records, result.pageCount + 1⟩, s')
      else if kMaxPages ≤ result.pageCount + 1 then (.error queryPagesError, s')
      else if pg.nextPath ∈ seen then (.error queryLoopError, s')
      else runCall (SessionCall.queryFrom pg.nextPath (pg.nextPath :: seen)
        ⟨result.records ++ pg.records, result.pageCount + 1⟩) s' := by
  have hfetch' : (SessionCall.fetchPage path).run serveSession s = (.ok pg, s') := hfetch
  unfold runCall SalesforceQueryPage.isLast
  rw [SessionCall.queryFrom, run_bind, hfetch']
  dsimp only
  by_cases hlast : (pg.done || pg.nextPath.isEmpty) = true
  · rw [if_pos hlast, if_pos hlast]
    rfl
  · rw [if_neg hlast, if_neg hlast]
    by_cases hlimit : kMaxPages ≤ result.pageCount + 1
    · rw [dif_pos hlimit, if_pos hlimit]
      rfl
    · rw [dif_neg hlimit, if_neg hlimit]
      by_cases hseen : pg.nextPath ∈ seen
      · rw [if_pos hseen, if_pos hseen]
        rfl
      · rw [if_neg hseen, if_neg hseen]

theorem queryFrom_failed (s s' : Session σ) (path : Text) (seen : List Text)
    (result : SalesforceQueryResult) (e : Text)
    (hfetch : runCall (SessionCall.fetchPage path) s = (.error e, s')) :
    runCall (SessionCall.queryFrom path seen result) s = (.error e, s') := by
  have hfetch' : (SessionCall.fetchPage path).run serveSession s = (.error e, s') := hfetch
  unfold runCall
  rw [SessionCall.queryFrom, run_bind, hfetch']
  rfl

/-- The session of a query that succeeds is answered pages to the last, and a
session that is, within the limits, has a query that succeeds. -/
theorem queryFrom_ok_iff (s s' : Session σ) (path : Text) (seen : List Text)
    (result res : SalesforceQueryResult) (hcount : result.pageCount < kMaxPages) :
    runCall (SessionCall.queryFrom path seen result) s = (.ok res, s') ↔
      ∃ pgs, ServedPages s path pgs s' ∧ QueryAllows seen result.pageCount pgs ∧
        res = ⟨result.records ++ pgs.flatMap SalesforceQueryPage.records,
          result.pageCount + pgs.length⟩ := by
  refine ⟨?_, ?_⟩
  · intro hok
    induction hleft : kMaxPages - result.pageCount generalizing s path seen result with
    | zero => omega
    | succ left ih =>
      generalize hfetch : runCall (SessionCall.fetchPage path) s = r at *
      obtain ⟨answer, m⟩ := r
      cases answer with
      | error e =>
        rw [queryFrom_failed s m path seen result e hfetch] at hok
        cases (Prod.mk.inj hok).1
      | ok pg =>
        rw [queryFrom_run s m path seen result pg hfetch] at hok
        by_cases hlast : pg.isLast = true
        · rw [if_pos hlast] at hok
          obtain ⟨hres, rfl⟩ := Prod.mk.inj hok
          refine ⟨[pg], .last s m path pg hfetch hlast, queryAllows_last _ _ pg hcount, ?_⟩
          rw [List.flatMap_singleton, List.length_singleton]
          exact (Except.ok.inj hres).symm
        · rw [if_neg hlast] at hok
          by_cases hlimit : kMaxPages ≤ result.pageCount + 1
          · rw [if_pos hlimit] at hok
            cases (Prod.mk.inj hok).1
          · rw [if_neg hlimit] at hok
            by_cases hseen : pg.nextPath ∈ seen
            · rw [if_pos hseen] at hok
              cases (Prod.mk.inj hok).1
            · rw [if_neg hseen] at hok
              obtain ⟨pgs, hserved, hallows, hres⟩ := ih m pg.nextPath (pg.nextPath :: seen) _
                (by show result.pageCount + 1 < kMaxPages; omega) hok
                (by show kMaxPages - (result.pageCount + 1) = left; omega)
              refine ⟨pg :: pgs, .more s m s' path pg pgs hfetch (eq_false_of_ne_true hlast) hserved,
                ?_, ?_⟩
              · exact (queryAllows_more seen _ pg pgs hserved.ne_nil).mpr
                  ⟨by omega, hseen, hallows⟩
              · rw [hres, List.flatMap_cons, List.append_assoc, List.length_cons, Nat.add_assoc,
                  Nat.add_comm 1 pgs.length]
  · intro hserves
    obtain ⟨pgs, hserved, hallows, rfl⟩ := hserves
    induction hserved generalizing seen result with
    | last s s' path pg hfetch hlast =>
      rw [queryFrom_run s s' path seen result pg hfetch, if_pos hlast, List.flatMap_singleton]
      rfl
    | more s m s' path pg pgs hfetch hgoesOn hrest ih =>
      obtain ⟨hlimit, hseen, hallows⟩ := (queryAllows_more seen _ pg pgs hrest.ne_nil).mp hallows
      rw [queryFrom_run s m path seen result pg hfetch,
        if_neg (by rw [hgoesOn]; exact Bool.false_ne_true), if_neg (by omega), if_neg hseen,
        ih (pg.nextPath :: seen) ⟨result.records ++ pg.records, result.pageCount + 1⟩ hlimit hallows]
      rw [List.flatMap_cons, List.append_assoc, List.length_cons, Nat.add_assoc,
        Nat.add_comm 1 pgs.length]

theorem query_ok_iff (apiVersion : Text) (queryAll : Bool) (soql : Text) (s s' : Session σ)
    (res : SalesforceQueryResult) :
    runCall (SessionCall.query apiVersion queryAll soql) s = (.ok res, s') ↔
      ∃ pgs, ServedPages s (queryPath apiVersion queryAll soql) pgs s' ∧ QueryAllows [] 0 pgs ∧
        res = ⟨pgs.flatMap SalesforceQueryPage.records, pgs.length⟩ := by
  have hiff := queryFrom_ok_iff s s' (queryPath apiVersion queryAll soql) [] ⟨[], 0⟩ res
    (by show 0 < 1000000; omega)
  simp only [List.nil_append, Nat.zero_add] at hiff
  exact hiff

end

/-! ### The credentials -/

def credentialKeys : List Text :=
  ["client_id".toList, "client_secret".toList, "refresh_token".toList]

def missingCredential (params : List (Text × Text)) : Option Text :=
  credentialKeys.find? fun key => namedParam params key = []

/-- The first that is missing is named. -/
theorem require_first (function k₁ k₂ k₃ : Text) (params : List (Text × Text)) :
    ((requireParam function (namedParam params k₁) k₁).bind fun _ =>
      (requireParam function (namedParam params k₂) k₂).bind fun _ =>
        requireParam function (namedParam params k₃) k₃) =
      match [k₁, k₂, k₃].find? fun key => namedParam params key = [] with
      | none => .ok ()
      | some key => .error (missingError function key) := by
  unfold requireParam
  by_cases h₁ : namedParam params k₁ = []
  · simp [h₁, Except.bind]
  by_cases h₂ : namedParam params k₂ = []
  · simp [h₁, h₂, Except.bind]
  by_cases h₃ : namedParam params k₃ = []
  · simp [h₁, h₂, h₃, Except.bind]
  · simp [h₁, h₂, h₃, Except.bind]

theorem requireCredentials_first (function org : Text) (params : List (Text × Text)) :
    requireCredentials function (standaloneConfig org params) =
      match missingCredential params with
      | none => .ok ()
      | some key => .error (missingError function key) :=
  require_first function _ _ _ params

section
variable {σ α : Type} (connect : SalesforceConfig → σ → Session σ)

/-- Nothing is asked of the service before the parameters are there. -/
theorem standaloneCall_missing (function usage org : Text)
    (call : SalesforceConfig → Text → SessionCall α) (input : Text) (inputs : List Text)
    (params : List (Text × Text)) (w : σ) (key : Text) (h : missingCredential params = some key) :
    standaloneCall connect function usage org call (input :: inputs) params w =
      (.error (missingError function key), w) := by
  have hfirst := requireCredentials_first function org params
  rw [h] at hfirst
  unfold standaloneCall
  simp only
  rw [hfirst]

theorem standaloneCall_ok_iff (function usage org : Text)
    (call : SalesforceConfig → Text → SessionCall α) (inputs : List Text)
    (params : List (Text × Text)) (w w' : σ) (a : α) :
    standaloneCall connect function usage org call inputs params w = (.ok a, w') ↔
      ∃ input rest token opened s', inputs = input :: rest ∧ missingCredential params = none ∧
        acquireToken (connect (standaloneConfig org params) w) = (.ok token, opened) ∧
        runCall (call (standaloneConfig org params) input)
          { connect (standaloneConfig org params) w with token := token, world := opened } =
            (.ok a, s') ∧ s'.world = w' := by
  have hfirst := requireCredentials_first function org params
  cases inputs with
  | nil =>
    refine ⟨?_, ?_⟩
    · intro h
      cases (Prod.mk.inj h).1
    · intro h
      obtain ⟨_, _, _, _, _, hinputs, _⟩ := h
      cases hinputs
  | cons input rest =>
    unfold standaloneCall
    simp only
    rw [hfirst]
    cases hmissing : missingCredential params with
    | some key =>
      refine ⟨?_, ?_⟩
      · intro h
        cases (Prod.mk.inj h).1
      · intro h
        obtain ⟨_, _, _, _, _, _, hnone, _⟩ := h
        cases hnone
    | none =>
      dsimp only
      unfold openedCall
      generalize hlogin : acquireToken (connect (standaloneConfig org params) w) = login
      obtain ⟨granted, opened⟩ := login
      cases granted with
      | error e =>
        refine ⟨?_, ?_⟩
        · intro h
          cases (Prod.mk.inj h).1
        · intro h
          obtain ⟨_, _, _, _, _, _, _, hgranted, _⟩ := h
          cases (Prod.mk.inj hgranted).1
      | ok token =>
        dsimp only
        refine ⟨?_, ?_⟩
        · intro h
          obtain ⟨ha, hworld⟩ := Prod.mk.inj h
          exact ⟨input, rest, token, opened, _, rfl, rfl, rfl, Prod.ext ha rfl, hworld⟩
        · intro h
          obtain ⟨_, _, _, _, s', hinputs, _, hgranted, hrun, hworld⟩ := h
          obtain ⟨rfl, rfl⟩ := List.cons.inj hinputs
          obtain ⟨htoken, rfl⟩ := Prod.mk.inj hgranted
          rw [Except.ok.inj htoken, hrun, hworld]

/-! ### The rows of a query -/

def numberedRow (r : Text × ℕ) : List (OutValue Value) :=
  [.cell (.scalar .bigint r.2 (intText r.2)), .cell (.varchar r.1)]

/-- The pages that the service serves to a query behind the login. -/
structure QueryServed (org soql : Text) (params : List (Text × Text)) (w w' : σ)
    (pgs : List SalesforceQueryPage) : Prop where
  credentials : missingCredential params = none
  served : ∃ token opened s',
    acquireToken (connect (standaloneConfig org params) w) = (.ok token, opened) ∧
    ServedPages { connect (standaloneConfig org params) w with token := token, world := opened }
      (queryPath (standaloneConfig org params).apiVersion false soql) pgs s' ∧ s'.world = w'
  allowed : QueryAllows [] 0 pgs

theorem queryBind_ok_iff (inputs : List Text) (params : List (Text × Text)) (w w' : σ)
    (res : SalesforceQueryResult) :
    queryBind connect inputs params w = (.ok res, w') ↔
      ∃ soql rest pgs, inputs = soql :: rest ∧
        QueryServed connect "query".toList soql params w w' pgs ∧
        res = ⟨pgs.flatMap SalesforceQueryPage.records, pgs.length⟩ := by
  unfold queryBind
  rw [standaloneCall_ok_iff]
  refine ⟨?_, ?_⟩
  · intro h
    obtain ⟨soql, rest, token, opened, s', hinputs, hmissing, hlogin, hrun, hworld⟩ := h
    obtain ⟨pgs, hserved, hallows, hres⟩ := (query_ok_iff _ _ _ _ _ _).mp hrun
    exact ⟨soql, rest, pgs, hinputs, ⟨hmissing, ⟨token, opened, s', hlogin, hserved, hworld⟩, hallows⟩,
      hres⟩
  · intro h
    obtain ⟨soql, rest, pgs, hinputs, hquery, hres⟩ := h
    obtain ⟨token, opened, s', hlogin, hserved, hworld⟩ := hquery.served
    exact ⟨soql, rest, token, opened, s', hinputs, hquery.credentials, hlogin,
      (query_ok_iff _ _ _ _ _ _).mpr ⟨pgs, hserved, hquery.allowed, hres⟩, hworld⟩

theorem queryTable_rows (records : List Text) (v n : ℕ) :
    (emitCalls queryColumns records.zipIdx v n 0).map Prod.fst =
      some ((records.zipIdx.take (n * v)).map numberedRow) := by
  rw [emitCalls_rows]
  rfl

theorem salesforceQuery_ok_iff (inputs : List Text) (params : List (Text × Text)) (v n : ℕ)
    (w w' : σ) (out : Option (List (List (OutValue Value)))) :
    salesforceQuery connect inputs params v n w = (.ok out, w') ↔
      ∃ soql rest pgs, inputs = soql :: rest ∧
        QueryServed connect "query".toList soql params w w' pgs ∧
        out = some ((((pgs.flatMap SalesforceQueryPage.records).zipIdx).take (n * v)).map numberedRow) := by
  unfold salesforceQuery
  generalize hbind : queryBind connect inputs params w = r
  obtain ⟨answer, after⟩ := r
  dsimp only
  refine ⟨?_, ?_⟩
  · intro h
    obtain ⟨hout, rfl⟩ := Prod.mk.inj h
    cases answer with
    | error e => cases hout
    | ok res =>
      obtain ⟨soql, rest, pgs, hinputs, hquery, rfl⟩ := (queryBind_ok_iff _ _ _ _ _ _).mp hbind
      refine ⟨soql, rest, pgs, hinputs, hquery, ?_⟩
      rw [← Except.ok.inj hout]
      exact queryTable_rows _ v n
  · intro h
    obtain ⟨soql, rest, pgs, hinputs, hquery, rfl⟩ := h
    have hok := (queryBind_ok_iff connect inputs params w w' _).mpr
      ⟨soql, rest, pgs, hinputs, hquery, rfl⟩
    rw [hbind] at hok
    obtain ⟨hanswer, rfl⟩ := Prod.mk.inj hok
    rw [hanswer, ← queryTable_rows]
    rfl

theorem salesforceQuery_missing (soql key : Text) (rest : List Text) (params : List (Text × Text))
    (v n : ℕ) (w : σ) (h : missingCredential params = some key) :
    salesforceQuery connect (soql :: rest) params v n w =
      (.error (missingError "salesforce_query".toList key), w) := by
  have hbind := standaloneCall_missing connect "salesforce_query".toList
    "salesforce_query(soql) requires the SOQL string as the first argument".toList "query".toList
    (fun cfg soql => SessionCall.query cfg.apiVersion false soql) soql rest params w key h
  unfold salesforceQuery queryBind
  rw [hbind]
  rfl

/-! ### The fields of a describe -/

theorem describeBind_ok_iff (inputs : List Text) (params : List (Text × Text)) (w w' : σ)
    (fields : List DescribeField) :
    describeBind connect inputs params w = (.ok fields, w') ↔
      ∃ object rest token opened body s', inputs = object :: rest ∧ missingCredential params = none ∧
        acquireToken (connect (standaloneConfig "describe".toList params) w) = (.ok token, opened) ∧
        runCall (SessionCall.describeJson (standaloneConfig "describe".toList params).apiVersion object)
          { connect (standaloneConfig "describe".toList params) w with
            token := token, world := opened } = (.ok body, s') ∧
        s'.world = w' ∧ fields = describeFields body := by
  have hmap : ∀ (call : SessionCall Text) (s : Session σ),
      runCall (call.map fun body => body.map describeFields) s =
        ((runCall call s).1.map describeFields, (runCall call s).2) :=
    fun call s => run_bind serveSession call _ s
  unfold describeBind
  rw [standaloneCall_ok_iff]
  refine ⟨?_, ?_⟩
  · intro h
    obtain ⟨object, rest, token, opened, s', hinputs, hmissing, hlogin, hrun, hworld⟩ := h
    rw [hmap] at hrun
    obtain ⟨hanswer, hafter⟩ := Prod.mk.inj hrun
    obtain ⟨body, hbody, hfields⟩ := Fallible.map_ok hanswer
    exact ⟨object, rest, token, opened, body, s', hinputs, hmissing, hlogin, Prod.ext hbody hafter,
      hworld, hfields.symm⟩
  · intro h
    obtain ⟨object, rest, token, opened, body, s', hinputs, hmissing, hlogin, hrun, hworld, rfl⟩ := h
    refine ⟨object, rest, token, opened, s', hinputs, hmissing, hlogin, ?_, hworld⟩
    rw [hmap, hrun]
    rfl

/-- A describe whose body is a document gives the rows of its named fields. -/
theorem salesforce_describe_rows (typeText : LogicalType → Text) (o : ObjectText)
    (hsafe : DescribeSafe o) (inputs : List Text) (params : List (Text × Text)) (v n : ℕ) (w w' : σ)
    (hbind : describeBind connect inputs params w = (.ok (describeFields o.text), w')) :
    ∃ out, salesforceDescribe connect typeText inputs params v n w = (.ok (some out), w') ∧
      List.Forall₂ (fun d row => ∃ f, FieldRead d f ∧ row = rowValues (describeColumns typeText) f)
        (((objectsOf o "fields".toList).filter fun d => hasText d "name".toList).take (n * v)) out := by
  refine ⟨_, ?_, forall₂_emitted (fun d f h => ⟨f, h, rfl⟩) _ _ (describeFields_read o hsafe) _⟩
  have hcalls := emitCalls_rows (describeColumns typeText) (describeFields o.text) v n 0
  unfold salesforceDescribe
  rw [hbind]
  show (Except.ok ((emitCalls (describeColumns typeText) (describeFields o.text) v n 0).map Prod.fst),
    w') = _
  rw [hcalls]
  rfl

/-! ### Queries over a catalog -/

def reportsSoql : Text := "SELECT Id, Name, DeveloperName, FolderName, Format FROM Report".toList

def reportsKeys : List Text :=
  ["Id".toList, "Name".toList, "DeveloperName".toList, "FolderName".toList, "Format".toList]

/-- A member that is missing or null is a NULL cell. -/
def memberCell (key record : Text) : Option Value := (aggCell record key).map .varchar

def reportsColumns : List (Column Text Value) := reportsKeys.map fun key => .flat (memberCell key)

def aggColumns (bind : AggBindData) : List (Column Text Value) :=
  bind.columns.map fun column => .flat (memberCell column.key)

/-- Asked at the first call. `reconnect` opens a session with the token of the
catalog. -/
def queryBuild (reconnect : σ → Session σ) (queryAll : Bool) (soql : Text) (w : σ) :
    Except Text (List Text) × σ :=
  let s := reconnect w
  let r := runCall (SessionCall.query s.apiVersion queryAll soql) s
  (r.1.map SalesforceQueryResult.records, r.2.world)

def reportsBuild (reconnect : σ → Session σ) : σ → Except Text (List Text) × σ :=
  queryBuild reconnect false reportsSoql

/-- `queryMode` is `sf_query_mode`, which is not checked here. -/
def aggBuild (reconnect : σ → Session σ) (queryMode : Option Text) (bind : AggBindData) :
    σ → Except Text (List Text) × σ :=
  queryBuild reconnect (queryMode.any fun m => lower m == "queryall".toList) bind.soql

/-- The pages that the service serves to the session of a catalog. -/
structure CatalogServed (reconnect : σ → Session σ) (queryAll : Bool) (soql : Text) (w w' : σ)
    (pgs : List SalesforceQueryPage) : Prop where
  served : ∃ s', ServedPages (reconnect w) (queryPath (reconnect w).apiVersion queryAll soql) pgs s' ∧
    s'.world = w'
  allowed : QueryAllows [] 0 pgs

/-- The query is asked at the first call; the rows are those of all pages. -/
theorem queryBuild_rows (reconnect : σ → Session σ) (queryAll : Bool) (soql : Text)
    (columns : List (Column Text Value)) (v n : ℕ) (w w' : σ)
    (out : Option (List (List (OutValue Value)))) :
    metaCalls (queryBuild reconnect queryAll soql) columns v (n + 1) metaStart w = (.ok out, w') ↔
      ∃ pgs, CatalogServed reconnect queryAll soql w w' pgs ∧
        out = some (((pgs.flatMap SalesforceQueryPage.records).take ((n + 1) * v)).map
          (rowValues columns)) := by
  rw [metaCalls_rows, queryBuild]
  dsimp only
  generalize hrun : runCall (SessionCall.query (reconnect w).apiVersion queryAll soql)
    (reconnect w) = r
  obtain ⟨answer, s'⟩ := r
  refine ⟨?_, ?_⟩
  · intro h
    obtain ⟨hout, hworld⟩ := Prod.mk.inj h
    cases answer with
    | error e => cases hout
    | ok res =>
      obtain ⟨pgs, hserved, hallows, rfl⟩ := (query_ok_iff _ _ _ _ _ _).mp hrun
      exact ⟨pgs, ⟨⟨s', hserved, hworld⟩, hallows⟩, (Except.ok.inj hout).symm⟩
  · intro h
    obtain ⟨pgs, ⟨⟨s'', hserved, rfl⟩, hallows⟩, rfl⟩ := h
    have hok := (query_ok_iff _ _ _ _ _ _).mpr ⟨pgs, hserved, hallows, rfl⟩
    rw [hrun] at hok
    obtain ⟨hanswer, rfl⟩ := Prod.mk.inj hok
    rw [hanswer]
    rfl

def textCell : Option Text → OutValue Value
  | none => .null
  | some t => .cell (.varchar t)

theorem memberCell_value (key record : Text) :
    cellValue (memberCell key record) = textCell (aggCell record key) := by
  unfold memberCell
  cases aggCell record key with
  | none | some t => rfl

theorem reports_cells (record : Text) :
    rowValues reportsColumns record = reportsKeys.map fun key => textCell (aggCell record key) := by
  unfold rowValues reportsColumns
  rw [List.map_map]
  exact List.map_congr_left fun key _ => memberCell_value key record

theorem agg_cells (bind : AggBindData) (record : Text) :
    rowValues (aggColumns bind) record = (bind.row record).map textCell := by
  unfold rowValues aggColumns AggBindData.row
  rw [List.map_map, List.map_map]
  exact List.map_congr_left fun column _ => memberCell_value column.key record

/-! ### What the functions emit -/

end
end DuckdbSalesforce
