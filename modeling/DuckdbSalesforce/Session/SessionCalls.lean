import DuckdbSalesforce.Bulk.JobCreate
import DuckdbSalesforce.Catalog.ObjectDescribe
import DuckdbSalesforce.Library.Interaction
import DuckdbSalesforce.Quota.BulkStart
import DuckdbSalesforce.Scan.BindData
import DuckdbSalesforce.Scan.RestScan
import DuckdbSalesforce.Session.QueryPath

/-!
# The calls of a session (salesforce_session.cpp)

Every call of `SalesforceSession` is a program over `AuthorizedSend`: which
requests it sends, and what it makes of the answers. `apiVersion` and `queryAll`
are those of the session.
-/

namespace DuckdbSalesforce
open Interaction

abbrev SessionCall (α : Type) := Program Request (Except Text HttpResponse) (Except Text α)

section
variable {σ : Type}

/-- `AuthorizedSend` as the session answers it. -/
def serveSession : Server Request (Except Text HttpResponse) (Session σ) :=
  fun r s => ((s.answer r).result, (s.answer r).session)

abbrev runCall {α : Type} (call : SessionCall α) (s : Session σ) : Except Text α × Session σ :=
  call.run serveSession s

end

def getRequest (path : Text) : Request := ⟨false, path, []⟩

def sendGet {α : Type} (path : Text) (finish : Except Text HttpResponse → Except Text α) :
    SessionCall α := .ask (getRequest path) fun answer => .done (finish answer)

/-! ### AuthorizedGet -/

def remedyHint (code : Text) (status : ℤ) : Text :=
  if code = "INVALID_SESSION_ID".toList then
    ("session re-authenticated once already; if this recurs, the refresh token may have been " ++
      "revoked - re-issue it from the Connected App").toList
  else if code = "REQUEST_LIMIT_EXCEEDED".toList then
    ("daily API quota exhausted - inspect salesforce_last_quota() and salesforce_query_cost() to " ++
      "find the over-fetching scan").toList
  else if code = "QUERY_TIMEOUT".toList then
    ("query too selective for Salesforce - add a pushed filter on an indexed field (check " ++
      "salesforce_query_explain() for residual filters)").toList
  else if code = "INVALID_FIELD".toList then
    "field unknown to this sObject - check salesforce_metadata_fields()".toList
  else if code = "INVALID_TYPE".toList then
    "object unknown or not queryable - check salesforce_metadata_objects()".toList
  else if code = "OPERATION_TOO_LARGE".toList ∨ code = "ENTITY_NOT_QUERYABLE".toList then
    ("object not supported by this API path - try sf_force_transport adjustments or a narrower " ++
      "window").toList
  else if status = 429 then
    "rate limited - the client retries automatically; consider raising sf_retry_backoff_ms".toList
  else []

def requestError (path : Text) (resp : HttpResponse) : Text :=
  let errorCode := getString resp.body "errorCode".toList
  let code := if errorCode = [] then "error".toList else errorCode
  let msg := getString resp.body "message".toList
  let hint := remedyHint code resp.status
  "salesforce: request to ".toList ++ path ++ " failed (HTTP ".toList ++
    (toString resp.status).toList ++ "): ".toList ++ code ++
    (if msg = [] then [] else " - ".toList) ++ msg ++
    (if hint = [] then [] else " HINT: ".toList) ++ hint ++ ".".toList

def getResult (path : Text) : Except Text HttpResponse → Except Text Text
  | .error e => .error e
  | .ok resp => if resp.status = 200 then .ok resp.body else .error (requestError path resp)

def authorizedGet (path : Text) : SessionCall Text := sendGet path (getResult path)

/-- A call that reads the body of `AuthorizedGet`. -/
def getBody {α : Type} (path : Text) (read : Text → α) : SessionCall α :=
  (authorizedGet path).map fun body => body.map read

/-! ### The calls that never throw -/

section Try
variable {α : Type}

/-- What is left when an exception is dropped and a status other than 200 is no
answer. -/
def tryRead (read : Text → Option α) : Except Text HttpResponse → Option α
  | .error _ => none
  | .ok resp => if resp.status = 200 then read resp.body else none

def tryGet (path : Text) (read : Text → Option α) : SessionCall (Option α) :=
  sendGet path fun answer => .ok (tryRead read answer)

end Try

def readEstimate (body : Text) : Option ℤ :=
  let total := getValue body "totalSize".toList
  if total.found = false ∨ total.isNull = true then none
  else
    let rows := getInt body "totalSize".toList (-1)
    if 0 ≤ rows then some rows else none

def readAggregate (body : Text) : Option Text := (getObjectArray body "records".toList).head?

def readMinMax (body : Text) : Option (Text × Text) :=
  match getObjectArray body "records".toList with
  | [] => none
  | record :: _ =>
    let mn := getValue record "mn".toList
    let mx := getValue record "mx".toList
    if mn.found = false ∨ mn.isNull = true ∨ mx.found = false ∨ mx.isNull = true ∨ mn.out = [] ∨
        mx.out = [] then none
    else if mn.out < mx.out then some (mn.out, mx.out) else none

/-! ### Describes and listings -/

def readObjectInfo (obj : Text) : Option SalesforceObjectInfo :=
  let name := getString obj "name".toList
  if name = [] then none else some ⟨name, getBool obj "queryable".toList false⟩

def readObjectInfos (body : Text) : List SalesforceObjectInfo :=
  (getObjectArray body "sobjects".toList).filterMap readObjectInfo

/-- The name of a queryable object. -/
def readQueryableName (obj : Text) : Option Text :=
  if getBool obj "queryable".toList false = false then none
  else
    let name := getString obj "name".toList
    if name = [] then none else some name

def readQueryableNames (body : Text) : List Text :=
  (getObjectArray body "sobjects".toList).filterMap readQueryableName

def readPage (body : Text) : SalesforceQueryPage :=
  ⟨getObjectArray body "records".toList, getBool body "done".toList true,
    getString body "nextRecordsUrl".toList⟩

namespace SessionCall

section Calls
variable (apiVersion : Text) (queryAll : Bool)

def dataPath (rest : Text) : Text := "/services/data/".toList ++ apiVersion ++ rest

def tryEstimateCount (soql : Text) : SessionCall (Option ℤ) :=
  tryGet (queryPath apiVersion queryAll soql) readEstimate

def tryAggregateQuery (soql : Text) : SessionCall (Option Text) :=
  tryGet (queryPath apiVersion queryAll soql) readAggregate

def tryMinMaxId (object w : Text) : SessionCall (Option (Text × Text)) :=
  tryGet (queryPath apiVersion queryAll (minMaxSoql object w)) readMinMax

def queryLimits : SessionCall SalesforceQuotaSnapshot :=
  sendGet (limitsPath apiVersion) fun answer => .ok (limitsOf answer)

def describeJson (object : Text) : SessionCall Text :=
  authorizedGet (dataPath apiVersion ("/sobjects/".toList ++ object ++ "/describe".toList))

def describe (object : Text) : SessionCall ObjectDescribe :=
  (describeJson apiVersion object).map fun body => body.map fun b => describeFrom b object

def globalDescribe : SessionCall (List Text) :=
  getBody (dataPath apiVersion "/sobjects".toList) readQueryableNames

def globalDescribeInfos : SessionCall (List SalesforceObjectInfo) :=
  getBody (dataPath apiVersion "/sobjects".toList) readObjectInfos

def runReport (reportId : Text) : SessionCall Text :=
  authorizedGet
    (dataPath apiVersion ("/analytics/reports/".toList ++ reportId ++ "?includeDetails=true".toList))

def describeReport (reportId : Text) : SessionCall Text :=
  authorizedGet (dataPath apiVersion ("/analytics/reports/".toList ++ reportId ++ "/describe".toList))

/-! ### Queries -/

def fetchPage (path : Text) : SessionCall SalesforceQueryPage := getBody path readPage

/-- What `Query` does with a page. -/
def queryFrom (path : Text) (seen : List Text) (result : SalesforceQueryResult) :
    SessionCall SalesforceQueryResult :=
  (fetchPage path).bind fun page =>
    match page with
    | .error e => .done (.error e)
    | .ok pg =>
      let result := ⟨result.records ++ pg.records, result.pageCount + 1⟩
      if pg.done || pg.nextPath.isEmpty then .done (.ok result)
      else if _hlimit : kMaxPages ≤ result.pageCount then .done (.error queryPagesError)
      else if pg.nextPath ∈ seen then .done (.error queryLoopError)
      else queryFrom pg.nextPath (pg.nextPath :: seen) result
termination_by kMaxPages - result.pageCount
decreasing_by
  have hmore := Nat.lt_of_not_le _hlimit
  exact Nat.sub_lt_sub_left (Nat.lt_of_succ_lt hmore) (Nat.lt_succ_self _)

def query (soql : Text) : SessionCall SalesforceQueryResult :=
  queryFrom (queryPath apiVersion queryAll soql) [] ⟨[], 0⟩

/-! ### Bulk jobs -/

section Bulk
variable (budget : ℤ)

/-- The poll loop from round `i` on. -/
def pollJob (jobId : Text) (i : ℕ) : SessionCall Text :=
  .ask (pollRequest apiVersion jobId) fun answer =>
    match jobAnswer answer with
    | .complete => .done (.ok (jobPath apiVersion jobId ++ "/results".toList))
    | .failed message => .done (.error message)
    | .pending =>
      if maxPolls budget ≤ i then .done (.error (timeoutError budget)) else pollJob jobId (i + 1)
termination_by maxPolls budget - i

/-- The id of the created job. -/
def createdJob : Except Text HttpResponse → Except Text Text
  | .error e => .error e
  | .ok cr =>
    if cr.status < 200 ∨ 300 ≤ cr.status then .error (bulkError "job create".toList cr)
    else
      let jobId := getString cr.body "id".toList
      if jobId = [] then .error "salesforce bulk: job create returned no id.".toList else .ok jobId

def bulkStartJob (soql : Bytes) : SessionCall Text :=
  .ask (createRequest apiVersion queryAll soql) fun answer =>
    match createdJob answer with
    | .error e => .done (.error e)
    | .ok jobId => pollJob apiVersion budget jobId 0

end Bulk

def bulkFetchResultPage (path : Text) : SessionCall SalesforceBulkPage :=
  sendGet path fun
    | .error e => .error e
    | .ok rs => bulkResultPage rs

end Calls

end SessionCall

/-! ### The listing -/

theorem readQueryableName_info (obj : Text) :
    readQueryableName obj =
      ((readObjectInfo obj).filter SalesforceObjectInfo.queryable).map SalesforceObjectInfo.name := by
  unfold readQueryableName readObjectInfo
  dsimp only
  generalize getString obj "name".toList = name
  by_cases hname : name = []
  · rw [if_pos hname, if_pos hname]
    cases getBool obj "queryable".toList false <;> rfl
  · rw [if_neg hname, if_neg hname]
    cases getBool obj "queryable".toList false <;> rfl

/-- The names that `GlobalDescribe` lists are those of the queryable infos. -/
theorem readQueryableNames_infos (body : Text) :
    readQueryableNames body =
      ((readObjectInfos body).filter SalesforceObjectInfo.queryable).map SalesforceObjectInfo.name := by
  unfold readQueryableNames readObjectInfos
  induction getObjectArray body "sobjects".toList with
  | nil => rfl
  | cons obj objs ih =>
    rw [List.filterMap_cons, List.filterMap_cons, readQueryableName_info]
    cases hinfo : readObjectInfo obj with
    | none => exact ih
    | some info =>
      cases hquery : info.queryable with
      | false =>
        rw [List.filter_cons_of_neg (by simp [hquery])]
        simpa [Option.filter, hquery] using ih
      | true =>
        rw [List.filter_cons_of_pos hquery]
        simp [Option.filter, hquery, ih]

end DuckdbSalesforce
