import Mathlib
import DuckdbSalesforce.Csv
import DuckdbSalesforce.Json.Reader
import DuckdbSalesforce.Library.PagedStream

/-!
# Result pages of a Bulk job

`BulkFetchResultPage` (salesforce_session.cpp) and `BulkAdvancePage`
(salesforce_scan.cpp): a page is the CSV text of a response, and its
`Sforce-Locator` header names the next one.
-/

namespace DuckdbSalesforce
open PagedStream

/-! ### One page -/

structure HttpResponse where
  status : ℤ
  body : Text
  sforceLocator : Text

structure SalesforceBulkPage where
  columns : List Text
  rows : List (List Text)
  nextLocator : Text

/-- The text `ThrowBulkError` throws. -/
def bulkError (stage : Text) (r : HttpResponse) : Text :=
  let code := getString r.body "errorCode".toList
  let msg := getString r.body "message".toList
  "salesforce bulk ".toList ++ stage ++ " failed (HTTP ".toList ++ (toString r.status).toList ++
    "): ".toList ++ (if code = [] then "error".toList else code) ++
    (if msg = [] then [] else " - ".toList) ++ msg ++ ".".toList

def bulkResultPage (rs : HttpResponse) : Except Text SalesforceBulkPage :=
  if rs.status < 200 ∨ 300 ≤ rs.status then .error (bulkError "job results".toList rs)
  else
    let rows := Sfcsv.parse rs.body
    .ok ⟨rows.headD [], rows.tail,
      if rs.sforceLocator = "null".toList then [] else rs.sforceLocator⟩

abbrev FetchResultPage := Text → Except Text SalesforceBulkPage

def bulkFetchResultPage (authorizedSend : Text → Except Text HttpResponse) : FetchResultPage :=
  fun path =>
    match authorizedSend path with
    | .error e => .error e
    | .ok rs => bulkResultPage rs

/-! ### The pages of a chunk -/

def kBulkMaxPages : ℕ := 1000000

def bulkPagesError : Text := "salesforce bulk: exceeded the maximum result page count.".toList

def bulkLoopError : Text := "salesforce bulk: result pagination loop (locator repeated).".toList

/-- The part of `ScanLocalState` that reads pages, with the requests sent and
the rows delivered so far. -/
structure ScanLocalState where
  hasChunk : Bool
  resultsBase : Text
  started : Bool
  chunkDone : Bool
  nextLocator : Text
  columns : List Text
  page : List (List Text)
  cursor : ℕ
  seen : List Text
  trace : Trace Text (List Text)

def ScanLocalState.initial : ScanLocalState :=
  ⟨false, [], false, false, [], [], [], 0, [], []⟩

/-- A new chunk, its job started: the page and the header of the one before stay. -/
def ScanLocalState.startChunk (l : ScanLocalState) (base : Text) : ScanLocalState :=
  { l with
    resultsBase := base, started := false, chunkDone := false, nextLocator := [], seen := [],
    hasChunk := true }

def locatorPath (base locator : Text) : Text := base ++ "?locator=".toList ++ locator

def ScanLocalState.pagePath (l : ScanLocalState) : Text :=
  if l.started then locatorPath l.resultsBase l.nextLocator else l.resultsBase

/-- One round of the loop of `BulkAdvancePage`; `total` counts the pages that
all threads have fetched before. -/
def bulkFetchPage (fetch : FetchResultPage) (total : ℕ) (l : ScanLocalState) :
    Except Text Unit × ScanLocalState :=
  let trace := l.trace ++ [.request l.pagePath]
  match fetch l.pagePath with
  | .error e => (.error e, { l with trace := trace })
  | .ok pg =>
    let l := { l with
      started := true,
      columns := if l.columns.isEmpty && !pg.columns.isEmpty then pg.columns else l.columns,
      page := pg.rows, cursor := 0, trace := trace }
    if pg.nextLocator.isEmpty then (.ok (), { l with chunkDone := true })
    else if kBulkMaxPages ≤ total + 1 then (.error bulkPagesError, l)
    else if pg.nextLocator ∈ l.seen then (.error bulkLoopError, l)
    else (.ok (), { l with seen := pg.nextLocator :: l.seen, nextLocator := pg.nextLocator })

/-- The rows of one call, at most `vectorSize` of the current page. -/
def ScanLocalState.emit (l : ScanLocalState) (vectorSize : ℕ) : ScanLocalState :=
  let rows := (l.page.drop l.cursor).take vectorSize
  { l with cursor := l.cursor + rows.length, trace := l.trace ++ rows.map Event.deliver }

theorem emit_frame (l : ScanLocalState) (v : ℕ) :
    requests (l.emit v).trace = requests l.trace ∧
      delivered (l.emit v).trace = delivered l.trace ++ (l.page.drop l.cursor).take v ∧
      delivered (l.emit v).trace ++ (l.emit v).page.drop (l.emit v).cursor =
        delivered l.trace ++ l.page.drop l.cursor := by
  have hdelivered : delivered (l.emit v).trace =
      delivered l.trace ++ (l.page.drop l.cursor).take v := by
    show delivered (l.trace ++ ((l.page.drop l.cursor).take v).map Event.deliver) = _
    rw [delivered_append, delivered_deliveries]
  refine ⟨?_, hdelivered, ?_⟩
  · show requests (l.trace ++ ((l.page.drop l.cursor).take v).map Event.deliver) = _
    rw [requests_append, requests_deliveries, List.append_nil]
  · show _ ++ l.page.drop (l.cursor + ((l.page.drop l.cursor).take v).length) = _
    rw [hdelivered, List.append_assoc, ← List.drop_drop, batch_split]

theorem bulkFetchPage_frame (fetch : FetchResultPage) (total : ℕ) (l l' : ScanLocalState)
    (r : Except Text Unit) (h : bulkFetchPage fetch total l = (r, l')) :
    l'.trace = l.trace ++ [.request l.pagePath] ∧ l'.resultsBase = l.resultsBase ∧
      l'.hasChunk = l.hasChunk := by
  unfold bulkFetchPage at h
  cases hpage : fetch l.pagePath with
  | error e =>
    rw [hpage] at h
    cases h
    exact ⟨rfl, rfl, rfl⟩
  | ok pg =>
    rw [hpage] at h
    simp only at h
    split at h
    · cases h
      exact ⟨rfl, rfl, rfl⟩
    · split at h
      · cases h
        exact ⟨rfl, rfl, rfl⟩
      · split at h
        · cases h
          exact ⟨rfl, rfl, rfl⟩
        · cases h
          exact ⟨rfl, rfl, rfl⟩

theorem bulkFetchPage_ok (fetch : FetchResultPage) (total : ℕ) (l l' : ScanLocalState)
    (h : bulkFetchPage fetch total l = (.ok (), l')) :
    ∃ pg, fetch l.pagePath = .ok pg ∧ l'.page = pg.rows ∧ l'.cursor = 0 ∧ l'.started = true ∧
      ((pg.nextLocator = [] ∧ l'.chunkDone = true) ∨
        (pg.nextLocator ≠ [] ∧ l'.chunkDone = l.chunkDone ∧ l'.nextLocator = pg.nextLocator ∧
          total + 1 < kBulkMaxPages)) := by
  unfold bulkFetchPage at h
  cases hpage : fetch l.pagePath with
  | error e =>
    rw [hpage] at h
    cases h
  | ok pg =>
    rw [hpage] at h
    simp only at h
    refine ⟨pg, rfl, ?_⟩
    split at h
    · rename_i hnone
      cases h
      exact ⟨rfl, rfl, rfl, Or.inl ⟨List.isEmpty_iff.mp hnone, rfl⟩⟩
    · rename_i hsome
      split at h
      · cases h
      · rename_i hlimit
        split at h
        · cases h
        · cases h
          exact ⟨rfl, rfl, rfl, Or.inr ⟨fun hnil => hsome (List.isEmpty_iff.mpr hnil), rfl, rfl,
            Nat.lt_of_not_le hlimit⟩⟩

/-- Whether the current chunk has more rows; `total` as it stands afterwards. -/
def bulkAdvancePage (fetch : FetchResultPage) (total : ℕ) (l : ScanLocalState) :
    Except Text (Bool × ℕ) × ScanLocalState :=
  if l.chunkDone then (.ok (false, total), l)
  else
    match _h : bulkFetchPage fetch total l with
    | (.error e, l') => (.error e, l')
    | (.ok (), l') =>
      if !l'.page.isEmpty then (.ok (true, total + 1), l')
      else if _hdone : l'.chunkDone then (.ok (false, total + 1), l')
      else bulkAdvancePage fetch (total + 1) l'
termination_by kBulkMaxPages - total
decreasing_by
  obtain ⟨_, _, _, _, _, hnext⟩ := bulkFetchPage_ok fetch total l l' _h
  rcases hnext with ⟨_, hend⟩ | ⟨_, _, _, hlimit⟩
  · exact absurd hend _hdone
  · omega

theorem bulkAdvancePage_round (fetch : FetchResultPage) (total : ℕ) (l l' : ScanLocalState)
    (hopen : l.chunkDone = false) (hround : bulkFetchPage fetch total l = (.ok (), l')) :
    bulkAdvancePage fetch total l =
      if !l'.page.isEmpty then (.ok (true, total + 1), l')
      else if l'.chunkDone then (.ok (false, total + 1), l')
      else bulkAdvancePage fetch (total + 1) l' := by
  rw [bulkAdvancePage, hopen, if_neg Bool.false_ne_true]
  split
  · rename_i e l₁ herror
    rw [hround] at herror
    cases herror
  · rename_i l₁ hok
    rw [hround] at hok
    cases hok
    rfl

theorem bulkAdvancePage_throws (fetch : FetchResultPage) (total : ℕ) (l l' : ScanLocalState)
    (e : Text) (hopen : l.chunkDone = false)
    (hround : bulkFetchPage fetch total l = (.error e, l')) :
    bulkAdvancePage fetch total l = (.error e, l') := by
  rw [bulkAdvancePage, hopen, if_neg Bool.false_ne_true]
  split
  · rename_i e₁ l₁ herror
    rw [hround] at herror
    cases herror
    rfl
  · rename_i l₁ hok
    rw [hround] at hok
    cases hok

end DuckdbSalesforce
