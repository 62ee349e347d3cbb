import Mathlib
import DuckdbSalesforce.Text
import DuckdbSalesforce.Library.PagedStream

/-!
# The eager query and the lazy REST scan

`SalesforceSession::Query` (salesforce_session.cpp) collects every page of a
query. `ScanAdvancePage` and the REST path of `ScanFunction`
(salesforce_scan.cpp) read the same pages one at a time. `fetchPage` is
`FetchPage`, which both call; a record is its raw text. An exception is an
error, beside the state at the throw.
-/

namespace DuckdbSalesforce
open PagedStream

structure SalesforceQueryPage where
  records : List Text
  done : Bool
  nextPath : Text

abbrev FetchPage := Text → Except Text SalesforceQueryPage

/-! ### Query -/

structure SalesforceQueryResult where
  records : List Text
  pageCount : ℕ

def kMaxPages : ℕ := 1000000

def queryPagesError : Text :=
  "salesforce query aborted: exceeded the maximum page count (1000000).".toList

def queryLoopError : Text :=
  "salesforce query aborted: pagination loop detected (nextRecordsUrl repeated).".toList

def queryLoop (fetchPage : FetchPage) (path : Text) (seen : List Text)
    (result : SalesforceQueryResult) : Except Text Unit × SalesforceQueryResult :=
  match fetchPage path with
  | .error e => (.error e, result)
  | .ok pg =>
    let result := ⟨result.records ++ pg.records, result.pageCount + 1⟩
    if pg.done || pg.nextPath.isEmpty then (.ok (), result)
    else if _hlimit : kMaxPages ≤ result.pageCount then (.error queryPagesError, result)
    else if pg.nextPath ∈ seen then (.error queryLoopError, result)
    else queryLoop fetchPage pg.nextPath (pg.nextPath :: seen) result
termination_by kMaxPages - result.pageCount
decreasing_by
  have hmore := Nat.lt_of_not_le _hlimit
  exact Nat.sub_lt_sub_left (Nat.lt_of_succ_lt hmore) (Nat.lt_succ_self _)

def query (fetchPage : FetchPage) (path : Text) : Except Text Unit × SalesforceQueryResult :=
  queryLoop fetchPage path [] ⟨[], 0⟩

/-! ### The scan -/

def kScanMaxPages : ℕ := 1000000

def scanPagesError : Text :=
  "salesforce scan: exceeded the maximum page count (1000000).".toList

def scanLoopError : Text :=
  "salesforce scan: pagination loop detected (nextRecordsUrl repeated).".toList

/-- The REST part of `ScanGlobalState`, with the requests sent and the records
delivered so far. -/
structure RestScanState where
  nextPath : Text
  done : Bool
  page : List Text
  cursor : ℕ
  pagesFetched : ℕ
  seen : List Text
  trace : Trace Text Text

def RestScanState.start (path : Text) : RestScanState := ⟨path, false, [], 0, 0, [], []⟩

/-- One round of the loop of `ScanAdvancePage`. -/
def scanFetchPage (fetchPage : FetchPage) (g : RestScanState) : Except Text Unit × RestScanState :=
  let trace := g.trace ++ [.request g.nextPath]
  match fetchPage g.nextPath with
  | .error e => (.error e, { g with trace := trace })
  | .ok pg =>
    let g := { g with
      pagesFetched := g.pagesFetched + 1, page := pg.records, cursor := 0, trace := trace }
    let last := pg.done || pg.nextPath.isEmpty
    if last then (.ok (), { g with done := true })
    else if kScanMaxPages ≤ g.pagesFetched then (.error scanPagesError, g)
    else if pg.nextPath ∈ g.seen then (.error scanLoopError, g)
    else (.ok (), { g with seen := pg.nextPath :: g.seen, nextPath := pg.nextPath })

theorem scanFetchPage_continues (fetchPage : FetchPage) (g g' : RestScanState)
    (h : scanFetchPage fetchPage g = (.ok (), g')) (hdone : g'.done = false) :
    g'.pagesFetched = g.pagesFetched + 1 ∧ g'.pagesFetched < kScanMaxPages := by
  unfold scanFetchPage at h
  split at h
  · cases h
  · simp only at h
    split at h
    · cases h
      cases hdone
    · split at h
      · cases h
      · rename_i hlimit
        split at h
        · cases h
        · cases h
          exact ⟨rfl, Nat.lt_of_not_le hlimit⟩

/-- Whether there are more rows. -/
def scanAdvancePage (fetchPage : FetchPage) (g : RestScanState) :
    Except Text Bool × RestScanState :=
  if g.done then (.ok false, g)
  else
    match _h : scanFetchPage fetchPage g with
    | (.error e, g') => (.error e, g')
    | (.ok (), g') =>
      if !g'.page.isEmpty then (.ok true, g')
      else if _hdone : g'.done then (.ok false, g')
      else scanAdvancePage fetchPage g'
termination_by kScanMaxPages - g.pagesFetched
decreasing_by
  have hmore := scanFetchPage_continues fetchPage g g' _h (Bool.eq_false_iff.mpr _hdone)
  omega

/-- The rows of one call, at most `vectorSize` of the current page. -/
def emitRecords (vectorSize : ℕ) (g : RestScanState) : Except Text (List Text) × RestScanState :=
  let rows := (g.page.drop g.cursor).take vectorSize
  (.ok rows, { g with
    cursor := g.cursor + rows.length, trace := g.trace ++ rows.map Event.deliver })

def scanFunctionRest (fetchPage : FetchPage) (vectorSize : ℕ) (g : RestScanState) :
    Except Text (List Text) × RestScanState :=
  if g.page.length ≤ g.cursor then
    match scanAdvancePage fetchPage g with
    | (.error e, g') => (.error e, g')
    | (.ok false, g') => (.ok [], g')
    | (.ok true, g') => emitRecords vectorSize g'
  else emitRecords vectorSize g

def scanCalls (fetchPage : FetchPage) (vectorSize : ℕ) :
    ℕ → RestScanState → Except Text Unit × RestScanState
  | 0, g => (.ok (), g)
  | n + 1, g =>
    match scanFunctionRest fetchPage vectorSize g with
    | (.error e, g') => (.error e, g')
    | (.ok _, g') => scanCalls fetchPage vectorSize n g'

/-- Calls until one of them gives no row; nothing when `n` do not suffice. -/
def drain (fetchPage : FetchPage) (vectorSize : ℕ) :
    ℕ → RestScanState → Option (Except Text Unit × RestScanState)
  | 0, _ => none
  | n + 1, g =>
    match scanFunctionRest fetchPage vectorSize g with
    | (.error e, g') => some (.error e, g')
    | (.ok [], g') => some (.ok (), g')
    | (.ok (_ :: _), g') => drain fetchPage vectorSize n g'

/-! ### The eager loop, resumed -/

section
variable (fetchPage : FetchPage) (path : Text)

def recordsAt (p : Text) : List Text :=
  match fetchPage p with
  | .error _ => []
  | .ok pg => pg.records

/-- What the eager loop makes of the rest, when everything read so far is
collected. -/
def RestScanState.resume (g : RestScanState) : Except Text Unit × SalesforceQueryResult :=
  let result := ⟨delivered g.trace ++ g.page.drop g.cursor, g.pagesFetched⟩
  if g.done then (.ok (), result) else queryLoop fetchPage g.nextPath g.seen result

structure ScanInvariant (g : RestScanState) : Prop where
  resumes : query fetchPage path = g.resume fetchPage
  fetched : delivered g.trace ++ g.page.drop g.cursor =
    (requests g.trace).flatMap (recordsAt fetchPage)
  inOrder : Lazy (recordsAt fetchPage) g.trace

/-- What is left when a call throws. -/
structure ScanFailure (g : RestScanState) : Prop where
  fails : ∃ e, (query fetchPage path).1 = .error e
  collected : delivered g.trace <+: (query fetchPage path).2.records
  inOrder : Lazy (recordsAt fetchPage) g.trace

structure Tracks {α : Type} (r : Except Text α × RestScanState) : Prop where
  ok : ∀ a, r.1 = .ok a → ScanInvariant fetchPage path r.2
  error : ∀ e, r.1 = .error e → ScanFailure fetchPage path r.2

variable {fetchPage path}

theorem tracks_ok {α : Type} (a : α) (g : RestScanState) (h : ScanInvariant fetchPage path g) :
    Tracks fetchPage path ((.ok a, g) : Except Text α × RestScanState) :=
  ⟨fun _ _ => h, fun _ he => nomatch he⟩

theorem tracks_error {α : Type} (e : Text) (g : RestScanState) (h : ScanFailure fetchPage path g) :
    Tracks fetchPage path ((.error e, g) : Except Text α × RestScanState) :=
  ⟨(fun _ ha => nomatch ha), fun _ _ => h⟩

theorem queryLoop_extends (p : Text) (seen : List Text) (result : SalesforceQueryResult) :
    result.records <+: (queryLoop fetchPage p seen result).2.records := by
  fun_induction queryLoop fetchPage p seen result with
  | case1 => exact List.prefix_rfl
  | case2 => exact List.prefix_append _ _
  | case3 => exact List.prefix_append _ _
  | case4 => exact List.prefix_append _ _
  | case5 _ _ _ _ _ _ _ _ _ ih => exact List.IsPrefix.trans (List.prefix_append _ _) ih

theorem invariant_collected (g : RestScanState) (h : ScanInvariant fetchPage path g) :
    delivered g.trace <+: (query fetchPage path).2.records := by
  rw [h.resumes, RestScanState.resume]
  split
  · exact List.prefix_append _ _
  · have hext := @queryLoop_extends fetchPage g.nextPath g.seen
      ⟨delivered g.trace ++ g.page.drop g.cursor, g.pagesFetched⟩
    exact (List.prefix_append _ _).trans hext

theorem invariant_start : ScanInvariant fetchPage path (RestScanState.start path) := by
  refine ⟨?_, rfl, lazy_nil _⟩
  rw [RestScanState.resume, RestScanState.start, if_neg Bool.false_ne_true]
  rfl

/-! ### One round -/

theorem scanFetchPage_tracks (g : RestScanState) (h : ScanInvariant fetchPage path g)
    (hdrained : g.page.length ≤ g.cursor) (hdone : g.done = false) :
    Tracks fetchPage path (scanFetchPage fetchPage g) := by
  have hdrop : g.page.drop g.cursor = [] := List.drop_eq_nil_of_le hdrained
  have hfetched := h.fetched
  have hresume := h.resumes
  rw [hdrop, List.append_nil] at hfetched
  rw [RestScanState.resume, hdone, if_neg (by decide), hdrop, List.append_nil, queryLoop]
    at hresume
  have hlazy := lazy_request _ g.trace g.nextPath h.inOrder hfetched
  have hdelivered : delivered (g.trace ++ [.request g.nextPath]) = delivered g.trace := by
    rw [delivered_append]
    exact List.append_nil _
  have hcollected := invariant_collected g h
  unfold scanFetchPage
  cases hpage : fetchPage g.nextPath with
  | error e =>
    rw [hpage] at hresume
    refine tracks_error e _ ⟨⟨e, ?_⟩, ?_, hlazy⟩
    · rw [hresume]
    · exact hdelivered.symm ▸ hcollected
  | ok pg =>
    rw [hpage] at hresume
    have hall : delivered (g.trace ++ [.request g.nextPath]) ++ pg.records.drop 0 =
        (requests (g.trace ++ [.request g.nextPath])).flatMap (recordsAt fetchPage) := by
      have hrecords : recordsAt fetchPage g.nextPath = pg.records := by rw [recordsAt, hpage]
      rw [hdelivered, requests_append, List.flatMap_append, ← hfetched]
      exact congrArg (delivered g.trace ++ ·) (hrecords.symm.trans (List.append_nil _).symm)
    have hprefix : delivered (g.trace ++ [.request g.nextPath]) <+:
        (query fetchPage path).2.records := hdelivered.symm ▸ hcollected
    simp only at hresume ⊢
    by_cases hlast : (pg.done || pg.nextPath.isEmpty) = true
    · rw [if_pos hlast] at hresume ⊢
      refine tracks_ok () _ ⟨?_, hall, hlazy⟩
      rw [hresume, RestScanState.resume, if_pos rfl, hdelivered, List.drop_zero]
    rw [if_neg hlast] at hresume ⊢
    by_cases hlimit : kMaxPages ≤ g.pagesFetched + 1
    · have hscan : kScanMaxPages ≤ g.pagesFetched + 1 := hlimit
      rw [dif_pos hlimit] at hresume
      rw [if_pos hscan]
      exact tracks_error _ _ ⟨⟨queryPagesError, by rw [hresume]⟩, hprefix, hlazy⟩
    have hscan : ¬ kScanMaxPages ≤ g.pagesFetched + 1 := hlimit
    rw [dif_neg hlimit] at hresume
    rw [if_neg hscan]
    by_cases hseen : pg.nextPath ∈ g.seen
    · rw [if_pos hseen] at hresume ⊢
      exact tracks_error _ _ ⟨⟨queryLoopError, by rw [hresume]⟩, hprefix, hlazy⟩
    · rw [if_neg hseen] at hresume ⊢
      refine tracks_ok () _ ⟨?_, hall, hlazy⟩
      rw [hresume, RestScanState.resume, hdone, if_neg Bool.false_ne_true, hdelivered,
        List.drop_zero]

theorem scanFetchPage_frame (g : RestScanState) (r : Except Text Unit × RestScanState)
    (h : scanFetchPage fetchPage g = r) :
    delivered r.2.trace = delivered g.trace ∧ (r.1 = .ok () → r.2.cursor = 0) := by
  have hdelivered : delivered (g.trace ++ [.request g.nextPath]) = delivered g.trace := by
    rw [delivered_append]
    exact List.append_nil _
  subst h
  unfold scanFetchPage
  cases fetchPage g.nextPath with
  | error e => exact ⟨hdelivered, fun he => nomatch he⟩
  | ok pg =>
    simp only
    split
    · exact ⟨hdelivered, fun _ => rfl⟩
    · split
      · exact ⟨hdelivered, fun he => nomatch he⟩
      · split
        · exact ⟨hdelivered, fun he => nomatch he⟩
        · exact ⟨hdelivered, fun _ => rfl⟩

variable (fetchPage path) in
/-- What `ScanAdvancePage` promises its caller. -/
structure Advances (g : RestScanState) (r : Except Text Bool × RestScanState) : Prop where
  tracks : Tracks fetchPage path r
  silent : delivered r.2.trace = delivered g.trace
  more : r.1 = .ok true → r.2.cursor < r.2.page.length
  finished : r.1 = .ok false → r.2.done = true ∧ r.2.page.length ≤ r.2.cursor

theorem scanAdvancePage_advances (g : RestScanState) (h : ScanInvariant fetchPage path g)
    (hdrained : g.page.length ≤ g.cursor) :
    Advances fetchPage path g (scanAdvancePage fetchPage g) := by
  fun_induction scanAdvancePage fetchPage g with
  | case1 g hdone =>
    exact ⟨tracks_ok _ _ h, rfl, (fun he => by cases he), fun _ => ⟨hdone, hdrained⟩⟩
  | case2 g hdone e g' hround =>
    have htracks := scanFetchPage_tracks g h hdrained (Bool.eq_false_iff.mpr hdone)
    have hframe := scanFetchPage_frame g _ hround
    rw [hround] at htracks
    exact ⟨tracks_error e g' (htracks.error e rfl), hframe.1, (fun he => nomatch he),
      fun he => nomatch he⟩
  | case3 g hdone g' hround hpage =>
    have htracks := scanFetchPage_tracks g h hdrained (Bool.eq_false_iff.mpr hdone)
    have hframe := scanFetchPage_frame g _ hround
    rw [hround] at htracks
    have hcursor : g'.cursor = 0 := hframe.2 rfl
    refine ⟨tracks_ok true g' (htracks.ok () rfl), hframe.1, ?_, fun he => nomatch he⟩
    intro _
    show g'.cursor < g'.page.length
    cases hempty : g'.page with
    | nil =>
      rw [hempty] at hpage
      cases hpage
    | cons r rows =>
      rw [hcursor, List.length_cons]
      omega
  | case4 g hdone g' hround hpage hend =>
    have htracks := scanFetchPage_tracks g h hdrained (Bool.eq_false_iff.mpr hdone)
    have hframe := scanFetchPage_frame g _ hround
    rw [hround] at htracks
    have hempty : g'.page = [] := by simpa using hpage
    refine ⟨tracks_ok false g' (htracks.ok () rfl), hframe.1, (fun he => nomatch he), ?_⟩
    intro _
    exact ⟨hend, by rw [hempty]; exact Nat.zero_le _⟩
  | case5 g hdone g' hround hpage hend ih =>
    have htracks := scanFetchPage_tracks g h hdrained (Bool.eq_false_iff.mpr hdone)
    have hframe := scanFetchPage_frame g _ hround
    rw [hround] at htracks
    have hempty : g'.page = [] := by simpa using hpage
    have hnext := ih (htracks.ok () rfl) (by rw [hempty]; exact Nat.zero_le _)
    exact ⟨hnext.tracks, hnext.silent.trans hframe.1, hnext.more, hnext.finished⟩

/-! ### One call -/

theorem emitRecords_invariant (v : ℕ) (g : RestScanState) (h : ScanInvariant fetchPage path g) :
    ScanInvariant fetchPage path (emitRecords v g).2 := by
  have hsplit : delivered (g.trace ++ ((g.page.drop g.cursor).take v).map Event.deliver) ++
      g.page.drop (g.cursor + ((g.page.drop g.cursor).take v).length) =
      delivered g.trace ++ g.page.drop g.cursor := by
    rw [delivered_append, delivered_deliveries, List.append_assoc, ← List.drop_drop]
    rw [batch_split]
  refine ⟨?_, ?_, lazy_deliveries _ _ _ h.inOrder⟩
  · have hresume := h.resumes
    rw [RestScanState.resume, ← hsplit] at hresume
    exact hresume
  · show delivered (g.trace ++ _) ++ g.page.drop (g.cursor + _) = _
    rw [hsplit, h.fetched, emitRecords, requests_append, requests_deliveries, List.append_nil]

variable (fetchPage path) in
/-- What a call of `ScanFunction` promises DuckDB. -/
structure Emits (g : RestScanState) (r : Except Text (List Text) × RestScanState) : Prop where
  tracks : Tracks fetchPage path r
  rows : ∀ rows, r.1 = .ok rows → delivered r.2.trace = delivered g.trace ++ rows
  finished : r.1 = .ok [] → r.2.done = true ∧ r.2.page.length ≤ r.2.cursor

theorem emitRecords_emits (v : ℕ) (hv : 0 < v) (g : RestScanState)
    (h : ScanInvariant fetchPage path g) (hmore : g.cursor < g.page.length) :
    Emits fetchPage path g (emitRecords v g) := by
  refine ⟨tracks_ok _ _ (emitRecords_invariant v g h), ?_, ?_⟩
  · intro rows hrows
    have hsame : (g.page.drop g.cursor).take v = rows := Except.ok.inj hrows
    show delivered (g.trace ++ ((g.page.drop g.cursor).take v).map Event.deliver) = _
    rw [delivered_append, delivered_deliveries, hsame]
  · intro hnone
    have hempty := batch_nonempty v _ hv (Except.ok.inj hnone)
    rw [List.drop_eq_nil_iff] at hempty
    omega

theorem scanFunctionRest_emits (v : ℕ) (hv : 0 < v) (g : RestScanState)
    (h : ScanInvariant fetchPage path g) :
    Emits fetchPage path g (scanFunctionRest fetchPage v g) := by
  unfold scanFunctionRest
  by_cases hdrained : g.page.length ≤ g.cursor
  · rw [if_pos hdrained]
    have hadvance := scanAdvancePage_advances g h hdrained
    cases hr : scanAdvancePage fetchPage g with
    | mk r g' =>
      rw [hr] at hadvance
      have hsilent : delivered g'.trace = delivered g.trace := hadvance.silent
      cases r with
      | error e =>
        exact ⟨tracks_error e g' (hadvance.tracks.error e rfl), (fun _ hrows => nomatch hrows),
          fun he => nomatch he⟩
      | ok more =>
        have hinv : ScanInvariant fetchPage path g' := hadvance.tracks.ok more rfl
        cases more with
        | false =>
          refine ⟨tracks_ok [] g' hinv, ?_, fun _ => hadvance.finished rfl⟩
          intro rows hrows
          rw [← Except.ok.inj hrows, List.append_nil]
          exact hsilent
        | true =>
          have hemit := emitRecords_emits v hv g' hinv (hadvance.more rfl)
          exact ⟨hemit.tracks, fun rows hrows => hsilent ▸ hemit.rows rows hrows, hemit.finished⟩
  · rw [if_neg hdrained]
    exact emitRecords_emits v hv g h (by omega)

/-! ### Whole scans -/

theorem scanCalls_prefix (v : ℕ) (hv : 0 < v) (n : ℕ) (g : RestScanState)
    (h : ScanInvariant fetchPage path g) :
    delivered (scanCalls fetchPage v n g).2.trace <+: (query fetchPage path).2.records ∧
      Lazy (recordsAt fetchPage) (scanCalls fetchPage v n g).2.trace := by
  induction n generalizing g with
  | zero => exact ⟨invariant_collected g h, h.inOrder⟩
  | succ n ih =>
    have hemit := scanFunctionRest_emits v hv g h
    unfold scanCalls
    cases hr : scanFunctionRest fetchPage v g with
    | mk r g' =>
      rw [hr] at hemit
      cases r with
      | error e =>
        have hfail := hemit.tracks.error e rfl
        exact ⟨hfail.collected, hfail.inOrder⟩
      | ok rows => exact ih g' (hemit.tracks.ok rows rfl)

variable (fetchPage path) in
/-- The end of a scan against the eager query. -/
structure DrainAgrees (r : Except Text Unit × RestScanState) : Prop where
  succeeds : r.1 = .ok () ↔ (query fetchPage path).1 = .ok ()
  records : r.1 = .ok () → delivered r.2.trace = (query fetchPage path).2.records

theorem drain_agrees (v : ℕ) (hv : 0 < v) (n : ℕ) (g : RestScanState)
    (h : ScanInvariant fetchPage path g)
    (hn : (query fetchPage path).2.records.length < (delivered g.trace).length + n) :
    ∃ r, drain fetchPage v n g = some r ∧ DrainAgrees fetchPage path r := by
  induction n generalizing g with
  | zero =>
    have hle := (invariant_collected g h).length_le
    omega
  | succ n ih =>
    have hemit := scanFunctionRest_emits v hv g h
    unfold drain
    cases hr : scanFunctionRest fetchPage v g with
    | mk r g' =>
      rw [hr] at hemit
      cases r with
      | error e =>
        obtain ⟨e', hfails⟩ := (hemit.tracks.error e rfl).fails
        refine ⟨_, rfl, ?_, (fun he => nomatch he)⟩
        rw [hfails]
        exact ⟨(fun he => nomatch he), fun he => nomatch he⟩
      | ok rows =>
        have hinv : ScanInvariant fetchPage path g' := hemit.tracks.ok rows rfl
        have hrows : delivered g'.trace = delivered g.trace ++ rows := hemit.rows rows rfl
        cases rows with
        | nil =>
          obtain ⟨hdone, hdrained⟩ := hemit.finished rfl
          have hend := hinv.resumes
          rw [RestScanState.resume, if_pos hdone, List.drop_eq_nil_of_le hdrained,
            List.append_nil] at hend
          refine ⟨_, rfl, ?_, ?_⟩
          · rw [hend]
          · rw [hend]
            exact fun _ => rfl
        | cons row rows =>
          refine ih g' hinv ?_
          rw [hrows, List.length_append, List.length_cons]
          omega

end

/-- The lazy scan delivers the records of the eager query: a prefix after any
number of calls, and all of them, or an error when the query fails, when it is
called until it is done. -/
theorem rest_scan_refines_query (fetchPage : FetchPage) (path : Text) (v : ℕ) (hv : 0 < v) :
    (∀ n, delivered (scanCalls fetchPage v n (.start path)).2.trace <+:
        (query fetchPage path).2.records ∧
      Lazy (recordsAt fetchPage) (scanCalls fetchPage v n (.start path)).2.trace) ∧
    ∃ N, ∀ n ≥ N, ∃ r g, drain fetchPage v n (.start path) = some (r, g) ∧
      (r = .ok () ↔ (query fetchPage path).1 = .ok ()) ∧
      (r = .ok () → delivered g.trace = (query fetchPage path).2.records) := by
  refine ⟨fun n => scanCalls_prefix v hv n _ invariant_start,
    (query fetchPage path).2.records.length + 1, ?_⟩
  intro n hn
  have hbound : (query fetchPage path).2.records.length <
      (delivered (RestScanState.start path).trace).length + n := by
    show _ < 0 + n
    omega
  obtain ⟨⟨r, g⟩, hdrain, hagrees⟩ := drain_agrees v hv n _ invariant_start hbound
  exact ⟨r, g, hdrain, hagrees.succeeds, hagrees.records⟩

def twoPages : FetchPage := fun p =>
  if p = "/query".toList then .ok ⟨["a".toList, "b".toList], false, "/query-2".toList⟩
  else .ok ⟨["c".toList], true, []⟩

theorem twoPages_scanned :
    (∀ n, delivered (scanCalls twoPages 2048 n (.start "/query".toList)).2.trace <+:
        (query twoPages "/query".toList).2.records ∧
      Lazy (recordsAt twoPages) (scanCalls twoPages 2048 n (.start "/query".toList)).2.trace) ∧
    ∃ N, ∀ n ≥ N, ∃ r g, drain twoPages 2048 n (.start "/query".toList) = some (r, g) ∧
      (r = .ok () ↔ (query twoPages "/query".toList).1 = .ok ()) ∧
      (r = .ok () → delivered g.trace = (query twoPages "/query".toList).2.records) :=
  rest_scan_refines_query twoPages "/query".toList 2048 (by omega)

end DuckdbSalesforce
