import Mathlib
import DuckdbSalesforce.Bulk.ResultPages

/-!
# Resuming a Bulk job (salesforce_bulk_resume.cpp)

`salesforce_bulk_resume` reads the result pages of a finished job with a loop
of its own: it appends the locator as a path segment, and follows it without a
guard. Its runs are compared with those of a scan that reads the same job.
-/

namespace DuckdbSalesforce
open PagedStream

/-! ### A scan of one job -/

/-- Calls of `ScanFunction` on one chunk until it has no more rows; nothing
when `n` calls do not suffice. -/
def scanJob (fetch : FetchResultPage) (v : ℕ) :
    ℕ → ℕ → ScanLocalState → Option (Except Text Unit × ScanLocalState)
  | 0, _, _ => none
  | n + 1, total, l =>
    if l.page.length ≤ l.cursor then
      match bulkAdvancePage fetch total l with
      | (.error e, l') => some (.error e, l')
      | (.ok (false, _), l') => some (.ok (), l')
      | (.ok (true, total'), l') => scanJob fetch v n total' (l'.emit v)
    else scanJob fetch v n total (l.emit v)

/-! ### The resume function -/

structure BulkResumeState where
  resultsBase : Text
  page : SalesforceBulkPage
  cursor : ℕ
  trace : Trace Text (List Text)

def resumePath (base locator : Text) : Text := base ++ "/".toList ++ locator

def BulkResumeState.emit (s : BulkResumeState) (v : ℕ) : BulkResumeState :=
  let rows := (s.page.rows.drop s.cursor).take v
  { s with cursor := s.cursor + rows.length, trace := s.trace ++ rows.map Event.deliver }

/-- Rounds of the loop of `BulkResumeFunction` over all its calls. -/
def resumeRounds (fetch : FetchResultPage) (v : ℕ) :
    ℕ → BulkResumeState → Option (Except Text Unit × Trace Text (List Text))
  | 0, _ => none
  | n + 1, s =>
    if s.cursor < s.page.rows.length then resumeRounds fetch v n (s.emit v)
    else if s.page.nextLocator.isEmpty then some (.ok (), s.trace)
    else
      let path := resumePath s.resultsBase s.page.nextLocator
      match fetch path with
      | .error e => some (.error e, s.trace ++ [.request path])
      | .ok pg => resumeRounds fetch v n
          { s with page := pg, cursor := 0, trace := s.trace ++ [.request path] }

/-- `BulkResumeBind` fetches the first page. -/
def bulkResume (fetch : FetchResultPage) (v n : ℕ) (base : Text) :
    Option (Except Text Unit × Trace Text (List Text)) :=
  match fetch base with
  | .error e => some (.error e, [.request base])
  | .ok pg => resumeRounds fetch v n ⟨base, pg, 0, [.request base]⟩

def rowsAt (fetch : FetchResultPage) (path : Text) : List (List Text) :=
  match fetch path with
  | .error _ => []
  | .ok pg => pg.rows

/-- Both readers end, request the same paths, and succeed alike, and the resumed
one delivers the rows of the pages it requested. -/
def ResumeAgrees (fetch : FetchResultPage) (v : ℕ) (base : Text) (total : ℕ) : Prop :=
  ∃ n m r t r' l', bulkResume fetch v n base = some (r, t) ∧
    scanJob fetch v m total (ScanLocalState.initial.startChunk base) = some (r', l') ∧
    requests t = requests l'.trace ∧ delivered t = (requests t).flatMap (rowsAt fetch) ∧
    (r = .ok () ↔ r' = .ok ())

section
variable (fetch : FetchResultPage) (v : ℕ) (base : Text)

/-! ### What the scan requests -/

/-- The requests a scan of a job sends: the first page, then by locator. -/
def LocatorRequests (t : Trace Text (List Text)) : Prop :=
  ∃ locators : List Text, requests t = base :: locators.map (locatorPath base)

structure ReadsJob (l : ScanLocalState) : Prop where
  job : l.resultsBase = base
  fresh : l.started = false → requests l.trace = []
  started : l.started = true → LocatorRequests base l.trace

theorem readsJob_request (l : ScanLocalState) (h : ReadsJob base l) :
    LocatorRequests base (l.trace ++ [.request l.pagePath]) := by
  unfold LocatorRequests
  rw [requests_append]
  cases hs : l.started with
  | false =>
    have hpath : l.pagePath = base := by
      rw [ScanLocalState.pagePath, hs, if_neg Bool.false_ne_true, h.job]
    rw [h.fresh hs, hpath]
    exact ⟨[], rfl⟩
  | true =>
    have hpath : l.pagePath = locatorPath base l.nextLocator := by
      rw [ScanLocalState.pagePath, hs, if_pos rfl, h.job]
    obtain ⟨locators, hlocators⟩ := h.started hs
    rw [hlocators, hpath]
    refine ⟨locators ++ [l.nextLocator], ?_⟩
    rw [List.map_append]
    rfl

theorem readsJob_round (total : ℕ) (l l' : ScanLocalState) (r : Except Text Unit)
    (h : ReadsJob base l) (hround : bulkFetchPage fetch total l = (r, l')) :
    LocatorRequests base l'.trace ∧ (r = .ok () → ReadsJob base l') := by
  obtain ⟨htrace, hjob, _⟩ := bulkFetchPage_frame fetch total l l' r hround
  have hrequests : LocatorRequests base l'.trace := by
    rw [htrace]
    exact readsJob_request base l h
  refine ⟨hrequests, ?_⟩
  intro hok
  subst hok
  obtain ⟨_, _, _, _, hstarted, _⟩ := bulkFetchPage_ok fetch total l l' hround
  refine ⟨hjob.trans h.job, ?_, fun _ => hrequests⟩
  intro hfalse
  rw [hstarted] at hfalse
  cases hfalse

theorem readsJob_advance (total : ℕ) (l : ScanLocalState) (h : ReadsJob base l) :
    (∀ e, (bulkAdvancePage fetch total l).1 = .error e →
      LocatorRequests base (bulkAdvancePage fetch total l).2.trace) ∧
    (∀ a, (bulkAdvancePage fetch total l).1 = .ok a →
      ReadsJob base (bulkAdvancePage fetch total l).2) := by
  fun_induction bulkAdvancePage fetch total l with
  | case1 total l hdone => exact ⟨(fun e he => nomatch he), fun _ _ => h⟩
  | case2 total l hopen e l' hround =>
    have hstep := readsJob_round fetch base total l l' _ h hround
    exact ⟨fun _ _ => hstep.1, fun a ha => nomatch ha⟩
  | case3 total l hopen l' hround hpage =>
    have hstep := readsJob_round fetch base total l l' _ h hround
    exact ⟨(fun e he => nomatch he), fun _ _ => hstep.2 rfl⟩
  | case4 total l hopen l' hround hpage hdone =>
    have hstep := readsJob_round fetch base total l l' _ h hround
    exact ⟨(fun e he => nomatch he), fun _ _ => hstep.2 rfl⟩
  | case5 total l hopen l' hround hpage hdone ih =>
    have hstep := readsJob_round fetch base total l l' _ h hround
    exact ih (hstep.2 rfl)

theorem readsJob_emit (l : ScanLocalState) (h : ReadsJob base l) : ReadsJob base (l.emit v) := by
  have hrequests : requests (l.emit v).trace = requests l.trace := (emit_frame l v).1
  refine ⟨h.job, ?_, ?_⟩
  · intro hs
    rw [hrequests]
    exact h.fresh hs
  · intro hs
    unfold LocatorRequests
    rw [hrequests]
    exact h.started hs

theorem scanJob_requests (n total : ℕ) (l l' : ScanLocalState) (r : Except Text Unit)
    (h : ReadsJob base l) (hrun : scanJob fetch v n total l = some (r, l')) :
    requests l'.trace = [] ∨ LocatorRequests base l'.trace := by
  induction n generalizing total l with
  | zero => cases hrun
  | succ n ih =>
    unfold scanJob at hrun
    split at hrun
    · obtain ⟨herror, hok⟩ := readsJob_advance fetch base total l h
      cases hadvance : bulkAdvancePage fetch total l with
      | mk a l₁ =>
        rw [hadvance] at hrun herror hok
        cases a with
        | error e =>
          cases hrun
          exact Or.inr (herror e rfl)
        | ok a =>
          have hreads : ReadsJob base l₁ := hok a rfl
          obtain ⟨more, total'⟩ := a
          cases more with
          | false =>
            cases hrun
            cases hs : l'.started with
            | false => exact Or.inl (hreads.fresh hs)
            | true => exact Or.inr (hreads.started hs)
          | true => exact ih total' (l₁.emit v) (readsJob_emit v base l₁ hreads) hrun
    · exact ih total (l.emit v) (readsJob_emit v base l h) hrun

/-! ### What the resume function requests -/

theorem resume_emit_frame (s : BulkResumeState) :
    requests (s.emit v).trace = requests s.trace ∧
      delivered (s.emit v).trace ++ s.page.rows.drop (s.emit v).cursor =
        delivered s.trace ++ s.page.rows.drop s.cursor := by
  have hemit : (s.emit v).trace =
      s.trace ++ ((s.page.rows.drop s.cursor).take v).map Event.deliver := rfl
  refine ⟨?_, ?_⟩
  · rw [hemit, requests_append, requests_deliveries, List.append_nil]
  · show _ ++ s.page.rows.drop (s.cursor + ((s.page.rows.drop s.cursor).take v).length) = _
    rw [hemit, delivered_append, delivered_deliveries, List.append_assoc, ← List.drop_drop,
      batch_split]

theorem resumeRounds_extend (n : ℕ) (s : BulkResumeState) (r : Except Text Unit)
    (t : Trace Text (List Text)) (h : resumeRounds fetch v n s = some (r, t)) :
    requests s.trace <+: requests t := by
  induction n generalizing s with
  | zero => cases h
  | succ n ih =>
    unfold resumeRounds at h
    split at h
    · have hrest := ih (s.emit v) h
      rwa [(resume_emit_frame v s).1] at hrest
    · split at h
      · cases h
        exact List.prefix_rfl
      · simp only at h
        cases hpage : fetch (resumePath s.resultsBase s.page.nextLocator) with
        | error e =>
          rw [hpage] at h
          cases h
          rw [requests_append]
          exact List.prefix_append _ _
        | ok pg =>
          rw [hpage] at h
          have hrest := ih _ h
          rw [requests_append] at hrest
          exact (List.prefix_append _ _).trans hrest

theorem resumeRounds_follows (n : ℕ) (s : BulkResumeState) (r : Except Text Unit)
    (t : Trace Text (List Text)) (hloc : s.page.nextLocator ≠ [])
    (h : resumeRounds fetch v n s = some (r, t)) :
    requests s.trace ++ [resumePath s.resultsBase s.page.nextLocator] <+: requests t := by
  induction n generalizing s with
  | zero => cases h
  | succ n ih =>
    unfold resumeRounds at h
    split at h
    · have hrest := ih (s.emit v) hloc h
      rwa [(resume_emit_frame v s).1] at hrest
    · rw [if_neg (fun hnil => hloc (List.isEmpty_iff.mp hnil))] at h
      simp only at h
      cases hpage : fetch (resumePath s.resultsBase s.page.nextLocator) with
      | error e =>
        rw [hpage] at h
        cases h
        rw [requests_append]
        exact List.prefix_rfl
      | ok pg =>
        rw [hpage] at h
        have hrest := resumeRounds_extend fetch v n _ r t h
        rwa [requests_append] at hrest

theorem path_differs (a b : Text) : resumePath base a ≠ locatorPath base b := by
  intro h
  unfold resumePath locatorPath at h
  rw [List.append_assoc, List.append_assoc] at h
  exact absurd (List.cons.inj (List.append_cancel_left h)).1 (by decide)

/-! ### A job of one page -/

theorem scanJob_drains (hv : 0 < v) (k total : ℕ) (l : ScanLocalState) (hdone : l.chunkDone = true)
    (hk : l.page.length ≤ l.cursor + k) :
    ∃ n l', scanJob fetch v n total l = some (.ok (), l') ∧
      requests l'.trace = requests l.trace := by
  induction k generalizing l with
  | zero =>
    have hdrained : l.page.length ≤ l.cursor := hk
    refine ⟨1, l, ?_, rfl⟩
    rw [scanJob, if_pos hdrained, bulkAdvancePage, if_pos hdone]
  | succ k ih =>
    by_cases hdrained : l.page.length ≤ l.cursor
    · refine ⟨1, l, ?_, rfl⟩
      rw [scanJob, if_pos hdrained, bulkAdvancePage, if_pos hdone]
    · have hlen : ((l.page.drop l.cursor).take v).length = min v (l.page.length - l.cursor) := by
        rw [List.length_take, List.length_drop]
      have hless : (l.emit v).page.length ≤ (l.emit v).cursor + k := by
        show l.page.length ≤ l.cursor + ((l.page.drop l.cursor).take v).length + k
        omega
      obtain ⟨n, l', hrun, hrequests⟩ := ih (l.emit v) hdone hless
      refine ⟨n + 1, l', ?_, hrequests.trans (emit_frame l v).1⟩
      rw [scanJob, if_neg hdrained]
      exact hrun

theorem resumeRounds_drains (hv : 0 < v) (k : ℕ) (s : BulkResumeState)
    (hlast : s.page.nextLocator = []) (hk : s.page.rows.length ≤ s.cursor + k) :
    ∃ n t, resumeRounds fetch v n s = some (.ok (), t) ∧ requests t = requests s.trace ∧
      delivered t = delivered s.trace ++ s.page.rows.drop s.cursor := by
  have hend : s.page.nextLocator.isEmpty = true := List.isEmpty_iff.mpr hlast
  induction k generalizing s with
  | zero =>
    refine ⟨1, s.trace, ?_, rfl, ?_⟩
    · rw [resumeRounds, if_neg (by omega), if_pos hend]
    · rw [List.drop_eq_nil_of_le (by omega), List.append_nil]
  | succ k ih =>
    by_cases hmore : s.cursor < s.page.rows.length
    · have hlen : ((s.page.rows.drop s.cursor).take v).length =
          min v (s.page.rows.length - s.cursor) := by
        rw [List.length_take, List.length_drop]
      have hless : (s.emit v).page.rows.length ≤ (s.emit v).cursor + k := by
        show s.page.rows.length ≤ s.cursor + ((s.page.rows.drop s.cursor).take v).length + k
        omega
      obtain ⟨n, t, hrun, hrequests, hrows⟩ := ih (s.emit v) hlast hless hend
      obtain ⟨hsame, hbatch⟩ := resume_emit_frame v s
      refine ⟨n + 1, t, ?_, hrequests.trans hsame, hrows.trans hbatch⟩
      rw [resumeRounds, if_pos hmore]
      exact hrun
    · refine ⟨1, s.trace, ?_, rfl, ?_⟩
      · rw [resumeRounds, if_neg hmore, if_pos hend]
      · rw [List.drop_eq_nil_of_le (by omega), List.append_nil]

theorem startChunk_drained : (ScanLocalState.initial.startChunk base).page.length ≤
    (ScanLocalState.initial.startChunk base).cursor := Nat.le_refl 0

theorem scanJob_single (hv : 0 < v) (total : ℕ) (pg : SalesforceBulkPage)
    (hfetch : fetch base = .ok pg) (hlast : pg.nextLocator = []) :
    ∃ n l', scanJob fetch v n total (ScanLocalState.initial.startChunk base) = some (.ok (), l') ∧
      requests l'.trace = [base] := by
  obtain ⟨l, hround, hpage, hcursor, hdone, htrace⟩ : ∃ l : ScanLocalState,
      bulkFetchPage fetch total (ScanLocalState.initial.startChunk base) = (.ok (), l) ∧
        l.page = pg.rows ∧ l.cursor = 0 ∧ l.chunkDone = true ∧ l.trace = [.request base] := by
    have hpath : (ScanLocalState.initial.startChunk base).pagePath = base := rfl
    rw [bulkFetchPage, hpath, hfetch]
    simp only
    rw [if_pos (List.isEmpty_iff.mpr hlast)]
    exact ⟨_, rfl, rfl, rfl, rfl, rfl⟩
  have hadvance := bulkAdvancePage_round fetch total _ _ rfl hround
  have hbase : requests l.trace = [base] := by rw [htrace]; rfl
  by_cases hempty : l.page = []
  · rw [hempty, hdone] at hadvance
    refine ⟨1, l, ?_, hbase⟩
    rw [scanJob, if_pos (startChunk_drained base), hadvance]
    rfl
  · have hmore : (!l.page.isEmpty) = true := by simpa using hempty
    rw [if_pos hmore] at hadvance
    obtain ⟨n, l', hrun, hrequests⟩ := scanJob_drains fetch v hv (l.emit v).page.length (total + 1)
      (l.emit v) hdone (Nat.le_add_left _ _)
    refine ⟨n + 1, l', ?_, (hrequests.trans (emit_frame l v).1).trans hbase⟩
    rw [scanJob, if_pos (startChunk_drained base), hadvance]
    exact hrun

theorem readsJob_start : ReadsJob base (ScanLocalState.initial.startChunk base) :=
  ⟨rfl, fun _ => rfl, fun h => nomatch h⟩

/-- The second request already tells the two readers apart. -/
theorem single_of_agrees (total : ℕ) (h : ResumeAgrees fetch v base total)
    (pg : SalesforceBulkPage) (hfetch : fetch base = .ok pg) : pg.nextLocator = [] := by
  obtain ⟨n, m, r, t, r', l', hresume, hscan, hsame, _⟩ := h
  by_contra hloc
  rw [bulkResume, hfetch] at hresume
  obtain ⟨rest, hrest⟩ := resumeRounds_follows fetch v n _ r t hloc hresume
  have hrequests : requests t = base :: resumePath base pg.nextLocator :: rest := hrest.symm
  have hscanned := scanJob_requests fetch v base m total _ l' r' (readsJob_start base) hscan
  rcases hscanned with hnone | ⟨locators, hlocs⟩
  · rw [hsame, hnone] at hrequests
    cases hrequests
  · rw [hsame, hlocs] at hrequests
    cases locators with
    | nil => cases (List.cons.inj hrequests).2
    | cons x locators =>
      exact path_differs base _ x (List.cons.inj (List.cons.inj hrequests).2).1.symm

theorem agrees_of_single (hv : 0 < v) (total : ℕ)
    (h : ∀ pg, fetch base = .ok pg → pg.nextLocator = []) : ResumeAgrees fetch v base total := by
  cases hfetch : fetch base with
  | error e =>
    have hround : bulkFetchPage fetch total (ScanLocalState.initial.startChunk base) = (.error e,
        { ScanLocalState.initial.startChunk base with trace := [.request base] }) := by
      have hpath : (ScanLocalState.initial.startChunk base).pagePath = base := rfl
      rw [bulkFetchPage, hpath, hfetch]
      rfl
    have hadvance := bulkAdvancePage_throws fetch total _ _ e rfl hround
    refine ⟨0, 1, .error e, [.request base], .error e,
      { ScanLocalState.initial.startChunk base with trace := [.request base] },
      by rw [bulkResume, hfetch], ?_, rfl, ?_, Iff.rfl⟩
    · rw [scanJob, if_pos (startChunk_drained base), hadvance]
    · show [] = rowsAt fetch base ++ []
      rw [rowsAt, hfetch]
      rfl
  | ok pg =>
    have hlast := h pg hfetch
    obtain ⟨m, l', hscan, hrequests⟩ := scanJob_single fetch v base hv total pg hfetch hlast
    obtain ⟨n, t, hrun, hsame, hrows⟩ := resumeRounds_drains fetch v hv pg.rows.length
      ⟨base, pg, 0, [.request base]⟩ hlast (Nat.le_add_left _ _)
    refine ⟨n, m, _, t, _, l', by rw [bulkResume, hfetch]; exact hrun, hscan,
      hsame.trans hrequests.symm, ?_, Iff.rfl⟩
    rw [hrows, hsame]
    show pg.rows.drop 0 = rowsAt fetch base ++ []
    rw [rowsAt, hfetch, List.append_nil, List.drop_zero]

end

/-- Resuming a job agrees with scanning it exactly when its first page, if it
can be fetched, has no locator. -/
theorem bulk_resume_agrees_iff (fetch : FetchResultPage) (v : ℕ) (hv : 0 < v) (base : Text)
    (total : ℕ) :
    ResumeAgrees fetch v base total ↔ ∀ pg, fetch base = .ok pg → pg.nextLocator = [] :=
  ⟨fun h pg hfetch => single_of_agrees fetch v base total h pg hfetch,
    agrees_of_single fetch v base hv total⟩

def onePageJob : FetchResultPage := fun _ => .ok ⟨["Id".toList], [["001".toList]], []⟩

theorem onePageJob_resumes :
    ResumeAgrees onePageJob 2048 "/results".toList 0 ↔
      ∀ pg, onePageJob "/results".toList = .ok pg → pg.nextLocator = [] :=
  bulk_resume_agrees_iff onePageJob 2048 (by omega) "/results".toList 0

/-! ### Jobs of more pages -/

def twoPageJob : FetchResultPage := fun path =>
  if path = "/results".toList then .ok ⟨["Id".toList], [["001".toList]], "L2".toList⟩
  else if path = "/results?locator=L2".toList then .ok ⟨["Id".toList], [["002".toList]], []⟩
  else .error "NOT_FOUND".toList

/-- Every page names itself as the next one. -/
def circularJob : FetchResultPage := fun _ => .ok ⟨["Id".toList], [], "L".toList⟩

theorem circularJob_loops (v n : ℕ) (s : BulkResumeState) (hrows : s.page.rows = [])
    (hloc : s.page.nextLocator = "L".toList) : resumeRounds circularJob v n s = none := by
  induction n generalizing s with
  | zero => rfl
  | succ n ih =>
    have hdrained : ¬ s.cursor < s.page.rows.length := by
      rw [hrows]
      exact Nat.not_lt_zero _
    rw [resumeRounds, if_neg hdrained, hloc, if_neg (by decide)]
    exact ih _ rfl rfl

/-- On two pages the requests differ, and a repeated locator is followed for
ever. -/
theorem resume_differs_on_two_pages :
    ¬ ResumeAgrees twoPageJob 2048 "/results".toList 0 ∧
      ∀ n, bulkResume circularJob 2048 n "/results".toList = none := by
  refine ⟨?_, fun n => circularJob_loops 2048 n _ rfl rfl⟩
  intro h
  have hlast := single_of_agrees twoPageJob 2048 "/results".toList 0 h _ rfl
  exact absurd hlast (by decide)

end DuckdbSalesforce
