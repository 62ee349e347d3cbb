import Mathlib
import DuckdbSalesforce.Bulk.CreateBody
import DuckdbSalesforce.Bulk.ResultPages

/-!
# Creating a Bulk job and waiting for it (salesforce_session.cpp)

`BulkStartJob`: one request creates the job, then the job path is polled until
the job has ended or the budget is spent. The service is what it answers to the
n-th request, an error being an exception of `AuthorizedSend`.
-/

namespace DuckdbSalesforce

structure Request where
  post : Bool
  path : Text
  body : Bytes
  deriving DecidableEq

abbrev Service := ℕ → Request → Except Text HttpResponse

structure JobRun where
  requests : List Request
  result : Except Text Text

section Poll
variable (apiVersion : Text) (queryAll : Bool) (budget : ℤ) (soql : Bytes) (send : Service)

def jobsPath : Text := "/services/data/".toList ++ apiVersion ++ "/jobs/query".toList

def jobPath (jobId : Text) : Text := jobsPath apiVersion ++ "/".toList ++ jobId

def createRequest : Request := ⟨true, jobsPath apiVersion, bulkCreateBody queryAll soql⟩

def pollRequest (jobId : Text) : Request := ⟨false, jobPath apiVersion jobId, []⟩

/-- `max_polls`. -/
def maxPolls : ℕ := if budget < 1 then 1 else budget.toNat

def createJob : Except Text Text :=
  match send 0 (createRequest apiVersion queryAll soql) with
  | .error e => .error e
  | .ok cr =>
    if cr.status < 200 ∨ 300 ≤ cr.status then .error (bulkError "job create".toList cr)
    else
      let jobId := getString cr.body "id".toList
      if jobId = [] then .error "salesforce bulk: job create returned no id.".toList else .ok jobId

def jobEndedError (state message : Text) : Text :=
  "salesforce bulk: job ".toList ++ state ++ (if message = [] then [] else " - ".toList) ++ message ++
    ".".toList

def timeoutError : Text :=
  "salesforce bulk: job did not complete after ".toList ++ natText (maxPolls budget) ++
    " polls (raise sf_bulk_poll_budget for a large backfill).".toList

/-- What one poll says; `pending` goes on. -/
inductive JobAnswer where
  | complete
  | failed (message : Text)
  | pending
  deriving DecidableEq, Repr

def jobAnswer : Except Text HttpResponse → JobAnswer
  | .error e => .failed e
  | .ok st =>
    if st.status < 200 ∨ 300 ≤ st.status then .failed (bulkError "job status".toList st)
    else
      let state := getString st.body "state".toList
      if state = "JobComplete".toList then .complete
      else if state = "Failed".toList ∨ state = "Aborted".toList then
        .failed (jobEndedError state (getString st.body "errorMessage".toList))
      else .pending

/-- The loop from round `i` on, round `i` sending request `i + 1`. -/
def pollFrom (jobId : Text) (i : ℕ) : JobRun :=
  match jobAnswer (send (i + 1) (pollRequest apiVersion jobId)) with
  | .complete => ⟨[pollRequest apiVersion jobId], .ok (jobPath apiVersion jobId ++ "/results".toList)⟩
  | .failed message => ⟨[pollRequest apiVersion jobId], .error message⟩
  | .pending =>
    if maxPolls budget ≤ i then
      ⟨[pollRequest apiVersion jobId], .error (timeoutError budget)⟩
    else
      let rest := pollFrom jobId (i + 1)
      ⟨pollRequest apiVersion jobId :: rest.requests, rest.result⟩
termination_by maxPolls budget - i

def bulkStartJob : JobRun :=
  match createJob apiVersion queryAll soql send with
  | .error e => ⟨[createRequest apiVersion queryAll soql], .error e⟩
  | .ok jobId =>
    let polls := pollFrom apiVersion budget send jobId 0
    ⟨createRequest apiVersion queryAll soql :: polls.requests, polls.result⟩

/-! ### Where the loop ends -/

def pollAnswer (jobId : Text) (k : ℕ) : JobAnswer :=
  jobAnswer (send (k + 1) (pollRequest apiVersion jobId))

def JobAnswer.outcome (jobId : Text) : JobAnswer → Except Text Text
  | .complete => .ok (jobPath apiVersion jobId ++ "/results".toList)
  | .failed message => .error message
  | .pending => .error (timeoutError budget)

theorem pollFrom_stop (jobId : Text) (i : ℕ)
    (h : pollAnswer apiVersion send jobId i = .pending → maxPolls budget ≤ i) :
    pollFrom apiVersion budget send jobId i = ⟨[pollRequest apiVersion jobId],
      (pollAnswer apiVersion send jobId i).outcome apiVersion budget jobId⟩ := by
  rw [pollFrom]
  unfold pollAnswer at h ⊢
  cases ha : jobAnswer (send (i + 1) (pollRequest apiVersion jobId)) with
  | complete => rfl
  | failed message => rfl
  | pending => exact if_pos (h ha)

theorem pollFrom_round (jobId : Text) (i : ℕ) (hi : i < maxPolls budget)
    (h : pollAnswer apiVersion send jobId i = .pending) :
    pollFrom apiVersion budget send jobId i =
      ⟨pollRequest apiVersion jobId :: (pollFrom apiVersion budget send jobId (i + 1)).requests,
        (pollFrom apiVersion budget send jobId (i + 1)).result⟩ := by
  have hmore : ¬ maxPolls budget ≤ i := Nat.not_le.mpr hi
  unfold pollAnswer at h
  conv_lhs => rw [pollFrom, h]
  exact if_neg hmore

/-- After pending answers only, the poll that ends the loop is the last one
sent, and its answer decides. -/
theorem pollFrom_end (jobId : Text) (n i : ℕ) (hle : i + n ≤ maxPolls budget)
    (hpending : ∀ j, i ≤ j → j < i + n → pollAnswer apiVersion send jobId j = .pending)
    (hstop : pollAnswer apiVersion send jobId (i + n) = .pending → maxPolls budget ≤ i + n) :
    pollFrom apiVersion budget send jobId i =
      ⟨List.replicate (n + 1) (pollRequest apiVersion jobId),
        (pollAnswer apiVersion send jobId (i + n)).outcome apiVersion budget jobId⟩ := by
  induction n generalizing i with
  | zero => exact pollFrom_stop apiVersion budget send jobId i hstop
  | succ n ih =>
    have hi : i + (n + 1) = i + 1 + n := by omega
    have hrest := ih (i + 1) (by omega) (fun j hj hlt => hpending j (by omega) (by omega))
      (by rw [← hi]; exact hstop)
    rw [pollFrom_round apiVersion budget send jobId i (by omega) (hpending i (le_refl i) (by omega)),
      hrest, hi]
    rfl

/-! ### The budget -/

theorem first_decisive (answer : ℕ → JobAnswer) (m : ℕ) (h : ∃ k < m, answer k ≠ .pending) :
    ∃ k < m, answer k ≠ .pending ∧ ∀ j < k, answer j = .pending := by
  classical
  obtain ⟨hlt, hdecisive⟩ := Nat.find_spec h
  refine ⟨Nat.find h, hlt, hdecisive, ?_⟩
  intro j hj
  by_contra hne
  exact Nat.find_min h hj ⟨lt_trans hj hlt, hne⟩

def JobAnswer.IsFailed (a : JobAnswer) : Prop := ∃ message, a = .failed message

/-- At most `max_polls` requests on the job path, and the results path exactly
when one of these polls says that the job is complete before any says that it
failed. -/
structure BudgetRespected (jobId : Text) (run : JobRun) : Prop where
  polls : (run.requests.filter fun r => r.path = jobPath apiVersion jobId).length ≤ maxPolls budget
  results : run.result = .ok (jobPath apiVersion jobId ++ "/results".toList) ↔
    ∃ k < maxPolls budget, pollAnswer apiVersion send jobId k = .complete ∧
      ∀ j < k, ¬ (pollAnswer apiVersion send jobId j).IsFailed

theorem jobPath_ne (jobId : Text) : jobsPath apiVersion ≠ jobPath apiVersion jobId := by
  intro h
  have hlen := congrArg List.length h
  unfold jobPath at hlen
  rw [List.length_append, List.length_append] at hlen
  have hslash : "/".toList.length = 1 := rfl
  omega

theorem polls_counted (jobId : Text) (n : ℕ) :
    ((createRequest apiVersion queryAll soql ::
        List.replicate n (pollRequest apiVersion jobId)).filter fun r =>
      r.path = jobPath apiVersion jobId).length = n := by
  have hcreate : decide ((createRequest apiVersion queryAll soql).path =
      jobPath apiVersion jobId) = false := decide_eq_false (jobPath_ne apiVersion jobId)
  have hpoll : decide ((pollRequest apiVersion jobId).path = jobPath apiVersion jobId) = true :=
    decide_eq_true rfl
  rw [List.filter_cons, hcreate, List.filter_replicate, hpoll]
  exact List.length_replicate

theorem bulkStartJob_created (jobId : Text)
    (h : createJob apiVersion queryAll soql send = .ok jobId) :
    bulkStartJob apiVersion queryAll budget soql send =
      ⟨createRequest apiVersion queryAll soql ::
        (pollFrom apiVersion budget send jobId 0).requests,
        (pollFrom apiVersion budget send jobId 0).result⟩ := by
  rw [bulkStartJob, h]

/-- A job that ends within the budget is waited for, and no longer. -/
theorem decisive_respected (jobId : Text) (k : ℕ) (hk : k < maxPolls budget)
    (hdecisive : pollAnswer apiVersion send jobId k ≠ .pending)
    (hpending : ∀ j < k, pollAnswer apiVersion send jobId j = .pending)
    (h : createJob apiVersion queryAll soql send = .ok jobId) :
    BudgetRespected apiVersion budget send jobId
      (bulkStartJob apiVersion queryAll budget soql send) := by
  have hend := pollFrom_end apiVersion budget send jobId k 0 (by omega)
    (fun j _ hj => hpending j (by omega))
    (fun hp => absurd (by rw [← Nat.zero_add k]; exact hp) hdecisive)
  rw [Nat.zero_add] at hend
  rw [bulkStartJob_created apiVersion queryAll budget soql send jobId h, hend]
  refine ⟨?_, ?_⟩
  · rw [polls_counted]
    exact hk
  · cases ha : pollAnswer apiVersion send jobId k with
    | complete =>
      refine iff_of_true rfl ⟨k, hk, ha, ?_⟩
      intro j hj hgiven
      obtain ⟨message, hfailed⟩ := hgiven
      rw [hpending j hj] at hfailed
      cases hfailed
    | failed message =>
      refine iff_of_false (by intro hok; cases hok) ?_
      intro hgiven
      obtain ⟨m, _, hcomplete, hbefore⟩ := hgiven
      rcases Nat.lt_trichotomy m k with hlt | rfl | hlt
      · rw [hpending m hlt] at hcomplete
        cases hcomplete
      · rw [ha] at hcomplete
        cases hcomplete
      · exact hbefore k hlt ⟨message, ha⟩
    | pending => exact absurd ha hdecisive

/-- One poll too many is sent when none of the budgeted ones decides. -/
theorem pending_overrun (jobId : Text)
    (hpending : ∀ j < maxPolls budget, pollAnswer apiVersion send jobId j = .pending)
    (h : createJob apiVersion queryAll soql send = .ok jobId) :
    ((bulkStartJob apiVersion queryAll budget soql send).requests.filter fun r =>
      r.path = jobPath apiVersion jobId).length = maxPolls budget + 1 := by
  have hend := pollFrom_end apiVersion budget send jobId (maxPolls budget) 0 (by omega)
    (fun j _ hj => hpending j (by omega)) (fun _ => by omega)
  rw [bulkStartJob_created apiVersion queryAll budget soql send jobId h, hend, polls_counted]

/-- The budget is respected exactly when one of the polls it allows ends the
wait. -/
theorem poll_budget_iff (jobId : Text)
    (h : createJob apiVersion queryAll soql send = .ok jobId) :
    BudgetRespected apiVersion budget send jobId
        (bulkStartJob apiVersion queryAll budget soql send) ↔
      ∃ k < maxPolls budget, pollAnswer apiVersion send jobId k ≠ .pending := by
  constructor
  · intro hrespected
    by_contra hnone
    have hpending : ∀ j < maxPolls budget, pollAnswer apiVersion send jobId j = .pending := by
      intro j hj
      by_contra hne
      exact hnone ⟨j, hj, hne⟩
    have hover := pending_overrun apiVersion queryAll budget soql send jobId hpending h
    have hle := hrespected.polls
    rw [hover] at hle
    omega
  · intro hdecisive
    obtain ⟨k, hk, hdecides, hpending⟩ := first_decisive _ _ hdecisive
    exact decisive_respected apiVersion queryAll budget soql send jobId k hk hdecides hpending h

end Poll

/-! ### A job that needs two polls -/

/-- Creates the job `J`, which is complete at the second poll. -/
def twoPollService : Service := fun n _ =>
  .ok ⟨200, (match n with
    | 0 => "\x7b\"id\":\"J\"\x7d"
    | 1 => "\x7b\"state\":\"InProgress\"\x7d"
    | _ => "\x7b\"state\":\"JobComplete\"\x7d").toList, []⟩

theorem two_polls_within : BudgetRespected [] 2 twoPollService ['J']
    (bulkStartJob [] false 2 [] twoPollService) :=
  (poll_budget_iff [] false 2 [] twoPollService ['J'] (by decide)).mpr ⟨1, by decide, by decide⟩

/-- With a budget of one the job is polled twice. -/
theorem budget_overrun :
    ¬ ∀ (apiVersion : Text) (queryAll : Bool) (budget : ℤ) (soql : Bytes) (send : Service)
      (jobId : Text), createJob apiVersion queryAll soql send = .ok jobId →
      BudgetRespected apiVersion budget send jobId
        (bulkStartJob apiVersion queryAll budget soql send) := by
  intro h
  have hcreated : createJob [] false [] twoPollService = .ok ['J'] := by decide
  have hpolls := (h [] false 1 [] twoPollService ['J'] hcreated).polls
  rw [pending_overrun [] false 1 [] twoPollService ['J'] (by decide) hcreated] at hpolls
  exact absurd hpolls (by decide)

end DuckdbSalesforce
