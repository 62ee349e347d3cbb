import DuckdbSalesforce.Library.Runs
import DuckdbSalesforce.Catalog.SchemaEntry

/-!
# Concurrent describes and refreshes

`DescribeJsonCached` looks into the cache, fetches without the lock and stores
what it fetched. Any number of callers interleave these steps with refreshes.
Each step happens at a time of its own, and a body carries the time at which
its fetch began.
-/

namespace DuckdbSalesforce
open Runs SchemaEntry

structure FetchedBody where
  body : Text
  began : ℕ
  deriving DecidableEq

/-- Where a call of `DescribeJsonCached` is; `since` is when it started. -/
inductive CallPhase where
  | idle
  | called (object : Text) (since : ℕ)
  | missed (object : Text) (since : ℕ)
  | fetching (object : Text) (since began : ℕ)
  | fetched (object : Text) (since : ℕ) (body : FetchedBody)
  | returned (object : Text) (since : ℕ) (body : FetchedBody)
  deriving DecidableEq

def CallPhase.mayCall : CallPhase → Bool
  | .idle => true
  | .returned _ _ _ => true
  | _ => false

structure Refresh where
  object : Text
  time : ℕ
  deriving DecidableEq

def Refresh.covers (r : Refresh) (object : Text) : Prop :=
  r.object = [] ∨ lower r.object = lower object

structure DescribeWorld (Caller : Type) where
  schema : SchemaEntry FetchedBody
  phases : Caller → CallPhase
  refreshes : List Refresh
  clock : ℕ

inductive DescribeEvent (Caller : Type) where
  | call (c : Caller) (object : Text)
  | check (c : Caller)
  | beginFetch (c : Caller)
  | endFetch (c : Caller) (answer : Except Text Text)
  | store (c : Caller)
  | refresh (object : Text)

section
variable {Caller : Type}

def DescribeWorld.attached : DescribeWorld Caller := ⟨.empty, fun _ => .idle, [], 0⟩

variable [DecidableEq Caller]

def DescribeWorld.advance (w : DescribeWorld Caller) (c : Caller) (p : CallPhase) :
    DescribeWorld Caller :=
  { w with phases := Function.update w.phases c p, clock := w.clock + 1 }

/-- A failed fetch throws out of the call. -/
def fetchEnds (object : Text) (since began : ℕ) : Except Text Text → CallPhase
  | .error _ => .idle
  | .ok body => .fetched object since ⟨body, began⟩

def checkEnds (object : Text) (since : ℕ) : Option FetchedBody → CallPhase
  | none => .missed object since
  | some body => .returned object since body

def describeStep (w : DescribeWorld Caller) : DescribeEvent Caller → Option (DescribeWorld Caller)
  | .call c object =>
    if (w.phases c).mayCall then some (w.advance c (.called object w.clock)) else none
  | .check c =>
    match w.phases c with
    | .called object since =>
      some (w.advance c (checkEnds object since (findDescribeJson object w.schema)))
    | _ => none
  | .beginFetch c =>
    match w.phases c with
    | .missed object since => some (w.advance c (.fetching object since w.clock))
    | _ => none
  | .endFetch c answer =>
    match w.phases c with
    | .fetching object since began => some (w.advance c (fetchEnds object since began answer))
    | _ => none
  | .store c =>
    match w.phases c with
    | .fetched object since body =>
      some { w.advance c (.returned object since body) with
        schema := storeDescribeJson object body w.schema }
    | _ => none
  | .refresh object =>
    some { w with
      schema := refreshMetadata object w.schema
      refreshes := ⟨object, w.clock⟩ :: w.refreshes
      clock := w.clock + 1 }

/-- No call that started after a refresh of its object was done has returned a
body whose fetch began before that refresh. -/
def NeverUndone (w : DescribeWorld Caller) : Prop :=
  ∀ c object since body, w.phases c = .returned object since body →
    ∀ r ∈ w.refreshes, r.covers object → r.time < since → ¬ body.began < r.time

/-- A body is stored only if its object was not refreshed since its fetch began. -/
def StoresFresh (w : DescribeWorld Caller) : DescribeEvent Caller → Prop
  | .store c => ∀ object since body, w.phases c = .fetched object since body →
      ∀ r ∈ w.refreshes, r.covers object → ¬ body.began < r.time
  | _ => True

/-! ### The invariant -/

def PhaseOk (clock : ℕ) (refreshes : List Refresh) : CallPhase → Prop
  | .idle => True
  | .called _ since => since < clock
  | .missed _ since => since < clock
  | .fetching _ since began => since < began ∧ since < clock
  | .fetched _ since body => since < body.began ∧ since < clock
  | .returned object since body => since < clock ∧
      ∀ r ∈ refreshes, r.covers object → r.time < since → ¬ body.began < r.time

structure FreshInvariant (w : DescribeWorld Caller) : Prop where
  times : ∀ r ∈ w.refreshes, r.time < w.clock
  phases : ∀ c, PhaseOk w.clock w.refreshes (w.phases c)
  cached : ∀ object body, findDescribeJson object w.schema = some body →
    ∀ r ∈ w.refreshes, r.covers object → ¬ body.began < r.time

/-- Later refreshes do not matter to a call that has started. -/
theorem phaseOk_later (clock clock' : ℕ) (refreshes refreshes' : List Refresh) (p : CallPhase)
    (h : PhaseOk clock refreshes p) (hclock : clock ≤ clock')
    (hnew : ∀ r ∈ refreshes', r ∈ refreshes ∨ clock ≤ r.time) : PhaseOk clock' refreshes' p := by
  cases p with
  | idle => trivial
  | called object since =>
    have hsince : since < clock := h
    show since < clock'
    omega
  | missed object since =>
    have hsince : since < clock := h
    show since < clock'
    omega
  | fetching object since began =>
    obtain ⟨hbegan, hsince⟩ := h
    exact ⟨hbegan, by omega⟩
  | fetched object since body =>
    obtain ⟨hbegan, hsince⟩ := h
    exact ⟨hbegan, by omega⟩
  | returned object since body =>
    obtain ⟨hsince, hfresh⟩ := h
    refine ⟨by omega, ?_⟩
    intro r hr hcovers hbefore
    rcases hnew r hr with hold | hlate
    · exact hfresh r hold hcovers hbefore
    · omega

omit [DecidableEq Caller] in
theorem invariant_attached : FreshInvariant (.attached : DescribeWorld Caller) := by
  refine ⟨List.forall_mem_nil _, fun _ => trivial, ?_⟩
  intro object body _
  exact List.forall_mem_nil _

theorem invariant_advance (w : DescribeWorld Caller) (c : Caller) (p : CallPhase)
    (h : FreshInvariant w) (hp : PhaseOk (w.clock + 1) w.refreshes p) :
    FreshInvariant (w.advance c p) := by
  refine ⟨fun r hr => Nat.lt_succ_of_lt (h.times r hr), ?_, h.cached⟩
  intro d
  show PhaseOk (w.clock + 1) w.refreshes (Function.update w.phases c p d)
  by_cases hd : d = c
  · rw [hd, Function.update_self]
    exact hp
  · rw [Function.update_of_ne hd]
    exact phaseOk_later _ _ _ _ _ (h.phases d) (by omega) fun r hr => Or.inl hr

theorem find_store (object key : Text) (body : FetchedBody) (s : SchemaEntry FetchedBody) :
    findDescribeJson key (storeDescribeJson object body s) =
      if lower key = lower object then some body else findDescribeJson key s := by
  unfold findDescribeJson storeDescribeJson
  by_cases hkey : lower key = lower object
  · rw [if_pos hkey, hkey]
    exact AList.lookup_insert s.describeJsonCache
  · rw [if_neg hkey]
    exact AList.lookup_insert_ne hkey

/-- What is cached after a refresh was cached before and is not covered. -/
theorem find_refresh (object key : Text) (time : ℕ) (s : SchemaEntry FetchedBody)
    (body : FetchedBody) (h : findDescribeJson key (refreshMetadata object s) = some body) :
    ¬ Refresh.covers ⟨object, time⟩ key ∧ findDescribeJson key s = some body := by
  unfold findDescribeJson refreshMetadata at h
  by_cases hglobal : object = []
  · rw [if_pos hglobal] at h
    cases h
  rw [if_neg hglobal] at h
  have hfound : (s.describeJsonCache.erase (lower object)).lookup (lower key) = some body := h
  by_cases hkey : lower object = lower key
  · rw [hkey, AList.lookup_erase] at hfound
    cases hfound
  · rw [AList.lookup_erase_ne (Ne.symm hkey)] at hfound
    exact ⟨not_or.mpr ⟨hglobal, hkey⟩, hfound⟩

theorem covers_congr (r : Refresh) (object key : Text) (hkey : lower key = lower object)
    (h : r.covers key) : r.covers object := by
  unfold Refresh.covers at *
  rw [← hkey]
  exact h

theorem invariant_store (w : DescribeWorld Caller) (c : Caller) (object : Text) (since : ℕ)
    (body : FetchedBody) (h : FreshInvariant w) (hphase : w.phases c = .fetched object since body)
    (hfresh : StoresFresh w (.store c)) :
    FreshInvariant { w.advance c (.returned object since body) with
      schema := storeDescribeJson object body w.schema } := by
  have hstored := hfresh object since body hphase
  have hcaller := h.phases c
  rw [hphase] at hcaller
  have hadvance := invariant_advance w c (.returned object since body) h
    ⟨Nat.lt_succ_of_lt hcaller.2, fun r hr hcovers _ => hstored r hr hcovers⟩
  refine ⟨hadvance.times, hadvance.phases, ?_⟩
  intro key cached hfind r hr hcovers
  have hfound : findDescribeJson key (storeDescribeJson object body w.schema) = some cached := hfind
  rw [find_store] at hfound
  by_cases hkey : lower key = lower object
  · rw [if_pos hkey] at hfound
    rw [← Option.some.inj hfound]
    exact hstored r hr (covers_congr r object key hkey hcovers)
  · rw [if_neg hkey] at hfound
    exact h.cached key cached hfound r hr hcovers

omit [DecidableEq Caller] in
theorem invariant_refreshed (w : DescribeWorld Caller) (object : Text) (h : FreshInvariant w) :
    FreshInvariant { w with
      schema := refreshMetadata object w.schema
      refreshes := ⟨object, w.clock⟩ :: w.refreshes
      clock := w.clock + 1 } := by
  refine ⟨?_, ?_, ?_⟩
  · intro r hr
    rcases List.mem_cons.mp hr with rfl | hr
    · exact Nat.lt_succ_self w.clock
    · exact Nat.lt_succ_of_lt (h.times r hr)
  · intro d
    refine phaseOk_later _ _ _ _ _ (h.phases d) (Nat.le_succ _) ?_
    intro r hr
    rcases List.mem_cons.mp hr with rfl | hr
    · exact Or.inr (Nat.le_refl _)
    · exact Or.inl hr
  · intro key body hfind r hr hcovers
    obtain ⟨hother, hfound⟩ := find_refresh object key w.clock w.schema body hfind
    rcases List.mem_cons.mp hr with rfl | hr
    · exact absurd hcovers hother
    · exact h.cached key body hfound r hr hcovers

/-! ### Runs -/

theorem invariant_fresh_step (w w' : DescribeWorld Caller) (e : DescribeEvent Caller)
    (h : FreshInvariant w) (hfresh : StoresFresh w e) (hstep : describeStep w e = some w') :
    FreshInvariant w' := by
  cases e with
  | call c object =>
    by_cases hmay : (w.phases c).mayCall = true
    · simp only [describeStep, if_pos hmay, Option.some.injEq] at hstep
      rw [← hstep]
      exact invariant_advance w c _ h (Nat.lt_succ_self w.clock)
    · simp only [describeStep, if_neg hmay, reduceCtorEq] at hstep
  | check c =>
    have hcaller := h.phases c
    cases hphase : w.phases c with
    | called object since =>
      rw [hphase] at hcaller
      have hsince : since < w.clock := hcaller
      simp only [describeStep, hphase, Option.some.injEq] at hstep
      rw [← hstep]
      refine invariant_advance w c _ h ?_
      cases hfind : findDescribeJson object w.schema with
      | none => exact Nat.lt_succ_of_lt hsince
      | some body =>
        exact ⟨Nat.lt_succ_of_lt hsince, fun r hr hcovers _ =>
          h.cached object body hfind r hr hcovers⟩
    | _ => simp only [describeStep, hphase, reduceCtorEq] at hstep
  | beginFetch c =>
    have hcaller := h.phases c
    cases hphase : w.phases c with
    | missed object since =>
      rw [hphase] at hcaller
      have hsince : since < w.clock := hcaller
      simp only [describeStep, hphase, Option.some.injEq] at hstep
      rw [← hstep]
      exact invariant_advance w c _ h ⟨hsince, Nat.lt_succ_of_lt hsince⟩
    | _ => simp only [describeStep, hphase, reduceCtorEq] at hstep
  | endFetch c answer =>
    have hcaller := h.phases c
    cases hphase : w.phases c with
    | fetching object since began =>
      rw [hphase] at hcaller
      simp only [describeStep, hphase, Option.some.injEq] at hstep
      rw [← hstep]
      refine invariant_advance w c _ h ?_
      cases answer with
      | error e => trivial
      | ok body => exact ⟨hcaller.1, Nat.lt_succ_of_lt hcaller.2⟩
    | _ => simp only [describeStep, hphase, reduceCtorEq] at hstep
  | store c =>
    cases hphase : w.phases c with
    | fetched object since body =>
      simp only [describeStep, hphase, Option.some.injEq] at hstep
      rw [← hstep]
      exact invariant_store w c object since body h hphase hfresh
    | _ => simp only [describeStep, hphase, reduceCtorEq] at hstep
  | refresh object =>
    rw [← Option.some.inj hstep]
    exact invariant_refreshed w object h

omit [DecidableEq Caller] in
theorem invariant_neverUndone (w : DescribeWorld Caller) (h : FreshInvariant w) :
    NeverUndone w := by
  intro c object since body hphase
  have hcaller := h.phases c
  rw [hphase] at hcaller
  exact hcaller.2

/-- The next call of any caller is served what the property allows. -/
def NextCallFresh (w : DescribeWorld Caller) : Prop :=
  ∀ c object w', runEvents describeStep [.call c object, .check c] w = some w' → NeverUndone w'

theorem invariant_nextCall (w : DescribeWorld Caller) (h : FreshInvariant w) :
    NextCallFresh w := by
  intro c object w' hrun
  obtain ⟨called, hcall, hrest⟩ := Option.bind_eq_some_iff.mp hrun
  obtain ⟨checked, hcheck, hlast⟩ := Option.bind_eq_some_iff.mp hrest
  have hcalled := invariant_fresh_step w called (.call c object) h trivial hcall
  rw [← Option.some.inj hlast]
  exact invariant_neverUndone checked
    (invariant_fresh_step called checked (.check c) hcalled trivial hcheck)

theorem call_served (w : DescribeWorld Caller) (c : Caller) (object : Text) (body : FetchedBody)
    (hmay : (w.phases c).mayCall = true) (hfind : findDescribeJson object w.schema = some body) :
    runEvents describeStep [.call c object, .check c] w =
      some ((w.advance c (.called object w.clock)).advance c (.returned object w.clock body)) := by
  have hcall : describeStep w (.call c object) = some (w.advance c (.called object w.clock)) :=
    if_pos hmay
  have hphase : (w.advance c (.called object w.clock)).phases c = .called object w.clock :=
    Function.update_self c _ w.phases
  have hsame : findDescribeJson object (w.advance c (.called object w.clock)).schema = some body :=
    hfind
  have hcheck : describeStep (w.advance c (.called object w.clock)) (.check c) =
      some ((w.advance c (.called object w.clock)).advance c (.returned object w.clock body)) := by
    simp only [describeStep, hphase, hsame, checkEnds]
  simp only [runEvents, hcall, Option.bind_some, hcheck]

/-- A body stored in spite of the condition is served to the next call. -/
theorem stale_store_served (w w' : DescribeWorld Caller) (c : Caller)
    (hclock : ∀ r ∈ w.refreshes, r.time < w.clock)
    (hstep : describeStep w (.store c) = some w') (hnext : NextCallFresh w') :
    StoresFresh w (.store c) := by
  intro object since body hphase r hr hcovers
  simp only [describeStep, hphase, Option.some.injEq] at hstep
  have hreturned : w'.phases c = .returned object since body := by
    rw [← hstep]
    exact Function.update_self c _ w.phases
  have hfind : findDescribeJson object w'.schema = some body := by
    rw [← hstep]
    exact (find_store object object body w.schema).trans (if_pos rfl)
  have hmay : (w'.phases c).mayCall = true := by
    rw [hreturned]
    rfl
  have hserved := hnext c object _ (call_served w' c object body hmay hfind)
  have hlate : r.time < w'.clock := by
    rw [← hstep]
    exact Nat.lt_succ_of_lt (hclock r hr)
  refine hserved c object w'.clock body (Function.update_self c _ _) r ?_ hcovers hlate
  rw [← hstep]
  exact hr

/-- In every run whose stores are fresh no refresh is undone, and the first
store that is not fresh undoes one for the next call. -/
theorem refresh_never_undone_iff (w : DescribeWorld Caller)
    (hrun : Reaches describeStep StoresFresh .attached w) :
    NeverUndone w ∧
      ∀ e w', describeStep w e = some w' → (NextCallFresh w' ↔ StoresFresh w e) := by
  have h : FreshInvariant w :=
    reaches_invariant FreshInvariant invariant_attached invariant_fresh_step w hrun
  refine ⟨invariant_neverUndone w h, ?_⟩
  intro e w' hstep
  refine ⟨?_, fun hfresh => invariant_nextCall w' (invariant_fresh_step w w' e h hfresh hstep)⟩
  intro hnext
  cases e with
  | store c => exact stale_store_served w w' c h.times hstep hnext
  | _ => trivial

end

/-! ### Two callers and one refresh -/

def accountName : Text := "Account".toList

theorem later_fetch_fresh :
    ∃ w : DescribeWorld Bool, runEvents describeStep [.refresh accountName, .call false accountName,
      .check false, .beginFetch false, .endFetch false (.ok "new".toList), .store false] .attached =
        some w ∧ w.phases false = .returned accountName 1 ⟨"new".toList, 3⟩ ∧ NeverUndone w := by
  have hstart : Reaches describeStep StoresFresh .attached (.attached : DescribeWorld Bool) := .start
  have hrefresh := Reaches.step _ _ (DescribeEvent.refresh accountName) hstart trivial rfl
  have hcall := Reaches.step _ _ (DescribeEvent.call false accountName) hrefresh trivial rfl
  have hcheck := Reaches.step _ _ (DescribeEvent.check false) hcall trivial rfl
  have hbegin := Reaches.step _ _ (DescribeEvent.beginFetch false) hcheck trivial rfl
  have hend := Reaches.step _ _ (DescribeEvent.endFetch false (.ok "new".toList)) hbegin trivial rfl
  have hstore := Reaches.step _ _ (DescribeEvent.store false) hend (by
    intro object since body _ r hr _
    rw [List.mem_singleton.mp hr]
    exact Nat.not_lt_zero body.began) rfl
  exact ⟨_, rfl, rfl, (refresh_never_undone_iff _ hstore).1⟩

/-- The first caller fetches before the refresh and stores after it, the second
one is served what was stored. -/
theorem older_fetch_served :
    ¬ ∀ w : DescribeWorld Bool, Reaches describeStep anyStep .attached w → NeverUndone w := by
  intro h
  have hrun := @reaches_events _ _ describeStep _
    [.call false accountName, .check false, .beginFetch false, .refresh accountName,
      .endFetch false (.ok "old".toList), .store false, .call true accountName, .check true]
    (.attached : DescribeWorld Bool) _ .start rfl
  exact h _ hrun true accountName 6 ⟨"old".toList, 2⟩ rfl ⟨accountName, 3⟩
    (List.mem_singleton_self _) (Or.inr rfl) (by decide) (by decide)

end DuckdbSalesforce
