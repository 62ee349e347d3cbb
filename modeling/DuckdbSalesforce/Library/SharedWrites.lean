import Mathlib

/-!
# A shared record written behind the work

Each thread works on the world and then owes writes to a shared record, which it
makes one by one before it works again. Anything may come between them. A sum
comes out right in any order; of a field that is overwritten a bound is left,
and its value where there is one thread.
-/

namespace SharedWrites
variable {Thread World Write Shared : Type} [DecidableEq Thread]

structure State (Thread World Write Shared : Type) where
  world : World
  pending : Thread → List Write
  shared : Shared

def State.start (world : World) (shared : Shared) : State Thread World Write Shared :=
  ⟨world, fun _ => [], shared⟩

/-- No write is owed. -/
def State.Quiet (s : State Thread World Write Shared) : Prop := ∀ t, s.pending t = []

def State.owe (s : State Thread World Write Shared) (t : Thread) (owed : List Write) :
    State Thread World Write Shared :=
  { s with pending := Function.update s.pending t owed }

theorem State.owe_self (s : State Thread World Write Shared) (t : Thread) (owed : List Write) :
    (s.owe t owed).pending t = owed :=
  Function.update_self ..

theorem State.owe_other (s : State Thread World Write Shared) (t t' : Thread) (owed : List Write)
    (h : t' ≠ t) : (s.owe t owed).pending t' = s.pending t' :=
  Function.update_of_ne h ..

section Runs
variable (work : World → Thread → World → List Write → Prop) (write : Shared → Write → Shared)

inductive Run (s₀ : State Thread World Write Shared) : State Thread World Write Shared → Prop where
  | start : Run s₀ s₀
  | work (s : State Thread World Write Shared) (t : Thread) (w' : World) (owed : List Write)
      (hrun : Run s₀ s) (hfree : s.pending t = []) (hwork : work s.world t w' owed) :
      Run s₀ (State.owe { s with world := w' } t owed)
  | write (s : State Thread World Write Shared) (t : Thread) (a : Write) (rest : List Write)
      (hrun : Run s₀ s) (howed : s.pending t = a :: rest) :
      Run s₀ (State.owe { s with shared := write s.shared a } t rest)

end Runs

/-! ### Rules -/

section Rules
variable {work : World → Thread → World → List Write → Prop} {write : Shared → Write → Shared}
  {world₀ : World} {shared₀ : Shared} {s : State Thread World Write Shared}

/-- The world runs as it does without the record. -/
theorem run_world (holds : World → Prop) (hstart : holds world₀)
    (hwork : ∀ w t w' owed, holds w → work w t w' owed → holds w')
    (hrun : Run work write (.start world₀ shared₀) s) : holds s.world := by
  induction hrun with
  | start => exact hstart
  | work s t w' owed _ _ hstep ih => exact hwork s.world t w' owed ih hstep
  | write s t a rest _ _ ih => exact ih

/-- A property of the record that every write owed keeps. -/
theorem run_bound (owes : World → Write → Prop) (holds : World → Shared → Prop)
    (hstart : holds world₀ shared₀)
    (hlater : ∀ w t w' owed a, work w t w' owed → owes w a → owes w' a)
    (howed : ∀ w t w' owed, work w t w' owed → ∀ a ∈ owed, owes w' a)
    (hwork : ∀ w t w' owed x, work w t w' owed → holds w x → holds w' x)
    (hwrite : ∀ w a x, owes w a → holds w x → holds w (write x a))
    (hrun : Run work write (.start world₀ shared₀) s) :
    holds s.world s.shared ∧ ∀ t, ∀ a ∈ s.pending t, owes s.world a := by
  induction hrun with
  | start => exact ⟨hstart, fun _ => List.forall_mem_nil _⟩
  | work s t w' owed _ _ hstep ih =>
    refine ⟨hwork s.world t w' owed s.shared hstep ih.1, ?_⟩
    intro t' a ha
    by_cases hsame : t' = t
    · rw [hsame, State.owe_self] at ha
      exact howed s.world t w' owed hstep a ha
    · rw [State.owe_other _ _ _ _ hsame] at ha
      exact hlater s.world t w' owed a hstep (ih.2 t' a ha)
  | write s t a rest _ hnext ih =>
    refine ⟨hwrite s.world a s.shared (ih.2 t a (hnext ▸ List.mem_cons_self)) ih.1, ?_⟩
    intro t' b hb
    by_cases hsame : t' = t
    · rw [hsame, State.owe_self] at hb
      exact ih.2 t b (hnext ▸ List.mem_cons_of_mem a hb)
    · rw [State.owe_other _ _ _ _ hsame] at hb
      exact ih.2 t' b hb

section Sums
variable {M : Type} [AddCommGroup M] [Fintype Thread]

omit [DecidableEq Thread] in
theorem sum_changed (f g : Thread → M) (t : Thread) (h : ∀ u, u ≠ t → g u = f u) :
    ∑ u, g u = ∑ u, f u - f t + g t := by
  classical
  have hbefore := Finset.add_sum_erase Finset.univ f (Finset.mem_univ t)
  have hafter := Finset.add_sum_erase Finset.univ g (Finset.mem_univ t)
  have hother : ∑ u ∈ Finset.univ.erase t, g u = ∑ u ∈ Finset.univ.erase t, f u :=
    Finset.sum_congr rfl fun u hu => h u (Finset.ne_of_mem_erase hu)
  rw [← hafter, ← hbefore, hother]
  abel

theorem sum_owe (f : List Write → M) (s : State Thread World Write Shared) (t : Thread)
    (owed : List Write) :
    ∑ u, f ((s.owe t owed).pending u) = ∑ u, f (s.pending u) - f (s.pending t) + f owed := by
  have hchanged := sum_changed (fun u => f (s.pending u)) (fun u => f ((s.owe t owed).pending u)) t
    fun u hu => congrArg f (s.owe_other t u owed hu)
  rw [hchanged, State.owe_self]

/-- What is done is what is counted and what is still to be counted. -/
theorem run_sum (done : World → M) (count : Shared → M) (amount : Write → M)
    (hstart : done world₀ = count shared₀)
    (hwork : ∀ w t w' owed, work w t w' owed → done w' = done w + (owed.map amount).sum)
    (hwrite : ∀ x a, count (write x a) = count x + amount a)
    (hrun : Run work write (.start world₀ shared₀) s) :
    done s.world = count s.shared + ∑ t, ((s.pending t).map amount).sum := by
  induction hrun with
  | start =>
    show done world₀ = count shared₀ + ∑ t : Thread, (([] : List Write).map amount).sum
    rw [hstart, List.map_nil, List.sum_nil, Finset.sum_const_zero, add_zero]
  | work s t w' owed _ hfree hstep ih =>
    rw [sum_owe fun l => (l.map amount).sum]
    show done w' = count s.shared + (∑ u, ((s.pending u).map amount).sum -
      ((s.pending t).map amount).sum + (owed.map amount).sum)
    rw [hwork _ _ _ _ hstep, ih, hfree, List.map_nil, List.sum_nil]
    abel
  | write s t a rest _ hnext ih =>
    rw [sum_owe fun l => (l.map amount).sum]
    show done s.world = count (write s.shared a) + (∑ u, ((s.pending u).map amount).sum -
      ((s.pending t).map amount).sum + (rest.map amount).sum)
    rw [ih, hwrite, hnext, List.map_cons, List.sum_cons]
    abel

theorem run_quiet (done : World → M) (count : Shared → M) (amount : Write → M)
    (hstart : done world₀ = count shared₀)
    (hwork : ∀ w t w' owed, work w t w' owed → done w' = done w + (owed.map amount).sum)
    (hwrite : ∀ x a, count (write x a) = count x + amount a)
    (hrun : Run work write (.start world₀ shared₀) s) (hquiet : s.Quiet) :
    done s.world = count s.shared := by
  have hnone : ∀ t ∈ Finset.univ, ((s.pending t).map amount).sum = 0 := by
    intro t _
    rw [hquiet t, List.map_nil, List.sum_nil]
  rw [run_sum done count amount hstart hwork hwrite hrun, Finset.sum_eq_zero hnone, add_zero]

end Sums

/-- With one thread the writes could as well be made at once. -/
theorem run_one [Subsingleton Thread] (agree : World → Shared → Prop)
    (hstart : agree world₀ shared₀)
    (hwork : ∀ w t w' owed x, work w t w' owed → agree w x → agree w' (owed.foldl write x))
    (hrun : Run work write (.start world₀ shared₀) s) (t : Thread) :
    agree s.world ((s.pending t).foldl write s.shared) := by
  induction hrun with
  | start => exact hstart
  | work s u w' owed _ hfree hstep ih =>
    obtain rfl := Subsingleton.elim t u
    rw [hfree] at ih
    rw [State.owe_self]
    exact hwork s.world t w' owed s.shared hstep ih
  | write s u a rest _ hnext ih =>
    obtain rfl := Subsingleton.elim t u
    rw [hnext] at ih
    rw [State.owe_self]
    exact ih

end Rules

end SharedWrites
