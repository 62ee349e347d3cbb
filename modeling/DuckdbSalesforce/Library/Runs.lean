import Mathlib

/-!
# Runs of a step function

A system is a step function on states, `none` where an event cannot happen. A
run may be asked to take only steps that meet a condition on the state before
them.
-/

namespace Runs
variable {State Event : Type}

/-- The states that runs reach whose steps all meet the condition. -/
inductive Reaches (step : State → Event → Option State) (meets : State → Event → Prop)
    (start : State) : State → Prop
  | start : Reaches step meets start start
  | step (s s' : State) (e : Event) (before : Reaches step meets start s) (met : meets s e)
      (taken : step s e = some s') : Reaches step meets start s'

def anyStep : State → Event → Prop := fun _ _ => True

def runEvents (step : State → Event → Option State) : List Event → State → Option State
  | [], s => some s
  | e :: es, s => (step s e).bind (runEvents step es)

variable {step : State → Event → Option State} {meets : State → Event → Prop} {start : State}

/-- What holds at the start and over each step holds in every state reached. -/
theorem reaches_invariant (inv : State → Prop) (hstart : inv start)
    (hstep : ∀ s s' e, inv s → meets s e → step s e = some s' → inv s') (s : State)
    (h : Reaches step meets start s) : inv s := by
  induction h with
  | start => exact hstart
  | step s s' e _ hmet htaken ih => exact hstep s s' e ih hmet htaken

theorem reaches_events (es : List Event) (s s' : State) (h : Reaches step anyStep start s)
    (hrun : runEvents step es s = some s') : Reaches step anyStep start s' := by
  induction es generalizing s with
  | nil =>
    rw [← Option.some.inj hrun]
    exact h
  | cons e es ih =>
    obtain ⟨m, hm, hrest⟩ := Option.bind_eq_some_iff.mp hrun
    exact ih m (.step s m e h trivial hm) hrest

end Runs
