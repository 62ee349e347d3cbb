import Mathlib

/-!
# Programs that ask

A program asks requests of a server one after the other and goes on with each
answer, whatever it is; the server has a state. What every single answer keeps,
every run of every program keeps.
-/

namespace Interaction

inductive Program (Req Ans α : Type) where
  | done (result : α)
  | ask (request : Req) (next : Ans → Program Req Ans α)

variable {Req Ans α β S S' : Type}

def Program.bind : Program Req Ans α → (α → Program Req Ans β) → Program Req Ans β
  | .done a, f => f a
  | .ask r next, f => .ask r fun answer => (next answer).bind f

def Program.map (p : Program Req Ans α) (f : α → β) : Program Req Ans β := p.bind fun a => .done (f a)

abbrev Server (Req Ans S : Type) := Req → S → Ans × S

def Program.run (serve : Server Req Ans S) : Program Req Ans α → S → α × S
  | .done a, s => (a, s)
  | .ask r next, s => (next (serve r s).1).run serve (serve r s).2

variable (serve : Server Req Ans S)

theorem run_bind (p : Program Req Ans α) (f : α → Program Req Ans β) (s : S) :
    (p.bind f).run serve s = (f (p.run serve s).1).run serve (p.run serve s).2 := by
  induction p generalizing s with
  | done a => rfl
  | ask r next ih => exact ih (serve r s).1 (serve r s).2

/-- How many requests a run asks. -/
def Program.asks : Program Req Ans α → S → ℕ
  | .done _, _ => 0
  | .ask r next, s => (next (serve r s).1).asks (serve r s).2 + 1

theorem asks_bind (p : Program Req Ans α) (f : α → Program Req Ans β) (s : S) :
    (p.bind f).asks serve s =
      p.asks serve s + (f (p.run serve s).1).asks serve (p.run serve s).2 := by
  induction p generalizing s with
  | done a => exact (Nat.zero_add _).symm
  | ask r next ih =>
    have hrest := ih (serve r s).1 (serve r s).2
    show ((next _).bind f).asks serve _ + 1 = _
    rw [hrest, Program.asks, Program.run]
    omega

/-- What one request can use of a resource, the requests of a run use as often
as it asks. -/
theorem run_counted (Link : ℕ → S → S → Prop) (hrefl : ∀ s, Link 0 s s)
    (htrans : ∀ m n s t u, Link m s t → Link n t u → Link (m + n) s u) (k : ℕ)
    (hstep : ∀ r s, Link k s (serve r s).2) (p : Program Req Ans α) (s : S) :
    Link (k * p.asks serve s) s (p.run serve s).2 := by
  induction p generalizing s with
  | done a => exact hrefl s
  | ask r next ih =>
    have hrest := htrans _ _ _ _ _ (hstep r s) (ih (serve r s).1 (serve r s).2)
    have hcount : k * (Program.ask r next).asks serve s =
        k + k * (next (serve r s).1).asks serve (serve r s).2 := by
      rw [Program.asks, Nat.mul_add, Nat.mul_one, Nat.add_comm]
    rw [hcount]
    exact hrest

/-- Two servers that answer alike in related states cannot be told apart by any
program. -/
theorem run_related (serve' : Server Req Ans S') (R : S → S' → Prop)
    (hstep : ∀ r s s', R s s' → (serve r s).1 = (serve' r s').1 ∧ R (serve r s).2 (serve' r s').2)
    (p : Program Req Ans α) (s : S) (s' : S') (h : R s s') :
    (p.run serve s).1 = (p.run serve' s').1 ∧ R (p.run serve s).2 (p.run serve' s').2 := by
  induction p generalizing s s' with
  | done a => exact ⟨rfl, h⟩
  | ask r next ih =>
    obtain ⟨hanswer, hstate⟩ := hstep r s s' h
    have hrest := ih (serve r s).1 (serve r s).2 (serve' r s').2 hstate
    rw [Program.run, Program.run, ← hanswer]
    exact hrest

end Interaction
