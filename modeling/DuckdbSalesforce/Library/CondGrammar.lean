import DuckdbSalesforce.Library.ThreeValued

/-!
# The grammar of AND/OR conditions

A precedence parser for conditions over tokens of any kind: NOT binds tighter
than AND, AND tighter than OR, parentheses group. A leaf is a run of tokens
that starts with an atom; a parenthesis opened inside a leaf belongs to it, as
in an item list or a function call. The parser is a stack machine reading one
token at a time, so that a concatenation is parsed by running the machine on.
-/

namespace CondGrammar
open ThreeValued

inductive Tok (α : Type) where
  | lpar
  | rpar
  | kwAnd
  | kwOr
  | kwNot
  | atom (a : α)
  | reserved (a : α)
  deriving DecidableEq, Repr

variable {α : Type}

/-- A leaf of the grammar, as the tokens it was read from. -/
abbrev Leaf (α : Type) := List (Tok α)

/-- One nesting level: the finished alternatives, each the list of its
factors, and the factors read so far of the current one. -/
structure Frame (α : Type) where
  alts : List (List (Cond (Leaf α)))
  factors : List (Cond (Leaf α))

def Frame.empty : Frame α := ⟨[], []⟩

/-- The alternatives of a level whose last operand is `c`. -/
def Frame.close (f : Frame α) (c : Cond (Leaf α)) : List (List (Cond (Leaf α))) :=
  f.alts ++ [f.factors ++ [c]]

/-- The condition that a list of alternatives stands for. -/
def assemble (alts : List (List (Cond (Leaf α)))) : Cond (Leaf α) :=
  Cond.mkAny (alts.map Cond.mkAll)

inductive Mode (α : Type) where
  | start (nots : ℕ)
  | leaf (nots : ℕ) (toks : Leaf α) (depth : ℕ)
  | done (c : Cond (Leaf α))

def negs : ℕ → Cond (Leaf α) → Cond (Leaf α)
  | 0, c => c
  | n + 1, c => .neg (negs n c)

def Mode.operand : Mode α → Option (Cond (Leaf α))
  | .start _ => none
  | .leaf n ts 0 => some (negs n (.leaf ts))
  | .leaf _ _ (_ + 1) => none
  | .done c => some c

/-- `stack` holds the enclosing levels, innermost first, each with the NOTs
that wait for its parenthesis. -/
structure State (α : Type) where
  stack : List (Frame α × ℕ)
  frame : Frame α
  mode : Mode α

def State.init : State α := ⟨[], .empty, .start 0⟩

/-- A token taken into a leaf, with the parenthesis depth after it. -/
def extend (ts : Leaf α) (d : ℕ) : Tok α → Option (Leaf α × ℕ)
  | .lpar => some (ts ++ [.lpar], d + 1)
  | .rpar => match d with
    | 0 => none
    | d + 1 => some (ts ++ [.rpar], d)
  | .kwNot => some (ts ++ [.kwNot], d)
  | .atom a => some (ts ++ [.atom a], d)
  | .kwAnd | .kwOr | .reserved _ => none

/-- The token after a complete operand `c`. -/
def afterOperand (s : State α) (c : Cond (Leaf α)) : Tok α → Option (State α)
  | .kwAnd => some ⟨s.stack, ⟨s.frame.alts, s.frame.factors ++ [c]⟩, .start 0⟩
  | .kwOr => some ⟨s.stack, ⟨s.frame.close c, []⟩, .start 0⟩
  | .rpar => match s.stack with
    | [] => none
    | (f, n) :: rest => some ⟨rest, f, .done (negs n (assemble (s.frame.close c)))⟩
  | _ => none

def step (s : State α) (t : Tok α) : Option (State α) :=
  match s.mode with
  | .start n => match t with
    | .lpar => some ⟨(s.frame, n) :: s.stack, .empty, .start 0⟩
    | .kwNot => some ⟨s.stack, s.frame, .start (n + 1)⟩
    | .atom a => some ⟨s.stack, s.frame, .leaf n [.atom a] 0⟩
    | _ => none
  | .leaf n ts d => match extend ts d t with
    | some (ts', d') => some ⟨s.stack, s.frame, .leaf n ts' d'⟩
    | none => (s.mode.operand).bind fun c => afterOperand s c t
  | .done c => afterOperand s c t

def run (s : State α) (ts : List (Tok α)) : Option (State α) := ts.foldlM step s

def finish (s : State α) : Option (List (List (Cond (Leaf α)))) :=
  match s.stack with
  | [] => s.mode.operand.map s.frame.close
  | _ :: _ => none

/-- The top-level alternatives of a condition, each the list of its factors. -/
def alternatives (ts : List (Tok α)) : Option (List (List (Cond (Leaf α)))) :=
  (run .init ts).bind finish

def parse (ts : List (Tok α)) : Option (Cond (Leaf α)) := (alternatives ts).map assemble

theorem run_nil (s : State α) : run s [] = some s := rfl

theorem run_cons (s : State α) (t : Tok α) (ts : List (Tok α)) :
    run s (t :: ts) = (step s t).bind fun s' => run s' ts := rfl

theorem run_append (s : State α) (ts us : List (Tok α)) :
    run s (ts ++ us) = (run s ts).bind fun s' => run s' us := by
  simp only [run, List.foldlM_append]
  rfl

/-! ### Running inside an enclosing level -/

theorem step_enclosed (s s' : State α) (t : Tok α) (base : List (Frame α × ℕ))
    (h : step s t = some s') :
    step ⟨s.stack ++ base, s.frame, s.mode⟩ t = some ⟨s'.stack ++ base, s'.frame, s'.mode⟩ := by
  have hafter : ∀ c, afterOperand s c t = some s' →
      afterOperand ⟨s.stack ++ base, s.frame, s.mode⟩ c t =
        some ⟨s'.stack ++ base, s'.frame, s'.mode⟩ := by
    intro c hc
    cases t with
    | kwAnd | kwOr =>
      simp only [afterOperand, Option.some.injEq] at hc ⊢
      subst hc
      rfl
    | rpar =>
      simp only [afterOperand] at hc ⊢
      cases hs : s.stack with
      | nil => simp [hs] at hc
      | cons p rest =>
        obtain ⟨f, n⟩ := p
        simp only [hs, Option.some.injEq] at hc
        subst hc
        rfl
    | lpar | kwNot | atom _ | reserved _ => simp [afterOperand] at hc
  unfold step at h ⊢
  cases hm : s.mode with
  | start n =>
    cases t with
    | lpar | kwNot | atom _ =>
      simp only [hm, Option.some.injEq] at h ⊢
      subst h
      rfl
    | rpar | kwAnd | kwOr | reserved _ => simp [hm] at h
  | leaf n ts d =>
    simp only [hm] at h ⊢
    cases he : extend ts d t with
    | some p =>
      simp only [he, Option.some.injEq] at h ⊢
      subst h
      rfl
    | none =>
      simp only [he] at h ⊢
      obtain ⟨c, hc, ha⟩ := Option.bind_eq_some_iff.mp h
      rw [hc, Option.bind_some]
      simpa only [hm] using hafter c ha
  | done c =>
    simp only [hm] at h ⊢
    simpa only [hm] using hafter c h

theorem run_enclosed (ts : List (Tok α)) (s s' : State α) (base : List (Frame α × ℕ))
    (h : run s ts = some s') :
    run ⟨s.stack ++ base, s.frame, s.mode⟩ ts = some ⟨s'.stack ++ base, s'.frame, s'.mode⟩ := by
  induction ts generalizing s with
  | nil =>
    simp only [run_nil, Option.some.injEq] at h
    rw [run_nil, h]
  | cons t ts ih =>
    rw [run_cons] at h
    obtain ⟨m, hm, hr⟩ := Option.bind_eq_some_iff.mp h
    rw [run_cons, step_enclosed s m t base hm, Option.bind_some]
    exact ih m hr

/-! ### Running on after AND -/

/-- The alternatives of a condition that continues an open level: the first
one joins the factors `fs` read so far. -/
def glue (as : List (List (Cond (Leaf α)))) (fs : List (Cond (Leaf α))) :
    List (List (Cond (Leaf α))) → List (List (Cond (Leaf α)))
  | [] => as ++ [fs]
  | x :: xs => as ++ (fs ++ x) :: xs

section Continue
variable (as : List (List (Cond (Leaf α)))) (fs : List (Cond (Leaf α)))

def Frame.continue (f : Frame α) : Frame α :=
  match f.alts with
  | [] => ⟨as, fs ++ f.factors⟩
  | x :: xs => ⟨as ++ (fs ++ x) :: xs, f.factors⟩

def continueStack : List (Frame α × ℕ) → List (Frame α × ℕ)
  | [] => []
  | [(f, n)] => [(f.continue as fs, n)]
  | p :: q :: rest => p :: continueStack (q :: rest)

/-- The same state with an outermost level already under way. -/
def State.continue (s : State α) : State α :=
  match s.stack with
  | [] => ⟨[], s.frame.continue as fs, s.mode⟩
  | p :: rest => ⟨continueStack as fs (p :: rest), s.frame, s.mode⟩

theorem close_continue (f : Frame α) (c : Cond (Leaf α)) :
    (f.continue as fs).close c = glue as fs (f.close c) := by
  obtain ⟨alts, factors⟩ := f
  cases alts with
  | nil => simp [Frame.continue, Frame.close, glue]
  | cons x xs => simp [Frame.continue, Frame.close, glue]

theorem continue_mode (s : State α) : (s.continue as fs).mode = s.mode := by
  unfold State.continue
  cases s.stack <;> rfl

/-- Adding a factor, or an alternative, commutes with the level under way. -/
theorem continue_frame (f : Frame α) (c : Cond (Leaf α)) :
    (⟨f.alts, f.factors ++ [c]⟩ : Frame α).continue as fs =
        ⟨(f.continue as fs).alts, (f.continue as fs).factors ++ [c]⟩ ∧
      (⟨f.close c, []⟩ : Frame α).continue as fs = ⟨(f.continue as fs).close c, []⟩ := by
  obtain ⟨alts, factors⟩ := f
  cases alts with
  | nil => simp [Frame.continue, Frame.close]
  | cons x xs => simp [Frame.continue, Frame.close]

theorem afterOperand_continue (s : State α) (c : Cond (Leaf α)) (t : Tok α) :
    afterOperand (s.continue as fs) c t = (afterOperand s c t).map (State.continue as fs) := by
  obtain ⟨stack, frame, mode⟩ := s
  obtain ⟨hfactor, hclose⟩ := continue_frame as fs frame c
  cases stack with
  | nil =>
    cases t with
    | kwAnd => simp [afterOperand, State.continue, hfactor]
    | kwOr => simp [afterOperand, State.continue, hclose]
    | rpar | lpar | kwNot | atom _ | reserved _ => simp [afterOperand, State.continue]
  | cons p rest =>
    obtain ⟨g, n⟩ := p
    cases rest with
    | nil => cases t <;> simp [afterOperand, State.continue, continueStack]
    | cons q rest => cases t <;> simp [afterOperand, State.continue, continueStack]

theorem step_continue (s : State α) (t : Tok α) :
    step (s.continue as fs) t = (step s t).map (State.continue as fs) := by
  have hafter := fun c => afterOperand_continue as fs s c t
  have hmode := continue_mode as fs s
  have hkeep : ∀ m : Mode α, (⟨(s.continue as fs).stack, (s.continue as fs).frame, m⟩ : State α) =
      State.continue as fs ⟨s.stack, s.frame, m⟩ := by
    intro m
    obtain ⟨stack, frame, mode⟩ := s
    cases stack <;> rfl
  unfold step
  cases hm : s.mode with
  | start n =>
    simp only [hmode, hm]
    cases t with
    | lpar =>
      obtain ⟨stack, frame, mode⟩ := s
      cases stack <;> simp [State.continue, continueStack]
    | kwNot | atom _ => simp [hkeep]
    | rpar | kwAnd | kwOr | reserved _ => rfl
  | leaf n ts d =>
    simp only [hmode, hm]
    cases he : extend ts d t with
    | some p => simp [hkeep]
    | none =>
      cases ho : (Mode.leaf n ts d).operand with
      | none => rfl
      | some c => simp only [Option.bind_some, hafter]
  | done c => simp only [hmode, hm, hafter]

theorem run_continue (ts : List (Tok α)) (s : State α) :
    run (s.continue as fs) ts = (run s ts).map (State.continue as fs) := by
  induction ts generalizing s with
  | nil => rfl
  | cons t ts ih =>
    rw [run_cons, run_cons, step_continue]
    cases step s t with
    | none => rfl
    | some s' => simpa using ih s'

theorem finish_continue (s : State α) :
    finish (s.continue as fs) = (finish s).map (glue as fs) := by
  obtain ⟨stack, frame, mode⟩ := s
  cases stack with
  | nil => cases hm : mode.operand <;> simp [finish, State.continue, hm, close_continue]
  | cons p rest =>
    cases rest with
    | nil => simp [finish, State.continue, continueStack]
    | cons q rest => simp [finish, State.continue, continueStack]

end Continue

/-- The machine takes the token after a complete input as the token after its
last operand. -/
theorem step_of_operand (frame : Frame α) (mode : Mode α) (c : Cond (Leaf α)) (t : Tok α)
    (hc : mode.operand = some c) (ht : t = .kwAnd ∨ t = .kwOr) :
    step ⟨[], frame, mode⟩ t = afterOperand ⟨[], frame, mode⟩ c t := by
  unfold step
  cases hm : mode with
  | start k => simp [hm, Mode.operand] at hc
  | leaf k vs d =>
    rw [hm] at hc
    rcases ht with rfl | rfl
    · simp only [extend]
      rw [hc, Option.bind_some]
    · simp only [extend]
      rw [hc, Option.bind_some]
  | done k =>
    simp only [hm, Mode.operand, Option.some.injEq] at hc
    simp only [hc]

/-- What was read when a complete condition `ts` is followed by `t`. -/
theorem alternatives_split (ts : List (Tok α)) (alts : List (List (Cond (Leaf α))))
    (h : alternatives ts = some alts) :
    ∃ (frame : Frame α) (mode : Mode α) (c : Cond (Leaf α)),
      run .init ts = some ⟨[], frame, mode⟩ ∧ mode.operand = some c ∧ frame.close c = alts := by
  obtain ⟨s, hs, hf⟩ := Option.bind_eq_some_iff.mp h
  obtain ⟨stack, frame, mode⟩ := s
  cases stack with
  | cons p rest => simp [finish] at hf
  | nil =>
    obtain ⟨c, hc, hclose⟩ : ∃ c, mode.operand = some c ∧ frame.close c = alts := by
      simpa [finish] using hf
    exact ⟨frame, mode, c, hs, hc, hclose⟩

theorem alternatives_resume (ts us : List (Tok α)) (t : Tok α) (frame : Frame α) (mode : Mode α)
    (as : List (List (Cond (Leaf α)))) (fs : List (Cond (Leaf α)))
    (hrun : run .init ts = some ⟨[], frame, mode⟩)
    (hnext : step ⟨[], frame, mode⟩ t = some (State.continue as fs .init)) :
    alternatives (ts ++ t :: us) = (alternatives us).map (glue as fs) := by
  unfold alternatives
  rw [run_append, hrun, Option.bind_some, run_cons, hnext, Option.bind_some, run_continue]
  cases run State.init us with
  | none => rfl
  | some s' => simpa using finish_continue as fs s'

theorem alternatives_and (ts us : List (Tok α)) (as : List (List (Cond (Leaf α))))
    (fs : List (Cond (Leaf α))) (h : alternatives ts = some (as ++ [fs])) :
    alternatives (ts ++ .kwAnd :: us) = (alternatives us).map (glue as fs) := by
  obtain ⟨frame, mode, c, hrun, hc, hclose⟩ := alternatives_split ts _ h
  obtain ⟨halts, hfactors⟩ := List.append_inj' hclose rfl
  have hfs : frame.factors ++ [c] = fs := by simpa using hfactors
  refine alternatives_resume ts us .kwAnd frame mode as fs hrun ?_
  rw [step_of_operand frame mode c .kwAnd hc (Or.inl rfl)]
  simp [afterOperand, State.continue, State.init, Frame.continue, Frame.empty, halts, hfs]

theorem alternatives_or (ts us : List (Tok α)) (as : List (List (Cond (Leaf α))))
    (h : alternatives ts = some as) :
    alternatives (ts ++ .kwOr :: us) = (alternatives us).map (glue as []) := by
  obtain ⟨frame, mode, c, hrun, hc, hclose⟩ := alternatives_split ts _ h
  refine alternatives_resume ts us .kwOr frame mode as [] hrun ?_
  rw [step_of_operand frame mode c .kwOr hc (Or.inr rfl)]
  simp [afterOperand, State.continue, State.init, Frame.continue, Frame.empty, hclose]

theorem step_reserved (s : State α) (a : α) : step s (.reserved a) = none := by
  unfold step
  cases s.mode with
  | start n => rfl
  | leaf n ts d => cases (Mode.leaf n ts d).operand <;> simp [extend, afterOperand]
  | done c => rfl

theorem run_reserved (ts : List (Tok α)) (s s' : State α) (h : run s ts = some s') (a : α) :
    .reserved a ∉ ts := by
  induction ts generalizing s with
  | nil => simp
  | cons t ts ih =>
    rw [run_cons] at h
    obtain ⟨m, hm, hr⟩ := Option.bind_eq_some_iff.mp h
    intro hmem
    rcases List.mem_cons.mp hmem with rfl | hmem
    · rw [step_reserved] at hm
      cases hm
    · exact ih m hr hmem

theorem parse_reserved (ts : List (Tok α)) (c : Cond (Leaf α)) (h : parse ts = some c) (a : α) :
    .reserved a ∉ ts := by
  obtain ⟨alts, halts, _⟩ := Option.map_eq_some_iff.mp h
  obtain ⟨s, hs, _⟩ := Option.bind_eq_some_iff.mp halts
  exact run_reserved ts _ s hs a

/-! ### Operands -/

theorem run_group (ts : List (Tok α)) (alts : List (List (Cond (Leaf α))))
    (h : alternatives ts = some alts) (stack : List (Frame α × ℕ)) (f : Frame α) (n : ℕ) :
    run ⟨stack, f, .start n⟩ (.lpar :: ts ++ [.rpar]) =
      some ⟨stack, f, .done (negs n (assemble alts))⟩ := by
  obtain ⟨frame, mode, c, hrun, hc, hclose⟩ := alternatives_split ts alts h
  have hin : run ⟨(f, n) :: stack, .empty, .start 0⟩ ts = some ⟨(f, n) :: stack, frame, mode⟩ :=
    run_enclosed ts .init ⟨[], frame, mode⟩ ((f, n) :: stack) hrun
  have hclosing : step ⟨(f, n) :: stack, frame, mode⟩ .rpar =
      some ⟨stack, f, .done (negs n (assemble alts))⟩ := by
    unfold step
    cases hm : mode with
    | start k => simp [hm, Mode.operand] at hc
    | leaf k us d =>
      cases d with
      | zero =>
        simp only [hm, Mode.operand, Option.some.injEq] at hc
        simp [extend, Mode.operand, afterOperand, hc, hclose]
      | succ d => simp [hm, Mode.operand] at hc
    | done k =>
      simp only [hm, Mode.operand, Option.some.injEq] at hc
      simp [afterOperand, hc, hclose]
  rw [List.cons_append, run_cons]
  show run ⟨(f, n) :: stack, .empty, .start 0⟩ (ts ++ [.rpar]) = _
  rw [run_append, hin, Option.bind_some, run_cons, hclosing]
  rfl


/-- The tokens read as one operand meaning `c`, wherever an operand may stand. -/
def Operand (ts : List (Tok α)) (c : Cond (Leaf α)) : Prop :=
  ∀ (stack : List (Frame α × ℕ)) (f : Frame α) (n : ℕ),
    ∃ m, run ⟨stack, f, .start n⟩ ts = some ⟨stack, f, m⟩ ∧ m.operand = some (negs n c)

theorem operand_group (ts : List (Tok α)) (alts : List (List (Cond (Leaf α))))
    (h : alternatives ts = some alts) : Operand (.lpar :: ts ++ [.rpar]) (assemble alts) :=
  fun stack f n => ⟨_, run_group ts alts h stack f n, rfl⟩

/-- Tokens that extend a leaf from depth `d` to depth `d'`. -/
def Extends : List (Tok α) → ℕ → ℕ → Prop
  | [], d, d' => d = d'
  | t :: ts, d, d' => ∃ e, extend [] d t = some ([t], e) ∧ Extends ts e d'

theorem extend_prefix (ts : Leaf α) (d e : ℕ) (t : Tok α) (h : extend [] d t = some ([t], e)) :
    extend ts d t = some (ts ++ [t], e) := by
  cases t with
  | lpar | kwNot | atom _ => simpa [extend] using h
  | rpar =>
    cases d with
    | zero => simp [extend] at h
    | succ d => simpa [extend] using h
  | kwAnd | kwOr | reserved _ => simp [extend] at h

theorem run_extends (us : List (Tok α)) (stack : List (Frame α × ℕ)) (f : Frame α) (n : ℕ)
    (ts : Leaf α) (d d' : ℕ) (h : Extends us d d') :
    run ⟨stack, f, .leaf n ts d⟩ us = some ⟨stack, f, .leaf n (ts ++ us) d'⟩ := by
  induction us generalizing ts d with
  | nil =>
    rw [run_nil, List.append_nil, show d = d' from h]
  | cons t us ih =>
    obtain ⟨e, he, hrest⟩ := h
    rw [run_cons]
    simp only [step, extend_prefix ts d e t he, Option.bind_some]
    rw [ih (ts ++ [t]) e hrest, List.append_assoc, List.singleton_append]

theorem operand_leaf (a : α) (ts : List (Tok α)) (h : Extends ts 0 0) :
    Operand (.atom a :: ts) (.leaf (.atom a :: ts)) := by
  intro stack f n
  refine ⟨.leaf n (.atom a :: ts) 0, ?_, rfl⟩
  rw [run_cons]
  simpa [step] using run_extends ts stack f n [.atom a] 0 0 h

theorem extends_append (ts us : List (Tok α)) (d e d' : ℕ) (h : Extends ts d e)
    (hu : Extends us e d') : Extends (ts ++ us) d d' := by
  induction ts generalizing d with
  | nil =>
    rw [show d = e from h]
    exact hu
  | cons t ts ih =>
    obtain ⟨m, hm, hrest⟩ := h
    exact ⟨m, hm, ih m hrest⟩

theorem extends_atoms (ts : List (Tok α)) (d : ℕ) (h : ∀ t ∈ ts, ∃ a, t = .atom a) :
    Extends ts d d := by
  induction ts with
  | nil => rfl
  | cons t ts ih =>
    obtain ⟨a, rfl⟩ := h t (List.mem_cons_self ..)
    exact ⟨d, rfl, ih fun u hu => h u (List.mem_cons_of_mem _ hu)⟩

theorem operand_neg (ts : List (Tok α)) (c : Cond (Leaf α)) (h : Operand ts c) :
    Operand (.kwNot :: ts) (.neg c) := by
  intro stack f n
  obtain ⟨m, hm, hc⟩ := h stack f (n + 1)
  refine ⟨m, ?_, ?_⟩
  · rw [run_cons]
    simpa [step] using hm
  · rw [hc]
    congr 1
    clear hm hc
    induction n with
    | zero => rfl
    | succ n ih => rw [negs, ih, negs]

/-- The token lists joined by a separator token. -/
def joinTok (sep : Tok α) : List (List (Tok α)) → List (Tok α)
  | [] => []
  | [ts] => ts
  | ts :: rest => ts ++ sep :: joinTok sep rest

theorem alternatives_operand (ts : List (Tok α)) (c : Cond (Leaf α)) (h : Operand ts c) :
    alternatives ts = some [[c]] := by
  obtain ⟨m, hm, hc⟩ := h [] .empty 0
  unfold alternatives
  rw [show (State.init : State α) = ⟨[], .empty, .start 0⟩ from rfl, hm, Option.bind_some]
  simp [finish, hc, Frame.close, Frame.empty, negs]

theorem alternatives_joinAnd (ops : List (List (Tok α) × Cond (Leaf α))) (hne : ops ≠ [])
    (h : ∀ p ∈ ops, Operand p.1 p.2) :
    alternatives (joinTok .kwAnd (ops.map Prod.fst)) = some [ops.map Prod.snd] := by
  induction ops with
  | nil => exact absurd rfl hne
  | cons p rest ih =>
    have hp := alternatives_operand p.1 p.2 (h p (List.mem_cons_self ..))
    cases rest with
    | nil => simpa [joinTok] using hp
    | cons q rest =>
      have hrest := ih (by simp) (fun x hx => h x (List.mem_cons_of_mem _ hx))
      show alternatives (p.1 ++ .kwAnd :: joinTok .kwAnd ((q :: rest).map Prod.fst)) = _
      rw [alternatives_and p.1 _ [] [p.2] hp, hrest]
      simp [glue]

theorem alternatives_joinOr (ops : List (List (Tok α) × Cond (Leaf α))) (hne : ops ≠ [])
    (h : ∀ p ∈ ops, Operand p.1 p.2) :
    alternatives (joinTok .kwOr (ops.map Prod.fst)) = some (ops.map fun p => [p.2]) := by
  induction ops with
  | nil => exact absurd rfl hne
  | cons p rest ih =>
    have hp := alternatives_operand p.1 p.2 (h p (List.mem_cons_self ..))
    cases rest with
    | nil => simpa [joinTok] using hp
    | cons q rest =>
      have hrest := ih (by simp) (fun x hx => h x (List.mem_cons_of_mem _ hx))
      show alternatives (p.1 ++ .kwOr :: joinTok .kwOr ((q :: rest).map Prod.fst)) = _
      rw [alternatives_or p.1 _ [[p.2]] hp, hrest]
      simp [glue]

theorem assemble_single (cs : List (Cond (Leaf α))) : assemble [cs] = Cond.mkAll cs := rfl

theorem assemble_singles (cs : List (Cond (Leaf α))) :
    assemble (cs.map fun c => [c]) = Cond.mkAny cs := by
  unfold assemble
  rw [List.map_map, show (Cond.mkAll ∘ fun c : Cond (Leaf α) => [c]) = id from rfl, List.map_id]

theorem operand_groupAnd (ops : List (List (Tok α) × Cond (Leaf α))) (hne : ops ≠ [])
    (h : ∀ p ∈ ops, Operand p.1 p.2) :
    Operand (.lpar :: joinTok .kwAnd (ops.map Prod.fst) ++ [.rpar])
      (Cond.mkAll (ops.map Prod.snd)) := by
  have hg := operand_group _ _ (alternatives_joinAnd ops hne h)
  rwa [assemble_single] at hg

theorem operand_groupOr (ops : List (List (Tok α) × Cond (Leaf α))) (hne : ops ≠ [])
    (h : ∀ p ∈ ops, Operand p.1 p.2) :
    Operand (.lpar :: joinTok .kwOr (ops.map Prod.fst) ++ [.rpar])
      (Cond.mkAny (ops.map Prod.snd)) := by
  have hg := operand_group _ _ (alternatives_joinOr ops hne h)
  have hmap : ops.map (fun p => [p.2]) = (ops.map Prod.snd).map fun c => [c] := by
    rw [List.map_map]
    rfl
  rwa [hmap, assemble_singles] at hg

/-! ### What a parsed condition consists of -/

section Built
variable (q : Tok α → Prop)

/-- The conditions that the machine builds from tokens that satisfy `q`. -/
inductive Built : Cond (Leaf α) → Prop where
  | leaf (ts : Leaf α) (h : ∀ t ∈ ts, q t) : Built (.leaf ts)
  | neg (c : Cond (Leaf α)) (h : Built c) : Built (.neg c)
  | assemble (alts : List (List (Cond (Leaf α)))) (hne : alts ≠ []) (hx : ∀ x ∈ alts, x ≠ [])
      (h : ∀ x ∈ alts, ∀ c ∈ x, Built c) : Built (assemble alts)

theorem built_negs (n : ℕ) (c : Cond (Leaf α)) (h : Built q c) : Built q (negs n c) := by
  induction n with
  | zero => exact h
  | succ n ih => exact .neg _ ih

structure Frame.Built (f : Frame α) : Prop where
  alts : ∀ x ∈ f.alts, x ≠ [] ∧ ∀ c ∈ x, CondGrammar.Built q c
  factors : ∀ c ∈ f.factors, CondGrammar.Built q c

def Mode.Built : Mode α → Prop
  | .start _ => True
  | .leaf _ ts _ => ∀ t ∈ ts, q t
  | .done c => CondGrammar.Built q c

structure State.Built (s : State α) : Prop where
  stack : ∀ p ∈ s.stack, p.1.Built q
  frame : s.frame.Built q
  mode : s.mode.Built q

theorem operand_built (m : Mode α) (c : Cond (Leaf α)) (h : m.Built q) (hc : m.operand = some c) :
    Built q c := by
  cases m with
  | start n => simp [Mode.operand] at hc
  | leaf n ts d =>
    cases d with
    | zero =>
      simp only [Mode.operand, Option.some.injEq] at hc
      rw [← hc]
      exact built_negs q n _ (.leaf ts h)
    | succ d => simp [Mode.operand] at hc
  | done k =>
    simp only [Mode.operand, Option.some.injEq] at hc
    rw [← hc]
    exact h

theorem close_built (f : Frame α) (c : Cond (Leaf α)) (hf : f.Built q) (hc : Built q c) :
    ∀ x ∈ f.close c, x ≠ [] ∧ ∀ d ∈ x, Built q d := by
  intro x hx
  rcases List.mem_append.mp hx with hx | hx
  · exact hf.alts x hx
  · rw [List.mem_singleton.mp hx]
    refine ⟨by simp, ?_⟩
    intro d hd
    rcases List.mem_append.mp hd with hd | hd
    · exact hf.factors d hd
    · rw [List.mem_singleton.mp hd]
      exact hc

theorem assemble_close_built (f : Frame α) (c : Cond (Leaf α)) (hf : f.Built q)
    (hc : Built q c) : Built q (assemble (f.close c)) := by
  have hclose := close_built q f c hf hc
  exact .assemble _ (by simp [Frame.close]) (fun x hx => (hclose x hx).1)
    (fun x hx => (hclose x hx).2)

theorem afterOperand_built (s s' : State α) (c : Cond (Leaf α)) (t : Tok α) (h : s.Built q)
    (hc : Built q c) (hs : afterOperand s c t = some s') : s'.Built q := by
  cases t with
  | kwAnd =>
    simp only [afterOperand, Option.some.injEq] at hs
    subst hs
    refine ⟨h.stack, ⟨h.frame.alts, ?_⟩, trivial⟩
    intro d hd
    rcases List.mem_append.mp hd with hd | hd
    · exact h.frame.factors d hd
    · rw [List.mem_singleton.mp hd]
      exact hc
  | kwOr =>
    simp only [afterOperand, Option.some.injEq] at hs
    subst hs
    exact ⟨h.stack, ⟨close_built q s.frame c h.frame hc, by simp⟩, trivial⟩
  | rpar =>
    simp only [afterOperand] at hs
    cases hst : s.stack with
    | nil => simp [hst] at hs
    | cons p rest =>
      obtain ⟨f, n⟩ := p
      simp only [hst, Option.some.injEq] at hs
      subst hs
      have hstack := h.stack
      rw [hst] at hstack
      refine ⟨fun p hp => hstack p (List.mem_cons_of_mem _ hp), hstack _ (List.mem_cons_self ..), ?_⟩
      exact built_negs q n _ (assemble_close_built q s.frame c h.frame hc)
  | lpar | kwNot | atom _ | reserved _ => simp [afterOperand] at hs

theorem extend_tokens (ts ts' : Leaf α) (d d' : ℕ) (t : Tok α)
    (h : extend ts d t = some (ts', d')) : ts' = ts ++ [t] := by
  cases t with
  | lpar | kwNot | atom _ =>
    simp only [extend, Option.some.injEq, Prod.mk.injEq] at h
    exact h.1.symm
  | rpar =>
    cases d with
    | zero => simp [extend] at h
    | succ d =>
      simp only [extend, Option.some.injEq, Prod.mk.injEq] at h
      exact h.1.symm
  | kwAnd | kwOr | reserved _ => simp [extend] at h

theorem step_built (s s' : State α) (t : Tok α) (h : s.Built q) (ht : q t)
    (hs : step s t = some s') : s'.Built q := by
  unfold step at hs
  cases hm : s.mode with
  | start n =>
    simp only [hm] at hs
    cases t with
    | lpar =>
      simp only [Option.some.injEq] at hs
      subst hs
      refine ⟨?_, ⟨by simp [Frame.empty], by simp [Frame.empty]⟩, trivial⟩
      intro p hp
      rcases List.mem_cons.mp hp with hp | hp
      · rw [hp]
        exact h.frame
      · exact h.stack p hp
    | kwNot =>
      simp only [Option.some.injEq] at hs
      subst hs
      exact ⟨h.stack, h.frame, trivial⟩
    | atom a =>
      simp only [Option.some.injEq] at hs
      subst hs
      exact ⟨h.stack, h.frame, by simpa [Mode.Built] using ht⟩
    | rpar | kwAnd | kwOr | reserved _ => simp at hs
  | leaf n ts d =>
    simp only [hm] at hs
    have hts : ∀ u ∈ ts, q u := by
      have hmode := h.mode
      rwa [hm] at hmode
    cases he : extend ts d t with
    | some p =>
      obtain ⟨ts', d'⟩ := p
      simp only [he, Option.some.injEq] at hs
      subst hs
      refine ⟨h.stack, h.frame, ?_⟩
      rw [extend_tokens ts ts' d d' t he]
      intro u hu
      rcases List.mem_append.mp hu with hu | hu
      · exact hts u hu
      · rw [List.mem_singleton.mp hu]
        exact ht
    | none =>
      simp only [he] at hs
      obtain ⟨c, hc, ha⟩ := Option.bind_eq_some_iff.mp hs
      exact afterOperand_built q s s' c t h (operand_built q (.leaf n ts d) c hts hc) ha
  | done c =>
    simp only [hm] at hs
    have hc : Built q c := by
      have hmode := h.mode
      rwa [hm] at hmode
    exact afterOperand_built q s s' c t h hc hs

theorem run_built (ts : List (Tok α)) (s s' : State α) (h : s.Built q) (ht : ∀ t ∈ ts, q t)
    (hs : run s ts = some s') : s'.Built q := by
  induction ts generalizing s with
  | nil =>
    simp only [run_nil, Option.some.injEq] at hs
    rwa [← hs]
  | cons t ts ih =>
    rw [run_cons] at hs
    obtain ⟨m, hm, hr⟩ := Option.bind_eq_some_iff.mp hs
    exact ih m (step_built q s m t h (ht t (List.mem_cons_self ..)) hm)
      (fun u hu => ht u (List.mem_cons_of_mem _ hu)) hr

theorem alternatives_built (ts : List (Tok α)) (alts : List (List (Cond (Leaf α))))
    (ht : ∀ t ∈ ts, q t) (h : alternatives ts = some alts) :
    alts ≠ [] ∧ (∀ x ∈ alts, x ≠ [] ∧ ∀ c ∈ x, Built q c) ∧ Built q (assemble alts) := by
  obtain ⟨frame, mode, c, hrun, hc, hclose⟩ := alternatives_split ts alts h
  have hinit : (State.init : State α).Built q :=
    ⟨by simp [State.init], ⟨by simp [State.init, Frame.empty], by simp [State.init, Frame.empty]⟩,
      trivial⟩
  have hs := run_built q ts _ _ hinit ht hrun
  have hop := operand_built q mode c hs.mode hc
  refine ⟨by simp [← hclose, Frame.close], ?_, ?_⟩
  · rw [← hclose]
    exact close_built q frame c hs.frame hop
  · rw [← hclose]
    exact assemble_close_built q frame c hs.frame hop

theorem parse_built (ts : List (Tok α)) (c : Cond (Leaf α)) (ht : ∀ t ∈ ts, q t)
    (h : parse ts = some c) : Built q c := by
  obtain ⟨alts, ha, rfl⟩ := Option.map_eq_some_iff.mp h
  exact (alternatives_built q ts alts ht ha).2.2

theorem mem_leaves_assemble (b : Leaf α) (alts : List (List (Cond (Leaf α)))) :
    b ∈ (assemble alts).leaves ↔ ∃ x ∈ alts, ∃ c ∈ x, b ∈ c.leaves := by
  unfold assemble
  rw [Cond.mem_leaves_mkAny]
  simp only [List.mem_map, exists_exists_and_eq_and, Cond.mem_leaves_mkAll]

theorem leaves_built (c : Cond (Leaf α)) (h : Built q c) : ∀ b ∈ c.leaves, ∀ t ∈ b, q t := by
  induction h with
  | leaf ts h =>
    intro b hb
    rw [Cond.leaves, List.mem_singleton] at hb
    rwa [hb]
  | neg c _ ih => exact ih
  | assemble alts _ _ _ ih =>
    intro b hb
    obtain ⟨x, hx, c, hc, hbc⟩ := (mem_leaves_assemble b alts).mp hb
    exact ih x hx c hc b hbc

theorem conjuncts_built (c : Cond (Leaf α)) (h : Built q c) : c.conjuncts ≠ [] := by
  induction h with
  | leaf ts h => simp [Cond.conjuncts]
  | neg c _ ih => simp [Cond.conjuncts]
  | assemble alts hne hx _ ih =>
    cases alts with
    | nil => exact absurd rfl hne
    | cons x rest =>
      cases rest with
      | nil =>
        rw [assemble_single, Cond.conjuncts_mkAll]
        obtain ⟨c, rest, rfl⟩ := List.exists_cons_of_ne_nil (hx x (List.mem_singleton_self x))
        rw [List.flatMap_cons]
        exact List.append_ne_nil_of_left_ne_nil
          (ih _ (List.mem_singleton_self _) c (List.mem_cons_self ..)) _
      | cons y rest => simp [assemble, Cond.mkAny, Cond.conjuncts]

end Built

end CondGrammar
