import Mathlib

/-!
# Three-valued conditions

Kleene's strong three-valued logic, and condition trees of any width over an
arbitrary type of leaves. Both query languages of a pushdown keep a row only
where a condition is `tt`, so the lemmas are about being `tt`.
-/

namespace ThreeValued

inductive Truth where
  | tt
  | ff
  | unknown
  deriving DecidableEq, Repr

namespace Truth

def and : Truth → Truth → Truth
  | ff, _ => ff
  | _, ff => ff
  | tt, tt => tt
  | _, _ => unknown

def or : Truth → Truth → Truth
  | tt, _ => tt
  | _, tt => tt
  | ff, ff => ff
  | _, _ => unknown

def not : Truth → Truth
  | tt => ff
  | ff => tt
  | unknown => unknown

def ofBool (b : Bool) : Truth := if b then tt else ff

@[simp] theorem and_eq_tt (a b : Truth) : and a b = tt ↔ a = tt ∧ b = tt := by
  cases a <;> cases b <;> decide

@[simp] theorem or_eq_tt (a b : Truth) : or a b = tt ↔ a = tt ∨ b = tt := by
  cases a <;> cases b <;> decide

@[simp] theorem ofBool_eq_tt (b : Bool) : ofBool b = tt ↔ b = true := by
  cases b <;> decide

end Truth

inductive Cond (β : Type) where
  | leaf (b : β)
  | all (cs : List (Cond β))
  | any (cs : List (Cond β))
  | neg (c : Cond β)
  deriving Repr

namespace Cond
variable {β : Type}

/-- Induction with the children's hypotheses given by membership. -/
@[elab_as_elim]
theorem induct {motive : Cond β → Prop} (leaf : ∀ b, motive (.leaf b))
    (all : ∀ cs, (∀ c ∈ cs, motive c) → motive (.all cs))
    (any : ∀ cs, (∀ c ∈ cs, motive c) → motive (.any cs))
    (neg : ∀ c, motive c → motive (.neg c)) (c : Cond β) : motive c :=
  @Cond.rec _ motive (fun cs => ∀ c ∈ cs, motive c) leaf all any neg
    (by
      intro c hc
      cases hc)
    (by
      intro c cs hc hcs d hd
      rcases List.mem_cons.mp hd with h | h
      · rw [h]
        exact hc
      · exact hcs d h) c

mutual
def eval (v : β → Truth) : Cond β → Truth
  | .leaf b => v b
  | .all cs => evalAll v cs
  | .any cs => evalAny v cs
  | .neg c => (eval v c).not

def evalAll (v : β → Truth) : List (Cond β) → Truth
  | [] => .tt
  | c :: cs => (eval v c).and (evalAll v cs)

def evalAny (v : β → Truth) : List (Cond β) → Truth
  | [] => .ff
  | c :: cs => (eval v c).or (evalAny v cs)
end

theorem evalAll_eq_tt (v : β → Truth) (cs : List (Cond β)) :
    evalAll v cs = .tt ↔ ∀ c ∈ cs, eval v c = .tt := by
  induction cs with
  | nil => simp [evalAll]
  | cons c cs ih => simp only [evalAll, Truth.and_eq_tt, ih, List.forall_mem_cons]

theorem evalAny_eq_tt (v : β → Truth) (cs : List (Cond β)) :
    evalAny v cs = .tt ↔ ∃ c ∈ cs, eval v c = .tt := by
  induction cs with
  | nil => simp [evalAny]
  | cons c cs ih => simp only [evalAny, Truth.or_eq_tt, ih, List.exists_mem_cons_iff]

@[simp] theorem eval_all_eq_tt (v : β → Truth) (cs : List (Cond β)) :
    eval v (.all cs) = .tt ↔ ∀ c ∈ cs, eval v c = .tt := by
  rw [eval, evalAll_eq_tt]

@[simp] theorem eval_any_eq_tt (v : β → Truth) (cs : List (Cond β)) :
    eval v (.any cs) = .tt ↔ ∃ c ∈ cs, eval v c = .tt := by
  rw [eval, evalAny_eq_tt]

/-- A conjunction of one factor is that factor. -/
def mkAll : List (Cond β) → Cond β
  | [c] => c
  | cs => .all cs

/-- A disjunction of one alternative is that alternative. -/
def mkAny : List (Cond β) → Cond β
  | [c] => c
  | cs => .any cs

theorem eval_mkAll (v : β → Truth) (cs : List (Cond β)) : eval v (mkAll cs) = eval v (.all cs) := by
  unfold mkAll
  split
  · rename_i c
    rw [eval, evalAll, evalAll]
    cases eval v c <;> rfl
  · rfl

theorem eval_mkAny (v : β → Truth) (cs : List (Cond β)) : eval v (mkAny cs) = eval v (.any cs) := by
  unfold mkAny
  split
  · rename_i c
    rw [eval, evalAny, evalAny]
    cases eval v c <;> rfl
  · rfl

@[simp] theorem eval_mkAll_eq_tt (v : β → Truth) (cs : List (Cond β)) :
    eval v (mkAll cs) = .tt ↔ ∀ c ∈ cs, eval v c = .tt := by
  unfold mkAll
  split
  · simp
  · simp

@[simp] theorem eval_mkAny_eq_tt (v : β → Truth) (cs : List (Cond β)) :
    eval v (mkAny cs) = .tt ↔ ∃ c ∈ cs, eval v c = .tt := by
  unfold mkAny
  split
  · simp
  · simp

mutual
def map {γ : Type} (f : β → γ) : Cond β → Cond γ
  | .leaf b => .leaf (f b)
  | .all cs => .all (mapList f cs)
  | .any cs => .any (mapList f cs)
  | .neg c => .neg (map f c)

def mapList {γ : Type} (f : β → γ) : List (Cond β) → List (Cond γ)
  | [] => []
  | c :: cs => map f c :: mapList f cs
end

theorem mapList_eq {γ : Type} (f : β → γ) (cs : List (Cond β)) :
    mapList f cs = cs.map (map f) := by
  induction cs with
  | nil => rfl
  | cons c cs ih => rw [mapList, ih, List.map_cons]

theorem evalAll_congr {γ : Type} (v : β → Truth) (w : γ → Truth) (f : Cond β → Cond γ)
    (cs : List (Cond β)) (h : ∀ c ∈ cs, eval w (f c) = eval v c) :
    evalAll w (cs.map f) = evalAll v cs := by
  induction cs with
  | nil => rfl
  | cons c cs ih =>
    rw [List.map_cons, evalAll, evalAll, h c (List.mem_cons_self ..),
      ih (fun d hd => h d (List.mem_cons_of_mem _ hd))]

theorem evalAny_congr {γ : Type} (v : β → Truth) (w : γ → Truth) (f : Cond β → Cond γ)
    (cs : List (Cond β)) (h : ∀ c ∈ cs, eval w (f c) = eval v c) :
    evalAny w (cs.map f) = evalAny v cs := by
  induction cs with
  | nil => rfl
  | cons c cs ih =>
    rw [List.map_cons, evalAny, evalAny, h c (List.mem_cons_self ..),
      ih (fun d hd => h d (List.mem_cons_of_mem _ hd))]

theorem eval_map {γ : Type} (f : β → γ) (v : γ → Truth) (c : Cond β) :
    eval v (map f c) = eval (fun b => v (f b)) c := by
  induction c using Cond.induct with
  | leaf b => rfl
  | all cs ih =>
    rw [map, eval, eval, mapList_eq]
    exact evalAll_congr _ _ _ cs ih
  | any cs ih =>
    rw [map, eval, eval, mapList_eq]
    exact evalAny_congr _ _ _ cs ih
  | neg c ih => rw [map, eval, eval, ih]

mutual
def leaves : Cond β → List β
  | .leaf b => [b]
  | .all cs => leavesList cs
  | .any cs => leavesList cs
  | .neg c => leaves c

def leavesList : List (Cond β) → List β
  | [] => []
  | c :: cs => leaves c ++ leavesList cs
end

theorem mem_leavesList (b : β) (cs : List (Cond β)) :
    b ∈ leavesList cs ↔ ∃ c ∈ cs, b ∈ leaves c := by
  induction cs with
  | nil => simp [leavesList]
  | cons c cs ih => simp only [leavesList, List.mem_append, ih, List.exists_mem_cons_iff]

theorem mem_leaves_mkAll (b : β) (cs : List (Cond β)) :
    b ∈ (mkAll cs).leaves ↔ ∃ c ∈ cs, b ∈ leaves c := by
  unfold mkAll
  split
  · simp
  · rw [leaves, mem_leavesList]

theorem mem_leaves_mkAny (b : β) (cs : List (Cond β)) :
    b ∈ (mkAny cs).leaves ↔ ∃ c ∈ cs, b ∈ leaves c := by
  unfold mkAny
  split
  · simp
  · rw [leaves, mem_leavesList]

/-- The factors of a condition, nested conjunctions flattened. -/
def conjuncts : Cond β → List (Cond β)
  | .all cs => conjunctsList cs
  | .leaf b => [.leaf b]
  | .any cs => [.any cs]
  | .neg c => [.neg c]
where
  conjunctsList : List (Cond β) → List (Cond β)
    | [] => []
    | c :: cs => conjuncts c ++ conjunctsList cs

theorem conjunctsList_eq (cs : List (Cond β)) :
    conjuncts.conjunctsList cs = cs.flatMap conjuncts := by
  induction cs with
  | nil => rfl
  | cons c cs ih => rw [conjuncts.conjunctsList, ih, List.flatMap_cons]

theorem conjuncts_mkAll (cs : List (Cond β)) : (mkAll cs).conjuncts = cs.flatMap conjuncts := by
  unfold mkAll
  split
  · rw [List.flatMap_cons, List.flatMap_nil, List.append_nil]
  · rw [conjuncts, conjunctsList_eq]

end Cond
end ThreeValued
