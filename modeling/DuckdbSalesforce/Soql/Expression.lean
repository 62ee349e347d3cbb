import Mathlib
import DuckdbSalesforce.Describe
import DuckdbSalesforce.Library.ThreeValued

/-!
# Bound expressions

The bound expression tree that DuckDB hands to the pushdown hook, in the
shapes of the 1.5 line (the 2.0 line stores the same shapes as functions).
-/

namespace DuckdbSalesforce
open ThreeValued

/-- A DuckDB `Value`. A scalar that is neither text nor boolean carries its
place in the total order of its type and its `ToString` text. -/
inductive Value where
  | null (type : LogicalType)
  | varchar (s : Text)
  | boolean (b : Bool)
  | scalar (type : LogicalType) (key : ℤ) (str : Text)
  deriving DecidableEq, Repr

def Value.type : Value → LogicalType
  | .null t => t
  | .varchar _ => .varchar
  | .boolean _ => .boolean
  | .scalar t _ _ => t

def Value.isNull : Value → Bool
  | .null _ => true
  | _ => false

/-- `Value::ToString`. -/
def Value.toText : Value → Text
  | .null _ => "NULL".toList
  | .varchar s => s
  | .boolean b => if b then "true".toList else "false".toList
  | .scalar _ _ str => str

inductive ExpressionType where
  | compareEqual
  | compareNotEqual
  | compareLessThan
  | compareGreaterThan
  | compareLessThanOrEqualTo
  | compareGreaterThanOrEqualTo
  | compareIn
  | compareNotIn
  | compareDistinctFrom
  | compareNotDistinctFrom
  | operatorIsNull
  | operatorIsNotNull
  | operatorNot
  | conjunctionAnd
  | conjunctionOr
  | otherType
  deriving DecidableEq, Repr

/-- `other` is every class the translation does not look into: casts, CASE,
subqueries, lambdas. -/
inductive Expr where
  | columnRef (columnIndex : ℕ)
  | constant (v : Value)
  | comparison (type : ExpressionType) (left right : Expr)
  | between (input lower upper : Expr) (lowerInclusive upperInclusive : Bool)
  | operator (type : ExpressionType) (children : List Expr)
  | function (name : Text) (children : List Expr)
  | conjunction (type : ExpressionType) (children : List Expr)
  | other (name : Text) (children : List Expr)
  deriving Repr

namespace Expr

/-- Induction that goes into conjunctions only. -/
@[elab_as_elim]
theorem conjInduct {motive : Expr → Prop}
    (conjunction : ∀ t cs, (∀ c ∈ cs, motive c) → motive (.conjunction t cs))
    (leaf : ∀ e, (∀ t cs, e ≠ .conjunction t cs) → motive e) (e : Expr) : motive e :=
  @Expr.rec motive (fun cs => ∀ c ∈ cs, motive c)
    (fun _ => leaf _ (by simp)) (fun _ => leaf _ (by simp)) (fun _ _ _ _ _ => leaf _ (by simp))
    (fun _ _ _ _ _ _ _ _ => leaf _ (by simp)) (fun _ _ _ => leaf _ (by simp))
    (fun _ _ _ => leaf _ (by simp)) conjunction (fun _ _ _ => leaf _ (by simp))
    (by
      intro c hc
      cases hc)
    (by
      intro c cs hc hcs d hd
      rcases List.mem_cons.mp hd with h | h
      · rw [h]
        exact hc
      · exact hcs d h) e

mutual
/-- The AND/OR structure of a filter over its other subexpressions. -/
def cond : Expr → Cond Expr
  | .conjunction .conjunctionAnd cs => .all (condList cs)
  | .conjunction .conjunctionOr cs => .any (condList cs)
  | e => .leaf e

def condList : List Expr → List (Cond Expr)
  | [] => []
  | e :: es => cond e :: condList es
end

theorem condList_eq (es : List Expr) : condList es = es.map cond := by
  induction es with
  | nil => rfl
  | cons e es ih => rw [condList, ih, List.map_cons]

theorem cond_leaf (e : Expr) (h : ∀ t cs, e ≠ .conjunction t cs) : e.cond = .leaf e := by
  cases e with
  | conjunction t cs => exact absurd rfl (h t cs)
  | columnRef _ | constant _ | comparison _ _ _ | between _ _ _ _ _ | operator _ _ | function _ _
  | other _ _ => simp [cond]

end Expr

def duckTruth (duck : Expr → Truth) (e : Expr) : Truth := e.cond.eval duck

end DuckdbSalesforce
