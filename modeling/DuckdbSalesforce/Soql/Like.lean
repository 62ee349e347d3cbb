import Mathlib
import DuckdbSalesforce.Library.Wildcard
import DuckdbSalesforce.Soql.Clause

/-!
# LIKE in DuckDB and in SOQL

The clause for `~~`, `prefix`, `suffix` and `contains` (`salesforce_soql.cpp`)
accepts every value that the DuckDB function accepts. A text is the list of its
characters here: the literal escapes ASCII characters only.
-/

namespace DuckdbSalesforce
open Wildcard

/-! ### DuckDB -/

/-- A character of the two-argument `~~`, which has no escape character. -/
def duckLikeItem (c : Char) : Item Char :=
  if c = '%' then .run else if c = '_' then .anyOne else .exactly c

def duckStringFunction (fn sub value : Text) : Bool :=
  if fn = "~~".toList then accepts (sub.map duckLikeItem) value
  else if fn = "prefix".toList then decide (sub <+: value)
  else if fn = "suffix".toList then decide (sub <:+ value)
  else if fn = "contains".toList then decide (sub <:+: value)
  else false

/-! ### SOQL -/

section Soql
variable (fold : Char → Char)

def sameLetter (c : Char) : Item Char := .one fun d => decide (fold d = fold c)

def soqlLikeItem (c : Char) : Item Char :=
  if c = '%' then .run else if c = '_' then .anyOne else sameLetter fold c

/-- The pattern in a literal, read in one pass from behind the opening quote;
`none` when the literal is malformed. -/
def readLikeLiteral : Text → Option (List (Item Char))
  | [] => none
  | [c] => if c = '\'' then some [] else none
  | c :: d :: t =>
    if c = '\\' then
      if d ∈ ['\\', '\'', '%', '_'] then (readLikeLiteral t).map (sameLetter fold d :: ·) else none
    else if c = '\'' then none
    else (readLikeLiteral (d :: t)).map (soqlLikeItem fold c :: ·)

def soqlLike (literal value : Text) : Bool :=
  match literal with
  | [] => false
  | c :: body =>
    if c = '\'' then
      match readLikeLiteral fold body with
      | none => false
      | some items => accepts items value
    else false

theorem readLikeLiteral_escape (s : Text) :
    readLikeLiteral fold (soqlEscape s ++ ['\'']) = some (s.map (soqlLikeItem fold)) := by
  induction s with
  | nil => rfl
  | cons c s ih =>
    rw [soqlEscape]
    by_cases hc : c = '\\' ∨ c = '\''
    · have hitem : soqlLikeItem fold c = sameLetter fold c := by
        rcases hc with rfl | rfl <;> rfl
      have hmem : c ∈ ['\\', '\'', '%', '_'] := by
        rcases hc with rfl | rfl <;> decide
      rw [if_pos hc, List.cons_append, List.cons_append, readLikeLiteral, if_pos rfl, if_pos hmem,
        ih, List.map_cons, hitem]
      rfl
    · obtain ⟨hb, hq⟩ := not_or.mp hc
      rw [if_neg hc, List.cons_append]
      have hne : soqlEscape s ++ ['\''] ≠ [] := List.append_ne_nil_of_right_ne_nil _ (by simp)
      obtain ⟨d, t, hrest⟩ := List.exists_cons_of_ne_nil hne
      rw [hrest] at ih ⊢
      rw [readLikeLiteral, if_neg hb, if_neg hq, ih]
      rfl

theorem soqlLike_string (pattern value : Text) :
    soqlLike fold (soqlString pattern) value =
      accepts (pattern.map (soqlLikeItem fold)) value := by
  rw [soqlString, List.cons_append, soqlLike, if_pos rfl, readLikeLiteral_escape]

/-! ### The pushed pattern -/

theorem sameLetter_self (c : Char) : Weaker (.exactly c) (sameLetter fold c) := by
  intro d hd
  rw [of_decide_eq_true hd]
  exact decide_eq_true rfl

theorem literal_weaker (c : Char) : Weaker (.exactly c) (soqlLikeItem fold c) := by
  unfold soqlLikeItem
  split
  · trivial
  · split
    · exact fun _ _ => rfl
    · exact sameLetter_self fold c

theorem like_weaker (c : Char) : Weaker (duckLikeItem c) (soqlLikeItem fold c) := by
  unfold duckLikeItem
  by_cases hrun : c = '%'
  · rw [hrun]
    trivial
  rw [if_neg hrun]
  by_cases hone : c = '_'
  · rw [hone]
    exact fun _ h => h
  · rw [if_neg hone]
    exact literal_weaker fold c

theorem literal_accepted (t : Text) : accepts (t.map (soqlLikeItem fold)) t = true :=
  accepts_weaker_map _ _ t (literal_weaker fold) t (accepts_exactly t)

theorem pattern_accepts (fn sub pattern value : Text) (hp : likePattern fn sub = some pattern)
    (hv : duckStringFunction fn sub value = true) :
    accepts (pattern.map (soqlLikeItem fold)) value = true := by
  unfold likePattern at hp
  unfold duckStringFunction at hv
  have hpercent : "%".toList.map (soqlLikeItem fold) = [.run] := rfl
  by_cases hlike : fn = "~~".toList
  · rw [if_pos hlike] at hp hv
    rw [← Option.some.inj hp]
    exact accepts_weaker_map _ _ sub (like_weaker fold) value hv
  rw [if_neg hlike] at hp hv
  by_cases hprefix : fn = "prefix".toList
  · rw [if_pos hprefix] at hp hv
    obtain ⟨b, rfl⟩ := of_decide_eq_true hv
    rw [← Option.some.inj hp, List.map_append, hpercent, accepts_append]
    exact ⟨sub, b, rfl, literal_accepted fold sub, accepts_single_run b⟩
  rw [if_neg hprefix] at hp hv
  by_cases hsuffix : fn = "suffix".toList
  · rw [if_pos hsuffix] at hp hv
    obtain ⟨a, rfl⟩ := of_decide_eq_true hv
    rw [← Option.some.inj hp, List.map_append, hpercent, accepts_append]
    exact ⟨a, sub, rfl, accepts_single_run a, literal_accepted fold sub⟩
  rw [if_neg hsuffix] at hp hv
  by_cases hcontains : fn = "contains".toList
  · rw [if_pos hcontains] at hp hv
    obtain ⟨a, b, rfl⟩ := of_decide_eq_true hv
    rw [← Option.some.inj hp, List.map_append, List.map_append, hpercent, accepts_append]
    refine ⟨a ++ sub, b, rfl, ?_, accepts_single_run b⟩
    rw [accepts_append]
    exact ⟨a, sub, rfl, accepts_single_run a, literal_accepted fold sub⟩
  · rw [if_neg hcontains] at hp
    cases hp

end Soql

theorem translateFunction_like (fields : List SalesforceField) (projectionToField : List ℕ)
    (fn : Text) (children : List Expr) (text : Text) (exact : Bool)
    (h : translateFunction fields projectionToField fn children = .ok (some (text, exact))) :
    ∃ c sub field pattern, children = [c, .constant (.varchar sub)] ∧
      fieldFor fields projectionToField c = some field ∧ likePattern fn sub = some pattern ∧
      text = field ++ " LIKE ".toList ++ soqlString pattern ∧ exact = false := by
  rw [function_written] at h
  obtain ⟨p, hp, hwritten⟩ := Option.map_eq_some_iff.mp (Except.ok.inj h)
  unfold likeClause at hp
  split at hp
  · rename_i c d
    split at hp
    · rename_i field sub hfield
      obtain ⟨pattern, hpattern, rfl⟩ := Option.map_eq_some_iff.mp hp
      obtain ⟨htext, hexact⟩ := Prod.mk.inj hwritten
      exact ⟨c, sub, field, pattern, rfl, hfield, hpattern, htext.symm, hexact.symm⟩
    · cases hp
  · cases hp

/-- A pushed LIKE accepts every value that the DuckDB function accepts. -/
theorem like_superset (fields : List SalesforceField) (projectionToField : List ℕ) (fn : Text)
    (children : List Expr) (text : Text) (exact : Bool)
    (h : translateExpr fields projectionToField (.function fn children) =
      .ok (some (text, exact))) :
    ∃ c sub field literal, children = [c, .constant (.varchar sub)] ∧
      fieldFor fields projectionToField c = some field ∧
      text = field ++ " LIKE ".toList ++ literal ∧ exact = false ∧
      ∀ (fold : Char → Char) (value : Text), duckStringFunction fn sub value = true →
        soqlLike fold literal value = true := by
  rw [translateExpr] at h
  obtain ⟨c, sub, field, pattern, hchildren, hfield, hpattern, htext, hexact⟩ :=
    translateFunction_like fields projectionToField fn children text exact h
  refine ⟨c, sub, field, soqlString pattern, hchildren, hfield, htext, hexact, ?_⟩
  intro fold value hv
  rw [soqlLike_string]
  exact pattern_accepts fold fn sub pattern value hpattern hv

/-- `prefix(Name, '50\_%')`: the backslash is a character, `_` and `%` become
wildcards. -/
theorem prefix_pushed :
    ∃ field literal, "Name LIKE '50\\\\_%%'".toList = field ++ " LIKE ".toList ++ literal ∧
      ∀ (fold : Char → Char) (value : Text),
        duckStringFunction "prefix".toList "50\\_%".toList value = true →
          soqlLike fold literal value = true := by
  obtain ⟨c, sub, field, literal, hchildren, _, htext, _, hsuper⟩ :=
    like_superset [.flat "Name".toList "string".toList .varchar true true] [0] "prefix".toList
      [.columnRef 0, .constant (.varchar "50\\_%".toList)] "Name LIKE '50\\\\_%%'".toList false
      (by decide)
  have hsub : "50\\_%".toList = sub := by
    obtain ⟨_, htail⟩ := List.cons.inj hchildren
    exact Value.varchar.inj (Expr.constant.inj (List.cons.inj htail).1)
  rw [← hsub] at hsuper
  exact ⟨field, literal, htext, hsuper⟩

end DuckdbSalesforce
