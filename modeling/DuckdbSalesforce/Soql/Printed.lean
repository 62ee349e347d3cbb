import Mathlib
import DuckdbSalesforce.Soql.Residual
import DuckdbSalesforce.Soql.Lexer

/-!
# The WHERE reads back as it was meant

Clauses are printed by the pushdown and read by the grammar of conditions.
Printing and reading are inverse when every bare literal is one word; string
literals need no condition, whatever they contain.
-/

namespace DuckdbSalesforce
open ThreeValued CondGrammar

/-! ### The tokens of a clause -/

def wordAtom (w : Text) : Token := .atom (.word w)

def literalToken : Value → Token
  | .varchar s => .atom (.str s)
  | v => wordAtom (literalText v)

def joinComma (ts : List Token) : List Token := ts.intersperse (.atom .comma)

def Predicate.tokens : Predicate → Leaf Atom
  | .compare field op v => [wordAtom field, .atom (.sym op.text), literalToken v]
  | .inList field vs =>
    wordAtom field :: wordAtom "IN".toList ::
      (.lpar :: joinComma (vs.map literalToken) ++ [.rpar])
  | .like field pattern => [wordAtom field, wordAtom "LIKE".toList, .atom (.str pattern)]

def Predicate.field : Predicate → Text
  | .compare field _ _ => field
  | .inList field _ => field
  | .like field _ => field

def Predicate.values : Predicate → List Value
  | .compare _ _ v => [v]
  | .inList _ vs => vs
  | .like _ _ => []

mutual
def clauseToks : Clause → List Token
  | .leaf p => p.tokens
  | .all cs => .lpar :: joinTok .kwAnd (clauseToksList cs) ++ [.rpar]
  | .any cs => .lpar :: joinTok .kwOr (clauseToksList cs) ++ [.rpar]
  | .neg c => .lpar :: .kwNot :: clauseToks c ++ [.rpar]

def clauseToksList : List Clause → List (List Token)
  | [] => []
  | c :: cs => clauseToks c :: clauseToksList cs
end

mutual
/-- The tree of a clause: a conjunction of one is that one. -/
def clauseTree : Clause → SoqlCond
  | .leaf p => .leaf p.tokens
  | .all cs => .mkAll (clauseTrees cs)
  | .any cs => .mkAny (clauseTrees cs)
  | .neg c => .neg (clauseTree c)

def clauseTrees : List Clause → List SoqlCond
  | [] => []
  | c :: cs => clauseTree c :: clauseTrees cs
end

theorem clauseToksList_eq (cs : List Clause) : clauseToksList cs = cs.map clauseToks := by
  induction cs with
  | nil => rfl
  | cons c cs ih => rw [clauseToksList, ih, List.map_cons]

theorem clauseTrees_eq (cs : List Clause) : clauseTrees cs = cs.map clauseTree := by
  induction cs with
  | nil => rfl
  | cons c cs ih => rw [clauseTrees, ih, List.map_cons]

/-- A literal that is quoted, or is one word. -/
def PlainLiteral : Value → Prop
  | .varchar _ => True
  | v => isBareToken (literalText v) = true

structure Predicate.Plain (p : Predicate) : Prop where
  field : isBareToken p.field = true
  values : ∀ v ∈ p.values, PlainLiteral v

inductive Printable : Clause → Prop where
  | leaf (p : Predicate) (h : p.Plain) : Printable (.leaf p)
  | all (cs : List Clause) (hne : cs ≠ []) (h : ∀ c ∈ cs, Printable c) : Printable (.all cs)
  | any (cs : List Clause) (hne : cs ≠ []) (h : ∀ c ∈ cs, Printable c) : Printable (.any cs)
  | neg (c : Clause) (h : Printable c) : Printable (.neg c)

/-! ### Literals -/

theorem lexRun_escape (s v : Text) (toks : List Token) :
    lexRun ⟨toks, .str v⟩ (soqlEscape s) = some ⟨toks, .str (v ++ s)⟩ := by
  induction s generalizing v with
  | nil => rw [soqlEscape, lexRun_nil, List.append_nil]
  | cons c s ih =>
    have hrest := ih (v ++ [c])
    rw [List.append_assoc, List.singleton_append] at hrest
    rw [soqlEscape]
    by_cases hc : c = '\\' ∨ c = '\''
    · have hesc : escaped c = some c := by
        rcases hc with rfl | rfl
        · rfl
        · rfl
      rw [if_pos hc, lexRun_cons]
      simpa [lexStep, lexRun_cons, hesc] using hrest
    · have hcs := not_or.mp hc
      rw [if_neg hc, lexRun_cons]
      simpa [lexStep, hcs.1, hcs.2] using hrest

/-- A string literal is one token, the string it was made from. -/
theorem lex_string (s : Text) : lex (soqlString s) = some [.atom (.str s)] := by
  have hopen : lexStep ⟨[], .idle⟩ '\'' = some ⟨[], .str []⟩ := rfl
  unfold lex soqlString
  rw [List.cons_append, lexRun_cons, hopen, Option.bind_some, lexRun_append, lexRun_escape,
    Option.bind_some]
  rfl

theorem lex_op (op : CompareOp) : lex op.text = some [.atom (.sym op.text)] := by
  cases op <;> decide

theorem lex_literal (v : Value) (h : PlainLiteral v) :
    lex (literalText v) = some [literalToken v] := by
  cases v with
  | varchar s => exact lex_string s
  | null _ | boolean _ | scalar _ _ _ => exact lex_bare _ h

theorem lex_joined_by (sep : Text) (t : Token)
    (hsep : ∀ a b ta tb, lex a = some ta → lex b = some tb →
      lex (a ++ sep ++ b) = some (ta ++ t :: tb))
    (ps : List (Text × List Token)) (h : ∀ p ∈ ps, lex p.1 = some p.2) :
    lex (joinText sep (ps.map Prod.fst)) = some (joinTok t (ps.map Prod.snd)) := by
  induction ps with
  | nil => rfl
  | cons p ps ih =>
    have hp := h p (List.mem_cons_self ..)
    have hrest := ih fun q hq => h q (List.mem_cons_of_mem _ hq)
    cases ps with
    | nil => exact hp
    | cons q ps =>
      have hall := hsep _ _ _ _ hp hrest
      simpa [joinText_cons, joinTok] using hall

theorem lex_comma (a b : Text) (ta tb : List Token) (ha : lex a = some ta) (hb : lex b = some tb) :
    lex (a ++ ", ".toList ++ b) = some (ta ++ .atom .comma :: tb) := by
  have hsp := lex_space [] b [] tb rfl hb
  have hcomma := lex_delimiter a (' ' :: b) ',' ta [.atom .comma] rfl ha
  rw [List.nil_append] at hsp
  rw [hsp] at hcomma
  simpa using hcomma

theorem joinTok_comma (ts : List Token) :
    joinTok (.atom .comma) (ts.map fun t => [t]) = joinComma ts := by
  induction ts with
  | nil => rfl
  | cons t ts ih =>
    cases ts with
    | nil => rfl
    | cons u us => simpa [joinTok, joinComma] using ih

theorem lex_commas (ps : List (Text × Token)) (h : ∀ p ∈ ps, lex p.1 = some [p.2]) :
    lex (joinText ", ".toList (ps.map Prod.fst)) = some (joinComma (ps.map Prod.snd)) := by
  have hall := lex_joined_by ", ".toList (.atom .comma) lex_comma
    (ps.map fun p => (p.1, [p.2])) (by
      intro q hq
      obtain ⟨p, hp, rfl⟩ := List.mem_map.mp hq
      exact h p hp)
  rw [← joinTok_comma]
  simpa [List.map_map, Function.comp_def] using hall

theorem lex_items (vs : List Value) (h : ∀ v ∈ vs, PlainLiteral v) :
    lex (joinText ", ".toList (vs.map literalText)) = some (joinComma (vs.map literalToken)) := by
  have hall := lex_commas (vs.map fun v => (literalText v, literalToken v)) (by
    intro p hp
    obtain ⟨v, hv, rfl⟩ := List.mem_map.mp hp
    exact lex_literal v (h v hv))
  simpa only [List.map_map, Function.comp_def] using hall

theorem lex_predicate (p : Predicate) (h : p.Plain) : lex p.text = some p.tokens := by
  have hfield := lex_bare _ h.field
  cases p with
  | compare field op v =>
    have hv := lex_literal v (h.values v (List.mem_singleton_self v))
    have htail := lex_space _ _ _ _ (lex_op op) hv
    have hall := lex_space _ _ _ _ hfield htail
    simpa [Predicate.text, Predicate.tokens, Predicate.field, wordAtom] using hall
  | inList field vs =>
    have hin : lex "IN".toList = some [wordAtom "IN".toList] := lex_bare _ (by decide)
    have hitems := lex_parens _ _ (lex_items vs h.values)
    have htail := lex_space _ _ _ _ hin hitems
    have hall := lex_space _ _ _ _ hfield htail
    simpa [Predicate.text, Predicate.tokens, Predicate.field, wordAtom] using hall
  | like field pattern =>
    have hlike : lex "LIKE".toList = some [wordAtom "LIKE".toList] := lex_bare _ (by decide)
    have htail := lex_space _ _ _ _ hlike (lex_string pattern)
    have hall := lex_space _ _ _ _ hfield htail
    simpa [Predicate.text, Predicate.tokens, Predicate.field, wordAtom] using hall

/-! ### Clauses -/

theorem joinComma_atoms (ts : List Token) (h : ∀ t ∈ ts, ∃ a, t = .atom a) :
    ∀ t ∈ joinComma ts, ∃ a, t = .atom a := by
  induction ts with
  | nil => simp [joinComma]
  | cons u ts ih =>
    have hrest := ih fun t ht => h t (List.mem_cons_of_mem _ ht)
    cases ts with
    | nil =>
      intro t ht
      exact h t ht
    | cons w ts =>
      intro t ht
      rw [joinComma, List.intersperse_cons_cons] at ht
      rcases List.mem_cons.mp ht with rfl | ht
      · exact h _ (List.mem_cons_self ..)
      · rcases List.mem_cons.mp ht with rfl | ht
        · exact ⟨_, rfl⟩
        · exact hrest t ht

theorem operand_predicate (p : Predicate) : Operand p.tokens (.leaf p.tokens) := by
  have hliteral : ∀ v : Value, ∃ a, literalToken v = .atom a := by
    intro v
    cases v with
    | varchar s => exact ⟨_, rfl⟩
    | null _ | boolean _ | scalar _ _ _ => exact ⟨_, rfl⟩
  cases p with
  | compare field op v =>
    refine operand_leaf _ _ (extends_atoms _ 0 ?_)
    intro t ht
    simp only [List.mem_cons, List.not_mem_nil, or_false] at ht
    rcases ht with rfl | rfl
    · exact ⟨_, rfl⟩
    · exact hliteral v
  | inList field vs =>
    refine operand_leaf _ _ ⟨0, rfl, 1, rfl, ?_⟩
    refine extends_append _ _ 1 1 0 (extends_atoms _ 1 ?_) ⟨0, rfl, rfl⟩
    refine joinComma_atoms _ ?_
    intro t ht
    obtain ⟨v, _, rfl⟩ := List.mem_map.mp ht
    exact hliteral v
  | like field pattern =>
    refine operand_leaf _ _ (extends_atoms _ 0 ?_)
    intro t ht
    simp only [List.mem_cons, List.not_mem_nil, or_false] at ht
    rcases ht with rfl | rfl
    · exact ⟨_, rfl⟩
    · exact ⟨_, rfl⟩

theorem lex_joined (word : Text) (sep : Token) (hword : lex word = some [sep])
    (ps : List (Text × List Token)) (h : ∀ p ∈ ps, lex p.1 = some p.2) :
    lex (joinText (' ' :: word ++ [' ']) (ps.map Prod.fst)) =
      some (joinTok sep (ps.map Prod.snd)) := by
  refine lex_joined_by _ sep ?_ ps h
  intro a b ta tb ha hb
  have hall := lex_space _ _ _ _ ha (lex_space _ _ _ _ hword hb)
  simpa using hall

theorem lex_and : lex "AND".toList = some [.kwAnd] := by decide
theorem lex_or : lex "OR".toList = some [.kwOr] := by decide
theorem lex_not : lex "NOT".toList = some [.kwNot] := by decide

theorem lex_clause (c : Clause) (h : Printable c) : lex (clauseText c) = some (clauseToks c) := by
  induction h with
  | leaf p h => exact lex_predicate p h
  | all cs _ _ ih =>
    have hjoin := lex_joined "AND".toList .kwAnd lex_and
      (cs.map fun c => (clauseText c, clauseToks c)) (by
        intro p hp
        obtain ⟨c, hc, rfl⟩ := List.mem_map.mp hp
        exact ih c hc)
    have hall := lex_parens _ _ hjoin
    simpa [clauseText_all, clauseToks, clauseTexts_eq, clauseToksList_eq,
      Function.comp_def] using hall
  | any cs _ _ ih =>
    have hjoin := lex_joined "OR".toList .kwOr lex_or
      (cs.map fun c => (clauseText c, clauseToks c)) (by
        intro p hp
        obtain ⟨c, hc, rfl⟩ := List.mem_map.mp hp
        exact ih c hc)
    have hall := lex_parens _ _ hjoin
    simpa [clauseText_any, clauseToks, clauseTexts_eq, clauseToksList_eq,
      Function.comp_def] using hall
  | neg c _ ih =>
    have hall := lex_parens _ _ (lex_space _ _ _ _ lex_not ih)
    simpa [clauseText_neg, clauseToks] using hall

theorem operand_clause (c : Clause) (h : Printable c) : Operand (clauseToks c) (clauseTree c) := by
  have hops : ∀ (cs : List Clause), (∀ c ∈ cs, Operand (clauseToks c) (clauseTree c)) →
      ∀ p ∈ cs.map fun c => (clauseToks c, clauseTree c), Operand p.1 p.2 := by
    intro cs ih p hp
    obtain ⟨c, hc, rfl⟩ := List.mem_map.mp hp
    exact ih c hc
  induction h with
  | leaf p _ => exact operand_predicate p
  | all cs hne _ ih =>
    have hgroup := operand_groupAnd (cs.map fun c => (clauseToks c, clauseTree c)) (by simpa using hne)
      (hops cs ih)
    simpa [clauseToks, clauseTree, clauseToksList_eq, clauseTrees_eq, Function.comp_def] using hgroup
  | any cs hne _ ih =>
    have hgroup := operand_groupOr (cs.map fun c => (clauseToks c, clauseTree c)) (by simpa using hne)
      (hops cs ih)
    simpa [clauseToks, clauseTree, clauseToksList_eq, clauseTrees_eq, Function.comp_def] using hgroup
  | neg c _ ih =>
    have hneg := alternatives_operand _ _ (operand_neg _ _ ih)
    exact operand_group _ _ hneg

/-- Printed clauses joined by AND are read as their conjunction. -/
theorem parse_clauses (cs : List Clause) (hne : cs ≠ []) (h : ∀ c ∈ cs, Printable c) :
    parseCondition (joinText " AND ".toList (cs.map clauseText)) =
      some (.mkAll (cs.map clauseTree)) := by
  have hlex := lex_joined "AND".toList .kwAnd lex_and
    (cs.map fun c => (clauseText c, clauseToks c)) (by
      intro p hp
      obtain ⟨c, hc, rfl⟩ := List.mem_map.mp hp
      exact lex_clause c (h c hc))
  have hparse := alternatives_joinAnd (cs.map fun c => (clauseToks c, clauseTree c))
    (by simpa using hne) (by
      intro p hp
      obtain ⟨c, hc, rfl⟩ := List.mem_map.mp hp
      exact operand_clause c (h c hc))
  simp only [List.map_map, Function.comp_def] at hlex hparse
  unfold parseCondition
  rw [show " AND ".toList = ' ' :: "AND".toList ++ [' '] from rfl, hlex, Option.bind_some]
  simp only [parse, hparse, Option.map_some, assemble_single]

/-! ### Unreadable literals -/

theorem literal_read (v : Value) (h : ReadToken (literalToken v)) : PlainLiteral v := by
  cases v with
  | varchar s => trivial
  | null _ | boolean _ | scalar _ _ _ => exact h

theorem mem_joinComma (ts : List Token) (t : Token) (h : t ∈ ts) : t ∈ joinComma ts := by
  induction ts with
  | nil => cases h
  | cons u ts ih =>
    cases ts with
    | nil => exact h
    | cons w ts =>
      rw [joinComma, List.intersperse_cons_cons]
      rcases List.mem_cons.mp h with rfl | h
      · exact List.mem_cons_self ..
      · exact List.mem_cons_of_mem _ (List.mem_cons_of_mem _ (ih h))

theorem value_token (p : Predicate) (v : Value) (h : v ∈ p.values) : literalToken v ∈ p.tokens := by
  cases p with
  | compare field op w =>
    rw [List.mem_singleton.mp h]
    simp [Predicate.tokens]
  | inList field vs =>
    have hmem := mem_joinComma (vs.map literalToken) _ (List.mem_map_of_mem h)
    simp [Predicate.tokens, hmem]
  | like field pattern => cases h

theorem mem_leaves_clauseTree (c : Clause) (p : Predicate) (h : p ∈ c.leaves) :
    p.tokens ∈ (clauseTree c).leaves := by
  induction c using Cond.induct with
  | leaf q =>
    rw [Cond.leaves, List.mem_singleton] at h
    rw [h, clauseTree, Cond.leaves]
    exact List.mem_singleton_self _
  | all cs ih =>
    rw [Cond.leaves, Cond.mem_leavesList] at h
    obtain ⟨c, hc, hp⟩ := h
    rw [clauseTree, clauseTrees_eq, Cond.mem_leaves_mkAll]
    exact ⟨_, List.mem_map_of_mem hc, ih c hc hp⟩
  | any cs ih =>
    rw [Cond.leaves, Cond.mem_leavesList] at h
    obtain ⟨c, hc, hp⟩ := h
    rw [clauseTree, clauseTrees_eq, Cond.mem_leaves_mkAny]
    exact ⟨_, List.mem_map_of_mem hc, ih c hc hp⟩
  | neg c ih =>
    rw [Cond.leaves] at h
    rw [clauseTree, Cond.leaves]
    exact ih h

/-- A condition that was read has readable words only, so a clause that reads
back has plain literals. -/
theorem plain_of_parsed (t : Text) (cs : List Clause)
    (h : parseCondition t = some (.mkAll (cs.map clauseTree))) :
    ∀ c ∈ cs, ∀ p ∈ c.leaves, ∀ v ∈ p.values, PlainLiteral v := by
  intro c hc p hp v hv
  obtain ⟨ts, hlex, hparse⟩ := Option.bind_eq_some_iff.mp h
  have hbuilt := parse_built ReadToken ts _ (lex_read t ts hlex) hparse
  have hleaf : p.tokens ∈ (Cond.mkAll (cs.map clauseTree)).leaves := by
    rw [Cond.mem_leaves_mkAll]
    exact ⟨_, List.mem_map_of_mem hc, mem_leaves_clauseTree c p hp⟩
  exact literal_read v (leaves_built ReadToken _ hbuilt _ hleaf _ (value_token p v hv))

/-! ### The constants of a filter -/

mutual
def Expr.literals : Expr → List Value
  | .columnRef _ => []
  | .constant v => [v]
  | .comparison _ l r => l.literals ++ r.literals
  | .between input lower upper _ _ => input.literals ++ lower.literals ++ upper.literals
  | .operator _ cs => literalsList cs
  | .function _ cs => literalsList cs
  | .conjunction _ cs => literalsList cs
  | .other _ cs => literalsList cs

def Expr.literalsList : List Expr → List Value
  | [] => []
  | e :: es => e.literals ++ literalsList es
end

inductive Expr.Filled : Expr → Prop where
  | leaf (e : Expr) (h : ∀ t cs, e ≠ .conjunction t cs) : Filled e
  | conjunction (t : ExpressionType) (cs : List Expr) (hne : cs ≠ []) (h : ∀ c ∈ cs, Filled c) :
    Filled (.conjunction t cs)

theorem mem_literalsList (v : Value) (es : List Expr) :
    v ∈ Expr.literalsList es ↔ ∃ e ∈ es, v ∈ e.literals := by
  induction es with
  | nil => simp [Expr.literalsList]
  | cons e es ih =>
    simp only [Expr.literalsList, List.mem_append, ih, List.exists_mem_cons_iff]

section Filters
variable (fields : List SalesforceField) (projectionToField : List ℕ)

theorem fieldFor_mem (e : Expr) (name : Text)
    (h : fieldFor fields projectionToField e = some name) :
    (∃ f ∈ fields, f.name = name) ∧ e.literals = [] := by
  cases e with
  | columnRef i =>
    simp only [fieldFor] at h
    cases hp : projectionToField[i]? with
    | none => simp [hp] at h
    | some idx =>
      simp only [hp] at h
      cases hf : fields[idx]? with
      | none => simp [hf] at h
      | some f =>
        simp only [hf] at h
        by_cases hfil : f.filterable = true
        · rw [if_pos hfil] at h
          exact ⟨⟨f, List.mem_of_getElem? hf, Option.some.inj h⟩, rfl⟩
        · simp [hfil] at h
  | constant _ | comparison _ _ _ | between _ _ _ _ _ | operator _ _ | function _ _
  | conjunction _ _ | other _ _ => simp [fieldFor] at h

theorem constantOf_literals (e : Expr) (v : Value) (h : constantOf e = some v) :
    e.literals = [v] := by
  cases e with
  | constant w =>
    simp only [constantOf, Option.some.injEq] at h
    rw [Expr.literals, h]
  | columnRef _ | comparison _ _ _ | between _ _ _ _ _ | operator _ _ | function _ _
  | conjunction _ _ | other _ _ => simp [constantOf] at h

structure ClauseParts (e : Expr) (c : Clause) : Prop where
  field : ∀ p ∈ c.leaves, ∃ f ∈ fields, f.name = p.field
  plain : (∀ v ∈ e.literals, PlainLiteral v) ↔ ∀ p ∈ c.leaves, ∀ v ∈ p.values, PlainLiteral v
  printable : e.Filled → (∀ p ∈ c.leaves, p.Plain) → Printable c

theorem leafParts (e : Expr) (p : Predicate) (hf : ∃ f ∈ fields, f.name = p.field)
    (hv : (∀ v ∈ e.literals, PlainLiteral v) ↔ ∀ v ∈ p.values, PlainLiteral v) :
    ClauseParts fields e (.leaf p) := by
  refine ⟨?_, ?_, ?_⟩
  · intro q hq
    rw [Cond.leaves, List.mem_singleton] at hq
    rw [hq]
    exact hf
  · rw [hv, Cond.leaves, List.forall_mem_singleton]
  · intro _ hplain
    exact .leaf p (hplain p (by simp [Cond.leaves]))

theorem comparisonOperands_parts (t cmp : ExpressionType) (l r : Expr) (field : Text) (v : Value)
    (h : comparisonOperands fields projectionToField t l r = some (field, cmp, v)) :
    (∃ f ∈ fields, f.name = field) ∧ (Expr.comparison t l r).literals = [v] := by
  unfold comparisonOperands at h
  split at h
  case h_1 g w hl hr =>
    simp only [Option.some.injEq, Prod.mk.injEq] at h
    obtain ⟨rfl, rfl, rfl⟩ := h
    obtain ⟨hf, hlit⟩ := fieldFor_mem fields projectionToField l g hl
    exact ⟨hf, by rw [Expr.literals, constantOf_literals r w hr, hlit]; rfl⟩
  case h_2 =>
    split at h
    case h_1 g w hr hl =>
      obtain ⟨_, _, hc⟩ := Option.map_eq_some_iff.mp h
      simp only [Prod.mk.injEq] at hc
      obtain ⟨rfl, rfl, rfl⟩ := hc
      obtain ⟨hf, hlit⟩ := fieldFor_mem fields projectionToField r g hr
      exact ⟨hf, by rw [Expr.literals, constantOf_literals l w hl, hlit]; rfl⟩
    case h_2 => cases h

theorem comparison_parts (t : ExpressionType) (l r : Expr) (c : Clause) (x : Bool)
    (h : comparisonClause fields projectionToField t l r = .ok (some (c, x))) :
    ClauseParts fields (.comparison t l r) c := by
  unfold comparisonClause at h
  cases hops : comparisonOperands fields projectionToField t l r with
  | none => simp [hops] at h
  | some q =>
    obtain ⟨field, cmp, v⟩ := q
    obtain ⟨hf, hlit⟩ := comparisonOperands_parts fields projectionToField t cmp l r field v hops
    have hc : ∃ op, c = .leaf (.compare field op v) := by
      simp only [hops] at h
      cases hop : compareOp cmp with
      | none => simp [hop] at h
      | some op =>
        refine ⟨op, ?_⟩
        have hlast : ∀ u : Except BinderException Unit,
            (u >>= fun _ => if (soqlLiteral v).isSome then
                (.ok (some (Cond.leaf (Predicate.compare field op v), true)) :
                  Except BinderException (Option (Clause × Bool)))
              else .ok none) = .ok (some (c, x)) → c = .leaf (.compare field op v) := by
          intro u hu
          cases u with
          | error e => simp [bind, Except.bind] at hu
          | ok u =>
            by_cases hs : (soqlLiteral v).isSome = true
            · simp only [bind, Except.bind, hs, if_true, Except.ok.injEq, Option.some.injEq,
                Prod.mk.injEq] at hu
              exact hu.1.symm
            · simp [bind, Except.bind, hs] at hu
        simp only [hop] at h
        by_cases heq : cmp = .compareEqual ∨ cmp = .compareNotEqual
        · rw [if_pos heq] at h
          exact hlast _ h
        · rw [if_neg heq] at h
          exact hlast (.ok ()) h
    obtain ⟨op, rfl⟩ := hc
    refine leafParts fields _ _ hf ?_
    rw [hlit]
    rfl

theorem between_parts (input lower upper : Expr) (loInc hiInc : Bool) (c : Clause) (x : Bool)
    (h : betweenClause fields projectionToField input lower upper loInc hiInc = some (c, x)) :
    ClauseParts fields (.between input lower upper loInc hiInc) c := by
  unfold betweenClause at h
  cases hf : fieldFor fields projectionToField input with
  | none => simp [hf] at h
  | some field =>
    cases hlo : constantOf lower with
    | none => simp [hf, hlo] at h
    | some lo =>
      cases hhi : constantOf upper with
      | none => simp [hf, hlo, hhi] at h
      | some hi =>
        simp only [hf, hlo, hhi] at h
        obtain ⟨hmem, hlit⟩ := fieldFor_mem fields projectionToField input field hf
        have hlits : (Expr.between input lower upper loInc hiInc).literals = [lo, hi] := by
          rw [Expr.literals, hlit, constantOf_literals lower lo hlo,
            constantOf_literals upper hi hhi]
          rfl
        split at h
        · cases h
        · split at h
          · simp only [Option.some.injEq, Prod.mk.injEq] at h
            obtain ⟨rfl, _⟩ := h
            refine ⟨?_, ?_, ?_⟩
            · simpa [Cond.leaves, Cond.leavesList, Predicate.field] using hmem
            · rw [hlits]
              simp [Cond.leaves, Cond.leavesList, Predicate.values]
            · intro _ hplain
              refine .all _ (by simp) ?_
              intro d hd
              simp only [List.mem_cons, List.not_mem_nil, or_false] at hd
              rcases hd with rfl | rfl
              · exact .leaf _ (hplain _ (by simp [Cond.leaves, Cond.leavesList]))
              · exact .leaf _ (hplain _ (by simp [Cond.leaves, Cond.leavesList]))
          · cases h

theorem nullTest_parts (t : ExpressionType) (children : List Expr) (c : Clause) (x : Bool)
    (h : nullTestClause fields projectionToField t children = some (c, x)) :
    ClauseParts fields (.operator t children) c := by
  match children with
  | [] => simp [nullTestClause] at h
  | [d] =>
    obtain ⟨field, hf, hc⟩ := Option.map_eq_some_iff.mp h
    simp only [Prod.mk.injEq] at hc
    obtain ⟨rfl, _⟩ := hc
    obtain ⟨hmem, hlit⟩ := fieldFor_mem fields projectionToField d field hf
    refine leafParts fields _ _ hmem ?_
    have hnull : PlainLiteral (.null .other) := by
      show isBareToken (literalText (.null .other)) = true
      decide
    simp [Expr.literals, Expr.literalsList, hlit, Predicate.values, hnull]
  | _ :: _ :: _ => simp [nullTestClause] at h

theorem inValues_literals (es : List Expr) (vs : List Value) (h : inValues es = some vs) :
    Expr.literalsList es = vs := by
  induction es generalizing vs with
  | nil =>
    simp only [inValues, Option.some.injEq] at h
    rw [← h]
    rfl
  | cons e es ih =>
    simp only [inValues] at h
    cases hc : constantOf e with
    | none => simp [hc] at h
    | some v =>
      simp only [hc] at h
      split at h
      · obtain ⟨rest, hrest, rfl⟩ := Option.map_eq_some_iff.mp h
        rw [Expr.literalsList, constantOf_literals e v hc, ih rest hrest]
        rfl
      · cases h

theorem in_parts (children : List Expr) (c : Clause) (x : Bool)
    (h : inClause fields projectionToField children = .ok (some (c, x))) :
    ClauseParts fields (.operator .compareIn children) c := by
  match children with
  | [] => simp [inClause] at h
  | [_] => simp [inClause] at h
  | d :: e :: items =>
    simp only [inClause] at h
    cases hf : fieldFor fields projectionToField d with
    | none => simp [hf] at h
    | some field =>
      simp only [hf] at h
      split at h
      · cases h
      · cases hv : inValues (e :: items) with
        | none => simp [hv] at h
        | some vs =>
          simp only [hv] at h
          cases hid : checkIdLiterals fields field vs with
          | error b => simp [hid, bind, Except.bind] at h
          | ok u =>
            simp only [hid, bind, Except.bind, Except.ok.injEq, Option.some.injEq,
              Prod.mk.injEq] at h
            obtain ⟨rfl, _⟩ := h
            obtain ⟨hmem, hlit⟩ := fieldFor_mem fields projectionToField d field hf
            refine leafParts fields _ _ hmem ?_
            rw [Expr.literals, Expr.literalsList, hlit, inValues_literals _ _ hv]
            rfl

theorem like_parts (fn : Text) (children : List Expr) (c : Clause) (x : Bool)
    (h : likeClause fields projectionToField fn children = some (c, x)) :
    ClauseParts fields (.function fn children) c := by
  match children with
  | [] => simp [likeClause] at h
  | [_] => simp [likeClause] at h
  | _ :: _ :: _ :: _ => simp [likeClause] at h
  | [d, e] =>
    simp only [likeClause] at h
    cases hf : fieldFor fields projectionToField d with
    | none => simp [hf] at h
    | some field =>
      cases hc : constantOf e with
      | none => cases e <;> simp [hf, constantOf] at h hc
      | some v =>
        have he : e = .constant v := by
          cases e <;> simp [constantOf] at hc
          rw [hc]
        subst he
        cases v with
        | varchar sub =>
          simp only [hf] at h
          obtain ⟨pattern, _, hp⟩ := Option.map_eq_some_iff.mp h
          simp only [Prod.mk.injEq] at hp
          obtain ⟨rfl, _⟩ := hp
          obtain ⟨hmem, hlit⟩ := fieldFor_mem fields projectionToField d field hf
          refine leafParts fields _ _ hmem ?_
          simp [Expr.literals, Expr.literalsList, hlit, Predicate.values, PlainLiteral]
        | null _ | boolean _ | scalar _ _ _ => simp [hf] at h

theorem list_parts (es : List Expr) (ps : List (Clause × Bool))
    (h : List.Forall₂ (fun e p => clauseOf fields projectionToField e = .ok (some p)) es ps)
    (ih : ∀ e ∈ es, ∀ c x, clauseOf fields projectionToField e = .ok (some (c, x)) →
      ClauseParts fields e c) :
    (∀ c ∈ ps.map Prod.fst, ∀ p ∈ c.leaves, ∃ f ∈ fields, f.name = p.field) ∧
    ((∀ e ∈ es, ∀ v ∈ e.literals, PlainLiteral v) ↔
      ∀ c ∈ ps.map Prod.fst, ∀ p ∈ c.leaves, ∀ v ∈ p.values, PlainLiteral v) ∧
    ((∀ e ∈ es, e.Filled) → (∀ c ∈ ps.map Prod.fst, ∀ p ∈ c.leaves, p.Plain) →
      ∀ c ∈ ps.map Prod.fst, Printable c) := by
  induction h with
  | nil => simp
  | @cons e p es ps hp _ ihs =>
    have hparts := ih e (List.mem_cons_self ..) p.1 p.2 hp
    obtain ⟨hfield, hplain, hprint⟩ := ihs fun d hd => ih d (List.mem_cons_of_mem _ hd)
    simp only [List.map_cons, List.forall_mem_cons]
    refine ⟨⟨hparts.field, hfield⟩, and_congr hparts.plain hplain, ?_⟩
    intro hfilled hpred
    exact ⟨hparts.printable hfilled.1 hpred.1, hprint hfilled.2 hpred.2⟩

theorem forall_mem_mem_iff {α β : Type} (xs : List α) (f : α → List β) (q : β → Prop) :
    (∀ b, (∃ a ∈ xs, b ∈ f a) → q b) ↔ ∀ a ∈ xs, ∀ b ∈ f a, q b := by
  constructor
  · intro h a ha b hb
    exact h b ⟨a, ha, hb⟩
  · intro h b hmem
    obtain ⟨a, ha, hb⟩ := hmem
    exact h a ha b hb

theorem clause_parts (e : Expr) (c : Clause) (x : Bool)
    (h : clauseOf fields projectionToField e = .ok (some (c, x))) : ClauseParts fields e c := by
  induction e using Expr.conjInduct generalizing c x with
  | leaf e hleaf =>
    cases e with
    | comparison t l r => exact comparison_parts fields projectionToField t l r c x h
    | between input lower upper loInc hiInc =>
      rw [clauseOf, Except.ok.injEq] at h
      exact between_parts fields projectionToField input lower upper loInc hiInc c x h
    | operator t children =>
      rw [clauseOf] at h
      by_cases hnull : t = .operatorIsNull ∨ t = .operatorIsNotNull
      · rw [if_pos hnull, Except.ok.injEq] at h
        exact nullTest_parts fields projectionToField t children c x h
      · rw [if_neg hnull] at h
        by_cases hin : t = .compareIn
        · rw [if_pos hin] at h
          rw [hin]
          exact in_parts fields projectionToField children c x h
        · rw [if_neg hin] at h
          simp at h
    | function fn children =>
      rw [clauseOf, Except.ok.injEq] at h
      exact like_parts fields projectionToField fn children c x h
    | conjunction t children => exact absurd rfl (hleaf t children)
    | columnRef _ | constant _ | other _ _ => simp [clauseOf] at h
  | conjunction t es ih =>
    obtain ⟨ps, hps, hcase⟩ := clauseOf_conjunction fields projectionToField t es c x h
    obtain ⟨hfield, hplain, hprint⟩ := list_parts fields projectionToField es ps hps ih
    have hlits : (∀ v ∈ (Expr.conjunction t es).literals, PlainLiteral v) ↔
        ∀ e ∈ es, ∀ v ∈ e.literals, PlainLiteral v := by
      simp only [Expr.literals, mem_literalsList]
      exact forall_mem_mem_iff _ _ _
    have hleaves : ∀ q : Predicate → Prop, (∀ p ∈ c.leaves, q p) ↔
        ∀ d ∈ ps.map Prod.fst, ∀ p ∈ d.leaves, q p := by
      intro q
      rcases hcase with ⟨_, rfl, _⟩ | ⟨_, rfl, _⟩
      · simp only [Cond.leaves, Cond.mem_leavesList]
        exact forall_mem_mem_iff _ _ _
      · simp only [Cond.leaves, Cond.mem_leavesList]
        exact forall_mem_mem_iff _ _ _
    refine ⟨(hleaves _).mpr hfield, by rw [hlits, hplain, hleaves], ?_⟩
    intro hfilled hpred
    cases hfilled with
    | leaf _ hno => exact absurd rfl (hno t es)
    | conjunction _ _ hne hes =>
      have hps' : ps.map Prod.fst ≠ [] := by
        intro hnil
        have hlen := hps.length_eq
        rw [List.map_eq_nil_iff.mp hnil] at hlen
        exact hne (List.length_eq_zero_iff.mp hlen)
      have hall := hprint hes ((hleaves _).mp hpred)
      rcases hcase with ⟨_, rfl, _⟩ | ⟨_, rfl, _⟩
      · exact .any _ hps' hall
      · exact .all _ hps' hall

end Filters

/-! ### The SELECT around it -/

theorem digit_upper (c : Char) (h : c.isDigit = true) : c.toUpper = c := by
  have hnot : ¬ (c.val ≥ 'a'.val ∧ c.val ≤ 'z'.val) := by
    simp only [Char.isDigit, Bool.and_eq_true, decide_eq_true_eq, UInt32.le_iff_toNat_le,
      ge_iff_le] at h ⊢
    have h9 : '9'.val.toNat = 57 := rfl
    have ha : 'a'.val.toNat = 97 := rfl
    have hle : c.val.toNat ≤ 57 := h.2
    omega
  unfold Char.toUpper
  rw [dif_neg hnot]

/-- A word with a digit in it is never a keyword. -/
theorem isBareToken_of_digit (w : Text) (hword : w.all isWordChar = true) (d : Char)
    (hd : d.isDigit = true) (hmem : d ∈ w) : isBareToken w = true := by
  have hkey : ∀ k ∈ ["AND".toList, "OR".toList, "NOT".toList] ++ clauseWords, upper w ≠ k := by
    intro k hk heq
    have hin : d ∈ k := by
      rw [← heq, ← digit_upper d hd]
      exact List.mem_map_of_mem hmem
    have hletters : ∀ k ∈ ["AND".toList, "OR".toList, "NOT".toList] ++ clauseWords,
        k.all (fun c => !c.isDigit) = true := by decide
    have hno := List.all_eq_true.mp (hletters k hk) d hin
    rw [hd] at hno
    cases hno
  simp only [isBareToken, hword, Bool.and_true, Bool.and_eq_true, bne_iff_ne, Bool.not_eq_true',
    List.contains_eq_mem, decide_eq_false_iff_not]
  exact ⟨List.ne_nil_of_mem hmem, fun h => hkey _ h rfl⟩

theorem isWordChar_digit (c : Char) (h : c.isDigit = true) : isWordChar c = true := by
  simp [isWordChar, isAlnum, Char.isAlphanum, h]

theorem isBareToken_natText (n : ℕ) : isBareToken (natText n) = true := by
  obtain ⟨hne, hdigits⟩ := natText_digits n
  obtain ⟨d, hd⟩ := List.exists_mem_of_ne_nil _ hne
  exact isBareToken_of_digit _
    (List.all_eq_true.mpr fun c hc => isWordChar_digit c (hdigits c hc)) d (hdigits d hd) hd

/-- The end of a statement: nothing, or a blank and a readable text. -/
def TailReads (tail : Text) (tt : List Token) : Prop :=
  (tail = [] ∧ tt = []) ∨ ∃ b, tail = ' ' :: b ∧ lex b = some tt

theorem lex_tail (a tail : Text) (ta tt : List Token) (ha : lex a = some ta)
    (h : TailReads tail tt) : lex (a ++ tail) = some (ta ++ tt) := by
  rcases h with ⟨rfl, rfl⟩ | ⟨b, rfl, hb⟩
  · rw [List.append_nil, List.append_nil, ha]
  · exact lex_space a b ta tt ha hb

def limitTokens : Option ℕ → List Token
  | none => []
  | some n => [clauseToken "LIMIT", wordAtom (natText n)]

theorem limit_reads (limit : Option ℕ) : TailReads (limitText limit) (limitTokens limit) := by
  cases limit with
  | none => exact Or.inl ⟨rfl, rfl⟩
  | some n =>
    have hkey : lex "LIMIT".toList = some [clauseToken "LIMIT"] := by decide
    exact Or.inr ⟨"LIMIT".toList ++ ' ' :: natText n, rfl,
      lex_space _ _ _ _ hkey (lex_bare _ (isBareToken_natText n))⟩

theorem takeWhile_reserved (ts us : List Token) (h : ∀ t ∈ ts, isReserved t = false)
    (hus : us = [] ∨ ∃ a rest, us = .reserved a :: rest) :
    ((ts ++ us).takeWhile fun t => !isReserved t) = ts ∧
      ((ts ++ us).dropWhile fun t => !isReserved t) = us := by
  induction ts with
  | nil =>
    rcases hus with rfl | ⟨a, rest, rfl⟩
    · exact ⟨rfl, rfl⟩
    · exact ⟨rfl, rfl⟩
  | cons t ts ih =>
    obtain ⟨htake, hdrop⟩ := ih fun u hu => h u (List.mem_cons_of_mem _ hu)
    have ht : isReserved t = false := h t (List.mem_cons_self ..)
    refine ⟨?_, ?_⟩
    · rw [List.cons_append, List.takeWhile_cons, ht, htake]
      rfl
    · rw [List.cons_append, List.dropWhile_cons, ht, hdrop]
      rfl

theorem parseLimit_tokens (limit : Option ℕ) :
    parseLimit (limitTokens limit) = some (limit.map natText) := by
  cases limit with
  | none => rfl
  | some n => simp [limitTokens, parseLimit, wordAtom]

theorem limitTokens_reserved (limit : Option ℕ) :
    limitTokens limit = [] ∨ ∃ a rest, limitTokens limit = .reserved a :: rest := by
  cases limit with
  | none => exact Or.inl rfl
  | some n => exact Or.inr ⟨_, _, rfl⟩

theorem parse_plain (ts : List Token) (c : SoqlCond) (h : parse ts = some c) :
    ∀ t ∈ ts, isReserved t = false := by
  intro t ht
  cases t with
  | reserved a => exact absurd ht (parse_reserved ts c h a)
  | lpar | rpar | kwAnd | kwOr | kwNot | atom _ => rfl

/-- The shape of every statement that the extension sends. -/
def selectText (items object w : Text) (limit : Option ℕ) : Text :=
  "SELECT ".toList ++ items ++ " FROM ".toList ++ object ++
    (if w = [] then [] else " WHERE ".toList ++ w) ++ limitText limit

/-- A WHERE text and the condition that it holds; no text, no condition. -/
inductive WhereReads : Text → Option SoqlCond → Prop where
  | none : WhereReads [] none
  | some (w : Text) (c : SoqlCond) (h : parseCondition w = .some c) : WhereReads w (.some c)

theorem parseCondition_nil : parseCondition [] = none := rfl

theorem whereReads_ne_nil (w : Text) (c : SoqlCond) (h : parseCondition w = some c) : w ≠ [] := by
  intro heq
  subst heq
  rw [parseCondition_nil] at h
  cases h

def whereTokens (w : Text) : List Token :=
  if w = [] then [] else clauseToken "WHERE" :: (lex w).getD []

theorem where_tail (w : Text) (cond : Option SoqlCond) (limit : Option ℕ) (hw : WhereReads w cond) :
    TailReads ((if w = [] then [] else " WHERE ".toList ++ w) ++ limitText limit)
      (whereTokens w ++ limitTokens limit) := by
  cases hw with
  | none => exact limit_reads limit
  | some w c h =>
    have hne := whereReads_ne_nil w c h
    obtain ⟨ts, hlex, _⟩ := Option.bind_eq_some_iff.mp h
    have hwhere : lex "WHERE".toList = some [clauseToken "WHERE"] := by decide
    rw [whereTokens, if_neg hne, if_neg hne, hlex, Option.getD_some]
    refine Or.inr ⟨"WHERE".toList ++ ' ' :: (w ++ limitText limit), ?_, ?_⟩
    · exact List.append_assoc ..
    · have hrest := lex_tail w _ ts _ hlex (limit_reads limit)
      exact lex_space _ _ [clauseToken "WHERE"] _ hwhere hrest

theorem parse_tail (toks : List Token) (object w : Text) (cond : Option SoqlCond)
    (limit : Option ℕ) (hw : WhereReads w cond) :
    parseTail toks object (whereTokens w ++ limitTokens limit) =
      some ⟨toks, object, cond, limit.map natText⟩ := by
  cases hw with
  | none =>
    cases limit with
    | none => rfl
    | some n =>
      show (parseLimit (limitTokens (some n))).map _ = _
      rw [parseLimit_tokens]
      rfl
  | some w c h =>
    have hne := whereReads_ne_nil w c h
    obtain ⟨ts, hlex, hparse⟩ := Option.bind_eq_some_iff.mp h
    obtain ⟨htake, hdrop⟩ := takeWhile_reserved ts (limitTokens limit) (parse_plain ts c hparse)
      (limitTokens_reserved limit)
    rw [whereTokens, if_neg hne, hlex]
    simp [parseTail, htake, hdrop, hparse, parseLimit_tokens]

theorem lex_select (items object tail : Text) (toks tt : List Token)
    (hitems : lex items = some toks) (hobj : isBareToken object = true)
    (htail : TailReads tail tt) :
    lex ("SELECT ".toList ++ items ++ " FROM ".toList ++ object ++ tail) =
      some (clauseToken "SELECT" :: (toks ++ (clauseToken "FROM" :: wordAtom object :: tt))) := by
  have hsel : lex "SELECT".toList = some [clauseToken "SELECT"] := by decide
  have hfrom : lex "FROM".toList = some [clauseToken "FROM"] := by decide
  have hobject := lex_tail _ _ _ _ (lex_bare object hobj) htail
  have hall := lex_space _ _ _ _ hsel (lex_space _ _ _ _ hitems (lex_space _ _ _ _ hfrom hobject))
  simpa [wordAtom] using hall

theorem parse_selectText (items : Text) (toks : List Token) (object w : Text)
    (cond : Option SoqlCond) (limit : Option ℕ) (hitems : lex items = some toks)
    (hplain : ∀ t ∈ toks, isReserved t = false) (hobj : isBareToken object = true)
    (hw : WhereReads w cond) :
    parseSelect (selectText items object w limit) =
      some ⟨toks, object, cond, limit.map natText⟩ := by
  have htext := lex_select items object _ toks _ hitems hobj (where_tail w cond limit hw)
  obtain ⟨htake, hdrop⟩ := takeWhile_reserved toks (clauseToken "FROM" :: wordAtom object ::
    (whereTokens w ++ limitTokens limit)) hplain (Or.inr ⟨_, _, rfl⟩)
  unfold parseSelect selectText
  rw [List.append_assoc _ _ (limitText limit), htext, Option.bind_some]
  simp only [parseStatement, if_true, hdrop, htake]
  exact parse_tail toks object w cond limit hw

def itemTokens (items : List Text) : List Token := joinComma (items.map wordAtom)

theorem itemTokens_plain (items : List Text) : ∀ t ∈ itemTokens items, isReserved t = false := by
  intro t ht
  obtain ⟨a, rfl⟩ := joinComma_atoms (items.map wordAtom) (by
    intro u hu
    obtain ⟨w, _, rfl⟩ := List.mem_map.mp hu
    exact ⟨_, rfl⟩) t ht
  rfl

theorem parse_buildSelectSoql (object : Text) (items : List Text) (w : Text)
    (cond : Option SoqlCond) (limit : Option ℕ) (hobj : isBareToken object = true)
    (hitems : ∀ i ∈ items, isBareToken i = true) (hw : WhereReads w cond) :
    parseSelect (buildSelectSoql object items w limit) =
      some ⟨itemTokens items, object, cond, limit.map natText⟩ := by
  have hlist : lex (joinText ", ".toList items) = some (itemTokens items) := by
    have hall := lex_commas (items.map fun i => (i, wordAtom i)) (by
      intro p hp
      obtain ⟨i, hi, rfl⟩ := List.mem_map.mp hp
      exact lex_bare i (hitems i hi))
    simpa [List.map_map, Function.comp_def, itemTokens] using hall
  exact parse_selectText _ _ object w cond limit hlist (itemTokens_plain items) hobj hw

/-! ### The emitted WHERE -/

/-- The text reads as the conjunction of the trees of the pushed filters, alone
and inside a SELECT. -/
def ReadsBack (fields : List SalesforceField) (projectionToField : List ℕ) (filters : List Expr)
    (w : Text) : Prop :=
  parseCondition w = some (.mkAll ((whereClauses fields projectionToField filters).map clauseTree)) ∧
    ∀ (object : Text) (items : List Text) (limit : Option ℕ), isBareToken object = true →
      (∀ i ∈ items, isBareToken i = true) →
      parseSelect (buildSelectSoql object items w limit) =
        some ⟨itemTokens items, object,
          some (.mkAll ((whereClauses fields projectionToField filters).map clauseTree)),
          limit.map natText⟩

theorem mem_whereClauses (fields : List SalesforceField) (projectionToField : List ℕ)
    (filters : List Expr) (hshort : overlong fields projectionToField filters ≠ true) (c : Clause) :
    c ∈ whereClauses fields projectionToField filters ↔
      ∃ e ∈ filters, ∃ x, pushedClause fields projectionToField e = some (c, x) := by
  unfold whereClauses
  rw [if_neg hshort, List.mem_filterMap]
  constructor
  · intro h
    obtain ⟨e, he, hc⟩ := h
    obtain ⟨p, hp, rfl⟩ := Option.map_eq_some_iff.mp hc
    exact ⟨e, he, p.2, hp⟩
  · intro h
    obtain ⟨e, he, x, hc⟩ := h
    exact ⟨e, he, by rw [hc]; rfl⟩

theorem where_reads_back_iff (fields : List SalesforceField) (projectionToField : List ℕ)
    (filters : List Expr) (r : PushdownResult)
    (hfields : ∀ f ∈ fields, isBareToken f.name = true) (hfilled : ∀ e ∈ filters, e.Filled)
    (hrun : pushdownToSoql fields projectionToField filters = .ok r) (hne : r.outWhere ≠ []) :
    ReadsBack fields projectionToField filters r.outWhere ↔
      ∀ e ∈ filters, (pushedText fields projectionToField e).isSome = true →
        ∀ v ∈ e.literals, PlainLiteral v := by
  obtain ⟨hok, hr⟩ := pushdown_run fields projectionToField filters r hrun
  have htext := outWhere_clauses fields projectionToField filters r hrun
  have hshort : overlong fields projectionToField filters ≠ true := by
    intro hlong
    rw [if_pos hlong] at hr
    rw [hr] at hne
    exact hne rfl
  have hsome : whereClauses fields projectionToField filters ≠ [] := by
    intro hnil
    rw [hnil] at htext
    exact hne htext
  have hclause : ∀ e ∈ filters, ∀ c x, pushedClause fields projectionToField e = some (c, x) →
      ClauseParts fields e c := fun e he c x hc =>
    clause_parts fields projectionToField e c x
      (pushedClause_of_ok fields projectionToField e (c, x) (hok e he) hc)
  constructor
  · intro h e he hpushed
    obtain ⟨hparse, _⟩ := h
    rw [pushedText_written, Option.isSome_map, Option.isSome_iff_exists] at hpushed
    obtain ⟨⟨c, x⟩, hc⟩ := hpushed
    have hmem := (mem_whereClauses fields projectionToField filters hshort c).mpr ⟨e, he, x, hc⟩
    exact (hclause e he c x hc).plain.mpr (plain_of_parsed _ _ hparse c hmem)
  · intro hplain
    have hprintable : ∀ c ∈ whereClauses fields projectionToField filters, Printable c := by
      intro c hmem
      obtain ⟨e, he, x, hc⟩ := (mem_whereClauses fields projectionToField filters hshort c).mp hmem
      have hparts := hclause e he c x hc
      have hpushed : (pushedText fields projectionToField e).isSome = true := by
        rw [pushedText_written, hc]
        rfl
      refine hparts.printable (hfilled e he) ?_
      intro p hp
      obtain ⟨f, hf, hname⟩ := hparts.field p hp
      exact ⟨hname ▸ hfields f hf, hparts.plain.mp (hplain e he hpushed) p hp⟩
    have hparse := parse_clauses _ hsome hprintable
    rw [← htext] at hparse
    exact ⟨hparse, fun object items limit hobj hitems =>
      parse_buildSelectSoql object items r.outWhere _ limit hobj hitems (.some _ _ hparse)⟩

/-! ### A date before the common era -/

def dueFields : List SalesforceField := [.flat "Due__c".toList "date".toList .date true true]

def idesFilter : Expr :=
  .comparison .compareEqual (.columnRef 0)
    (.constant (.scalar .date (-735525) "0044-03-15 (BC)".toList))

/-- `Due__c = 0044-03-15 (BC)` does not read as a comparison with one date. -/
theorem bc_date_misread :
    ∃ r, pushdownToSoql dueFields [0] [idesFilter] = .ok r ∧
      r.outWhere = "Due__c = 0044-03-15 (BC)".toList ∧
      ¬ ReadsBack dueFields [0] [idesFilter] r.outWhere := by
  refine ⟨_, rfl, rfl, ?_⟩
  intro h
  obtain ⟨hparse, _⟩ := h
  have hread : parseCondition "Due__c = 0044-03-15 (BC)".toList =
      some (.leaf [wordAtom "Due__c".toList, .atom (.sym "=".toList), wordAtom "0044-03-15".toList,
        .lpar, wordAtom "BC".toList, .rpar]) := rfl
  have hlen := hread.symm.trans hparse
  have hleaf := Cond.leaf.inj (Option.some.inj hlen)
  exact absurd (congrArg List.length hleaf) (by decide)

def nameFields : List SalesforceField :=
  [.flat "Name".toList "string".toList .varchar true true]

/-- Quotes, backslashes and keywords in constants. -/
def quotedFilters : List Expr :=
  [.comparison .compareEqual (.columnRef 0)
      (.constant (.varchar "x' OR Name != '\\".toList)),
    .conjunction .conjunctionOr
      [.function "prefix".toList [.columnRef 0, .constant (.varchar ") AND (".toList)],
        .operator .operatorIsNull [.columnRef 0]]]

def quotedWhere : Text :=
  "Name = 'x\\' OR Name != \\'\\\\' AND (Name LIKE ') AND (%' OR Name = null)".toList

theorem quotedFilters_filled : ∀ e ∈ quotedFilters, e.Filled := by
  intro e he
  rcases List.mem_cons.mp he with rfl | he
  · exact .leaf _ (by simp)
  · rw [List.mem_singleton.mp he]
    refine .conjunction _ _ (by simp) ?_
    intro c hc
    rcases List.mem_cons.mp hc with rfl | hc
    · exact .leaf _ (by simp)
    · rw [List.mem_singleton.mp hc]
      exact .leaf _ (by simp)

theorem quotedFilters_plain : ∀ e ∈ quotedFilters, ∀ v ∈ e.literals, PlainLiteral v := by
  intro e he v hv
  rcases List.mem_cons.mp he with rfl | he
  · rw [List.mem_singleton.mp hv]
    trivial
  · rw [List.mem_singleton.mp he] at hv
    rw [List.mem_singleton.mp hv]
    trivial

theorem quoted_reads_back : ReadsBack nameFields [0] quotedFilters quotedWhere :=
  (where_reads_back_iff nameFields [0] quotedFilters ⟨quotedWhere, [quotedFilters[1]], [⟨true, true⟩,
    ⟨true, false⟩]⟩ (by decide) quotedFilters_filled rfl (by decide)).mpr
    fun e he _ => quotedFilters_plain e he

end DuckdbSalesforce
