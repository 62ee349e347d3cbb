import DuckdbSalesforce.Soql.Printed
import DuckdbSalesforce.Scan.BindData

/-!
# What the statements of a scan select

An org holds records, a record gives every predicate a truth value, and a
statement selects the records of its object whose condition is true. The row
query and COUNT() use the combined WHERE, Bulk the pushed part only, and the
combination is made of plain text.
-/

namespace DuckdbSalesforce
open ThreeValued CondGrammar

/-! ### Orgs -/

def idTokens (op : CompareOp) (s : Text) : Leaf Atom :=
  (Predicate.compare "Id".toList op (.varchar s)).tokens

/-- A record: its 18-character Id, which the service orders by bytes, and the
truth of every predicate on it. -/
structure SalesforceRecord where
  id : Text
  truth : Leaf Atom → Truth
  id_length : id.length = 18
  id_alnum : id.all isAlnum = true
  truth_id : ∀ op s, truth (idTokens op s) = .ofBool (op.holds id s)

structure Org where
  records : Text → List SalesforceRecord

def SalesforceRecord.meets (r : SalesforceRecord) (cond : Option SoqlCond) : Bool :=
  match cond with
  | none => true
  | some c => c.eval r.truth == .tt

/-- The record satisfies a WHERE text; a missing one is TRUE. -/
def SalesforceRecord.satisfies (r : SalesforceRecord) (w : Text) : Prop :=
  r.meets (parseCondition w) = true

def Org.selected (org : Org) (soql : Text) : List SalesforceRecord :=
  match parseSelect soql with
  | none => []
  | some st => (org.records st.object).filter fun r => r.meets st.condition

/-- A WHERE text that is missing or a condition. -/
def WellFormedWhere (w : Text) : Prop := WhereReads w (parseCondition w)

theorem wellFormedWhere_some (w : Text) (c : SoqlCond) (h : parseCondition w = some c) :
    WellFormedWhere w := by
  unfold WellFormedWhere
  rw [h]
  exact .some w c h

theorem wellFormedWhere_cases (w : Text) (h : WellFormedWhere w) :
    w = [] ∨ ∃ c, parseCondition w = some c := by
  unfold WellFormedWhere at h
  cases hc : parseCondition w with
  | some c => exact Or.inr ⟨c, rfl⟩
  | none =>
    rw [hc] at h
    cases h
    exact Or.inl rfl

def whereAlternatives (w : Text) : List (List SoqlCond) :=
  ((lex w).bind alternatives).getD []

theorem alternatives_of_condition (w : Text) (c : SoqlCond) (h : parseCondition w = some c) :
    ∃ ts, lex w = some ts ∧ alternatives ts = some (whereAlternatives w) ∧
      c = assemble (whereAlternatives w) ∧ whereAlternatives w ≠ [] := by
  obtain ⟨ts, hlex, hparse⟩ := Option.bind_eq_some_iff.mp h
  obtain ⟨alts, halts, hc⟩ := Option.map_eq_some_iff.mp hparse
  have hw : whereAlternatives w = alts := by
    rw [whereAlternatives, hlex, Option.bind_some, halts]
    rfl
  rw [hw]
  exact ⟨ts, hlex, halts, hc.symm,
    (alternatives_built (fun _ => True) ts alts (fun _ _ => trivial) halts).1⟩

theorem condition_of_alternatives (w : Text) (ts : List Token) (alts : List (List SoqlCond))
    (hlex : lex w = some ts) (h : alternatives ts = some alts) :
    parseCondition w = some (assemble alts) ∧ whereAlternatives w = alts := by
  constructor
  · rw [parseCondition, hlex, Option.bind_some, parse, h]
    rfl
  · rw [whereAlternatives, hlex, Option.bind_some, h]
    rfl

theorem assemble_true (v : Leaf Atom → Truth) (alts : List (List SoqlCond)) :
    (assemble alts).eval v = .tt ↔ ∃ fs ∈ alts, ∀ c ∈ fs, c.eval v = .tt := by
  unfold assemble
  rw [Cond.eval_mkAny_eq_tt]
  simp only [List.mem_map, exists_exists_and_eq_and, Cond.eval_mkAll_eq_tt]

def SalesforceRecord.meetsAll (r : SalesforceRecord) (fs : List SoqlCond) : Prop :=
  ∀ c ∈ fs, c.eval r.truth = .tt

theorem satisfies_nil (r : SalesforceRecord) : r.satisfies [] := rfl

theorem satisfies_some (r : SalesforceRecord) (w : Text) (c : SoqlCond)
    (h : parseCondition w = some c) : r.satisfies w ↔ c.eval r.truth = .tt := by
  unfold SalesforceRecord.satisfies SalesforceRecord.meets
  rw [h]
  exact beq_iff_eq

theorem satisfies_alternatives (r : SalesforceRecord) (w : Text) (c : SoqlCond)
    (h : parseCondition w = some c) :
    r.satisfies w ↔ ∃ fs ∈ whereAlternatives w, r.meetsAll fs := by
  obtain ⟨_, _, _, hc, _⟩ := alternatives_of_condition w c h
  rw [satisfies_some r w c h, hc]
  exact assemble_true r.truth _

theorem mem_selected (org : Org) (r : SalesforceRecord) (soql : Text) (st : SelectStatement)
    (h : parseSelect soql = some st) :
    r ∈ org.selected soql ↔ r ∈ org.records st.object ∧ r.meets st.condition = true := by
  unfold Org.selected
  rw [h]
  exact List.mem_filter

theorem mem_selected_where (org : Org) (r : SalesforceRecord) (items : Text) (toks : List Token)
    (object w : Text) (hitems : lex items = some toks) (hplain : ∀ t ∈ toks, isReserved t = false)
    (hobj : isBareToken object = true) (hw : WellFormedWhere w) :
    r ∈ org.selected (selectText items object w none) ↔
      r ∈ org.records object ∧ r.satisfies w := by
  have hparse := parse_selectText items toks object w _ none hitems hplain hobj hw
  exact mem_selected org r _ _ hparse

theorem mem_selected_build (org : Org) (r : SalesforceRecord) (object : Text) (items : List Text)
    (w : Text) (hitems : ∀ i ∈ items, isBareToken i = true) (hobj : isBareToken object = true)
    (hw : WellFormedWhere w) :
    r ∈ org.selected (buildSelectSoql object items w none) ↔
      r ∈ org.records object ∧ r.satisfies w := by
  have hparse := parse_buildSelectSoql object items w _ none hobj hitems hw
  exact mem_selected org r _ _ hparse

/-! ### The combined WHERE -/

/-- Joining two conditions as text glues the last alternative of the first to
the first alternative of the second. -/
theorem joined_alternatives (a b : Text) (A B : SoqlCond) (as : List (List SoqlCond))
    (fs : List SoqlCond) (gs : List SoqlCond) (bs : List (List SoqlCond))
    (hA : parseCondition a = some A) (hB : parseCondition b = some B)
    (has : whereAlternatives a = as ++ [fs]) (hbs : whereAlternatives b = gs :: bs) :
    parseCondition (a ++ " AND ".toList ++ b) = some (assemble (as ++ (fs ++ gs) :: bs)) ∧
      whereAlternatives (a ++ " AND ".toList ++ b) = as ++ (fs ++ gs) :: bs := by
  obtain ⟨ta, hla, haa, _, _⟩ := alternatives_of_condition a A hA
  obtain ⟨tb, hlb, hab, _, _⟩ := alternatives_of_condition b B hB
  have hlex : lex (a ++ " AND ".toList ++ b) = some (ta ++ .kwAnd :: tb) := by
    have hall := lex_space _ _ _ _ hla (lex_space _ _ _ _ lex_and hlb)
    simpa using hall
  have halts : alternatives (ta ++ .kwAnd :: tb) = some (as ++ (fs ++ gs) :: bs) := by
    rw [alternatives_and ta tb as fs (by rw [haa, has]), hab, hbs]
    rfl
  exact condition_of_alternatives _ _ _ hlex halts

def hasTopOr (w : Text) : Prop := 1 < (whereAlternatives w).length

theorem single_of_not_hasTopOr (w : Text) (hne : whereAlternatives w ≠ []) (h : ¬ hasTopOr w) :
    ∃ fs, whereAlternatives w = [fs] := by
  have hlen : (whereAlternatives w).length = 1 := by
    have hpos := List.length_pos_iff.mpr hne
    unfold hasTopOr at h
    omega
  exact List.length_eq_one_iff.mp hlen

theorem conjuncts_pos (w : Text) (c : SoqlCond) (h : parseCondition w = some c) :
    0 < c.conjuncts.length := by
  obtain ⟨ts, _, hparse⟩ := Option.bind_eq_some_iff.mp h
  have hbuilt : Built (fun _ => True) c := parse_built _ ts c (fun _ _ => trivial) hparse
  exact List.length_pos_iff.mpr (conjuncts_built _ c hbuilt)

/-- A condition with two alternatives has one factor, itself. -/
theorem conjuncts_any (alts : List (List SoqlCond)) (h : 1 < alts.length) :
    (assemble alts).conjuncts.length = 1 := by
  match alts, h with
  | x :: y :: rest, _ => rfl

/-- What keeps the factors of both sides has no alternatives on either. -/
theorem singles_of_conjuncts (a b : Text) (A B : SoqlCond) (as : List (List SoqlCond))
    (fs gs : List SoqlCond) (bs : List (List SoqlCond)) (hA : parseCondition a = some A)
    (hB : parseCondition b = some B) (has : whereAlternatives a = as ++ [fs])
    (hbs : whereAlternatives b = gs :: bs)
    (hconj : (assemble (as ++ (fs ++ gs) :: bs)).conjuncts = A.conjuncts ++ B.conjuncts) :
    ¬ hasTopOr a ∧ ¬ hasTopOr b := by
  have hApos := conjuncts_pos a A hA
  have hBpos := conjuncts_pos b B hB
  have hlength := congrArg List.length hconj
  rw [List.length_append] at hlength
  have hone : ¬ 1 < (as ++ (fs ++ gs) :: bs).length := by
    intro hmany
    rw [conjuncts_any _ hmany] at hlength
    omega
  rw [hasTopOr, hasTopOr, has, hbs]
  simp only [List.length_append, List.length_cons, List.length_nil] at hone ⊢
  omega

/-- Without alternatives the factors stand side by side. -/
theorem joined_single (fs gs : List SoqlCond) :
    (assemble [fs ++ gs]).conjuncts = (assemble [fs]).conjuncts ++ (assemble [gs]).conjuncts ∧
      ∀ v : Leaf Atom → Truth, (assemble [fs ++ gs]).eval v = .tt ↔
        (assemble [fs]).eval v = .tt ∧ (assemble [gs]).eval v = .tt := by
  rw [assemble_single, assemble_single, assemble_single]
  refine ⟨?_, ?_⟩
  · rw [Cond.conjuncts_mkAll, Cond.conjuncts_mkAll, Cond.conjuncts_mkAll, List.flatMap_append]
  · intro v
    rw [Cond.eval_mkAll_eq_tt, Cond.eval_mkAll_eq_tt, Cond.eval_mkAll_eq_tt]
    exact List.forall_mem_append

theorem raw_filter_unit_iff (bind : SalesforceScanBindData) (P R : SoqlCond)
    (hP : parseCondition bind.pushedWhere = some P) (hR : parseCondition bind.rawWhere = some R) :
    (∃ Q, parseCondition (combinedWhere bind) = some Q ∧
        Q.conjuncts = P.conjuncts ++ R.conjuncts ∧
        ∀ v : Leaf Atom → Truth, Q.eval v = .tt ↔ P.eval v = .tt ∧ R.eval v = .tt) ↔
      ¬ hasTopOr bind.pushedWhere ∧ ¬ hasTopOr bind.rawWhere := by
  obtain ⟨_, _, _, hPa, hPne⟩ := alternatives_of_condition _ P hP
  obtain ⟨_, _, _, hRa, hRne⟩ := alternatives_of_condition _ R hR
  have hcombined : combinedWhere bind = bind.pushedWhere ++ " AND ".toList ++ bind.rawWhere := by
    unfold combinedWhere
    rw [if_neg (whereReads_ne_nil _ R hR), if_neg (whereReads_ne_nil _ P hP)]
  rw [hcombined]
  constructor
  · intro hgiven
    obtain ⟨Q, hQ', hconj, _⟩ := hgiven
    obtain ⟨as, fs, has⟩ : ∃ as fs, whereAlternatives bind.pushedWhere = as ++ [fs] :=
      ⟨_, _, (List.dropLast_append_getLast hPne).symm⟩
    obtain ⟨gs, bs, hbs⟩ := List.exists_cons_of_ne_nil hRne
    obtain ⟨hQ, _⟩ := joined_alternatives _ _ P R as fs gs bs hP hR has hbs
    rw [hQ, Option.some.injEq] at hQ'
    rw [← hQ'] at hconj
    exact singles_of_conjuncts _ _ P R as fs gs bs hP hR has hbs hconj
  · intro hgiven
    obtain ⟨fs, hfs⟩ := single_of_not_hasTopOr _ hPne hgiven.1
    obtain ⟨gs, hgs⟩ := single_of_not_hasTopOr _ hRne hgiven.2
    obtain ⟨hQ, _⟩ := joined_alternatives _ _ P R [] fs gs [] hP hR hfs hgs
    rw [hPa, hRa, hfs, hgs]
    exact ⟨_, hQ, joined_single fs gs⟩

def pushedIndustry : SoqlCond :=
  .leaf [wordAtom "Industry".toList, .atom (.sym "=".toList), .atom (.str "Tech".toList)]

def ratingIs (s : String) : SoqlCond :=
  .leaf [wordAtom "Rating".toList, .atom (.sym "=".toList), .atom (.str s.toList)]

def scanFields : List SalesforceField :=
  [.flat "Id".toList "id".toList .varchar true true,
    .flat "Rating".toList "picklist".toList .varchar true true]

def scanBind (object pushedWhere rawWhere : String) : SalesforceScanBindData :=
  ⟨object.toList, scanFields, pushedWhere.toList, rawWhere.toList, 0, []⟩

/-- `p AND a OR b` fetches the records of `b` outside of `p`. -/
theorem raw_or_escapes :
    ∃ P R,
      parseCondition (scanBind "Account" "Industry = 'Tech'"
        "Rating = 'Hot' OR Rating = 'Warm'").pushedWhere = some P ∧
      parseCondition (scanBind "Account" "Industry = 'Tech'"
        "Rating = 'Hot' OR Rating = 'Warm'").rawWhere = some R ∧
      ¬ ∃ Q, parseCondition (combinedWhere (scanBind "Account" "Industry = 'Tech'"
          "Rating = 'Hot' OR Rating = 'Warm'")) = some Q ∧
        Q.conjuncts = P.conjuncts ++ R.conjuncts ∧
        ∀ v : Leaf Atom → Truth, Q.eval v = .tt ↔ P.eval v = .tt ∧ R.eval v = .tt := by
  refine ⟨pushedIndustry, .any [ratingIs "Hot", ratingIs "Warm"], rfl, rfl, ?_⟩
  intro h
  obtain ⟨Q, hQ, _, htruth⟩ := h
  have hread : parseCondition (combinedWhere (scanBind "Account" "Industry = 'Tech'"
      "Rating = 'Hot' OR Rating = 'Warm'")) =
      some (.any [.all [pushedIndustry, ratingIs "Hot"], ratingIs "Warm"]) := rfl
  rw [hread, Option.some.injEq] at hQ
  rw [← hQ] at htruth
  have hwarm := (htruth fun leaf => if leaf = [wordAtom "Rating".toList, .atom (.sym "=".toList),
    .atom (.str "Warm".toList)] then .tt else .ff).mp (by decide)
  exact absurd hwarm.1 (by decide)

theorem raw_group_joins :
    ∃ Q, parseCondition (combinedWhere (scanBind "Account" "Industry = 'Tech'"
        "(Rating = 'Hot' OR Rating = 'Warm')")) = some Q ∧
      Q.conjuncts = pushedIndustry.conjuncts ++
        (Cond.any [ratingIs "Hot", ratingIs "Warm"]).conjuncts ∧
      ∀ v : Leaf Atom → Truth, Q.eval v = .tt ↔
        pushedIndustry.eval v = .tt ∧ (Cond.any [ratingIs "Hot", ratingIs "Warm"]).eval v = .tt :=
  (raw_filter_unit_iff (scanBind "Account" "Industry = 'Tech'"
    "(Rating = 'Hot' OR Rating = 'Warm')") pushedIndustry
    (.any [ratingIs "Hot", ratingIs "Warm"]) rfl rfl).mpr
      ⟨Nat.lt_irrefl 1, Nat.lt_irrefl 1⟩

/-! ### The Bulk chunks -/

theorem soqlEscape_alnum (s : Text) (h : s.all isAlnum = true) : soqlEscape s = s := by
  induction s with
  | nil => rfl
  | cons c s ih =>
    simp only [List.all_cons, Bool.and_eq_true] at h
    have hc : ¬ (c = '\\' ∨ c = '\'') := by
      intro hor
      rcases hor with rfl | rfl
      · exact absurd h.1 (by decide)
      · exact absurd h.1 (by decide)
    rw [soqlEscape, if_neg hc, ih h.2]

def IdRange.clauses (r : IdRange) : List Clause :=
  [.leaf (.compare "Id".toList .ge (.varchar r.lo)),
    .leaf (.compare "Id".toList (if r.last then .le else .lt) (.varchar r.hi))]

theorem idRange_text (r : IdRange) (hlo : r.lo.all isAlnum = true) (hhi : r.hi.all isAlnum = true) :
    r.text = joinText " AND ".toList (r.clauses.map clauseText) := by
  unfold IdRange.text IdRange.clauses
  cases r.last <;>
    simp [joinText, clauseText_leaf, Predicate.text, CompareOp.text, literalText, soqlLiteral,
      soqlString, soqlEscape_alnum, hlo, hhi]

theorem idRange_condition (r : IdRange) (hlo : r.lo.all isAlnum = true)
    (hhi : r.hi.all isAlnum = true) :
    parseCondition r.text = some (.mkAll (r.clauses.map clauseTree)) := by
  rw [idRange_text r hlo hhi]
  refine parse_clauses _ (by simp [IdRange.clauses]) ?_
  intro c hc
  have hplain : ∀ (op : CompareOp) (s : Text),
      (Predicate.compare "Id".toList op (.varchar s)).Plain := by
    intro op s
    refine ⟨?_, ?_⟩
    · show isBareToken "Id".toList = true
      decide
    · intro v hv
      rw [List.mem_singleton.mp hv]
      trivial
  rcases List.mem_cons.mp hc with rfl | hc
  · exact .leaf _ (hplain _ _)
  · rw [List.mem_singleton.mp hc]
    exact .leaf _ (hplain _ _)

/-- The truth of every comparison with the Id is that of an Id. -/
def ComparesId (truth : Leaf Atom → Truth) (x : Text) : Prop :=
  ∀ op s, truth (idTokens op s) = .ofBool (op.holds x s)

theorem range_eval (truth : Leaf Atom → Truth) (x : Text) (g : IdRange)
    (h : ComparesId truth x) :
    (Cond.mkAll (g.clauses.map clauseTree)).eval truth = .tt ↔ g.contains x := by
  have hleaf : ∀ op s, (clauseTree (.leaf (.compare "Id".toList op (.varchar s)))).eval truth =
      .ofBool (op.holds x s) := fun op s => h op s
  rw [Cond.eval_mkAll_eq_tt]
  simp only [IdRange.clauses, List.map_cons, List.map_nil, List.forall_mem_cons, hleaf,
    Truth.ofBool_eq_tt, IdRange.contains]
  cases g.last <;> simp [CompareOp.holds]

theorem satisfies_range (r : SalesforceRecord) (g : IdRange) (hlo : g.lo.all isAlnum = true)
    (hhi : g.hi.all isAlnum = true) : r.satisfies g.text ↔ g.contains r.id := by
  rw [satisfies_some r _ _ (idRange_condition g hlo hhi)]
  exact range_eval r.truth r.id g r.truth_id

/-- Two conditions in parentheses of their own are kept apart. -/
theorem parse_units (a b : Text) (A B : SoqlCond) (hA : parseCondition a = some A)
    (hB : parseCondition b = some B) :
    parseCondition ("(".toList ++ a ++ ") AND (".toList ++ b ++ ")".toList) =
      some (.all [A, B]) := by
  obtain ⟨ta, hla, haa, hAc, _⟩ := alternatives_of_condition a A hA
  obtain ⟨tb, hlb, hab, hBc, _⟩ := alternatives_of_condition b B hB
  have hlex := lex_space _ _ _ _ (lex_parens a ta hla) (lex_space _ _ _ _ lex_and
    (lex_parens b tb hlb))
  have halts := alternatives_joinAnd
    [(.lpar :: ta ++ [.rpar], assemble (whereAlternatives a)),
      (.lpar :: tb ++ [.rpar], assemble (whereAlternatives b))] (by simp) (by
    intro p hp
    rcases List.mem_cons.mp hp with rfl | hp
    · exact operand_group ta _ haa
    · rw [List.mem_singleton.mp hp]
      exact operand_group tb _ hab)
  have hparse := (condition_of_alternatives _ _ _ hlex (by simpa [joinTok] using halts)).1
  rw [hAc, hBc]
  simpa [assemble_single, Cond.mkAll] using hparse

theorem satisfies_chunk (r : SalesforceRecord) (pushed : Text) (g : IdRange)
    (hw : WellFormedWhere pushed) (hlo : g.lo.all isAlnum = true) (hhi : g.hi.all isAlnum = true) :
    WellFormedWhere (combineRange pushed g.text) ∧
      (r.satisfies (combineRange pushed g.text) ↔ r.satisfies pushed ∧ g.contains r.id) := by
  have hrange := idRange_condition g hlo hhi
  unfold combineRange
  by_cases hp : pushed = []
  · rw [if_pos hp, hp]
    exact ⟨wellFormedWhere_some _ _ hrange, by
      rw [satisfies_range r g hlo hhi]
      exact (and_iff_right (satisfies_nil r)).symm⟩
  · rw [if_neg hp]
    obtain ⟨P, hP⟩ := (wellFormedWhere_cases pushed hw).resolve_left hp
    have hunits := parse_units pushed g.text P _ hP hrange
    refine ⟨wellFormedWhere_some _ _ hunits, ?_⟩
    rw [satisfies_some r _ _ hunits, satisfies_some r _ P hP, ← satisfies_range r g hlo hhi,
      satisfies_some r _ _ hrange, Cond.eval_all_eq_tt, List.forall_mem_cons,
      List.forall_mem_singleton]

/-- MIN(Id) and MAX(Id) are answered for the WHERE they were asked with. -/
def MinMaxCorrect (org : Org) (answer : Text → Option (Text × Text)) (object w : Text) : Prop :=
  ∀ mn mx, answer (minMaxSoql object w) = some (mn, mx) →
    (∃ r ∈ org.records object, r.satisfies w ∧ r.id = mn) ∧
    (∃ r ∈ org.records object, r.satisfies w ∧ r.id = mx) ∧
    ∀ r ∈ org.records object, r.satisfies w → mn ≤ r.id ∧ r.id ≤ mx

theorem tryMinMaxId_some (answer : Text → Option (Text × Text)) (object w mn mx : Text)
    (h : tryMinMaxId answer object w = some (mn, mx)) :
    answer (minMaxSoql object w) = some (mn, mx) ∧ mn < mx := by
  unfold tryMinMaxId at h
  cases ha : answer (minMaxSoql object w) with
  | none => simp [ha] at h
  | some p =>
    obtain ⟨a, b⟩ := p
    simp only [ha] at h
    split at h
    · cases h
    · split at h
      · rename_i hlt
        cases h
        exact ⟨rfl, hlt⟩
      · cases h

/-- Bind data of a scan: names of SOQL, conditions of SOQL, and a pushed part
without a top-level OR, as the pushdown builds it. -/
structure ScanWellFormed (bind : SalesforceScanBindData) (columnIds : List ℕ) : Prop where
  object : isBareToken bind.object = true
  items : ∀ i ∈ selectFields bind columnIds, isBareToken i = true
  pushed : WellFormedWhere bind.pushedWhere
  pushedUnit : ¬ hasTopOr bind.pushedWhere
  raw : WellFormedWhere bind.rawWhere

/-- The chunks of a Bulk scan together select the pushed part. -/
theorem bulk_selects (org : Org) (bind : SalesforceScanBindData) (columnIds : List ℕ)
    (answer : Text → Option (Text × Text)) (chunks : ℤ) (hb : ScanWellFormed bind columnIds)
    (hmm : MinMaxCorrect org answer bind.object bind.pushedWhere) (r : SalesforceRecord) :
    (∃ soql ∈ bulkChunkSoqls bind answer chunks columnIds, r ∈ org.selected soql) ↔
      r ∈ org.records bind.object ∧ r.satisfies bind.pushedWhere := by
  have hsoql : (∃ soql ∈ bulkChunkSoqls bind answer chunks columnIds, r ∈ org.selected soql) ↔
      ∃ w ∈ bulkWheres bind answer chunks,
        r ∈ org.selected (buildSelectSoql bind.object (selectFields bind columnIds) w none) := by
    simp only [bulkChunkSoqls, List.mem_map, exists_exists_and_eq_and]
  have hsingle : (∃ w ∈ [bind.pushedWhere],
        r ∈ org.selected (buildSelectSoql bind.object (selectFields bind columnIds) w none)) ↔
      r ∈ org.records bind.object ∧ r.satisfies bind.pushedWhere := by
    rw [← mem_selected_build org r bind.object _ bind.pushedWhere hb.items hb.object hb.pushed]
    simp
  rw [hsoql]
  unfold bulkWheres
  by_cases hmany : chunkCount chunks > 1
  · rw [if_pos hmany]
    cases htry : tryMinMaxId answer bind.object bind.pushedWhere with
    | none => exact hsingle
    | some p =>
      obtain ⟨mn, mx⟩ := p
      obtain ⟨hans, hlt⟩ := tryMinMaxId_some _ _ _ _ _ htry
      obtain ⟨⟨rmn, _, _, hmn⟩, ⟨rmx, _, _, hmx⟩, hbounds⟩ := hmm mn mx hans
      have hmna : mn.all isAlnum = true := hmn ▸ rmn.id_alnum
      have hmxa : mx.all isAlnum = true := hmx ▸ rmx.id_alnum
      have hlen : mn.length = mx.length := by rw [← hmn, ← hmx, rmn.id_length, rmx.id_length]
      have hcover := fun x => idRanges_cover mn mx (chunkCount chunks) hlen hmna hmxa hlt
        (chunkCount_bounds chunks).1 (chunkCount_bounds chunks).2 x
      have halnum := idRanges_alnum mn mx (chunkCount chunks) hmna hmxa
      have hne : buildIdRangeWheres bind.pushedWhere mn mx (chunkCount chunks) ≠ [] := by
        intro hnil
        obtain ⟨g, hg, _⟩ := hcover mn (le_refl _) (le_of_lt hlt)
        rw [List.map_eq_nil_iff.mp hnil] at hg
        cases hg
      simp only [hne, if_false]
      constructor
      · intro h
        obtain ⟨w, hw, hr⟩ := h
        obtain ⟨g, hg, rfl⟩ := List.mem_map.mp hw
        obtain ⟨hlo, hhi⟩ := halnum g hg
        obtain ⟨hwf, hsat⟩ := satisfies_chunk r bind.pushedWhere g hb.pushed hlo hhi
        obtain ⟨hrec, hr⟩ :=
          (mem_selected_build org r bind.object _ _ hb.items hb.object hwf).mp hr
        exact ⟨hrec, (hsat.mp hr).1⟩
      · intro h
        obtain ⟨hrec, hr⟩ := h
        obtain ⟨hlow, hhigh⟩ := hbounds r hrec hr
        obtain ⟨g, hg, hc⟩ := hcover r.id hlow hhigh
        obtain ⟨hlo, hhi⟩ := halnum g hg
        obtain ⟨hwf, hsat⟩ := satisfies_chunk r bind.pushedWhere g hb.pushed hlo hhi
        exact ⟨_, List.mem_map_of_mem hg,
          (mem_selected_build org r bind.object _ _ hb.items hb.object hwf).mpr
            ⟨hrec, hsat.mpr ⟨hr, hc⟩⟩⟩
  · rw [if_neg hmany]
    exact hsingle

/-! ### The transports compared -/

/-- The first alternative of a raw filter is joined to the pushed part, the
later ones stand beside it. -/
theorem and_or_absorb (p a b : Prop) : p ∧ a ∨ b ↔ p ∧ (a ∨ b) ∨ b := by
  constructor
  · intro h
    rcases h with ⟨hp, ha⟩ | hb
    · exact Or.inl ⟨hp, Or.inl ha⟩
    · exact Or.inr hb
  · intro h
    rcases h with ⟨hp, ha | hb⟩ | hb
    · exact Or.inl ⟨hp, ha⟩
    · exact Or.inr hb
    · exact Or.inr hb

theorem satisfies_combined (bind : SalesforceScanBindData) (hp : WellFormedWhere bind.pushedWhere)
    (hunit : ¬ hasTopOr bind.pushedWhere) (hr : WellFormedWhere bind.rawWhere)
    (r : SalesforceRecord) :
    WellFormedWhere (combinedWhere bind) ∧
      (r.satisfies (combinedWhere bind) ↔
        (r.satisfies bind.pushedWhere ∧ r.satisfies bind.rawWhere) ∨
          ∃ fs ∈ (whereAlternatives bind.rawWhere).tail, r.meetsAll fs) := by
  unfold combinedWhere
  by_cases hraw : bind.rawWhere = []
  · rw [if_pos hraw, hraw]
    have hnone : (whereAlternatives []).tail = [] := rfl
    refine ⟨hp, ?_⟩
    rw [hnone]
    simp [satisfies_nil]
  · obtain ⟨R, hR⟩ := (wellFormedWhere_cases _ hr).resolve_left hraw
    obtain ⟨_, _, _, _, hRne⟩ := alternatives_of_condition _ R hR
    obtain ⟨gs, bs, hbs⟩ := List.exists_cons_of_ne_nil hRne
    have hRsat : r.satisfies bind.rawWhere ↔ r.meetsAll gs ∨ ∃ fs ∈ bs, r.meetsAll fs := by
      rw [satisfies_alternatives r _ R hR, hbs, List.exists_mem_cons_iff]
    rw [if_neg hraw, hRsat, hbs, List.tail_cons]
    by_cases hpushed : bind.pushedWhere = []
    · rw [if_pos hpushed, hpushed, hRsat]
      refine ⟨hr, ?_⟩
      rw [← and_or_absorb, and_iff_right (satisfies_nil r)]
    · obtain ⟨P, hP⟩ := (wellFormedWhere_cases _ hp).resolve_left hpushed
      obtain ⟨_, _, _, _, hPne⟩ := alternatives_of_condition _ P hP
      obtain ⟨fs, hfs⟩ := single_of_not_hasTopOr _ hPne hunit
      obtain ⟨hQ, hQa⟩ := joined_alternatives _ _ P R [] fs gs bs hP hR hfs hbs
      have hPsat : r.satisfies bind.pushedWhere ↔ r.meetsAll fs := by
        rw [satisfies_alternatives r _ P hP, hfs]
        simp
      have happ : r.meetsAll (fs ++ gs) ↔ r.meetsAll fs ∧ r.meetsAll gs :=
        List.forall_mem_append
      rw [if_neg hpushed, satisfies_alternatives r _ _ hQ, hQa, List.nil_append,
        List.exists_mem_cons_iff, happ, hPsat]
      exact ⟨wellFormedWhere_some _ _ hQ, and_or_absorb _ _ _⟩

def Wanted (org : Org) (bind : SalesforceScanBindData) (r : SalesforceRecord) : Prop :=
  r ∈ org.records bind.object ∧ r.satisfies bind.pushedWhere ∧ r.satisfies bind.rawWhere

/-- Row query, COUNT() and Bulk, in one chunk or several, select what is wanted. -/
def TransportsAgree (org : Org) (bind : SalesforceScanBindData) (columnIds : List ℕ)
    (answer : Text → Option (Text × Text)) : Prop :=
  ∀ r, (r ∈ org.selected (rowSoql bind columnIds) ↔ Wanted org bind r) ∧
    (r ∈ org.selected (countSoql bind) ↔ Wanted org bind r) ∧
    ∀ chunks, (∃ soql ∈ bulkChunkSoqls bind answer chunks columnIds, r ∈ org.selected soql) ↔
      Wanted org bind r

/-- The raw filter drops no record of the pushed part, and its later
alternatives reach no record outside of it. -/
def RawRedundant (org : Org) (bind : SalesforceScanBindData) : Prop :=
  ∀ r ∈ org.records bind.object,
    (r.satisfies bind.pushedWhere → r.satisfies bind.rawWhere) ∧
      ∀ fs ∈ (whereAlternatives bind.rawWhere).tail, r.meetsAll fs → r.satisfies bind.pushedWhere

theorem rawRedundant_of_no_raw (org : Org) (bind : SalesforceScanBindData)
    (h : bind.rawWhere = []) : RawRedundant org bind := by
  intro r _
  rw [h]
  have hnone : (whereAlternatives []).tail = [] := rfl
  rw [hnone]
  exact ⟨fun _ => satisfies_nil r, by simp⟩

theorem appendWhere_selectText (items object w : Text) :
    appendWhere ("SELECT ".toList ++ items ++ " FROM ".toList ++ object) w =
      selectText items object w none := by
  unfold appendWhere selectText limitText
  rw [List.append_nil]
  by_cases hw : w = []
  · rw [if_pos hw, if_pos hw, List.append_nil]
  · rw [if_neg hw, if_neg hw, List.append_assoc _ (" WHERE ".toList) w]

theorem countSoql_eq (bind : SalesforceScanBindData) :
    countSoql bind = selectText "COUNT()".toList bind.object (combinedWhere bind) none :=
  appendWhere_selectText "COUNT()".toList bind.object (combinedWhere bind)

/-- The pushed part alone and the combined WHERE select the same records
exactly when the raw filter is redundant. -/
theorem combined_eq_pushed_iff (org : Org) (bind : SalesforceScanBindData)
    (hp : WellFormedWhere bind.pushedWhere) (hunit : ¬ hasTopOr bind.pushedWhere)
    (hr : WellFormedWhere bind.rawWhere) :
    (∀ r ∈ org.records bind.object,
        (r.satisfies bind.pushedWhere ↔ r.satisfies (combinedWhere bind))) ↔
      RawRedundant org bind := by
  have hlater : ∀ r : SalesforceRecord,
      (∃ fs ∈ (whereAlternatives bind.rawWhere).tail, r.meetsAll fs) →
        r.satisfies bind.rawWhere := by
    intro r hgiven
    obtain ⟨fs, hfs, hmeets⟩ := hgiven
    rcases wellFormedWhere_cases _ hr with hraw | ⟨R, hR⟩
    · rw [hraw]
      exact satisfies_nil r
    · rw [satisfies_alternatives r _ R hR]
      exact ⟨fs, List.mem_of_mem_tail hfs, hmeets⟩
  constructor
  · intro h r hmem
    obtain ⟨_, hc⟩ := satisfies_combined bind hp hunit hr r
    have hiff := (h r hmem).trans hc
    refine ⟨?_, fun fs hfs hm => hiff.mpr (Or.inr ⟨fs, hfs, hm⟩)⟩
    intro hpr
    rcases hiff.mp hpr with hboth | hex
    · exact hboth.2
    · exact hlater r hex
  · intro h r hmem
    obtain ⟨_, hc⟩ := satisfies_combined bind hp hunit hr r
    obtain ⟨hdrop, hreach⟩ := h r hmem
    rw [hc]
    constructor
    · intro hpr
      exact Or.inl ⟨hpr, hdrop hpr⟩
    · intro hor
      rcases hor with hboth | ⟨fs, hfs, hm⟩
      · exact hboth.1
      · exact hreach fs hfs hm

theorem mem_selected_row (org : Org) (bind : SalesforceScanBindData) (columnIds : List ℕ)
    (r : SalesforceRecord) (hb : ScanWellFormed bind columnIds) :
    r ∈ org.selected (rowSoql bind columnIds) ↔
      r ∈ org.records bind.object ∧ r.satisfies (combinedWhere bind) :=
  mem_selected_build org r bind.object _ _ hb.items hb.object
    (satisfies_combined bind hb.pushed hb.pushedUnit hb.raw r).1

theorem transports_agree_iff (org : Org) (bind : SalesforceScanBindData) (columnIds : List ℕ)
    (answer : Text → Option (Text × Text)) (hb : ScanWellFormed bind columnIds)
    (hmm : MinMaxCorrect org answer bind.object bind.pushedWhere) :
    TransportsAgree org bind columnIds answer ↔ RawRedundant org bind := by
  have hrow : ∀ r, r ∈ org.selected (rowSoql bind columnIds) ↔
      r ∈ org.records bind.object ∧ r.satisfies (combinedWhere bind) := fun r =>
    mem_selected_row org bind columnIds r hb
  have hcount : ∀ r, r ∈ org.selected (countSoql bind) ↔
      r ∈ org.records bind.object ∧ r.satisfies (combinedWhere bind) := by
    intro r
    rw [countSoql_eq]
    exact mem_selected_where org r "COUNT()".toList
      [wordAtom "COUNT".toList, .lpar, .rpar] bind.object _ (by decide) (by decide) hb.object
      (satisfies_combined bind hb.pushed hb.pushedUnit hb.raw r).1
  have hbulk := fun chunks r => bulk_selects org bind columnIds answer chunks hb hmm r
  constructor
  · intro h
    rw [← combined_eq_pushed_iff org bind hb.pushed hb.pushedUnit hb.raw]
    intro r hmem
    obtain ⟨hr, _, hbk⟩ := h r
    have hsame := ((hbulk 1 r).symm.trans (hbk 1)).trans (hr.symm.trans (hrow r))
    exact ⟨fun hp => (hsame.mp ⟨hmem, hp⟩).2, fun hc => (hsame.mpr ⟨hmem, hc⟩).2⟩
  · intro h r
    have hsame := (combined_eq_pushed_iff org bind hb.pushed hb.pushedUnit hb.raw).mpr h
    have hpushed : (r ∈ org.records bind.object ∧ r.satisfies bind.pushedWhere) ↔
        Wanted org bind r := by
      constructor
      · intro hgiven
        obtain ⟨hmem, hp⟩ := hgiven
        exact ⟨hmem, hp, (h r hmem).1 hp⟩
      · intro hgiven
        obtain ⟨hmem, hp, _⟩ := hgiven
        exact ⟨hmem, hp⟩
    have hall : (r ∈ org.records bind.object ∧ r.satisfies (combinedWhere bind)) ↔
        Wanted org bind r := by
      rw [← hpushed]
      exact and_congr_right fun hmem => (hsame r hmem).symm
    exact ⟨(hrow r).trans hall, (hcount r).trans hall, fun chunks => (hbulk chunks r).trans hpushed⟩

/-! ### An account with a raw filter -/

def readOp (t : Text) : Option CompareOp :=
  [CompareOp.eq, .ne, .lt, .gt, .le, .ge].find? fun op => op.text == t

def idTest : Leaf Atom → Option (CompareOp × Text)
  | [.atom (.word f), .atom (.sym o), .atom (.str s)] =>
    if f = "Id".toList then (readOp o).map fun op => (op, s) else none
  | _ => none

theorem idTest_tokens (op : CompareOp) (s : Text) : idTest (idTokens op s) = some (op, s) := by
  cases op <;> rfl

/-- A record with this Id whose other predicates are as given. -/
def SalesforceRecord.of (id : String) (hlen : id.toList.length = 18)
    (halnum : id.toList.all isAlnum = true) (other : Leaf Atom → Truth) : SalesforceRecord where
  id := id.toList
  truth leaf := match idTest leaf with
    | some (op, s) => .ofBool (op.holds id.toList s)
    | none => other leaf
  id_length := hlen
  id_alnum := halnum
  truth_id op s := by simp only [idTest_tokens]

def coldAccount : SalesforceRecord :=
  .of "001D000000IRFmaIAH" (by decide) (by decide) fun _ => .ff

def coldOrg : Org := ⟨fun _ => [coldAccount]⟩

/-- A Bulk scan forgets the raw filter and returns the account it excludes. -/
theorem bulk_forgets_raw :
    ¬ TransportsAgree coldOrg (scanBind "Account" "" "Rating = 'Hot'") [0, 1] fun _ => none := by
  intro h
  have hbulk := ((h coldAccount).2.2 1).mp ⟨"SELECT Id, Rating FROM Account".toList,
    List.mem_singleton_self _, List.mem_singleton_self _⟩
  have hraw : coldAccount.meets (parseCondition "Rating = 'Hot'".toList) = true := hbulk.2.2
  exact absurd hraw (by decide)

def warmAccount : SalesforceRecord :=
  .of "001D000000IRFmbIAH" (by decide) (by decide) fun _ => .tt

def hotAccount : SalesforceRecord :=
  .of "001D000000IRGzzIAH" (by decide) (by decide) fun _ => .tt

def warmOrg : Org := ⟨fun _ => [coldAccount, warmAccount, hotAccount]⟩

def warmAnswer (soql : Text) : Option (Text × Text) :=
  if soql = "SELECT MIN(Id) mn, MAX(Id) mx FROM Account WHERE Industry = 'Tech'".toList then
    some (warmAccount.id, hotAccount.id)
  else none

theorem warmAnswer_correct :
    MinMaxCorrect warmOrg warmAnswer "Account".toList "Industry = 'Tech'".toList := by
  intro mn mx h
  have hans : warmAnswer (minMaxSoql "Account".toList "Industry = 'Tech'".toList) =
      some (warmAccount.id, hotAccount.id) := rfl
  rw [hans] at h
  cases h
  have hwarm : warmAccount.satisfies "Industry = 'Tech'".toList := rfl
  have hhot : hotAccount.satisfies "Industry = 'Tech'".toList := rfl
  refine ⟨⟨warmAccount, by simp [warmOrg], hwarm, rfl⟩, ⟨hotAccount, by simp [warmOrg], hhot, rfl⟩,
    ?_⟩
  intro r hr hsat
  simp only [warmOrg, List.mem_cons, List.not_mem_nil, or_false] at hr
  rcases hr with rfl | rfl | rfl
  · have hcold : coldAccount.meets (parseCondition "Industry = 'Tech'".toList) = true := hsat
    exact absurd hcold (by decide)
  · exact ⟨by decide, by decide⟩
  · exact ⟨by decide, by decide⟩

/-- The raw filter is met by each account of the pushed part. -/
theorem industry_transports_agree :
    TransportsAgree warmOrg (scanBind "Account" "Industry = 'Tech'" "Rating = 'Hot'") [0, 1]
      warmAnswer := by
  refine (transports_agree_iff warmOrg (scanBind "Account" "Industry = 'Tech'" "Rating = 'Hot'") [0, 1]
    warmAnswer ⟨by decide, by decide, .some _ pushedIndustry rfl, Nat.lt_irrefl 1,
      .some _ (ratingIs "Hot") rfl⟩ warmAnswer_correct).mpr ?_
  intro r hr
  refine ⟨?_, List.forall_mem_nil _⟩
  simp only [scanBind, warmOrg, List.mem_cons, List.not_mem_nil, or_false] at hr
  rcases hr with rfl | rfl | rfl
  · intro hsat
    have hcold : coldAccount.meets (parseCondition "Industry = 'Tech'".toList) = true := hsat
    exact absurd hcold (by decide)
  · intro _
    rfl
  · intro _
    rfl

end DuckdbSalesforce
