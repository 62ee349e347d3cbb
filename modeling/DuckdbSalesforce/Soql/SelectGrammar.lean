import DuckdbSalesforce.Soql.Printed

/-!
# The grammar of aggregate statements

The part of SOQL that an aggregate query is written in. A select item is a
field or a function call, then perhaps a name of its own, with no word between
them. `COUNT()` stands alone and names no member of a record, so that a call
has an argument.
-/

namespace DuckdbSalesforce
open CondGrammar

inductive SelectExpr where
  | field (w : Text)
  | literal (s : Text)
  | call (func : Text) (first : SelectExpr) (more : List SelectExpr)

@[ext]
structure SelectItem where
  expr : SelectExpr
  resultName : Option Text

structure AggregateStatement where
  items : List SelectItem
  object : Text
  condition : Option SoqlCond
  groups : List Text

/-! ### Expressions -/

mutual
def SelectExpr.tokens : SelectExpr → List Token
  | .field w => [wordAtom w]
  | .literal s => [.atom (.str s)]
  | .call f e es => wordAtom f :: .lpar :: (e.tokens ++ moreTokens es)

/-- What follows the first argument, with the parenthesis. -/
def moreTokens : List SelectExpr → List Token
  | [] => [.rpar]
  | e :: es => .atom .comma :: (e.tokens ++ moreTokens es)
end

mutual
def parseExpr : ℕ → List Token → Option (SelectExpr × List Token)
  | n + 1, .atom (.word f) :: .lpar :: ts =>
    (parseExpr n ts).bind fun p => (parseMore n p.2).map fun q => (.call f p.1 q.1, q.2)
  | _ + 1, .atom (.word w) :: ts => some (.field w, ts)
  | _ + 1, .atom (.str s) :: ts => some (.literal s, ts)
  | _, _ => none

def parseMore : ℕ → List Token → Option (List SelectExpr × List Token)
  | _ + 1, .rpar :: ts => some ([], ts)
  | n + 1, .atom .comma :: ts =>
    (parseExpr n ts).bind fun p => (parseMore n p.2).map fun q => (p.1 :: q.1, q.2)
  | _, _ => none
end

theorem parseExpr_field (n : ℕ) (w : Text) (ts : List Token) (h : ts.head? ≠ some .lpar) :
    parseExpr (n + 1) (wordAtom w :: ts) = some (.field w, ts) := by
  cases ts with
  | nil => rfl
  | cons t ts =>
    cases t with
    | lpar => exact absurd rfl h
    | rpar | kwAnd | kwOr | kwNot | atom _ | reserved _ => rfl

/-- What is read is what was written, up to the rest. -/
theorem parse_written (n : ℕ) :
    (∀ ts e r, parseExpr n ts = some (e, r) → ts = e.tokens ++ r) ∧
      ∀ ts es r, parseMore n ts = some (es, r) → ts = moreTokens es ++ r := by
  induction n with
  | zero =>
    refine ⟨?_, ?_⟩
    · intro ts e r h
      simp [parseExpr] at h
    · intro ts es r h
      simp [parseMore] at h
  | succ n ih =>
    obtain ⟨hexpr, hmore⟩ := ih
    refine ⟨?_, ?_⟩
    · intro ts e r h
      unfold parseExpr at h
      split at h
      · next m f rest hfuel =>
        obtain rfl := Nat.succ.inj hfuel
        obtain ⟨p, hp, hafter⟩ := Option.bind_eq_some_iff.mp h
        obtain ⟨q, hq, heq⟩ := Option.map_eq_some_iff.mp hafter
        cases heq
        rw [hexpr _ _ _ hp, hmore _ _ _ hq]
        simp [SelectExpr.tokens, wordAtom]
      · cases h
        rfl
      · cases h
        rfl
      · cases h
    · intro ts es r h
      unfold parseMore at h
      split at h
      · cases h
        rfl
      · next m rest hfuel =>
        obtain rfl := Nat.succ.inj hfuel
        obtain ⟨p, hp, hafter⟩ := Option.bind_eq_some_iff.mp h
        obtain ⟨q, hq, heq⟩ := Option.map_eq_some_iff.mp hafter
        cases heq
        rw [hexpr _ _ _ hp, hmore _ _ _ hq]
        simp [moreTokens]
      · cases h

theorem moreTokens_head (es : List SelectExpr) (r : List Token) :
    (moreTokens es ++ r).head? ≠ some .lpar := by
  cases es with
  | nil => simp [moreTokens]
  | cons e es => simp [moreTokens]

/-- What was written is read, whatever follows but a parenthesis. -/
theorem parse_tokens (n : ℕ) :
    (∀ (e : SelectExpr) r, e.tokens.length ≤ n → r.head? ≠ some .lpar →
      parseExpr n (e.tokens ++ r) = some (e, r)) ∧
      ∀ es r, (moreTokens es).length ≤ n → parseMore n (moreTokens es ++ r) = some (es, r) := by
  induction n with
  | zero =>
    refine ⟨?_, ?_⟩
    · intro e r hlen
      cases e <;> simp [SelectExpr.tokens] at hlen
    · intro es r hlen
      cases es <;> simp [moreTokens] at hlen
  | succ n ih =>
    obtain ⟨hexpr, hmore⟩ := ih
    -- An argument and those after it, with one token less to go.
    have hargs : ∀ (e : SelectExpr) es r, (e.tokens ++ moreTokens es).length ≤ n →
        parseExpr n (e.tokens ++ (moreTokens es ++ r)) = some (e, moreTokens es ++ r) ∧
          parseMore n (moreTokens es ++ r) = some (es, r) := by
      intro e es r hlen
      rw [List.length_append] at hlen
      exact ⟨hexpr e _ (by omega) (moreTokens_head es r), hmore es r (by omega)⟩
    refine ⟨?_, ?_⟩
    · intro e r hlen hr
      cases e with
      | field w => exact parseExpr_field n w r hr
      | literal s => rfl
      | call f e es =>
        simp only [SelectExpr.tokens, List.length_cons] at hlen
        obtain ⟨hfirst, hrest⟩ := hargs e es r (by omega)
        simp only [SelectExpr.tokens, wordAtom, List.cons_append, List.append_assoc, parseExpr]
        rw [hfirst, Option.bind_some, hrest]
        rfl
    · intro es r hlen
      cases es with
      | nil => rfl
      | cons e es =>
        simp only [moreTokens, List.length_cons] at hlen
        obtain ⟨hfirst, hrest⟩ := hargs e es r (by omega)
        simp only [moreTokens, List.cons_append, List.append_assoc, parseMore]
        rw [hfirst, Option.bind_some, hrest]
        rfl

/-- An expression that is all of a text. -/
def parseExprText (t : Text) : Option SelectExpr :=
  (lex t).bind fun ts => match parseExpr ts.length ts with
    | some (e, []) => some e
    | _ => none

theorem parseExprText_lex (t : Text) (e : SelectExpr) (h : parseExprText t = some e) :
    lex t = some e.tokens := by
  obtain ⟨ts, hlex, hread⟩ := Option.bind_eq_some_iff.mp h
  split at hread
  · next e' hparse =>
    cases hread
    have hwritten := (parse_written _).1 ts e [] hparse
    rw [List.append_nil] at hwritten
    rw [hlex, hwritten]
  · cases hread

/-! ### Select lists -/

/-- The words that no item can be named by. -/
def reservedNames : List Text :=
  ["AND".toList, "ASC".toList, "DESC".toList, "EXCLUDES".toList, "FIRST".toList, "FROM".toList,
    "GROUP".toList, "HAVING".toList, "IN".toList, "INCLUDES".toList, "LAST".toList,
    "LIKE".toList, "LIMIT".toList, "NOT".toList, "NULL".toList, "NULLS".toList, "OR".toList,
    "SELECT".toList, "USING".toList, "WHERE".toList, "WITH".toList]

def readName : List Token → Option Text × List Token
  | .atom (.word w) :: ts =>
    if upper w ∈ reservedNames then (none, .atom (.word w) :: ts) else (some w, ts)
  | ts => (none, ts)

def parseItem (ts : List Token) : Option (SelectItem × List Token) :=
  (parseExpr ts.length ts).bind fun p => match p.1 with
    | .literal _ => none
    | e => some (⟨e, (readName p.2).1⟩, (readName p.2).2)

def parseItems : ℕ → List Token → Option (List SelectItem × List Token)
  | 0, _ => none
  | n + 1, ts => (parseItem ts).bind fun p => match p.2 with
    | .atom .comma :: rest => (parseItems n rest).map fun q => (p.1 :: q.1, q.2)
    | rest => some ([p.1], rest)

/-- What a record's members are called, with the count of the items so far that
have no name. -/
def resultKeys : ℕ → List SelectItem → List Text
  | _, [] => []
  | n, ⟨_, some w⟩ :: items => w :: resultKeys n items
  | n, ⟨.field w, none⟩ :: items => w :: resultKeys n items
  | n, ⟨_, none⟩ :: items => ("expr".toList ++ natText n) :: resultKeys (n + 1) items

def EndsItem (ts : List Token) : Prop :=
  ∃ t rest, ts = t :: rest ∧ (t = .atom .comma ∨ t = clauseToken "FROM")

def StartsFrom (ts : List Token) : Prop := ∃ rest, ts = clauseToken "FROM" :: rest

theorem StartsFrom.endsItem {ts : List Token} (h : StartsFrom ts) : EndsItem ts := by
  obtain ⟨rest, rfl⟩ := h
  exact ⟨_, rest, rfl, Or.inr rfl⟩

theorem endsItem_comma (rest : List Token) : EndsItem (.atom .comma :: rest) :=
  ⟨_, rest, rfl, Or.inl rfl⟩

theorem EndsItem.not_lpar {ts : List Token} (h : EndsItem ts) : ts.head? ≠ some .lpar := by
  obtain ⟨t, rest, rfl, rfl | rfl⟩ := h
  · exact fun hc => by cases hc
  · exact fun hc => by cases hc

theorem EndsItem.readName {ts : List Token} (h : EndsItem ts) : readName ts = (none, ts) := by
  obtain ⟨t, rest, rfl, rfl | rfl⟩ := h
  · rfl
  · rfl

/-- The tokens written for an item, and when they are read as that item. -/
structure ItemPiece where
  toks : List Token
  item : SelectItem
  plain : Prop

def ItemPiece.Reads (p : ItemPiece) : Prop :=
  ∀ rest r, EndsItem rest → EndsItem r →
    (parseItem (p.toks ++ rest) = some (p.item, r) ↔ p.plain ∧ r = rest)

theorem parseItems_one (n : ℕ) (p : ItemPiece) (hp : p.Reads) (rest r : List Token)
    (hrest : StartsFrom rest) (hr : StartsFrom r) :
    parseItems (n + 1) (p.toks ++ rest) = some ([p.item], r) ↔ p.plain ∧ r = rest := by
  rw [← hp rest r hrest.endsItem hr.endsItem, parseItems, Option.bind_eq_some_iff]
  refine ⟨?_, ?_⟩
  · intro hsome
    obtain ⟨⟨item, left⟩, hparse, hread⟩ := hsome
    split at hread
    · next more hmore =>
      -- A comma would be one of the rest.
      obtain ⟨q, hq, heq⟩ := Option.map_eq_some_iff.mp hread
      simp only [Prod.mk.injEq, List.cons.injEq] at heq
      have hleft : left = .atom .comma :: more := hmore
      rw [heq.1.1, hleft] at hparse
      obtain ⟨_, hsame⟩ := (hp rest _ hrest.endsItem (endsItem_comma more)).mp hparse
      obtain ⟨tail, htail⟩ := hrest
      rw [htail] at hsame
      cases hsame
    · simp only [Option.some.injEq, Prod.mk.injEq, List.cons.injEq, and_true] at hread
      rw [hparse, hread.1, hread.2]
  · intro hparse
    obtain ⟨tail, rfl⟩ := hr
    exact ⟨_, hparse, rfl⟩

theorem parseItems_iff (ps : List ItemPiece) (hne : ps ≠ []) (h : ∀ p ∈ ps, p.Reads) (n : ℕ)
    (hn : ps.length ≤ n) (rest r : List Token) (hrest : StartsFrom rest) (hr : StartsFrom r) :
    parseItems n (joinTok (.atom .comma) (ps.map ItemPiece.toks) ++ rest) =
        some (ps.map ItemPiece.item, r) ↔
      (∀ p ∈ ps, p.plain) ∧ r = rest := by
  induction ps generalizing n with
  | nil => exact absurd rfl hne
  | cons p ps ih =>
    have hp := h p (List.mem_cons_self ..)
    obtain ⟨n, rfl⟩ : ∃ m, n = m + 1 := ⟨n - 1, by simp only [List.length_cons] at hn; omega⟩
    cases ps with
    | nil =>
      rw [List.forall_mem_singleton]
      exact parseItems_one n p hp rest r hrest hr
    | cons q ps =>
      have htail := ih (by simp) (fun x hx => h x (List.mem_cons_of_mem _ hx)) n
        (by simpa using hn)
      have hjoin : joinTok (.atom .comma) ((p :: q :: ps).map ItemPiece.toks) ++ rest =
          p.toks ++ .atom .comma ::
            (joinTok (.atom .comma) ((q :: ps).map ItemPiece.toks) ++ rest) := by
        simp [joinTok]
      rw [hjoin, List.forall_mem_cons, and_assoc, ← htail, parseItems, Option.bind_eq_some_iff]
      refine ⟨?_, ?_⟩
      · intro hsome
        obtain ⟨⟨item, left⟩, hparse, hread⟩ := hsome
        split at hread
        · next more hmore =>
          obtain ⟨s, hs, heq⟩ := Option.map_eq_some_iff.mp hread
          simp only [Prod.mk.injEq, List.map_cons, List.cons.injEq] at heq
          have hleft : left = .atom .comma :: more := hmore
          rw [heq.1.1, hleft] at hparse
          obtain ⟨hplain, hsame⟩ := (hp _ _ (endsItem_comma _) (endsItem_comma more)).mp hparse
          cases hsame
          refine ⟨hplain, ?_⟩
          rw [hs]
          simp [← heq.1.2, ← heq.2]
        · simp at hread
      · intro hboth
        obtain ⟨hplain, hmore⟩ := hboth
        refine ⟨_, (hp _ _ (endsItem_comma _) (endsItem_comma _)).mpr ⟨hplain, rfl⟩, ?_⟩
        show (parseItems n _).map _ = _
        rw [hmore]
        rfl

/-! ### Statements -/

/-- The words that a clause after the condition starts with. -/
def laterClauses : List Text :=
  ["WITH".toList, "GROUP".toList, "HAVING".toList, "ORDER".toList, "OFFSET".toList, "FOR".toList,
    "UPDATE".toList]

def startsClause : Token → Bool
  | .atom (.word w) => laterClauses.contains (upper w)
  | .reserved _ => true
  | _ => false

/-- A condition that is all of a text. -/
def conditionOf (t : Text) : Option SoqlCond :=
  (lex t).bind fun ts => if ts.any startsClause then none else parse ts

def parseWhere : List Token → Option (Option SoqlCond × List Token)
  | .reserved (.word w) :: ts =>
    if w = "WHERE".toList then
      (parse (ts.takeWhile fun u => !startsClause u)).map fun c =>
        (some c, ts.dropWhile fun u => !startsClause u)
    else none
  | ts => some (none, ts)

def parseNames : List Token → Option (List Text)
  | [.atom (.word w)] => some [w]
  | .atom (.word w) :: .atom .comma :: ts => (parseNames ts).map (w :: ·)
  | _ => none

def parseGroupBy : List Token → Option (List Text)
  | [] => some []
  | .atom (.word g) :: .atom (.word b) :: ts =>
    if upper g = "GROUP".toList ∧ upper b = "BY".toList then parseNames ts else none
  | _ => none

def parseClauses (ts : List Token) : Option (Option SoqlCond × List Text) :=
  (parseWhere ts).bind fun p => (parseGroupBy p.2).map fun groups => (p.1, groups)

def parseFrom (items : List SelectItem) : List Token → Option AggregateStatement
  | t :: .atom (.word object) :: ts =>
    if t = clauseToken "FROM" then
      (parseClauses ts).map fun p => ⟨items, object, p.1, p.2⟩
    else none
  | _ => none

def parseAggregateStatement : List Token → Option AggregateStatement
  | [] => none
  | t :: ts =>
    if t = clauseToken "SELECT" then
      (parseItems ts.length ts).bind fun p => parseFrom p.1 p.2
    else none

def parseAggregate (t : Text) : Option AggregateStatement :=
  (lex t).bind parseAggregateStatement

theorem parseFrom_some (items : List SelectItem) (ts : List Token) (s : AggregateStatement)
    (h : parseFrom items ts = some s) :
    ∃ rest, ts = clauseToken "FROM" :: wordAtom s.object :: rest ∧ s.items = items := by
  unfold parseFrom at h
  split at h
  · next t object rest =>
    by_cases ht : t = clauseToken "FROM"
    · rw [if_pos ht] at h
      obtain ⟨p, _, rfl⟩ := Option.map_eq_some_iff.mp h
      exact ⟨rest, by rw [ht, wordAtom], rfl⟩
    · rw [if_neg ht] at h
      cases h
  · cases h

theorem length_le_joinTok (sep : Token) (xs : List (List Token)) :
    xs.length ≤ (joinTok sep xs).length + 1 := by
  induction xs with
  | nil => exact Nat.zero_le _
  | cons x xs ih =>
    cases xs with
    | nil => simp
    | cons y ys =>
      simp only [joinTok, List.length_append, List.length_cons] at ih ⊢
      omega

/-- A statement of such pieces is read as its items exactly when every piece
is plain and the object is no keyword. -/
theorem parse_pieces_iff (ps : List ItemPiece) (hne : ps ≠ []) (h : ∀ p ∈ ps, p.Reads)
    (object : Text) (tail : List Token) (condition : Option SoqlCond) (groups : List Text)
    (htail : (∀ p ∈ ps, p.plain) → parseClauses tail = some (condition, groups)) :
    parseAggregateStatement (clauseToken "SELECT" ::
        (joinTok (.atom .comma) (ps.map ItemPiece.toks) ++
          clauseToken "FROM" :: wordToken object :: tail)) =
        some ⟨ps.map ItemPiece.item, object, condition, groups⟩ ↔
      (∀ p ∈ ps, p.plain) ∧ wordToken object = wordAtom object := by
  have hfuel : ps.length ≤ (joinTok (.atom .comma) (ps.map ItemPiece.toks) ++
      clauseToken "FROM" :: wordToken object :: tail).length := by
    have hjoin := length_le_joinTok (.atom .comma) (ps.map ItemPiece.toks)
    rw [List.length_map] at hjoin
    simp only [List.length_append, List.length_cons]
    omega
  have hitems := fun r hr => parseItems_iff ps hne h _ hfuel
    (clauseToken "FROM" :: wordToken object :: tail) r ⟨_, rfl⟩ hr
  rw [parseAggregateStatement, if_pos rfl, Option.bind_eq_some_iff]
  refine ⟨?_, ?_⟩
  · intro hsome
    obtain ⟨⟨items, left⟩, hparse, hfrom⟩ := hsome
    obtain ⟨rest, hleft, hsame⟩ := parseFrom_some _ _ _ hfrom
    have hleft' : left = clauseToken "FROM" :: wordAtom object :: rest := hleft
    have hsame' : ps.map ItemPiece.item = items := hsame
    rw [← hsame'] at hparse
    obtain ⟨hplain, hrest⟩ := (hitems left ⟨_, hleft'⟩).mp hparse
    rw [hleft'] at hrest
    simp only [List.cons.injEq, true_and] at hrest
    exact ⟨hplain, hrest.1.symm⟩
  · intro hboth
    obtain ⟨hplain, hobject⟩ := hboth
    refine ⟨_, (hitems _ ⟨_, rfl⟩).mpr ⟨hplain, rfl⟩, ?_⟩
    rw [hobject]
    simp only [parseFrom, wordAtom, if_true, htail hplain, Option.map_some]

/-! ### Words and soqlKeywords -/

/-- The words that the lexer takes for no name. -/
def soqlKeywords : List Text := ["AND".toList, "OR".toList, "NOT".toList] ++ clauseWords

theorem wordToken_atom (w : Text) (h : upper w ∉ soqlKeywords) : wordToken w = wordAtom w := by
  simp only [soqlKeywords, List.mem_append, List.mem_cons, List.not_mem_nil, or_false, not_or] at h
  unfold wordToken
  rw [if_neg h.1.1, if_neg h.1.2.1, if_neg h.1.2.2, if_neg h.2]
  rfl

/-- A keyword is a token that starts nothing in a select list. -/
theorem wordToken_keyword (w : Text) (h : upper w ∈ soqlKeywords) :
    wordToken w = .kwAnd ∨ wordToken w = .kwOr ∨ wordToken w = .kwNot ∨
      ∃ a, wordToken w = .reserved a := by
  unfold wordToken
  by_cases hand : upper w = "AND".toList
  · exact Or.inl (if_pos hand)
  · by_cases hor : upper w = "OR".toList
    · rw [if_neg hand, if_pos hor]
      exact Or.inr (Or.inl rfl)
    · by_cases hnot : upper w = "NOT".toList
      · rw [if_neg hand, if_neg hor, if_pos hnot]
        exact Or.inr (Or.inr (Or.inl rfl))
      · have hclause : upper w ∈ clauseWords := by
          simp only [soqlKeywords, List.mem_append, List.mem_cons, List.not_mem_nil, or_false] at h
          exact h.resolve_left fun hw => hw.elim hand fun hw => hw.elim hor hnot
        rw [if_neg hand, if_neg hor, if_neg hnot, if_pos hclause]
        exact Or.inr (Or.inr (Or.inr ⟨_, rfl⟩))

theorem wordToken_atom_iff (w : Text) : wordToken w = wordAtom w ↔ upper w ∉ soqlKeywords := by
  refine ⟨?_, wordToken_atom w⟩
  intro hatom hkey
  rcases wordToken_keyword w hkey with h | h | h | ⟨a, h⟩
  all_goals
    rw [hatom] at h
    cases h

theorem wordToken_ne_lpar (w : Text) : wordToken w ≠ .lpar := by
  by_cases hkey : upper w ∈ soqlKeywords
  · rcases wordToken_keyword w hkey with h | h | h | ⟨a, h⟩
    all_goals
      rw [h]
      simp
  · rw [wordToken_atom w hkey]
    simp [wordAtom]

theorem soqlKeywords_reserved (w : Text) (h : w ∈ soqlKeywords) : w ∈ reservedNames := by
  have hall : ∀ w ∈ soqlKeywords, w ∈ reservedNames := by decide
  exact hall w h

theorem readName_word (w : Text) (ts : List Token) :
    readName (wordToken w :: ts) =
      if upper w ∈ reservedNames then (none, wordToken w :: ts) else (some w, ts) := by
  by_cases hkey : upper w ∈ soqlKeywords
  · rw [if_pos (soqlKeywords_reserved _ hkey)]
    rcases wordToken_keyword w hkey with h | h | h | ⟨a, h⟩
    all_goals
      rw [h]
      rfl
  · rw [wordToken_atom w hkey]
    rfl

theorem parseItem_keyword (w : Text) (ts : List Token) (h : upper w ∈ soqlKeywords) :
    parseItem (wordToken w :: ts) = none := by
  rcases wordToken_keyword w h with h | h | h | ⟨a, h⟩
  all_goals
    rw [h]
    rfl

/-! ### Fields, calls and clauses -/

def groupItem (g : Text) : SelectItem := ⟨.field g, none⟩

def groupPiece (g : Text) : ItemPiece := ⟨[wordToken g], groupItem g, upper g ∉ soqlKeywords⟩

theorem groupPiece_reads (g : Text) : (groupPiece g).Reads := by
  intro rest r hrest hr
  show parseItem (wordToken g :: rest) = some (groupItem g, r) ↔ upper g ∉ soqlKeywords ∧ r = rest
  by_cases hkey : upper g ∈ soqlKeywords
  · rw [parseItem_keyword g rest hkey]
    simp [hkey]
  · have hparse : parseItem (wordAtom g :: rest) = some (groupItem g, rest) := by
      rw [parseItem, List.length_cons, parseExpr_field _ g rest hrest.not_lpar, Option.bind_some]
      show some (SelectItem.mk (.field g) (readName rest).1, (readName rest).2) = _
      rw [hrest.readName]
      rfl
    rw [wordToken_atom g hkey, hparse, Option.some.injEq, Prod.mk.injEq]
    exact ⟨fun h => ⟨hkey, h.2.symm⟩, fun h => ⟨rfl, h.2.symm⟩⟩

theorem parseItem_call (f : Text) (e : SelectExpr) (es : List SelectExpr) (ts : List Token)
    (h : ts.head? ≠ some .lpar) :
    parseItem ((SelectExpr.call f e es).tokens ++ ts) =
      some (⟨.call f e es, (readName ts).1⟩, (readName ts).2) := by
  have hparse := (parse_tokens ((SelectExpr.call f e es).tokens ++ ts).length).1 (.call f e es) ts
    (by rw [List.length_append]; omega) h
  rw [parseItem, hparse]
  rfl

def groupTokens (groups : List Text) : List Token :=
  if groups = [] then []
  else wordAtom "GROUP".toList :: wordAtom "BY".toList :: joinComma (groups.map wordToken)

theorem parseNames_words (groups : List Text) (hne : groups ≠ [])
    (h : ∀ g ∈ groups, upper g ∉ soqlKeywords) :
    parseNames (joinComma (groups.map wordToken)) = some groups := by
  induction groups with
  | nil => exact absurd rfl hne
  | cons g groups ih =>
    have hg := wordToken_atom g (h g (List.mem_cons_self ..))
    cases groups with
    | nil =>
      rw [List.map_singleton, hg]
      rfl
    | cons g' groups =>
      have hrest := ih (by simp) fun x hx => h x (List.mem_cons_of_mem _ hx)
      have hjoin : joinComma ((g :: g' :: groups).map wordToken) =
          wordToken g :: .atom .comma :: joinComma ((g' :: groups).map wordToken) := rfl
      rw [hjoin, hg]
      show (parseNames (joinComma ((g' :: groups).map wordToken))).map (g :: ·) = _
      rw [hrest]
      rfl

theorem parseGroupBy_words (groups : List Text) (h : ∀ g ∈ groups, upper g ∉ soqlKeywords) :
    parseGroupBy (groupTokens groups) = some groups := by
  by_cases hne : groups = []
  · rw [hne]
    rfl
  · have hwords : upper "GROUP".toList = "GROUP".toList ∧ upper "BY".toList = "BY".toList := by
      decide
    rw [groupTokens, if_neg hne]
    show (if upper "GROUP".toList = "GROUP".toList ∧ upper "BY".toList = "BY".toList then
      parseNames (joinComma (groups.map wordToken)) else none) = some groups
    rw [if_pos hwords]
    exact parseNames_words groups hne h

/-- The filter is a condition of its own, so that the words after it start the
next clause. -/
theorem parseClauses_words (filter : Text) (groups : List Text)
    (hfilter : filter = [] ∨ (conditionOf filter).isSome)
    (h : ∀ g ∈ groups, upper g ∉ soqlKeywords) :
    parseClauses (whereTokens filter ++ groupTokens groups) =
      some (conditionOf filter, groups) := by
  have hgroup := parseGroupBy_words groups h
  by_cases hnil : filter = []
  · have hcondition : conditionOf [] = none := rfl
    have hwhere : parseWhere (groupTokens groups) = some (none, groupTokens groups) := by
      unfold groupTokens
      by_cases hne : groups = []
      · rw [if_pos hne]
        rfl
      · rw [if_neg hne]
        rfl
    rw [hnil, hcondition, whereTokens, if_pos rfl, List.nil_append, parseClauses, hwhere,
      Option.bind_some, hgroup]
    rfl
  · obtain ⟨c, hc⟩ := Option.isSome_iff_exists.mp (hfilter.resolve_left hnil)
    obtain ⟨ts, hlex, hread⟩ := Option.bind_eq_some_iff.mp hc
    by_cases hany : ts.any startsClause = true
    · rw [if_pos hany] at hread
      cases hread
    · rw [if_neg hany] at hread
      have hfree : ∀ t ∈ ts, (!startsClause t) = true := by
        intro t ht
        rw [Bool.not_eq_true']
        exact Bool.eq_false_iff.mpr fun hs => hany (List.any_eq_true.mpr ⟨t, ht, hs⟩)
      have hstart : (groupTokens groups).takeWhile (fun u => !startsClause u) = [] ∧
          (groupTokens groups).dropWhile (fun u => !startsClause u) = groupTokens groups := by
        unfold groupTokens
        by_cases hne : groups = []
        · rw [if_pos hne]
          exact ⟨rfl, rfl⟩
        · rw [if_neg hne]
          exact ⟨rfl, rfl⟩
      rw [hc, whereTokens, if_neg hnil, hlex, Option.getD_some, List.cons_append, parseClauses]
      have hwhere : parseWhere (clauseToken "WHERE" :: (ts ++ groupTokens groups)) =
          (parse ((ts ++ groupTokens groups).takeWhile fun u => !startsClause u)).map fun c =>
            (some c, (ts ++ groupTokens groups).dropWhile fun u => !startsClause u) := rfl
      rw [hwhere, List.takeWhile_append_of_pos hfree, List.dropWhile_append_of_pos hfree, hstart.1,
        hstart.2, List.append_nil, hread, Option.map_some, Option.bind_some, hgroup]
      rfl

end DuckdbSalesforce
