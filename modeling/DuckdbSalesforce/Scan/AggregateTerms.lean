import DuckdbSalesforce.Scan.ExplicitAggregate
import DuckdbSalesforce.Soql.SelectGrammar

/-!
# The terms of an explicit aggregate

What `ParseTerm` finds in a term that it accepts, and what a service reads
there. A term is sent with the `AS` that `ParseTerm` drops.
-/

namespace DuckdbSalesforce
open CondGrammar Fallible

/-! ### Cutting -/

/-- The call that is found in a term. -/
def recognised (term : Text) : AggTerm := (cutTerm (trim term)).toOption.getD ⟨[], [], []⟩

def AggTerm.callText (t : AggTerm) : Text := t.func ++ '(' :: (t.argument ++ [')'])

def AggTerm.item (t : AggTerm) : Option SelectItem :=
  (parseExprText t.callText).map fun e =>
    ⟨e, if t.resultName = [] then none else some t.resultName⟩

/-- A term outside the parentheses of its call. -/
def outsideCall (term : Text) : Text :=
  term.takeWhile isSpace ++ (recognised term).before ++ (recognised term).after ++
    ((term.dropWhile isSpace).reverse.takeWhile isSpace).reverse

theorem splitCommas_ne (s : Text) (depth : ℕ) (piece : Text) : splitCommas depth piece s ≠ [] := by
  induction s generalizing depth piece with
  | nil => simp [splitCommas]
  | cons c s ih =>
    unfold splitCommas
    by_cases hopen : c = '('
    · rw [if_pos hopen]
      exact ih _ _
    · by_cases hclose : c = ')'
      · rw [if_neg hopen, if_pos hclose]
        exact ih _ _
      · by_cases hcomma : c = ',' ∧ depth = 0
        · rw [if_neg hopen, if_neg hclose, if_pos hcomma]
          simp
        · rw [if_neg hopen, if_neg hclose, if_neg hcomma]
          exact ih _ _

theorem splitCommas_join (s : Text) (depth : ℕ) (piece : Text) :
    joinText [','] (splitCommas depth piece s) = piece ++ s := by
  induction s generalizing depth piece with
  | nil => simp [splitCommas, joinText]
  | cons c s ih =>
    have hmore : ∀ d, joinText [','] (splitCommas d (piece ++ [c]) s) = piece ++ c :: s := by
      intro d
      rw [ih, List.append_assoc, List.singleton_append]
    unfold splitCommas
    by_cases hopen : c = '('
    · rw [if_pos hopen]
      exact hmore _
    · by_cases hclose : c = ')'
      · rw [if_neg hopen, if_pos hclose]
        exact hmore _
      · by_cases hcomma : c = ',' ∧ depth = 0
        · obtain ⟨p, ps, hps⟩ := List.exists_cons_of_ne_nil (splitCommas_ne s 0 [])
          have hrest := ih 0 []
          rw [hps, List.nil_append] at hrest
          rw [if_neg hopen, if_neg hclose, if_pos hcomma, hps, joinText_cons, hrest, hcomma.1]
          simp
        · rw [if_neg hopen, if_neg hclose, if_neg hcomma]
          exact hmore _

theorem closeCall_text (s inside argument after : Text) (depth : ℕ)
    (h : closeCall depth inside s = some (argument, after)) :
    inside ++ s = argument ++ ')' :: after := by
  induction s generalizing depth inside with
  | nil => cases h
  | cons c s ih =>
    have hmore : ∀ d, closeCall d (inside ++ [c]) s = some (argument, after) →
        inside ++ c :: s = argument ++ ')' :: after := by
      intro d hd
      rw [← ih (inside ++ [c]) d hd, List.append_assoc, List.singleton_append]
    unfold closeCall at h
    by_cases hopen : c = '('
    · rw [if_pos hopen] at h
      exact hmore _ h
    · by_cases hclose : c = ')'
      · rw [if_neg hopen, if_pos hclose] at h
        cases depth with
        | zero =>
          cases h
          rw [hclose]
        | succ d => exact hmore d h
      · rw [if_neg hopen, if_neg hclose] at h
        exact hmore _ h

theorem cutTerm_text (term : Text) (t : AggTerm) (h : cutTerm term = .ok t) :
    term = t.before ++ '(' :: (t.argument ++ ')' :: t.after) ∧
      isAggregateFn (upper t.func) = true := by
  have hhead := List.head?_dropWhile_not (· != '(') term
  have hsplit : term.takeWhile (· != '(') ++ term.dropWhile (· != '(') = term :=
    List.takeWhile_append_dropWhile
  unfold cutTerm at h
  cases hdrop : term.dropWhile (· != '(') with
  | nil =>
    rw [hdrop] at h
    cases h
  | cons c rest =>
    rw [hdrop] at h hhead hsplit
    have hparen : c = '(' := by simpa using hhead
    by_cases hfn : isAggregateFn (upper (trim (term.takeWhile (· != '(')))) = true
    · simp only [hfn, Bool.not_true, Bool.false_eq_true, if_false] at h
      cases hclose : closeCall 0 [] rest with
      | none =>
        rw [hclose] at h
        cases h
      | some p =>
        obtain ⟨argument, after⟩ := p
        rw [hclose] at h
        cases h
        have htext := closeCall_text rest [] argument after 0 hclose
        refine ⟨?_, hfn⟩
        rw [List.nil_append] at htext
        show term = term.takeWhile (· != '(') ++ '(' :: (argument ++ ')' :: after)
        rw [hparen, htext] at hsplit
        exact hsplit.symm
    · simp only [hfn, Bool.not_false, if_true] at h
      cases h

theorem trim_split (t : Text) :
    t = t.takeWhile isSpace ++ trim t ++
      ((t.dropWhile isSpace).reverse.takeWhile isSpace).reverse := by
  have hback : trim t ++ ((t.dropWhile isSpace).reverse.takeWhile isSpace).reverse =
      t.dropWhile isSpace := by
    rw [trim, ← List.reverse_append, List.takeWhile_append_dropWhile, List.reverse_reverse]
  rw [List.append_assoc, hback, List.takeWhile_append_dropWhile]

/-- What `Trim` takes off at the start and at the end. -/
theorem trimmed_blanks (t : Text) :
    (∀ c ∈ t.takeWhile isSpace, isSpace c = true ∧ c ∈ t) ∧
      ∀ c ∈ ((t.dropWhile isSpace).reverse.takeWhile isSpace).reverse, isSpace c = true ∧ c ∈ t := by
  refine ⟨?_, ?_⟩
  · intro c hc
    exact ⟨List.mem_takeWhile_imp hc, (List.takeWhile_prefix _).subset hc⟩
  · intro c hc
    rw [List.mem_reverse] at hc
    have hmem := (List.takeWhile_prefix _).subset hc
    rw [List.mem_reverse] at hmem
    exact ⟨List.mem_takeWhile_imp hc, (List.dropWhile_suffix _).subset hmem⟩

theorem mem_of_trim (t : Text) (c : Char) (h : c ∈ trim t) : c ∈ t := by
  rw [trim_split t]
  exact List.mem_append_left _ (List.mem_append_right _ h)

/-! ### Columns -/

/-- A term that `ParseTerm` accepts. -/
structure Accepted (term : Text) : Prop where
  cut : cutTerm (trim term) = .ok (recognised term)
  named : (recognised term).resultName = [] ∨ isIdentifier (recognised term).resultName = true

def termKeys : ℕ → List AggTerm → List Text
  | _, [] => []
  | n, t :: ts =>
    if t.resultName = [] then unaliasedName n :: termKeys (n + 1) ts
    else t.resultName :: termKeys n ts

theorem parseTerm_accepted (term : Text) (n : ℕ) (p : AggColumn × ℕ)
    (h : parseTerm term n = .ok p) :
    Accepted term ∧ p = if (recognised term).resultName = [] then
      (⟨unaliasedName n, unaliasedName n⟩, n + 1)
      else (⟨(recognised term).resultName, (recognised term).resultName⟩, n) := by
  unfold parseTerm at h
  by_cases hempty : trim term = []
  · rw [if_pos hempty] at h
    cases h
  · rw [if_neg hempty] at h
    obtain ⟨t, hcut, hcolumn⟩ := bind_ok h
    have ht : recognised term = t := by
      rw [recognised, hcut]
      rfl
    rw [ht]
    by_cases hname : t.resultName = []
    · rw [if_pos hname] at hcolumn ⊢
      exact ⟨⟨by rw [ht, hcut], Or.inl (by rw [ht, hname])⟩, (Except.ok.inj hcolumn).symm⟩
    · rw [if_neg hname] at hcolumn ⊢
      by_cases hid : isIdentifier t.resultName = true
      · rw [if_pos hid] at hcolumn
        exact ⟨⟨by rw [ht, hcut], Or.inr (by rw [ht, hid])⟩, (Except.ok.inj hcolumn).symm⟩
      · rw [if_neg hid] at hcolumn
        cases hcolumn

theorem parseTerms_accepted (terms : List Text) (n : ℕ) (columns : List AggColumn)
    (h : parseTerms terms n = .ok columns) :
    (∀ term ∈ terms, Accepted term) ∧
      columns.map AggColumn.key = termKeys n (terms.map recognised) := by
  induction terms generalizing n columns with
  | nil =>
    cases h
    exact ⟨by simp, rfl⟩
  | cons term terms ih =>
    obtain ⟨p, hterm, hrest⟩ := bind_ok h
    obtain ⟨columns', hterms, rfl⟩ := map_ok hrest
    obtain ⟨hfirst, hp⟩ := parseTerm_accepted term n p hterm
    obtain ⟨hall, hkeys⟩ := ih p.2 columns' hterms
    refine ⟨List.forall_mem_cons.mpr ⟨hfirst, hall⟩, ?_⟩
    rw [List.map_cons, List.map_cons, hkeys, termKeys]
    by_cases hname : (recognised term).resultName = []
    · rw [if_pos hname] at hp ⊢
      rw [hp]
    · rw [if_neg hname] at hp ⊢
      rw [hp]

theorem term_text (term : Text) (h : Accepted term) :
    term = (term.takeWhile isSpace ++ (recognised term).before) ++
      '(' :: ((recognised term).argument ++ ')' :: ((recognised term).after ++
        ((term.dropWhile isSpace).reverse.takeWhile isSpace).reverse)) := by
  have hcut := (cutTerm_text _ _ h.cut).1
  have hsplit := trim_split term
  rw [hcut] at hsplit
  refine hsplit.trans ?_
  simp

/-! ### Names and blanks -/

theorem toUpper_nonletter (c : Char) (h : c.toUpper.isAlpha = false) : c.toUpper = c := by
  rw [Char.isAlpha_toUpper_eq_isAlpha] at h
  refine Char.toUpper_eq_of_not_isLower fun hlow => ?_
  simp [Char.isAlpha, hlow] at h

theorem isWordChar_toUpper (c : Char) (h : isWordChar c.toUpper = true) : isWordChar c = true := by
  by_cases halpha : c.toUpper.isAlpha = true
  · rw [Char.isAlpha_toUpper_eq_isAlpha] at halpha
    simp [isWordChar, isAlnum, Char.isAlphanum, halpha]
  · rwa [toUpper_nonletter c (Bool.eq_false_iff.mpr halpha)] at h

theorem aggregateFn_chars (w : Text) (h : isAggregateFn (upper w) = true) :
    w ≠ [] ∧ w.all isWordChar = true := by
  have hall : ∀ f ∈ explicitFns, f ≠ [] ∧ f.all isWordChar = true := by decide
  obtain ⟨hne, hchars⟩ := hall _ (List.contains_iff_mem.mp h)
  refine ⟨?_, List.all_eq_true.mpr ?_⟩
  · intro heq
    subst heq
    exact hne rfl
  · intro c hc
    exact isWordChar_toUpper c (List.all_eq_true.mp hchars c.toUpper (List.mem_map_of_mem hc))

theorem isIdentifier_chars (w : Text) (h : isIdentifier w = true) :
    w ≠ [] ∧ w.all isWordChar = true := by
  cases w with
  | nil => cases h
  | cons c w =>
    simp only [isIdentifier, Bool.and_eq_true, List.all_eq_true] at h
    refine ⟨by simp, List.all_eq_true.mpr ?_⟩
    intro d hd
    have hd' := h.2 d hd
    rw [Bool.or_eq_true, beq_iff_eq] at hd'
    rcases hd' with hd' | rfl
    · simp [isWordChar, hd']
    · decide

theorem lex_identifier (w : Text) (h : isIdentifier w = true) : lex w = some [wordToken w] :=
  lex_word w (isIdentifier_chars w h).1 (isIdentifier_chars w h).2

theorem trimBlank_of_space (c : Char) (h : isSpace c = true) (hs : c ≠ '\x0b' ∧ c ≠ '\x0c') :
    isTrimBlank c = true := by
  simp only [isSpace, Bool.or_eq_true, beq_iff_eq] at h
  rcases h with (h | h) | h
  · exact h
  · exact absurd h hs.1
  · exact absurd h hs.2

theorem lex_trimmed (t : Text) (ts : List Token) (hs : SoqlSpaced t) (h : lex (trim t) = some ts) :
    lex t = some ts := by
  obtain ⟨hlead, htrail⟩ := trimmed_blanks t
  rw [trim_split t, List.append_assoc, lex_blanks _ _ fun c hc =>
    trimBlank_of_space c (hlead c hc).1 (hs c (hlead c hc).2)]
  exact lex_blanks_after _ _ _
    (fun c hc => trimBlank_of_space c (htrail c hc).1 (hs c (htrail c hc).2)) h

theorem blanks_unquoted (b : Text) (h : ∀ c ∈ b, isSpace c = true) : '\'' ∉ b := by
  intro hc
  exact absurd (h _ hc) (by decide)

theorem trimmed_unquoted (t : Text) (h : '\'' ∉ trim t) : '\'' ∉ t := by
  obtain ⟨hlead, htrail⟩ := trimmed_blanks t
  rw [trim_split t]
  simp only [List.mem_append, not_or]
  exact ⟨⟨blanks_unquoted _ fun c hc => (hlead c hc).1, h⟩,
    blanks_unquoted _ fun c hc => (htrail c hc).1⟩

/-! ### The tokens of a term -/

def wordTokens (name : Text) : List Token := if name = [] then [] else [wordToken name]

/-- What follows the call, an `AS` with it. -/
def nameTokens (t : AggTerm) : List Token :=
  (if t.introduced then [wordToken ((trim t.after).take 2)] else []) ++ wordTokens t.resultName

theorem introduced_text (t : AggTerm) (h : t.introduced = true) :
    ∃ a b rest, trim t.after = a :: b :: ' ' :: rest ∧ upper [a, b] = "AS".toList := by
  have hupper : "AS ".toList = ['A', 'S', ' '] := rfl
  simp only [AggTerm.introduced, Bool.and_eq_true, decide_eq_true_eq, beq_iff_eq, hupper] at h
  obtain ⟨hlen, htake⟩ := h
  match hafter : trim t.after with
  | [] | [_] | [_, _] => simp [hafter] at hlen
  | a :: b :: c :: rest =>
    rw [hafter] at htake
    have hchars : a.toUpper = 'A' ∧ b.toUpper = 'S' ∧ c.toUpper = ' ' := by
      simpa [upper] using htake
    have hc : c = ' ' := by
      rw [← toUpper_nonletter c (by rw [hchars.2.2]; rfl), hchars.2.2]
    refine ⟨a, b, rest, by rw [hc], ?_⟩
    simp [upper, hchars.1, hchars.2.1]

theorem introduced_rest (t : AggTerm) (h : t.introduced = true) (a b : Char) (rest : Text)
    (hafter : trim t.after = a :: b :: ' ' :: rest) : trim rest = t.resultName := by
  rw [AggTerm.resultName, if_pos h, hafter]
  rfl

theorem lex_wordTokens (name : Text) (h : name = [] ∨ isIdentifier name = true) :
    lex name = some (wordTokens name) := by
  unfold wordTokens
  rcases h with rfl | h
  · rfl
  · rw [if_neg (isIdentifier_chars name h).1, lex_identifier name h]

theorem introduced_word (a b : Char) (h : upper [a, b] = "AS".toList) :
    lex [a, b] = some [wordToken [a, b]] := by
  have hchars : a.toUpper = 'A' ∧ b.toUpper = 'S' := by simpa [upper] using h
  refine lex_word _ (by simp) ?_
  simp [isWordChar_toUpper a (by rw [hchars.1]; decide),
    isWordChar_toUpper b (by rw [hchars.2]; decide)]

theorem lex_name (t : AggTerm) (hs : SoqlSpaced t.after)
    (hname : t.resultName = [] ∨ isIdentifier t.resultName = true) :
    lex t.after = some (nameTokens t) := by
  refine lex_trimmed t.after _ hs ?_
  have hword := lex_wordTokens t.resultName hname
  unfold nameTokens
  by_cases hintro : t.introduced = true
  · obtain ⟨a, b, rest, hafter, has⟩ := introduced_text t hintro
    have hrest := introduced_rest t hintro a b rest hafter
    have hspaced : SoqlSpaced rest := by
      intro c hc
      refine hs c (mem_of_trim t.after c ?_)
      rw [hafter]
      simp [hc]
    rw [← hrest] at hword
    have hall := lex_space [a, b] rest _ _ (introduced_word a b has)
      (lex_trimmed rest _ hspaced hword)
    rw [if_pos hintro, hafter, ← hrest]
    exact hall
  · have hafter : trim t.after = t.resultName := by rw [AggTerm.resultName, if_neg hintro]
    rw [if_neg hintro, hafter, hword]
    rfl

theorem lex_func (term : Text) (h : Accepted term) :
    lex (recognised term).func = some [wordToken (recognised term).func] := by
  obtain ⟨hne, hchars⟩ := aggregateFn_chars _ (cutTerm_text _ _ h.cut).2
  exact lex_word _ hne hchars

/-- The tokens of a call, around those of its argument. -/
theorem lex_call (term : Text) (h : Accepted term) (e : SelectExpr)
    (he : parseExprText (recognised term).callText = some e) :
    ∃ ta, lex (recognised term).argument = some ta ∧
      e.tokens = wordToken (recognised term).func :: .lpar :: (ta ++ [.rpar]) := by
  have hlex := parseExprText_lex _ e he
  rw [AggTerm.callText, lex_delimiter _ _ '(' _ [.lpar] rfl (lex_func term h)] at hlex
  obtain ⟨u, hu, htokens⟩ := Option.map_eq_some_iff.mp hlex
  obtain ⟨ta, hargument, rfl⟩ := lex_close _ u hu
  exact ⟨ta, hargument, htokens.symm⟩

theorem lex_term (term : Text) (h : Accepted term) (hs : SoqlSpaced (outsideCall term))
    (e : SelectExpr) (he : parseExprText (recognised term).callText = some e) :
    lex term = some (e.tokens ++ nameTokens (recognised term)) := by
  obtain ⟨hbefore, hafter⟩ : SoqlSpaced (term.takeWhile isSpace ++ (recognised term).before) ∧
      SoqlSpaced ((recognised term).after ++
        ((term.dropWhile isSpace).reverse.takeWhile isSpace).reverse) := by
    rw [← soqlSpaced_append]
    simpa [outsideCall, List.append_assoc] using hs
  obtain ⟨hlead, hbefore⟩ := (soqlSpaced_append _ _).mp hbefore
  obtain ⟨hafter, htrail⟩ := (soqlSpaced_append _ _).mp hafter
  obtain ⟨hleadBlanks, htrailBlanks⟩ := trimmed_blanks term
  have hopen : lex (term.takeWhile isSpace ++ (recognised term).before) =
      some [wordToken (recognised term).func] := by
    rw [lex_blanks _ _ fun c hc => trimBlank_of_space c (hleadBlanks c hc).1 (hlead c hc)]
    exact lex_trimmed _ _ hbefore (lex_func term h)
  have hname : lex ((recognised term).after ++
      ((term.dropWhile isSpace).reverse.takeWhile isSpace).reverse) =
        some (nameTokens (recognised term)) :=
    lex_blanks_after _ _ _
      (fun c hc => trimBlank_of_space c (htrailBlanks c hc).1 (htrail c hc))
      (lex_name _ hafter h.named)
  obtain ⟨ta, hargument, htokens⟩ := lex_call term h e he
  rw [congrArg lex (term_text term h), lex_delimiter _ _ '(' _ [.lpar] rfl hopen,
    lex_delimiter _ _ ')' ta [.rpar] rfl hargument, hname, htokens]
  simp

/-! ### Reading on after a term -/

theorem resultName_unquoted (t : AggTerm)
    (h : t.resultName = [] ∨ isIdentifier t.resultName = true) : '\'' ∉ t.after := by
  have hname : '\'' ∉ t.resultName := by
    rcases h with h | h
    · rw [h]
      exact List.not_mem_nil
    · exact words_unquoted _ (isIdentifier_chars _ h).2
  refine trimmed_unquoted _ ?_
  by_cases hintro : t.introduced = true
  · obtain ⟨a, b, rest, hafter, has⟩ := introduced_text t hintro
    have hrest := introduced_rest t hintro a b rest hafter
    have htail : '\'' ∉ rest := trimmed_unquoted rest (by rw [hrest]; exact hname)
    have hchars : a.toUpper = 'A' ∧ b.toUpper = 'S' := by simpa [upper] using has
    rw [hafter]
    simp only [List.mem_cons, not_or]
    refine ⟨?_, ?_, by decide, htail⟩
    · intro heq
      subst heq
      exact absurd hchars.1 (by decide)
    · intro heq
      subst heq
      exact absurd hchars.2 (by decide)
  · have hafter : trim t.after = t.resultName := by rw [AggTerm.resultName, if_neg hintro]
    rw [hafter]
    exact hname

def callOf (term : Text) : SelectItem := ((recognised term).item).getD ⟨.literal [], none⟩

theorem call_item (term : Text) (h : ((recognised term).item).isSome) :
    (recognised term).item = some (callOf term) ∧
      parseExprText (recognised term).callText = some (callOf term).expr ∧
      (callOf term).resultName =
        if (recognised term).resultName = [] then none else some (recognised term).resultName := by
  obtain ⟨i, hi⟩ := Option.isSome_iff_exists.mp h
  obtain ⟨e, he, hitem⟩ := Option.map_eq_some_iff.mp hi
  rw [callOf, hi, Option.getD_some, ← hitem]
  exact ⟨rfl, he, rfl⟩

theorem isCall (term : Text) (h : Accepted term)
    (hcall : ((recognised term).item).isSome) :
    ∃ f e es, (callOf term).expr = .call f e es := by
  obtain ⟨ta, _, htokens⟩ := lex_call term h _ (call_item term hcall).2.1
  cases hexpr : (callOf term).expr with
  | call f e es => exact ⟨f, e, es, rfl⟩
  | field w =>
    rw [hexpr] at htokens
    simp [SelectExpr.tokens] at htokens
  | literal s =>
    rw [hexpr] at htokens
    simp [SelectExpr.tokens] at htokens

theorem lexRun_term (term : Text) (h : Accepted term) (hcall : ((recognised term).item).isSome)
    (s s' : LexState) (hs : s.mode.closed = true) (hrun : lexRun s term = some s') :
    s'.mode.closed = true ∧ SoqlSpaced (outsideCall term) := by
  obtain ⟨hlead, htrail⟩ := trimmed_blanks term
  obtain ⟨ta, hargument, _⟩ := lex_call term h _ (call_item term hcall).2.1
  have hchars := aggregateFn_chars _ (cutTerm_text _ _ h.cut).2
  have hbefore : '\'' ∉ term.takeWhile isSpace ++ (recognised term).before := by
    rw [List.mem_append, not_or]
    exact ⟨blanks_unquoted _ fun c hc => (hlead c hc).1,
      trimmed_unquoted _ (words_unquoted _ hchars.2)⟩
  have hafter : '\'' ∉ ')' :: ((recognised term).after ++
      ((term.dropWhile isSpace).reverse.takeWhile isSpace).reverse) := by
    rw [List.mem_cons, List.mem_append, not_or, not_or]
    exact ⟨by decide, resultName_unquoted _ h.named,
      blanks_unquoted _ fun c hc => (htrail c hc).1⟩
  rw [congrArg (lexRun s) (term_text term h), lexRun_append] at hrun
  obtain ⟨s1, hrun1, hrun⟩ := Option.bind_eq_some_iff.mp hrun
  obtain ⟨hs1, hspaced1⟩ := lexRun_closed _ s s1 hs hbefore hrun1
  rw [lexRun_cons] at hrun
  obtain ⟨s2, hstep, hrun⟩ := Option.bind_eq_some_iff.mp hrun
  have hidle := lexStep_open s1 s2 hs1 hstep
  rw [lexRun_append] at hrun
  obtain ⟨s3, hrun3, hlast⟩ := Option.bind_eq_some_iff.mp hrun
  obtain ⟨toks, mode⟩ := s2
  have hmode : mode = .idle := hidle
  rw [hmode] at hrun3
  have hs3 := lexRun_whole _ ta toks s3 hargument hrun3
  obtain ⟨hs', hspaced⟩ := lexRun_closed _ s3 s' hs3 hafter hlast
  have hend := (List.forall_mem_cons.mp hspaced).2
  refine ⟨hs', ?_⟩
  have hparts := (soqlSpaced_append _ _).mpr ⟨hspaced1, hend⟩
  simpa [outsideCall, List.append_assoc] using hparts

theorem lexRun_terms (terms : List Text) (h : ∀ term ∈ terms, Accepted term)
    (hcalls : ∀ term ∈ terms, ((recognised term).item).isSome) (s s' : LexState)
    (hs : s.mode.closed = true) (hrun : lexRun s (joinText [','] terms) = some s') :
    ∀ term ∈ terms, SoqlSpaced (outsideCall term) := by
  induction terms generalizing s with
  | nil => exact fun term hterm => by cases hterm
  | cons term terms ih =>
    have hterm := h term (List.mem_cons_self ..)
    have hcall := hcalls term (List.mem_cons_self ..)
    cases terms with
    | nil =>
      rw [List.forall_mem_singleton]
      exact (lexRun_term term hterm hcall s s' hs hrun).2
    | cons term' terms =>
      rw [joinText_cons, List.append_assoc, lexRun_append] at hrun
      obtain ⟨s1, hrun1, hrun⟩ := Option.bind_eq_some_iff.mp hrun
      obtain ⟨hs1, hspaced⟩ := lexRun_term term hterm hcall s s1 hs hrun1
      rw [List.singleton_append, lexRun_cons] at hrun
      obtain ⟨s2, hstep, hrun⟩ := Option.bind_eq_some_iff.mp hrun
      obtain ⟨hs2, _⟩ := lexStep_closed s1 s2 ',' hs1 (by decide) hstep
      exact List.forall_mem_cons.mpr ⟨hspaced,
        ih (fun x hx => h x (List.mem_cons_of_mem _ hx))
          (fun x hx => hcalls x (List.mem_cons_of_mem _ hx)) s2 hs2 hrun⟩

end DuckdbSalesforce
