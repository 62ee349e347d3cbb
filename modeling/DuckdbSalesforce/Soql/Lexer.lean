import DuckdbSalesforce.Text
import DuckdbSalesforce.Library.CondGrammar

/-!
# Reading SOQL text

The side that the service is on: a lexer for the condition part of SOQL and
for the SELECT statement around it. The lexer reads one character at a time,
so that two texts with a delimiter between them are read one after the other.
-/

namespace DuckdbSalesforce
open ThreeValued CondGrammar

inductive Atom where
  | word (w : Text)
  | sym (w : Text)
  | str (s : Text)
  | comma
  deriving DecidableEq, Repr

abbrev Token := Tok Atom

/-- The words that end a condition. -/
def clauseWords : List Text := ["SELECT".toList, "FROM".toList, "WHERE".toList, "LIMIT".toList]

def wordToken (w : Text) : Token :=
  if upper w = "AND".toList then .kwAnd
  else if upper w = "OR".toList then .kwOr
  else if upper w = "NOT".toList then .kwNot
  else if upper w ∈ clauseWords then .reserved (.word (upper w))
  else .atom (.word w)

def symToken (w : Text) : Option Token :=
  if w ∈ ["=".toList, "!=".toList, "<".toList, ">".toList, "<=".toList, ">=".toList] then
    some (.atom (.sym w))
  else none

/-- Names, numbers, dates and times: `Account.Name`, `1e+20`,
`2024-01-01T00:00:00Z`. -/
def isWordChar (c : Char) : Bool := isAlnum c || c ∈ ['_', '.', '-', '+', ':']

def isSymChar (c : Char) : Bool := c ∈ ['=', '!', '<', '>']

def escaped (c : Char) : Option Char :=
  if c ∈ ['\\', '\'', '"', '_', '%'] then some c
  else if c = 'n' then some '\n'
  else if c = 'r' then some '\r'
  else if c = 't' then some '\t'
  else none

inductive LexMode where
  | idle
  | word (w : Text)
  | sym (w : Text)
  | str (s : Text)
  | esc (s : Text)

structure LexState where
  toks : List Token
  mode : LexMode

/-- What a delimiter outside of strings contributes. -/
def delimiter (c : Char) : Option (List Token) :=
  if c ∈ [' ', '\t', '\n', '\r'] then some []
  else if c = '(' then some [.lpar]
  else if c = ')' then some [.rpar]
  else if c = ',' then some [.atom .comma]
  else none

def lexIdle (toks : List Token) (c : Char) : Option LexState :=
  match delimiter c with
  | some ts => some ⟨toks ++ ts, .idle⟩
  | none =>
    if c = '\'' then some ⟨toks, .str []⟩
    else if isWordChar c then some ⟨toks, .word [c]⟩
    else if isSymChar c then some ⟨toks, .sym [c]⟩
    else none

def lexStep (s : LexState) (c : Char) : Option LexState :=
  match s.mode with
  | .idle => lexIdle s.toks c
  | .word w => if isWordChar c then some ⟨s.toks, .word (w ++ [c])⟩
      else lexIdle (s.toks ++ [wordToken w]) c
  | .sym w => if isSymChar c then some ⟨s.toks, .sym (w ++ [c])⟩
      else (symToken w).bind fun t => lexIdle (s.toks ++ [t]) c
  | .str v => if c = '\\' then some ⟨s.toks, .esc v⟩
      else if c = '\'' then some ⟨s.toks ++ [.atom (.str v)], .idle⟩
      else some ⟨s.toks, .str (v ++ [c])⟩
  | .esc v => (escaped c).map fun d => ⟨s.toks, .str (v ++ [d])⟩

def lexRun (s : LexState) (t : Text) : Option LexState := t.foldlM lexStep s

/-- The tokens when the text ends here; an open string is an error. -/
def lexFinish (s : LexState) : Option (List Token) :=
  match s.mode with
  | .idle => some s.toks
  | .word w => some (s.toks ++ [wordToken w])
  | .sym w => (symToken w).map fun t => s.toks ++ [t]
  | .str _ => none
  | .esc _ => none

def lex (t : Text) : Option (List Token) := (lexRun ⟨[], .idle⟩ t).bind lexFinish

abbrev SoqlCond := Cond (Leaf Atom)

def parseCondition (t : Text) : Option SoqlCond := (lex t).bind parse

theorem lexRun_nil (s : LexState) : lexRun s [] = some s := rfl

theorem lexRun_cons (s : LexState) (c : Char) (t : Text) :
    lexRun s (c :: t) = (lexStep s c).bind fun s' => lexRun s' t := rfl

theorem lexRun_append (s : LexState) (a b : Text) :
    lexRun s (a ++ b) = (lexRun s a).bind fun s' => lexRun s' b := by
  simp only [lexRun, List.foldlM_append]
  rfl

/-! ### Tokens read before -/

def LexState.after (pre : List Token) (s : LexState) : LexState := ⟨pre ++ s.toks, s.mode⟩

theorem lexIdle_after (pre toks : List Token) (c : Char) :
    lexIdle (pre ++ toks) c = (lexIdle toks c).map (LexState.after pre) := by
  unfold lexIdle
  cases delimiter c with
  | some ts => simp [LexState.after]
  | none =>
    by_cases hq : c = '\''
    · simp [hq, LexState.after]
    · by_cases hw : isWordChar c = true
      · simp [hq, hw, LexState.after]
      · by_cases hs : isSymChar c = true
        · simp [hq, hw, hs, LexState.after]
        · simp [hq, hw, hs]

theorem lexStep_after (pre : List Token) (s : LexState) (c : Char) :
    lexStep (s.after pre) c = (lexStep s c).map (LexState.after pre) := by
  obtain ⟨toks, mode⟩ := s
  cases mode with
  | idle => exact lexIdle_after pre toks c
  | word w =>
    simp only [lexStep, LexState.after]
    by_cases hw : isWordChar c = true
    · simp [hw, LexState.after]
    · simp only [hw, Bool.false_eq_true, if_false]
      rw [List.append_assoc]
      exact lexIdle_after pre _ c
  | sym w =>
    simp only [lexStep, LexState.after]
    by_cases hw : isSymChar c = true
    · simp [hw, LexState.after]
    · simp only [hw, Bool.false_eq_true, if_false]
      cases symToken w with
      | none => rfl
      | some t =>
        rw [Option.bind_some, Option.bind_some, List.append_assoc]
        exact lexIdle_after pre _ c
  | str v =>
    simp only [lexStep, LexState.after]
    by_cases he : c = '\\'
    · simp [he, LexState.after]
    · by_cases hq : c = '\''
      · simp [hq, LexState.after]
      · simp [he, hq, LexState.after]
  | esc v =>
    simp only [lexStep, LexState.after]
    cases escaped c with
    | none => rfl
    | some d => rfl

theorem lexRun_after (pre : List Token) (t : Text) (s : LexState) :
    lexRun (s.after pre) t = (lexRun s t).map (LexState.after pre) := by
  induction t generalizing s with
  | nil => rfl
  | cons c t ih =>
    rw [lexRun_cons, lexRun_cons, lexStep_after]
    cases lexStep s c with
    | none => rfl
    | some s' => simpa using ih s'

theorem lexFinish_after (pre : List Token) (s : LexState) :
    lexFinish (s.after pre) = (lexFinish s).map fun ts => pre ++ ts := by
  obtain ⟨toks, mode⟩ := s
  cases mode with
  | idle => rfl
  | word w => simp [lexFinish, LexState.after]
  | sym w => cases hw : symToken w <;> simp [lexFinish, LexState.after, hw]
  | str v => rfl
  | esc v => rfl

/-- Reading on where a text has been read to its end. -/
theorem lex_resume (pre : List Token) (b : Text) :
    (lexRun ⟨pre, .idle⟩ b).bind lexFinish = (lex b).map fun ts => pre ++ ts := by
  have hrun := lexRun_after pre b ⟨[], .idle⟩
  simp only [LexState.after, List.append_nil] at hrun
  rw [hrun]
  unfold lex
  cases lexRun ⟨[], .idle⟩ b with
  | none => rfl
  | some s => exact lexFinish_after pre s

theorem delimiter_chars (c : Char) (ts : List Token) (h : delimiter c = some ts) :
    isWordChar c = false ∧ isSymChar c = false := by
  unfold delimiter at h
  by_cases hsp : c ∈ [' ', '\t', '\n', '\r']
  · simp only [List.mem_cons, List.not_mem_nil, or_false] at hsp
    rcases hsp with rfl | rfl | rfl | rfl <;> decide
  · rw [if_neg hsp] at h
    by_cases ho : c = '('
    · subst ho
      decide
    · by_cases hc : c = ')'
      · subst hc
        decide
      · by_cases hm : c = ','
        · subst hm
          decide
        · simp [ho, hc, hm] at h

theorem lexStep_delimiter (s : LexState) (c : Char) (ts ta : List Token)
    (hc : delimiter c = some ts) (hs : lexFinish s = some ta) :
    lexStep s c = some ⟨ta ++ ts, .idle⟩ := by
  obtain ⟨hword, hsym⟩ := delimiter_chars c ts hc
  obtain ⟨toks, mode⟩ := s
  cases mode with
  | idle =>
    simp only [lexFinish, Option.some.injEq] at hs
    simp [lexStep, lexIdle, hc, hs]
  | word w =>
    simp only [lexFinish, Option.some.injEq] at hs
    simp [lexStep, lexIdle, hc, hword, ← hs]
  | sym w =>
    simp only [lexFinish, Option.map_eq_some_iff] at hs
    obtain ⟨t, ht, rfl⟩ := hs
    simp [lexStep, lexIdle, hc, hsym, ht]
  | str v => simp [lexFinish] at hs
  | esc v => simp [lexFinish] at hs

/-- The text before a delimiter and the text after it are read separately. -/
theorem lex_delimiter (a b : Text) (c : Char) (ta ts : List Token) (hc : delimiter c = some ts)
    (ha : lex a = some ta) : lex (a ++ c :: b) = (lex b).map fun tb => ta ++ ts ++ tb := by
  obtain ⟨s, hs, hf⟩ := Option.bind_eq_some_iff.mp ha
  unfold lex
  rw [lexRun_append, hs, Option.bind_some, lexRun_cons, lexStep_delimiter s c ts ta hc hf,
    Option.bind_some]
  exact lex_resume (ta ++ ts) b

theorem lex_space (a b : Text) (ta tb : List Token) (ha : lex a = some ta) (hb : lex b = some tb) :
    lex (a ++ ' ' :: b) = some (ta ++ tb) := by
  rw [lex_delimiter a b ' ' ta [] rfl ha, hb]
  simp

theorem lex_parens (a : Text) (ta : List Token) (ha : lex a = some ta) :
    lex ('(' :: a ++ [')']) = some (.lpar :: ta ++ [.rpar]) := by
  have hclose : lex (a ++ [')']) = some (ta ++ [.rpar]) := by
    rw [lex_delimiter a [] ')' ta [.rpar] rfl ha]
    simp [lex, lexRun_nil, lexFinish]
  have hopen := lex_delimiter [] (a ++ [')']) '(' [] [.lpar] rfl rfl
  rw [hclose] at hopen
  simpa using hopen

/-! ### Words, operators and string literals -/

def isBareToken (w : Text) : Bool :=
  w != [] && w.all isWordChar &&
    !(["AND".toList, "OR".toList, "NOT".toList] ++ clauseWords).contains (upper w)

theorem wordToken_bare (w : Text) (h : isBareToken w = true) : wordToken w = .atom (.word w) := by
  simp only [isBareToken, Bool.and_eq_true, Bool.not_eq_true', List.contains_eq_mem,
    decide_eq_false_iff_not, List.mem_append, List.mem_cons, not_or] at h
  unfold wordToken
  rw [if_neg h.2.1.1, if_neg h.2.1.2.1, if_neg h.2.1.2.2.1, if_neg h.2.2]

theorem lexRun_word (w u : Text) (toks : List Token) (h : w.all isWordChar = true) :
    lexRun ⟨toks, .word u⟩ w = some ⟨toks, .word (u ++ w)⟩ := by
  induction w generalizing u with
  | nil => rw [lexRun_nil, List.append_nil]
  | cons c w ih =>
    simp only [List.all_cons, Bool.and_eq_true] at h
    rw [lexRun_cons]
    simp only [lexStep, h.1, if_true, Option.bind_some]
    rw [ih (u ++ [c]) h.2, List.append_assoc, List.singleton_append]

theorem isWordChar_idle (toks : List Token) (c : Char) (h : isWordChar c = true) :
    lexIdle toks c = some ⟨toks, .word [c]⟩ := by
  have hd : delimiter c = none := by
    cases hd : delimiter c with
    | none => rfl
    | some ts => simp [(delimiter_chars c ts hd).1] at h
  have hq : c ≠ '\'' := by
    intro heq
    subst heq
    exact absurd h (by decide)
  simp [lexIdle, hd, hq, h]

theorem lex_word (w : Text) (hne : w ≠ []) (h : w.all isWordChar = true) :
    lex w = some [wordToken w] := by
  obtain ⟨c, w, rfl⟩ := List.exists_cons_of_ne_nil hne
  simp only [List.all_cons, Bool.and_eq_true] at h
  unfold lex
  rw [lexRun_cons]
  simp only [lexStep, isWordChar_idle [] c h.1, Option.bind_some]
  rw [lexRun_word w [c] [] h.2]
  rfl

theorem lex_bare (w : Text) (h : isBareToken w = true) : lex w = some [.atom (.word w)] := by
  have hparts := h
  simp only [isBareToken, Bool.and_eq_true, bne_iff_ne] at hparts
  rw [lex_word w hparts.1.1 hparts.1.2, wordToken_bare w h]

/-! ### What can be read at all -/

/-- A token of the lexer: a word is a nonempty run of word characters that is
no keyword. -/
def ReadToken : Token → Prop
  | .atom (.word w) => isBareToken w = true
  | _ => True

theorem readToken_word (w : Text) (hne : w ≠ []) (h : w.all isWordChar = true) :
    ReadToken (wordToken w) := by
  by_cases hbare : isBareToken w = true
  · rw [wordToken_bare w hbare]
    exact hbare
  · unfold wordToken
    by_cases ha : upper w = "AND".toList
    · rw [if_pos ha]
      trivial
    · by_cases ho : upper w = "OR".toList
      · rw [if_neg ha, if_pos ho]
        trivial
      · by_cases hn : upper w = "NOT".toList
        · rw [if_neg ha, if_neg ho, if_pos hn]
          trivial
        · by_cases hr : upper w ∈ clauseWords
          · rw [if_neg ha, if_neg ho, if_neg hn, if_pos hr]
            trivial
          · refine absurd ?_ hbare
            simpa [isBareToken, hne, h, hr] using And.intro ha (And.intro ho hn)

theorem readToken_sym (w : Text) (t : Token) (h : symToken w = some t) : ReadToken t := by
  unfold symToken at h
  split at h
  · cases h
    trivial
  · cases h

def LexMode.Read : LexMode → Prop
  | .word w => w ≠ [] ∧ w.all isWordChar = true
  | _ => True

theorem lexIdle_read (toks : List Token) (c : Char) (s : LexState)
    (h : ∀ t ∈ toks, ReadToken t) (hs : lexIdle toks c = some s) :
    (∀ t ∈ s.toks, ReadToken t) ∧ s.mode.Read := by
  unfold lexIdle at hs
  cases hd : delimiter c with
  | some ts =>
    simp only [hd, Option.some.injEq] at hs
    subst hs
    refine ⟨?_, trivial⟩
    have hts : ∀ t ∈ ts, ReadToken t := by
      unfold delimiter at hd
      repeat' split at hd
      all_goals cases hd
      all_goals simp [ReadToken]
    intro t ht
    rcases List.mem_append.mp ht with ht | ht
    · exact h t ht
    · exact hts t ht
  | none =>
    simp only [hd] at hs
    by_cases hq : c = '\''
    · simp only [hq, if_true, Option.some.injEq] at hs
      subst hs
      exact ⟨h, trivial⟩
    · by_cases hw : isWordChar c = true
      · simp only [hq, hw, if_false, if_true, Option.some.injEq] at hs
        subst hs
        exact ⟨h, by simp, by simpa using hw⟩
      · by_cases hsym : isSymChar c = true
        · simp only [hq, hw, hsym, if_false, if_true, Option.some.injEq, Bool.false_eq_true] at hs
          subst hs
          exact ⟨h, trivial⟩
        · simp [hq, hw, hsym] at hs

theorem append_read (toks : List Token) (t : Token) (h : ∀ u ∈ toks, ReadToken u)
    (ht : ReadToken t) : ∀ u ∈ toks ++ [t], ReadToken u := by
  intro u hu
  rcases List.mem_append.mp hu with hu | hu
  · exact h u hu
  · rw [List.mem_singleton.mp hu]
    exact ht

theorem lexStep_read (s s' : LexState) (c : Char) (h : ∀ t ∈ s.toks, ReadToken t)
    (hm : s.mode.Read) (hs : lexStep s c = some s') :
    (∀ t ∈ s'.toks, ReadToken t) ∧ s'.mode.Read := by
  obtain ⟨toks, mode⟩ := s
  cases mode with
  | idle => exact lexIdle_read toks c s' h hs
  | word w =>
    simp only [lexStep] at hs
    by_cases hw : isWordChar c = true
    · simp only [hw, if_true, Option.some.injEq] at hs
      subst hs
      refine ⟨h, by simp, ?_⟩
      simp only [List.all_append, List.all_cons, List.all_nil, hw, Bool.and_true]
      exact hm.2
    · simp only [hw, Bool.false_eq_true, if_false] at hs
      exact lexIdle_read _ c s' (append_read toks _ h (readToken_word w hm.1 hm.2)) hs
  | sym w =>
    simp only [lexStep] at hs
    by_cases hw : isSymChar c = true
    · simp only [hw, if_true, Option.some.injEq] at hs
      subst hs
      exact ⟨h, trivial⟩
    · simp only [hw, Bool.false_eq_true, if_false] at hs
      obtain ⟨t, ht, hs⟩ := Option.bind_eq_some_iff.mp hs
      exact lexIdle_read _ c s' (append_read toks t h (readToken_sym w t ht)) hs
  | str v =>
    simp only [lexStep] at hs
    by_cases he : c = '\\'
    · simp only [he, if_true, Option.some.injEq] at hs
      subst hs
      exact ⟨h, trivial⟩
    · by_cases hq : c = '\''
      · subst hq
        simp only [he, if_false, if_true, Option.some.injEq] at hs
        subst hs
        exact ⟨append_read toks _ h trivial, trivial⟩
      · simp only [he, hq, if_false, Option.some.injEq] at hs
        subst hs
        exact ⟨h, trivial⟩
  | esc v =>
    simp only [lexStep, Option.map_eq_some_iff] at hs
    obtain ⟨d, _, rfl⟩ := hs
    exact ⟨h, trivial⟩

theorem lexRun_read (t : Text) (s s' : LexState) (h : ∀ t ∈ s.toks, ReadToken t)
    (hm : s.mode.Read) (hs : lexRun s t = some s') :
    (∀ t ∈ s'.toks, ReadToken t) ∧ s'.mode.Read := by
  induction t generalizing s with
  | nil =>
    simp only [lexRun_nil, Option.some.injEq] at hs
    rw [← hs]
    exact ⟨h, hm⟩
  | cons c t ih =>
    rw [lexRun_cons] at hs
    obtain ⟨m, hstep, hrun⟩ := Option.bind_eq_some_iff.mp hs
    obtain ⟨hm1, hm2⟩ := lexStep_read s m c h hm hstep
    exact ih m hm1 hm2 hrun

theorem lex_read (t : Text) (ts : List Token) (h : lex t = some ts) : ∀ u ∈ ts, ReadToken u := by
  obtain ⟨s, hs, hf⟩ := Option.bind_eq_some_iff.mp h
  obtain ⟨htoks, hmode⟩ := lexRun_read t ⟨[], .idle⟩ s (by simp) trivial hs
  obtain ⟨toks, mode⟩ := s
  cases mode with
  | idle =>
    simp only [lexFinish, Option.some.injEq] at hf
    rwa [← hf]
  | word w =>
    simp only [lexFinish, Option.some.injEq] at hf
    rw [← hf]
    exact append_read toks _ htoks (readToken_word w hmode.1 hmode.2)
  | sym w =>
    simp only [lexFinish, Option.map_eq_some_iff] at hf
    obtain ⟨t, ht, rfl⟩ := hf
    exact append_read toks t htoks (readToken_sym w t ht)
  | str v => simp [lexFinish] at hf
  | esc v => simp [lexFinish] at hf

/-! ### Blanks, closed texts -/

/-- No vertical tab and no form feed: blanks in C, nothing in SOQL. -/
def SoqlSpaced (t : Text) : Prop := ∀ c ∈ t, c ≠ '\x0b' ∧ c ≠ '\x0c'

theorem soqlSpaced_append (a b : Text) : SoqlSpaced (a ++ b) ↔ SoqlSpaced a ∧ SoqlSpaced b := by
  simp only [SoqlSpaced, List.forall_mem_append]

theorem soqlSpaced_iff (t : Text) :
    SoqlSpaced t ↔ (t.all fun c => c != '\x0b' && c != '\x0c') = true := by
  simp [SoqlSpaced]

instance : DecidablePred SoqlSpaced := fun t => decidable_of_iff _ (soqlSpaced_iff t).symm

theorem delimiter_blank (c : Char) (h : isTrimBlank c = true) : delimiter c = some [] := by
  simp only [isTrimBlank, Bool.or_eq_true, beq_iff_eq] at h
  rcases h with ((rfl | rfl) | rfl) | rfl <;> rfl

theorem lex_blanks (b t : Text) (h : ∀ c ∈ b, isTrimBlank c = true) : lex (b ++ t) = lex t := by
  induction b with
  | nil => rfl
  | cons c b ih =>
    have hrest := ih fun d hd => h d (List.mem_cons_of_mem _ hd)
    have hc := lex_delimiter [] (b ++ t) c [] [] (delimiter_blank c (h c (List.mem_cons_self ..)))
      rfl
    rw [hrest] at hc
    simpa using hc

theorem lex_blanks_after (t b : Text) (ts : List Token) (h : ∀ c ∈ b, isTrimBlank c = true)
    (ht : lex t = some ts) : lex (t ++ b) = some ts := by
  cases b with
  | nil => rw [List.append_nil, ht]
  | cons c b =>
    have hb := lex_blanks b [] fun d hd => h d (List.mem_cons_of_mem _ hd)
    rw [List.append_nil] at hb
    rw [lex_delimiter t b c ts [] (delimiter_blank c (h c (List.mem_cons_self ..))) ht, hb]
    simp [lex, lexRun_nil, lexFinish]

/-- A closing parenthesis is read apart from what is before it. -/
theorem lex_close (a : Text) (ts : List Token) (h : lex (a ++ [')']) = some ts) :
    ∃ ta, lex a = some ta ∧ ts = ta ++ [.rpar] := by
  cases ha : lex a with
  | some ta =>
    rw [lex_delimiter a [] ')' ta [.rpar] rfl ha] at h
    refine ⟨ta, rfl, ?_⟩
    simpa [lex, lexRun_nil, lexFinish] using h.symm
  | none =>
    unfold lex at h ha
    rw [lexRun_append] at h
    cases hrun : lexRun ⟨[], .idle⟩ a with
    | none =>
      rw [hrun] at h
      cases h
    | some s =>
      rw [hrun, Option.bind_some] at h ha
      obtain ⟨toks, mode⟩ := s
      cases mode with
      | idle => cases ha
      | word w => cases ha
      | sym w =>
        simp only [lexFinish, Option.map_eq_none_iff] at ha
        have hstep : lexStep ⟨toks, .sym w⟩ ')' = none := by
          simp [lexStep, ha, isSymChar]
        rw [lexRun_cons, hstep] at h
        cases h
      | str v => cases h
      | esc v => cases h

def LexMode.closed : LexMode → Bool
  | .idle | .word _ | .sym _ => true
  | .str _ | .esc _ => false

theorem lexIdle_closed (toks : List Token) (c : Char) (s : LexState) (hc : c ≠ '\'')
    (h : lexIdle toks c = some s) : s.mode.closed = true ∧ c ≠ '\x0b' ∧ c ≠ '\x0c' := by
  refine ⟨?_, ?_, ?_⟩
  · unfold lexIdle at h
    cases hd : delimiter c with
    | some ts =>
      simp only [hd, Option.some.injEq] at h
      rw [← h]
      rfl
    | none =>
      simp only [hd, hc, if_false] at h
      by_cases hword : isWordChar c = true
      · rw [if_pos hword, Option.some.injEq] at h
        rw [← h]
        rfl
      · by_cases hsym : isSymChar c = true
        · rw [if_neg hword, if_pos hsym, Option.some.injEq] at h
          rw [← h]
          rfl
        · rw [if_neg hword, if_neg hsym] at h
          cases h
  · intro heq
    subst heq
    cases h
  · intro heq
    subst heq
    cases h

theorem lexStep_closed (s s' : LexState) (c : Char) (hs : s.mode.closed = true) (hc : c ≠ '\'')
    (h : lexStep s c = some s') : s'.mode.closed = true ∧ c ≠ '\x0b' ∧ c ≠ '\x0c' := by
  obtain ⟨toks, mode⟩ := s
  cases mode with
  | idle => exact lexIdle_closed toks c s' hc h
  | word w =>
    simp only [lexStep] at h
    by_cases hword : isWordChar c = true
    · rw [if_pos hword, Option.some.injEq] at h
      rw [← h]
      refine ⟨rfl, ?_, ?_⟩
      · intro heq
        subst heq
        cases hword
      · intro heq
        subst heq
        cases hword
    · rw [if_neg hword] at h
      exact lexIdle_closed _ c s' hc h
  | sym w =>
    simp only [lexStep] at h
    by_cases hsym : isSymChar c = true
    · rw [if_pos hsym, Option.some.injEq] at h
      rw [← h]
      refine ⟨rfl, ?_, ?_⟩
      · intro heq
        subst heq
        cases hsym
      · intro heq
        subst heq
        cases hsym
    · rw [if_neg hsym] at h
      obtain ⟨t, _, h⟩ := Option.bind_eq_some_iff.mp h
      exact lexIdle_closed _ c s' hc h
  | str v => cases hs
  | esc v => cases hs

theorem lexRun_closed (t : Text) (s s' : LexState) (hs : s.mode.closed = true) (ht : '\'' ∉ t)
    (h : lexRun s t = some s') : s'.mode.closed = true ∧ SoqlSpaced t := by
  induction t generalizing s with
  | nil =>
    rw [lexRun_nil, Option.some.injEq] at h
    rw [← h]
    exact ⟨hs, fun c hc => by cases hc⟩
  | cons c t ih =>
    rw [lexRun_cons] at h
    obtain ⟨m, hstep, hrun⟩ := Option.bind_eq_some_iff.mp h
    simp only [List.mem_cons, not_or] at ht
    obtain ⟨hm, hchar⟩ := lexStep_closed s m c hs (Ne.symm ht.1) hstep
    obtain ⟨hs', hrest⟩ := ih m hm ht.2 hrun
    exact ⟨hs', List.forall_mem_cons.mpr ⟨hchar, hrest⟩⟩

/-- A text that is read to its end leaves no string open. -/
theorem lexRun_whole (t : Text) (ta toks : List Token) (s : LexState) (ht : lex t = some ta)
    (h : lexRun ⟨toks, .idle⟩ t = some s) : s.mode.closed = true := by
  obtain ⟨s0, hrun, hfinish⟩ := Option.bind_eq_some_iff.mp ht
  have hafter := lexRun_after toks t ⟨[], .idle⟩
  simp only [LexState.after, List.append_nil] at hafter
  rw [hafter, hrun, Option.map_some, Option.some.injEq] at h
  rw [← h]
  obtain ⟨toks0, mode⟩ := s0
  cases mode with
  | idle | word _ | sym _ => rfl
  | str v => cases hfinish
  | esc v => cases hfinish

theorem lexStep_open (s s' : LexState) (hs : s.mode.closed = true) (h : lexStep s '(' = some s') :
    s'.mode = .idle := by
  have hidle : ∀ toks : List Token, lexIdle toks '(' = some ⟨toks ++ [.lpar], .idle⟩ := fun _ => rfl
  obtain ⟨toks, mode⟩ := s
  cases mode with
  | idle =>
    rw [lexStep, hidle, Option.some.injEq] at h
    rw [← h]
  | word w =>
    have hword : isWordChar '(' = false := by decide
    simp only [lexStep, hword, Bool.false_eq_true, if_false, hidle, Option.some.injEq] at h
    rw [← h]
  | sym w =>
    have hsym : isSymChar '(' = false := by decide
    simp only [lexStep, hsym, Bool.false_eq_true, if_false, hidle] at h
    obtain ⟨t, _, h⟩ := Option.bind_eq_some_iff.mp h
    rw [← Option.some.inj h]
  | str v => cases hs
  | esc v => cases hs

theorem words_unquoted (w : Text) (h : w.all isWordChar = true) : '\'' ∉ w := by
  intro hc
  exact absurd (List.all_eq_true.mp h _ hc) (by decide)

/-! ### Statements -/

def clauseToken (w : String) : Token := .reserved (.word w.toList)

def isReserved : Token → Bool
  | .reserved _ => true
  | _ => false

/-- A SELECT statement: the tokens of its select list, its object, its
condition and its row limit. -/
structure SelectStatement where
  items : List Token
  object : Text
  condition : Option SoqlCond
  limit : Option Text

def parseLimit : List Token → Option (Option Text)
  | [] => some none
  | [t, .atom (.word n)] => if t = clauseToken "LIMIT" then some (some n) else none
  | _ => none

def parseTail (items : List Token) (object : Text) (ts : List Token) : Option SelectStatement :=
  match ts with
  | [] => some ⟨items, object, none, none⟩
  | t :: rest =>
    if t = clauseToken "WHERE" then
      (parse (rest.takeWhile fun u => !isReserved u)).bind fun c =>
        (parseLimit (rest.dropWhile fun u => !isReserved u)).map fun n => ⟨items, object, some c, n⟩
    else (parseLimit ts).map fun n => ⟨items, object, none, n⟩

def parseStatement : List Token → Option SelectStatement
  | [] => none
  | t :: rest =>
    if t = clauseToken "SELECT" then
      match rest.dropWhile fun u => !isReserved u with
      | u :: .atom (.word object) :: tail =>
        if u = clauseToken "FROM" then
          parseTail (rest.takeWhile fun u => !isReserved u) object tail
        else none
      | _ => none
    else none

def parseSelect (t : Text) : Option SelectStatement := (lex t).bind parseStatement

end DuckdbSalesforce
