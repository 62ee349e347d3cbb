import DuckdbSalesforce.Json.Reader
import DuckdbSalesforce.Library.CondGrammar

/-!
# The filter logic of a report (`salesforce_report.cpp`)

`BooleanFilterAndOnly` decides from the text of `reportBooleanFilter` whether
ANDing all filters keeps its meaning. The text is a condition over the numbers
of the filters.
-/

namespace DuckdbSalesforce
open ThreeValued CondGrammar

/-! ### BooleanFilterAndOnly -/

def isFilterBlank (c : Char) : Bool := c == ' ' || c == '\t'

/-- `toks`, from the token `t` on. -/
def filterTokens (t : Text) : Text → List Text
  | [] => if t = [] then [] else [t]
  | c :: rest =>
    if isFilterBlank c then
      if t = [] then filterTokens [] rest else t :: filterTokens [] rest
    else filterTokens (t ++ [c]) rest

/-- `std::stoi` on digits; out of range it throws. -/
def stoi (digits : Text) : Option ℕ :=
  if decimal digits ≤ 2147483647 then some (decimal digits) else none

def filterIndexOk (nfilters : ℕ) (tok : Text) : Bool :=
  tok.all Char.isDigit &&
    match stoi tok with
    | none => false
    | some idx => decide (1 ≤ idx) && decide (idx ≤ nfilters)

/-- Numbers and ANDs in turn, `i` counting the tokens before. -/
def filterTokensOk (nfilters : ℕ) : ℕ → List Text → Bool
  | _, [] => true
  | i, tok :: toks =>
    (if i % 2 = 0 then filterIndexOk nfilters tok else ciEquals tok "AND".toList) &&
      filterTokensOk nfilters (i + 1) toks

def booleanFilterAndOnly (bf : Text) (nfilters : ℕ) : Bool :=
  if bf = [] then true
  else
    let toks := filterTokens [] bf
    if toks = [] ∨ toks.length % 2 = 0 then false else filterTokensOk nfilters 0 toks

/-! ### What the text means -/

def logicWord (w : Text) : Option (Tok ℕ) :=
  if ciEquals w "AND".toList then some .kwAnd
  else if ciEquals w "OR".toList then some .kwOr
  else if ciEquals w "NOT".toList then some .kwNot
  else if w.all Char.isDigit then some (.atom (decimal w))
  else none

def logicWords (ws : List Text) : Option (List (Tok ℕ)) := ws.mapM logicWord

def isLogicBlank (c : Char) : Bool := c == ' ' || c == '\t' || c == '\n' || c == '\r'

/-- The tokens of filter logic, the word `w` being read. -/
def lexLogic (w : Text) : Text → Option (List (Tok ℕ))
  | [] => logicWords (if w = [] then [] else [w])
  | c :: t =>
    if isLogicBlank c ∨ c = '(' ∨ c = ')' then
      (logicWords (if w = [] then [] else [w])).bind fun before =>
        (lexLogic [] t).map fun after =>
          before ++ (if c = '(' then [.lpar] else if c = ')' then [.rpar] else []) ++ after
    else lexLogic (w ++ [c]) t

/-- What the filter logic of a report with `n` filters asks for, as a condition
over filter numbers. Without filter logic it asks for all filters. -/
inductive FilterLogic (n : ℕ) : Text → Cond ℕ → Prop
  | all : FilterLogic n [] (.all ((List.range n).map fun i => .leaf (i + 1)))
  | written (bf : Text) (toks : List (Tok ℕ)) (c : Cond ℕ) (hlex : lexLogic [] bf = some toks)
      (hparse : parse toks = some (c.map fun k => [.atom k])) : FilterLogic n bf c

def logicValue (v : ℕ → Bool) (c : Cond ℕ) : Truth := c.eval fun k => .ofBool (v k)

/-- The text is a condition, and means that all filters hold. -/
def AsksForAll (n : ℕ) (bf : Text) : Prop :=
  ∃ c, FilterLogic n bf c ∧
    ∀ v : ℕ → Bool, logicValue v c = .ofBool ((List.range n).all fun i => v (i + 1))

/-- The words of the text are numbers of filters with AND between them. -/
inductive AndChain (n : ℕ) : List Text → List ℕ → Prop
  | last (w : Text) (h : filterIndexOk n w = true) : AndChain n [w] [decimal w]
  | more (w a : Text) (ws : List Text) (ks : List ℕ) (h : filterIndexOk n w = true)
      (ha : ciEquals a "AND".toList = true) (rest : AndChain n ws ks) :
    AndChain n (w :: a :: ws) (decimal w :: ks)

/-! ### What is accepted -/

section Accepted
variable (n : ℕ)

theorem tokensOk_chain (i : ℕ) (hi : i % 2 = 0) (toks : List Text) (hodd : toks.length % 2 = 1) :
    filterTokensOk n i toks = true ↔ ∃ ks, AndChain n toks ks := by
  match toks with
  | [] => cases hodd
  | [w] =>
    rw [filterTokensOk, filterTokensOk, if_pos hi, Bool.and_true]
    constructor
    · intro h
      exact ⟨_, .last w h⟩
    · intro hgiven
      obtain ⟨ks, h⟩ := hgiven
      cases h with
      | last _ h => exact h
  | w :: a :: ws =>
    have hodd' : ws.length % 2 = 1 := by
      simp only [List.length_cons] at hodd
      omega
    have hrest := tokensOk_chain (i + 1 + 1) (by omega) ws hodd'
    rw [filterTokensOk, filterTokensOk, if_pos hi, if_neg (by omega), Bool.and_eq_true,
      Bool.and_eq_true, hrest]
    constructor
    · intro hgiven
      obtain ⟨hw, ha, ks, hks⟩ := hgiven
      exact ⟨_, .more w a ws ks hw ha hks⟩
    · intro hgiven
      obtain ⟨ks, h⟩ := hgiven
      cases h with
      | more _ _ _ ks hw ha hks => exact ⟨hw, ha, ks, hks⟩

theorem chain_odd (ws : List Text) (ks : List ℕ) (h : AndChain n ws ks) : ws.length % 2 = 1 := by
  induction h with
  | last w h => rfl
  | more w a ws ks h ha rest ih =>
    simp only [List.length_cons]
    omega

theorem accepted_iff (bf : Text) : booleanFilterAndOnly bf n = true ↔
    bf = [] ∨ ∃ ks, AndChain n (filterTokens [] bf) ks := by
  unfold booleanFilterAndOnly
  by_cases hbf : bf = []
  · exact iff_of_true (if_pos hbf) (Or.inl hbf)
  rw [if_neg hbf]
  simp only [hbf, false_or]
  split
  · rename_i hshape
    refine iff_of_false Bool.false_ne_true ?_
    intro hgiven
    obtain ⟨ks, h⟩ := hgiven
    have hodd := chain_odd n _ ks h
    rcases hshape with hnil | heven
    · rw [hnil] at hodd
      cases hodd
    · omega
  · rename_i hshape
    exact tokensOk_chain n 0 rfl _ (by omega)

end Accepted

/-! ### What an accepted text means -/

theorem logicValue_bool (v : ℕ → Bool) (c : Cond ℕ) : ∃ b, logicValue v c = .ofBool b := by
  unfold logicValue
  induction c using Cond.induct with
  | leaf k => exact ⟨v k, rfl⟩
  | all cs ih =>
    rw [Cond.eval]
    induction cs with
    | nil => exact ⟨true, rfl⟩
    | cons c cs ihs =>
      obtain ⟨a, ha⟩ := ih c List.mem_cons_self
      obtain ⟨b, hb⟩ := ihs fun d hd => ih d (List.mem_cons_of_mem _ hd)
      rw [Cond.evalAll, ha, hb]
      exact ⟨a && b, by cases a <;> cases b <;> rfl⟩
  | any cs ih =>
    rw [Cond.eval]
    induction cs with
    | nil => exact ⟨false, rfl⟩
    | cons c cs ihs =>
      obtain ⟨a, ha⟩ := ih c List.mem_cons_self
      obtain ⟨b, hb⟩ := ihs fun d hd => ih d (List.mem_cons_of_mem _ hd)
      rw [Cond.evalAny, ha, hb]
      exact ⟨a || b, by cases a <;> cases b <;> rfl⟩
  | neg c ih =>
    obtain ⟨a, ha⟩ := ih
    rw [Cond.eval, ha]
    exact ⟨!a, by cases a <;> rfl⟩

theorem logicValue_eq (v : ℕ → Bool) (c : Cond ℕ) (b : Bool)
    (h : logicValue v c = .tt ↔ b = true) : logicValue v c = .ofBool b := by
  obtain ⟨a, ha⟩ := logicValue_bool v c
  rw [ha] at h ⊢
  rw [Truth.ofBool_eq_tt] at h
  rw [Bool.eq_iff_iff.mpr h]

def chainCond (ks : List ℕ) : Cond ℕ := Cond.mkAll (ks.map fun k => .leaf k)

theorem chainCond_value (v : ℕ → Bool) (ks : List ℕ) :
    logicValue v (chainCond ks) = .ofBool (ks.all v) := by
  apply logicValue_eq
  unfold logicValue chainCond
  rw [Cond.eval_mkAll_eq_tt, List.all_eq_true, List.forall_mem_map]
  simp only [Cond.eval, Truth.ofBool_eq_tt]

theorem chainCond_map {γ : Type} (f : ℕ → γ) (ks : List ℕ) :
    (chainCond ks).map f = Cond.mkAll (ks.map fun k => .leaf (f k)) := by
  match ks with
  | [] => rfl
  | [k] => rfl
  | j :: k :: ks =>
    have hleaves : Cond.mapList f ((j :: k :: ks).map fun i => .leaf i) =
        (j :: k :: ks).map fun i => .leaf (f i) := by
      rw [Cond.mapList_eq, List.map_map]
      rfl
    exact congrArg Cond.all hleaves

def chainTokens (ks : List ℕ) : List (Tok ℕ) := joinTok .kwAnd (ks.map fun k => [.atom k])

theorem parse_chain (ks : List ℕ) (hne : ks ≠ []) :
    parse (chainTokens ks) = some ((chainCond ks).map fun k => [.atom k]) := by
  let operand : ℕ → List (Tok ℕ) × Cond (Leaf ℕ) := fun k => ([.atom k], .leaf [.atom k])
  have hjoin : alternatives (chainTokens ks) = some [ks.map fun k => .leaf [.atom k]] := by
    have hops := alternatives_joinAnd (ks.map operand) (by simpa using hne) (by
      intro p hp
      obtain ⟨k, _, rfl⟩ := List.mem_map.mp hp
      exact operand_leaf k [] rfl)
    rw [List.map_map, List.map_map] at hops
    exact hops
  unfold parse
  rw [hjoin, chainCond_map]
  rfl

/-! ### The words the code reads are those of the text -/

def PlainWord (w : Text) : Prop := ∀ c ∈ w, ¬ (isLogicBlank c = true ∨ c = '(' ∨ c = ')')

theorem notDigit_separator (c : Char) (h : isLogicBlank c = true ∨ c = '(' ∨ c = ')') :
    c.isDigit = false ∧ c.toLower ∉ lower "AND".toList := by
  have hsep : c = ' ' ∨ c = '\t' ∨ c = '\n' ∨ c = '\r' ∨ c = '(' ∨ c = ')' := by
    simp only [isLogicBlank, Bool.or_eq_true, beq_iff_eq] at h
    tauto
  rcases hsep with rfl | rfl | rfl | rfl | rfl | rfl <;> exact ⟨rfl, by decide⟩

theorem plainWord_of (w : Text)
    (h : w.all Char.isDigit = true ∨ ciEquals w "AND".toList = true) : PlainWord w := by
  intro c hc hsep
  obtain ⟨hdigit, hand⟩ := notDigit_separator c hsep
  rcases h with h | h
  · have hall := List.all_eq_true.mp h c hc
    rw [hdigit] at hall
    cases hall
  · have hsame : lower w = lower "AND".toList := by simpa [ciEquals] using h
    apply hand
    rw [← hsame]
    exact List.mem_map_of_mem hc

theorem filterTokens_nonempty (t w : Text) : ∀ u ∈ filterTokens w t, u ≠ [] := by
  induction t generalizing w with
  | nil =>
    intro u hu
    rw [filterTokens] at hu
    split at hu
    · cases hu
    · rename_i hw
      rw [List.mem_singleton.mp hu]
      exact hw
  | cons c t ih =>
    intro u hu
    rw [filterTokens] at hu
    split at hu
    · split at hu
      · exact ih [] u hu
      · rename_i hw
        rcases List.mem_cons.mp hu with rfl | hu
        · exact hw
        · exact ih [] u hu
    · exact ih _ u hu

theorem filterTokens_word (t w : Text) (c : Char) (hc : c ∈ w) :
    ∃ u ∈ filterTokens w t, c ∈ u := by
  have hne : w ≠ [] := List.ne_nil_of_mem hc
  induction t generalizing w with
  | nil => exact ⟨w, by rw [filterTokens, if_neg hne]; exact List.mem_singleton_self w, hc⟩
  | cons d t ih =>
    rw [filterTokens, if_neg hne]
    split
    · exact ⟨w, List.mem_cons_self, hc⟩
    · exact ih (w ++ [d]) (List.mem_append_left _ hc) (by simp)

theorem filterBlank_logic (c : Char) (h : isFilterBlank c = true) : isLogicBlank c = true := by
  simp only [isFilterBlank, isLogicBlank, Bool.or_eq_true, beq_iff_eq] at *
  tauto

theorem logicWords_cons (w : Text) (ws : List Text) :
    logicWords (w :: ws) = (logicWord w).bind fun t => (logicWords ws).map fun ts => t :: ts := by
  unfold logicWords
  rw [List.mapM_cons]
  cases logicWord w with
  | none => rfl
  | some t => cases List.mapM logicWord ws <;> rfl

/-- Where all tokens of the code are plain, they are the words of the text. -/
theorem lexLogic_plain (t w : Text) (h : ∀ u ∈ filterTokens w t, PlainWord u) :
    lexLogic w t = logicWords (filterTokens w t) := by
  induction t generalizing w with
  | nil => rfl
  | cons c t ih =>
    rw [filterTokens] at h ⊢
    rw [lexLogic]
    by_cases hblank : isFilterBlank c = true
    · have hlogic := filterBlank_logic c hblank
      have hpar : c ≠ '(' ∧ c ≠ ')' := by
        constructor <;> rintro rfl <;> cases hblank
      rw [if_pos hblank] at h ⊢
      rw [if_pos (Or.inl hlogic), if_neg hpar.1, if_neg hpar.2]
      by_cases hw : w = []
      · rw [if_pos hw] at h ⊢
        rw [ih [] h, if_pos hw]
        show (some []).bind _ = _
        rw [Option.bind_some]
        simp
      · rw [if_neg hw] at h ⊢
        rw [ih [] fun u hu => h u (List.mem_cons_of_mem _ hu), if_neg hw, logicWords_cons,
          logicWords_cons]
        cases logicWord w with
        | none => rfl
        | some tok => cases logicWords (filterTokens [] t) <;> rfl
    · rw [if_neg hblank] at h ⊢
      obtain ⟨u, hu, hcu⟩ := filterTokens_word t (w ++ [c]) c (by simp)
      rw [if_neg (h u hu c hcu)]
      exact ih (w ++ [c]) h

theorem digits_not_keyword (w : Text) (hne : w ≠ []) (h : w.all Char.isDigit = true) (k : Text)
    (hk : (lower k).any Char.isDigit = false) : ciEquals w k = false := by
  obtain ⟨c, w, rfl⟩ := List.exists_cons_of_ne_nil hne
  rw [List.all_cons, Bool.and_eq_true] at h
  have hlower := toLower_digit c h.1
  unfold ciEquals
  rw [beq_eq_false_iff_ne]
  intro hsame
  have hmem : c.toLower ∈ lower k := by
    rw [← hsame]
    exact List.mem_map_of_mem List.mem_cons_self
  rw [hlower] at hmem
  exact List.any_eq_false.mp hk c hmem h.1

theorem logicWord_index (n : ℕ) (w : Text) (hne : w ≠ []) (h : filterIndexOk n w = true) :
    logicWord w = some (.atom (decimal w)) := by
  have hdigits : w.all Char.isDigit = true := by
    unfold filterIndexOk at h
    rw [Bool.and_eq_true] at h
    exact h.1
  have hno := digits_not_keyword w hne hdigits
  unfold logicWord
  rw [hno "AND".toList rfl, hno "OR".toList rfl, hno "NOT".toList rfl]
  simp only [Bool.false_eq_true, if_false]
  rw [if_pos hdigits]

theorem logicWords_chain (n : ℕ) (ws : List Text) (ks : List ℕ) (hne : ∀ w ∈ ws, w ≠ [])
    (h : AndChain n ws ks) : logicWords ws = some (chainTokens ks) := by
  induction h with
  | last w h =>
    rw [logicWords_cons, logicWord_index n w (hne w List.mem_cons_self) h]
    rfl
  | more w a ws ks h ha rest ih =>
    have hrest := ih fun u hu => hne u (List.mem_cons_of_mem _ (List.mem_cons_of_mem _ hu))
    have hand : logicWord a = some .kwAnd := if_pos ha
    rw [logicWords_cons, logicWords_cons, logicWord_index n w (hne w List.mem_cons_self) h, hand,
      hrest]
    cases rest <;> rfl

theorem chain_plain (n : ℕ) (ws : List Text) (ks : List ℕ) (h : AndChain n ws ks) :
    ∀ w ∈ ws, PlainWord w := by
  have hindex : ∀ w, filterIndexOk n w = true → PlainWord w := by
    intro w hw
    unfold filterIndexOk at hw
    rw [Bool.and_eq_true] at hw
    exact plainWord_of w (Or.inl hw.1)
  induction h with
  | last w h =>
    intro u hu
    rw [List.mem_singleton.mp hu]
    exact hindex w h
  | more w a ws ks h ha rest ih =>
    intro u hu
    rcases List.mem_cons.mp hu with rfl | hu
    · exact hindex u h
    · rcases List.mem_cons.mp hu with rfl | hu
      · exact plainWord_of u (Or.inr ha)
      · exact ih u hu

theorem chain_ne (n : ℕ) (ws : List Text) (ks : List ℕ) (h : AndChain n ws ks) : ks ≠ [] := by
  cases h <;> exact List.cons_ne_nil _ _

theorem chain_range (n : ℕ) (ws : List Text) (ks : List ℕ) (h : AndChain n ws ks) :
    ∀ k ∈ ks, 1 ≤ k ∧ k ≤ n := by
  have hindex : ∀ w, filterIndexOk n w = true → 1 ≤ decimal w ∧ decimal w ≤ n := by
    intro w hw
    unfold filterIndexOk stoi at hw
    rw [Bool.and_eq_true] at hw
    have hnum := hw.2
    split at hnum
    · cases hnum
    · rename_i idx hidx
      split at hidx
      · rw [Option.some.inj hidx]
        simpa using hnum
      · cases hidx
  induction h with
  | last w h =>
    intro k hk
    rw [List.mem_singleton.mp hk]
    exact hindex w h
  | more w a ws ks h ha rest ih =>
    intro k hk
    rcases List.mem_cons.mp hk with rfl | hk
    · exact hindex w h
    · exact ih k hk

/-! ### Soundness -/

section Sound
variable (n : ℕ) (bf : Text)

/-- A text that is a chain means that the filters it names hold. -/
theorem filterLogic_chain (hbf : bf ≠ []) (ks : List ℕ) (h : AndChain n (filterTokens [] bf) ks)
    (c : Cond ℕ) : FilterLogic n bf c ↔
      c.map (fun k => ([.atom k] : Leaf ℕ)) = (chainCond ks).map fun k => [.atom k] := by
  have hlex : lexLogic [] bf = some (chainTokens ks) := by
    rw [lexLogic_plain bf [] (chain_plain n _ ks h)]
    exact logicWords_chain n _ ks (filterTokens_nonempty bf []) h
  have hparse := parse_chain ks (chain_ne n _ ks h)
  constructor
  · intro hc
    cases hc with
    | all => exact absurd rfl hbf
    | written _ toks _ hl hp =>
      rw [hlex] at hl
      rw [← Option.some.inj hl, hparse] at hp
      exact (Option.some.inj hp).symm
  · intro hc
    exact .written bf _ c hlex (hc ▸ hparse)

def leafValue (v : ℕ → Bool) : Leaf ℕ → Truth
  | [.atom k] => .ofBool (v k)
  | _ => .unknown

theorem logicValue_map (v : ℕ → Bool) (c : Cond ℕ) :
    (c.map fun k => ([.atom k] : Leaf ℕ)).eval (leafValue v) = logicValue v c :=
  Cond.eval_map _ _ c

theorem asksForAll_chain (hbf : bf ≠ []) (ks : List ℕ) (h : AndChain n (filterTokens [] bf) ks) :
    AsksForAll n bf ↔ ∀ v : ℕ → Bool, ks.all v = (List.range n).all fun i => v (i + 1) := by
  have hvalue : ∀ c, FilterLogic n bf c → ∀ v, logicValue v c = .ofBool (ks.all v) := by
    intro c hc v
    have hmap := (filterLogic_chain n bf hbf ks h c).mp hc
    rw [← logicValue_map, hmap, logicValue_map]
    exact chainCond_value v ks
  constructor
  · intro hgiven v
    obtain ⟨c, hc, hall⟩ := hgiven
    have hv := hall v
    rw [hvalue c hc v] at hv
    revert hv
    cases ks.all v <;> cases (List.range n).all fun i => v (i + 1) <;> simp [Truth.ofBool]
  · intro hall
    have hc := (filterLogic_chain n bf hbf ks h (chainCond ks)).mpr rfl
    exact ⟨_, hc, fun v => by rw [hvalue _ hc v, hall v]⟩

theorem all_same (ks : List ℕ) (hrange : ∀ k ∈ ks, 1 ≤ k ∧ k ≤ n) :
    (∀ v : ℕ → Bool, ks.all v = (List.range n).all fun i => v (i + 1)) ↔
      ∀ k, 1 ≤ k → k ≤ n → k ∈ ks := by
  constructor
  · intro h k h1 hn
    have hmem := h fun j => decide (j ∈ ks)
    rw [List.all_eq_true.mpr fun j hj => decide_eq_true hj] at hmem
    have hk := List.all_eq_true.mp hmem.symm (k - 1) (List.mem_range.mpr (by omega))
    rw [show k - 1 + 1 = k by omega] at hk
    exact of_decide_eq_true hk
  · intro h v
    rw [Bool.eq_iff_iff, List.all_eq_true, List.all_eq_true]
    constructor
    · intro hv i hi
      have hin := List.mem_range.mp hi
      exact hv (i + 1) (h (i + 1) (by omega) (by omega))
    · intro hv k hk
      have hkn := hrange k hk
      have hi := hv (k - 1) (List.mem_range.mpr (by omega))
      rwa [show k - 1 + 1 = k by omega] at hi

theorem asksForAll_nil : AsksForAll n [] := by
  refine ⟨_, .all, fun v => logicValue_eq v _ _ ?_⟩
  unfold logicValue
  rw [Cond.eval, Cond.evalAll_eq_tt, List.all_eq_true, List.forall_mem_map]
  simp only [Cond.eval, Truth.ofBool_eq_tt]

end Sound

/-- The filter logic is replaced by ANDing all filters only where that is what
it means. -/
def FilterLogicKept (n : ℕ) (bf : Text) : Prop :=
  booleanFilterAndOnly bf n = true → AsksForAll n bf

/-- That is so exactly if a chain of filter numbers leaves none out. -/
theorem filter_logic_iff (n : ℕ) (bf : Text) : FilterLogicKept n bf ↔
    ∀ ks, AndChain n (filterTokens [] bf) ks → ∀ k, 1 ≤ k → k ≤ n → k ∈ ks := by
  unfold FilterLogicKept
  rw [accepted_iff]
  by_cases hbf : bf = []
  · subst hbf
    refine iff_of_true (fun _ => asksForAll_nil n) fun ks h => ?_
    cases h
  constructor
  · intro hsound ks h
    have hasks := hsound (Or.inr ⟨ks, h⟩)
    exact (all_same n ks (chain_range n _ ks h)).mp ((asksForAll_chain n bf hbf ks h).mp hasks)
  · intro hall hor
    rcases hor with hnil | ⟨ks, h⟩
    · exact absurd hnil hbf
    · exact (asksForAll_chain n bf hbf ks h).mpr
        ((all_same n ks (chain_range n _ ks h)).mpr (hall ks h))

/-- Of two filters the text may leave one out. -/
theorem second_filter_left_out : ¬ FilterLogicKept 2 "1 AND 1".toList := by
  intro hkept
  have hchain : AndChain 2 (filterTokens [] "1 AND 1".toList) [1, 1] :=
    .more _ _ _ _ (by decide) (by decide) (.last _ (by decide))
  obtain hall := (asksForAll_chain 2 _ (by decide) _ hchain).mp (hkept (by decide))
  exact absurd (hall fun k => k == 1) (by decide)

end DuckdbSalesforce
