import Mathlib
import DuckdbSalesforce.Soql.Clause

/-!
# When an exact clause is exact

DuckDB compares texts byte by byte and never finds a NULL operand true. SOQL
ignores letter case, reads a 15-character Id as the 18-character one, accepts
null fields under `!=` and reads `= null` as a test. A removed filter is safe
on the tests where the two agree; this module says which these are.
-/

namespace DuckdbSalesforce
open ThreeValued

inductive Datum where
  | text (s : Text)
  | boolean (b : Bool)
  | scalar (key : ℤ)
  deriving DecidableEq, Repr

def Value.datum : Value → Option Datum
  | .null _ => none
  | .varchar s => some (.text s)
  | .boolean b => some (.boolean b)
  | .scalar _ k _ => some (.scalar k)

abbrev Record := Text → Option Datum

def Datum.compare (op : CompareOp) : Datum → Datum → Bool
  | .text a, .text b => op.holds a b
  | .boolean a, .boolean b => op.holds a b
  | .scalar a, .scalar b => op.holds a b
  | _, _ => false

/-! ### DuckDB -/

def compareTruth (op : CompareOp) (a b : Option Datum) : Truth :=
  match a, b with
  | some a, some b => .ofBool (a.compare op b)
  | _, _ => .unknown

section Duck
variable (fields : List SalesforceField) (projectionToField : List ℕ)

def duckOperand (record : Record) : Expr → Option Datum
  | .columnRef i =>
    match (projectionToField[i]?).bind fun idx => fields[idx]? with
    | some f => record f.name
    | none => none
  | .constant v => v.datum
  | _ => none

/-- The comparisons, ranges and null tests of DuckDB. -/
def duckPredicate (record : Record) : Expr → Truth
  | .comparison etype l r =>
    match compareOp etype with
    | some op => compareTruth op (duckOperand fields projectionToField record l)
        (duckOperand fields projectionToField record r)
    | none => .unknown
  | .between input lower upper loInc hiInc =>
    let x := duckOperand fields projectionToField record input
    (compareTruth (if loInc then .ge else .gt) x
        (duckOperand fields projectionToField record lower)).and
      (compareTruth (if hiInc then .le else .lt) x
        (duckOperand fields projectionToField record upper))
  | .operator .operatorIsNull [c] =>
    .ofBool (duckOperand fields projectionToField record c).isNone
  | .operator .operatorIsNotNull [c] =>
    .ofBool (duckOperand fields projectionToField record c).isSome
  | _ => .unknown

end Duck

/-! ### SOQL -/

/-- One check character stands for five characters of an Id: bit `j` is set
when character `j` is a capital. -/
def idCheckChar (chunk : Text) : Char :=
  "ABCDEFGHIJKLMNOPQRSTUVWXYZ012345".toList.getD
    (chunk.foldr (fun c n => 2 * n + if c.isUpper then 1 else 0) 0) 'A'

def idSuffix (p : Text) : Text :=
  [idCheckChar (p.take 5), idCheckChar ((p.drop 5).take 5), idCheckChar (p.drop 10)]

def isShortId (s : Text) : Bool := s.length == 15 && s.all isAlnum

/-- The 18-character form, which is the one that records hold. -/
def IsSalesforceId (r : Text) : Prop := ∃ p, isShortId p = true ∧ r = p ++ idSuffix p

def isIdField (f : SalesforceField) : Bool :=
  lower f.sfType == "id".toList || lower f.sfType == "reference".toList

/-- The text that a literal compared with `f` stands for. -/
def idExpanded (f : SalesforceField) (s : Text) : Text :=
  if isIdField f && isShortId s then s ++ idSuffix s else s

/-- What a service may do within its documented behaviour: any order of texts
that tells them apart up to letter case, and any answer to `f < null`. -/
structure SoqlRules where
  Rank : Type
  order : LinearOrder Rank
  rank : Text → Rank
  rank_eq : ∀ a b, rank a = rank b ↔ lower a = lower b
  nullOrder : CompareOp → Option Datum → Truth

attribute [instance] SoqlRules.order

def SoqlRules.compare (R : SoqlRules) (f : SalesforceField) (op : CompareOp) (x : Option Datum)
    (v : Value) : Truth :=
  match x, v.datum with
  | some (.text s), some (.text c) => .ofBool (op.holds (R.rank s) (R.rank (idExpanded f c)))
  | some a, some b => .ofBool (a.compare op b)
  | none, some _ => if op = .ne then .tt else .unknown
  | x, none =>
    match op with
    | .eq => .ofBool x.isNone
    | .ne => .ofBool x.isSome
    | _ => R.nullOrder op x

/-- Predicates on the field `f`; IN and LIKE are never flagged exact. -/
def SoqlRules.predicate (R : SoqlRules) (f : SalesforceField) (record : Record) :
    Predicate → Truth
  | .compare name op v => R.compare f op (record name) v
  | _ => .unknown

def Fits (f : SalesforceField) : Datum → Prop
  | .text s => f.duckdbType = .varchar ∧ (isIdField f = true → IsSalesforceId s)
  | .boolean _ => f.duckdbType = .boolean
  | .scalar _ => f.duckdbType ≠ .varchar ∧ f.duckdbType ≠ .boolean

/-! ### The scalar tests -/

inductive ScalarTest where
  | compare (type : ExpressionType) (v : Value) (constantFirst : Bool)
  | between (lower upper : Value) (lowerInclusive upperInclusive : Bool)
  | isNull
  | isNotNull

def ScalarTest.expr (column : ℕ) : ScalarTest → Expr
  | .compare t v false => .comparison t (.columnRef column) (.constant v)
  | .compare t v true => .comparison t (.constant v) (.columnRef column)
  | .between lo hi loInc hiInc =>
    .between (.columnRef column) (.constant lo) (.constant hi) loInc hiInc
  | .isNull => .operator .operatorIsNull [.columnRef column]
  | .isNotNull => .operator .operatorIsNotNull [.columnRef column]

def ScalarTest.constants : ScalarTest → List Value
  | .compare _ v _ => [v]
  | .between lo hi _ _ => [lo, hi]
  | _ => []

/-- The operator of the test when the column is written first. -/
def columnFirst (t : ExpressionType) (constantFirst : Bool) : Option CompareOp :=
  (if constantFirst then flipComparison t else some t).bind compareOp

/-- A filter that the code flags exact is true on the same records as the
clause that it wrote, under every admissible service. -/
def ExactMeansExact (fields : List SalesforceField) (projectionToField : List ℕ) (column : ℕ)
    (f : SalesforceField) (test : ScalarTest) : Prop :=
  ∀ t, translateExpr fields projectionToField (test.expr column) = .ok (some (t, true)) →
    ∃ c, clauseOf fields projectionToField (test.expr column) = .ok (some (c, true)) ∧
      clauseText c = t ∧
      ∀ (R : SoqlRules) (record : Record), (∀ x ∈ record f.name, Fits f x) →
        (c.eval (R.predicate f record) = .tt ↔
          duckPredicate fields projectionToField record (test.expr column) = .tt)

/-! ### The condition -/

def hasLetter (s : Text) : Bool := s.any Char.isAlpha

/-- No other value of the field is the same up to letter case. -/
def SoleSpelling (f : SalesforceField) (s : Text) : Prop :=
  if isIdField f then isShortId s = false ∧ ∀ r, IsSalesforceId r → lower r = lower s → r = s
  else hasLetter s = false

def inByteRange (a b : Text) (loInc hiInc : Bool) (r : Text) : Bool :=
  (if loInc then CompareOp.ge else .gt).holds r a && (if hiInc then CompareOp.le else .lt).holds r b

def RangeAgrees (f : SalesforceField) (a b : Text) (loInc hiInc : Bool) : Prop :=
  if isIdField f then
    lower (idExpanded f a) = lower (idExpanded f b) ∧
      ∀ r, IsSalesforceId r → (inByteRange a b loInc hiInc r = true ↔
        loInc = true ∧ hiInc = true ∧ lower r = lower (idExpanded f a))
  else if loInc && hiInc then a = b ∧ hasLetter a = false
  else lower a = lower b ∧ b ≤ a

def ExactWhen (fields : List SalesforceField) (f : SalesforceField) : ScalarTest → Prop
  | .compare t v constantFirst =>
    ∀ op, columnFirst t constantFirst = some op →
      (op = .eq ∨ op = .ne → checkIdLiterals fields f.name [v] = .ok ()) →
      (soqlLiteral v).isSome = true →
      v.isNull = false ∧ op ≠ .ne ∧ ∀ s, v = .varchar s → op = .eq ∧ SoleSpelling f s
  | .between lo hi loInc hiInc =>
    ∀ a b, lo = .varchar a → hi = .varchar b → RangeAgrees f a b loInc hiInc
  | .isNull => True
  | .isNotNull => True

/-! ### Texts up to letter case -/

theorem char_of_no_letter (c d : Char) (hd : d.isAlpha = false) (h : c.toLower = d.toLower) :
    c = d := by
  have hc : c.isAlpha = false := by
    rw [← Char.isAlpha_toLower_eq_isAlpha, h, Char.isAlpha_toLower_eq_isAlpha, hd]
  have hplain : ∀ e : Char, e.isAlpha = false → e.toLower = e := by
    intro e he
    apply Char.toLower_eq_of_not_isUpper
    intro hu
    simp [Char.isAlpha, hu] at he
  rw [← hplain c hc, h, hplain d hd]

theorem text_of_no_letter (r s : Text) (hs : hasLetter s = false) (h : lower r = lower s) :
    r = s := by
  induction s generalizing r with
  | nil => simpa [lower] using h
  | cons d s ih =>
    cases r with
    | nil => simp [lower] at h
    | cons c r =>
      simp only [lower, List.map_cons, List.cons.injEq] at h
      simp only [hasLetter, List.any_cons, Bool.or_eq_false_iff] at hs
      rw [char_of_no_letter c d hs.1 h.1, ih r hs.2 h.2]

def swapCase (c : Char) : Char := if c.isUpper then c.toLower else c.toUpper

theorem swapCase_lower (c : Char) : (swapCase c).toLower = c.toLower := by
  unfold swapCase
  by_cases h : c.isUpper = true
  · rw [if_pos h, Char.toLower_toLower_eq_toLower]
  · rw [if_neg h, Char.toLower_toUpper_eq_toLower]

theorem swapCase_ne (c : Char) (h : c.isAlpha = true) : swapCase c ≠ c := by
  unfold swapCase
  intro heq
  by_cases hu : c.isUpper = true
  · rw [if_pos hu] at heq
    have hl := Char.isUpper_toLower_eq_false c
    rw [heq, hu] at hl
    exact absurd hl (by simp)
  · rw [if_neg hu] at heq
    have hl := Char.isUpper_toUpper_eq_isAlpha c
    rw [heq, h] at hl
    exact hu hl

theorem exists_respelled (s : Text) (h : hasLetter s = true) :
    ∃ r, lower r = lower s ∧ r ≠ s := by
  induction s with
  | nil => simp [hasLetter] at h
  | cons c s ih =>
    simp only [hasLetter, List.any_cons, Bool.or_eq_true] at h
    rcases h with hc | hs
    · refine ⟨swapCase c :: s, ?_, ?_⟩
      · simp [lower, swapCase_lower]
      · intro heq
        exact swapCase_ne c hc (List.cons.inj heq).1
    · obtain ⟨r, hr, hne⟩ := ih hs
      refine ⟨c :: r, ?_, ?_⟩
      · simpa [lower] using hr
      · intro heq
        exact hne (List.cons.inj heq).2

/-! ### Services that order texts as we like -/

/-- The service that sorts by `tag` first. -/
def SoqlRules.tagged (tag : Text → ℕ) (nullTruth : Truth) : SoqlRules where
  Rank := ℕ ×ₗ Text
  order := inferInstance
  rank t := toLex (tag (lower t), lower t)
  rank_eq := by
    intro a b
    constructor
    · intro h
      exact congrArg (fun p => (ofLex p).2) h
    · intro h
      rw [h]
  nullOrder _ _ := nullTruth

theorem tagged_lt (tag : Text → ℕ) (u : Truth) (a b : Text) (h : tag (lower a) < tag (lower b)) :
    (SoqlRules.tagged tag u).rank a < (SoqlRules.tagged tag u).rank b :=
  Prod.Lex.toLex_lt_toLex.mpr (Or.inl h)

/-! ### Values of a text field -/

def TextValue (f : SalesforceField) (r : Text) : Prop := isIdField f = true → IsSalesforceId r

def sampleId (c : Char) : Text :=
  "00Q00000000000".toList ++ [c] ++ idSuffix ("00Q00000000000".toList ++ [c])

theorem sampleId_value (f : SalesforceField) (c : Char) (hc : isAlnum c = true) :
    TextValue f (sampleId c) := by
  intro _
  refine ⟨"00Q00000000000".toList ++ [c], ?_, rfl⟩
  simp only [isShortId, List.all_append, List.all_cons, List.all_nil, hc]
  rfl

theorem exists_third (f : SalesforceField) (x y : Text) :
    ∃ r, TextValue f r ∧ lower r ≠ x ∧ lower r ≠ y := by
  have h0 := sampleId_value f '0' (by decide)
  have h1 := sampleId_value f '1' (by decide)
  have h2 := sampleId_value f '2' (by decide)
  have h01 : lower (sampleId '0') ≠ lower (sampleId '1') := by decide
  have h02 : lower (sampleId '0') ≠ lower (sampleId '2') := by decide
  have h12 : lower (sampleId '1') ≠ lower (sampleId '2') := by decide
  by_cases hx0 : lower (sampleId '0') = x ∨ lower (sampleId '0') = y
  · by_cases hx1 : lower (sampleId '1') = x ∨ lower (sampleId '1') = y
    · refine ⟨_, h2, ?_, ?_⟩
      · intro hx
        subst hx
        rcases hx0 with hx0 | rfl
        · exact h02 hx0
        · exact hx1.elim h12 fun h => h01 h.symm
      · intro hy
        subst hy
        rcases hx0 with rfl | hx0
        · exact hx1.elim (fun h => h01 h.symm) h12
        · exact h02 hx0
    · exact ⟨_, h1, fun h => hx1 (Or.inl h), fun h => hx1 (Or.inr h)⟩
  · exact ⟨_, h0, fun h => hx0 (Or.inl h), fun h => hx0 (Or.inr h)⟩

theorem exists_fits (f : SalesforceField) : ∃ x, Fits f x := by
  by_cases hv : f.duckdbType = .varchar
  · exact ⟨.text (sampleId '0'), hv, sampleId_value f '0' (by decide)⟩
  · by_cases hb : f.duckdbType = .boolean
    · exact ⟨.boolean true, hb⟩
    · exact ⟨.scalar 0, hv, hb⟩

/-! ### Comparisons -/

def Agrees (f : SalesforceField) (op : CompareOp) (v : Value) : Prop :=
  ∀ (R : SoqlRules) (x : Option Datum), (∀ d ∈ x, Fits f d) →
    (R.compare f op x v = .tt ↔ compareTruth op x v.datum = .tt)

theorem soleSpelling_iff (f : SalesforceField) (s : Text) :
    SoleSpelling f s ↔ ∀ r, TextValue f r → lower r = lower (idExpanded f s) → r = s := by
  unfold SoleSpelling TextValue
  by_cases hid : isIdField f = true
  · simp only [hid, if_true, forall_const]
    constructor
    · intro hgiven r hr heq
      obtain ⟨hshort, hone⟩ := hgiven
      have hs : idExpanded f s = s := by simp [idExpanded, hshort]
      rw [hs] at heq
      exact hone r hr heq
    · intro h
      by_cases hshort : isShortId s = true
      · have hs : idExpanded f s = s ++ idSuffix s := by simp [idExpanded, hid, hshort]
        have heq := h (s ++ idSuffix s) ⟨s, hshort, rfl⟩ (by rw [hs])
        simp [idSuffix] at heq
      · have hs : idExpanded f s = s := by simp [idExpanded, hshort]
        rw [hs] at h
        exact ⟨by simpa using hshort, h⟩
  · have hs : idExpanded f s = s := by simp [idExpanded, hid]
    rw [if_neg hid, hs]
    constructor
    · intro hplain r _ heq
      exact text_of_no_letter r s hplain heq
    · intro h
      by_contra hletter
      obtain ⟨r, hr, hne⟩ := exists_respelled s (by simpa using hletter)
      exact hne (h r (fun hc => absurd hc hid) hr)

theorem holds_of_ne (op : CompareOp) (hop : op ≠ .eq) (hne : op ≠ .ne) {α : Type} [LinearOrder α]
    (a b : α) :
    (a < b → op.holds a b = decide (op = .lt ∨ op = .le)) ∧
      (b < a → op.holds a b = decide (op = .gt ∨ op = .ge)) := by
  cases op with
  | eq => exact absurd rfl hop
  | ne => exact absurd rfl hne
  | lt | le => exact ⟨fun h => by simp [CompareOp.holds, h, h.le], fun h => by
      simp [CompareOp.holds, not_lt.mpr h.le, not_le.mpr h]⟩
  | gt | ge => exact ⟨fun h => by simp [CompareOp.holds, not_lt.mpr h.le, not_le.mpr h], fun h => by
      simp [CompareOp.holds, h, h.le]⟩

theorem order_disagrees (f : SalesforceField) (hf : f.duckdbType = .varchar) (op : CompareOp)
    (hop : op ≠ .eq) (hne : op ≠ .ne) (s : Text) : ¬ Agrees f op (.varchar s) := by
  intro h
  obtain ⟨r, hr, hx, _⟩ := exists_third f (lower (idExpanded f s)) (lower (idExpanded f s))
  have hfits : ∀ d ∈ some (Datum.text r), Fits f d := by
    intro d hd
    cases hd
    exact ⟨hf, hr⟩
  have hsides : ∀ R : SoqlRules, op.holds (R.rank r) (R.rank (idExpanded f s)) = op.holds r s := by
    intro R
    have hR := h R (some (.text r)) hfits
    simp only [SoqlRules.compare, Value.datum, compareTruth, Datum.compare,
      Truth.ofBool_eq_tt] at hR
    exact Bool.eq_iff_iff.mpr hR
  have hlow := hsides (.tagged (fun t => if t = lower r then 0 else 1) .unknown)
  have hhigh := hsides (.tagged (fun t => if t = lower r then 1 else 0) .unknown)
  rw [(holds_of_ne op hop hne _ _).1 (tagged_lt _ _ _ _ (by simp [Ne.symm hx]))] at hlow
  rw [(holds_of_ne op hop hne _ _).2 (tagged_lt _ _ _ _ (by simp [Ne.symm hx]))] at hhigh
  rw [← hlow] at hhigh
  cases op <;> simp at hop hne hhigh

theorem compare_nontext (R : SoqlRules) (f : SalesforceField) (op : CompareOp) (hne : op ≠ .ne)
    (x : Option Datum) (v : Value) (hnull : v.isNull = false)
    (htext : ∀ s c, x = some (.text s) → v ≠ .varchar c) :
    R.compare f op x v = compareTruth op x v.datum := by
  cases x with
  | none =>
    cases v with
    | null t => simp [Value.isNull] at hnull
    | varchar _ | boolean _ | scalar _ _ _ => simp [SoqlRules.compare, compareTruth, Value.datum, hne]
  | some d =>
    cases v with
    | null t => simp [Value.isNull] at hnull
    | varchar c =>
      cases d with
      | text s => exact absurd rfl (htext s c rfl)
      | boolean _ | scalar _ => rfl
    | boolean _ | scalar _ _ _ => cases d <;> rfl

/-- A stored value is never read as a 15-character Id. -/
theorem idExpanded_value (f : SalesforceField) (r : Text) (h : TextValue f r) :
    idExpanded f r = r := by
  unfold idExpanded
  by_cases hid : isIdField f = true
  · obtain ⟨p, hp, rfl⟩ := h hid
    have hlen : p.length = 15 := by
      simp only [isShortId, Bool.and_eq_true, beq_iff_eq] at hp
      exact hp.1
    simp [isShortId, idSuffix, hlen]
  · simp [hid]

theorem compare_text (R : SoqlRules) (f : SalesforceField) (op : CompareOp) (r s : Text) :
    R.compare f op (some (.text r)) (.varchar s) = .tt ↔
      op.holds (R.rank r) (R.rank (idExpanded f s)) = true := by
  simp [SoqlRules.compare, Value.datum]

theorem duck_text (op : CompareOp) (r s : Text) :
    compareTruth op (some (.text r)) (Value.varchar s).datum = .tt ↔ op.holds r s = true := by
  simp [compareTruth, Value.datum, Datum.compare]

theorem fits_text (f : SalesforceField) (hf : f.duckdbType = .varchar) (r : Text)
    (hr : TextValue f r) : ∀ d ∈ some (Datum.text r), Fits f d := by
  intro d hd
  cases hd
  exact ⟨hf, hr⟩

theorem agrees_equal (f : SalesforceField) (hf : f.duckdbType = .varchar) (s : Text) :
    Agrees f .eq (.varchar s) ↔ SoleSpelling f s := by
  rw [soleSpelling_iff]
  constructor
  · intro h r hr heq
    have hR := h (.tagged (fun _ => 0) .unknown) (some (.text r)) (fits_text f hf r hr)
    rw [compare_text, duck_text] at hR
    have hsame : CompareOp.eq.holds r s = true := hR.mp (by
      simpa [CompareOp.holds, SoqlRules.rank_eq] using heq)
    simpa [CompareOp.holds] using hsame
  · intro h R x hx
    by_cases hr : ∃ r, x = some (.text r)
    · obtain ⟨r, rfl⟩ := hr
      have hval : TextValue f r := (hx _ rfl).2
      rw [compare_text, duck_text]
      simp only [CompareOp.holds, decide_eq_true_eq, R.rank_eq]
      constructor
      · exact h r hval
      · intro heq
        rw [← heq, idExpanded_value f r hval]
    · rw [compare_nontext R f .eq (by simp) x (.varchar s) rfl]
      intro r c hxr
      exact absurd ⟨r, hxr⟩ hr

theorem null_disagrees (f : SalesforceField) (op : CompareOp) (t : LogicalType) :
    ¬ Agrees f op (.null t) := by
  intro h
  have hduck : ∀ x, compareTruth op x (Value.null t).datum ≠ .tt := by
    intro x
    cases x <;> simp [compareTruth, Value.datum]
  by_cases hop : op = .ne
  · obtain ⟨x, hx⟩ := exists_fits f
    refine hduck (some x) ((h (.tagged (fun _ => 0) .tt) (some x) ?_).mp ?_)
    · intro d hd
      cases hd
      exact hx
    · cases x <;> simp [SoqlRules.compare, Value.datum, hop]
  · refine hduck none ((h (.tagged (fun _ => 0) .tt) none (by simp)).mp ?_)
    cases op <;> simp [SoqlRules.compare, Value.datum, SoqlRules.tagged] at hop ⊢

theorem agrees_iff (f : SalesforceField) (op : CompareOp) (v : Value)
    (hty : v.type = f.duckdbType) (hlit : (soqlLiteral v).isSome = true) :
    Agrees f op v ↔ v.isNull = false ∧ op ≠ .ne ∧
      ∀ s, v = .varchar s → op = .eq ∧ SoleSpelling f s := by
  constructor
  · intro h
    have hnull : v.isNull = false := by
      cases v with
      | null t => exact absurd h (null_disagrees f op t)
      | varchar _ | boolean _ | scalar _ _ _ => rfl
    have hne : op ≠ .ne := by
      intro heq
      subst heq
      have hR := h (.tagged (fun _ => 0) .unknown) none (by simp)
      cases v with
      | null t => simp [Value.isNull] at hnull
      | varchar _ | boolean _ | scalar _ _ _ =>
        simp [SoqlRules.compare, compareTruth, Value.datum] at hR
    refine ⟨hnull, hne, ?_⟩
    intro s heq
    subst heq
    have hf : f.duckdbType = .varchar := hty.symm
    have hop : op = .eq := by
      by_contra hop
      exact order_disagrees f hf op hop hne s h
    subst hop
    exact ⟨rfl, (agrees_equal f hf s).mp h⟩
  · intro hgiven R x hx
    obtain ⟨hnull, hne, htext⟩ := hgiven
    by_cases hv : ∃ s, v = .varchar s
    · obtain ⟨s, rfl⟩ := hv
      obtain ⟨rfl, hsole⟩ := htext s rfl
      exact (agrees_equal f hty.symm s).mpr hsole R x hx
    · rw [compare_nontext R f op hne x v hnull]
      intro s c _ hvc
      exact hv ⟨c, hvc⟩

/-! ### Ranges -/

def lowerOp (loInc : Bool) : CompareOp := if loInc then .ge else .gt
def upperOp (hiInc : Bool) : CompareOp := if hiInc then .le else .lt

/-- The text part of a range is right for every service and every value. -/
def TextRangeAgrees (f : SalesforceField) (a b : Text) (loInc hiInc : Bool) : Prop :=
  ∀ (R : SoqlRules) (r : Text), TextValue f r →
    (((lowerOp loInc).holds (R.rank r) (R.rank (idExpanded f a)) = true ∧
        (upperOp hiInc).holds (R.rank r) (R.rank (idExpanded f b)) = true) ↔
      inByteRange a b loInc hiInc r = true)

/-- Bounds of one rank admit that rank when both are inclusive, else nothing. -/
theorem range_same {α : Type} [LinearOrder α] (x y : α) (loInc hiInc : Bool) :
    ((lowerOp loInc).holds y x = true ∧ (upperOp hiInc).holds y x = true) ↔
      loInc = true ∧ hiInc = true ∧ y = x := by
  cases loInc <;> cases hiInc
  · simp [lowerOp, upperOp, CompareOp.holds]
    exact fun h => h.le
  · simp [lowerOp, upperOp, CompareOp.holds]
  · simp [lowerOp, upperOp, CompareOp.holds]
  · simp [lowerOp, upperOp, CompareOp.holds]
    exact ⟨fun h => le_antisymm h.2 h.1, fun h => ⟨h.ge, h.le⟩⟩

theorem range_bounds {α : Type} [LinearOrder α] (x y z : α) (loInc hiInc : Bool)
    (h : (lowerOp loInc).holds y x = true ∧ (upperOp hiInc).holds y z = true) : x ≤ z := by
  have hx : x ≤ y := by
    cases loInc with
    | false => exact le_of_lt (by simpa [lowerOp, CompareOp.holds] using h.1)
    | true => simpa [lowerOp, CompareOp.holds] using h.1
  have hz : y ≤ z := by
    cases hiInc with
    | false => exact le_of_lt (by simpa [upperOp, CompareOp.holds] using h.2)
    | true => simpa [upperOp, CompareOp.holds] using h.2
  exact hx.trans hz

theorem range_strict {α : Type} [LinearOrder α] (x y z : α) (loInc hiInc : Bool) (hx : x < y)
    (hz : y < z) : (lowerOp loInc).holds y x = true ∧ (upperOp hiInc).holds y z = true := by
  cases loInc <;> cases hiInc <;> simp [lowerOp, upperOp, CompareOp.holds, hx, hz, hx.le, hz.le]

theorem textRange_iff (f : SalesforceField) (a b : Text) (loInc hiInc : Bool) :
    TextRangeAgrees f a b loInc hiInc ↔
      lower (idExpanded f a) = lower (idExpanded f b) ∧
        ∀ r, TextValue f r → (inByteRange a b loInc hiInc r = true ↔
          loInc = true ∧ hiInc = true ∧ lower r = lower (idExpanded f a)) := by
  constructor
  · intro h
    have hsame : lower (idExpanded f a) = lower (idExpanded f b) := by
      by_contra hdiff
      by_cases hD : ∃ r, TextValue f r ∧ inByteRange a b loInc hiInc r = true
      · -- a service that sorts the upper bound below the lower one accepts nothing
        obtain ⟨r, hr, hin⟩ := hD
        have hin' := (h (.tagged (fun t => if t = lower (idExpanded f a) then 1 else 0) .unknown)
          r hr).mpr hin
        have hle := range_bounds _ _ _ loInc hiInc hin'
        exact absurd hle (not_le.mpr (tagged_lt _ _ _ _ (by simp [Ne.symm hdiff])))
      · -- a service that sorts a third value between the bounds accepts it
        obtain ⟨r, hr, hra, hrb⟩ := exists_third f (lower (idExpanded f a)) (lower (idExpanded f b))
        refine hD ⟨r, hr, (h (.tagged (fun t => if t = lower (idExpanded f a) then 0
          else if t = lower (idExpanded f b) then 2 else 1) .unknown) r hr).mp ?_⟩
        refine range_strict _ _ _ loInc hiInc (tagged_lt _ _ _ _ ?_) (tagged_lt _ _ _ _ ?_)
        · simp [hra, hrb]
        · simp [hra, hrb, Ne.symm hdiff]
    refine ⟨hsame, ?_⟩
    intro r hr
    have hR := h (.tagged (fun _ => 0) .unknown) r hr
    rw [(SoqlRules.rank_eq _ _ _).mpr hsame.symm, range_same, SoqlRules.rank_eq] at hR
    exact hR.symm
  · intro hgiven R r hr
    obtain ⟨hsame, hrange⟩ := hgiven
    rw [(R.rank_eq _ _).mpr hsame.symm, range_same, R.rank_eq]
    exact (hrange r hr).symm

theorem lower_eq_length (a b : Text) (h : lower a = lower b) : a.length = b.length := by
  rw [← lower_length a, ← lower_length b, h]

theorem inByteRange_iff (a b : Text) (loInc hiInc : Bool) (r : Text) :
    inByteRange a b loInc hiInc r = true ↔
      (lowerOp loInc).holds r a = true ∧ (upperOp hiInc).holds r b = true := by
  unfold inByteRange lowerOp upperOp
  exact Bool.and_eq_true_iff

/-- Between two spellings of one text lie texts of other lengths. -/
theorem byteRange_between (a b : Text) (loInc hiInc : Bool) (h : lower a = lower b) (hlt : a < b) :
    ∃ r, inByteRange a b loInc hiInc r = true ∧ lower r ≠ lower a := by
  refine ⟨a ++ ['x'], ?_, ?_⟩
  · rw [inByteRange_iff]
    exact range_strict a (a ++ ['x']) b loInc hiInc (lt_append a ['x'] (by simp))
      (by simpa using append_lt_append a b ['x'] [] (lower_eq_length a b h) hlt)
  · intro heq
    have hlen := lower_eq_length _ _ heq
    simp at hlen

theorem plainRange_iff (a b : Text) (loInc hiInc : Bool) :
    (lower a = lower b ∧ ∀ r, (inByteRange a b loInc hiInc r = true ↔
        loInc = true ∧ hiInc = true ∧ lower r = lower a)) ↔
      if loInc && hiInc then a = b ∧ hasLetter a = false else lower a = lower b ∧ b ≤ a := by
  by_cases hboth : (loInc && hiInc) = true
  · obtain ⟨rfl, rfl⟩ := Bool.and_eq_true_iff.mp hboth
    simp only [hboth, if_true, true_and]
    constructor
    · intro hgiven
      obtain ⟨hsame, hrange⟩ := hgiven
      have ha : inByteRange a b true true a = true := (hrange a).mpr rfl
      have hle : a ≤ b := by simpa [inByteRange, CompareOp.holds] using ha
      have hab : a = b := by
        by_contra hne
        obtain ⟨r, hin, hdiff⟩ := byteRange_between a b true true hsame (lt_of_le_of_ne hle hne)
        exact hdiff ((hrange r).mp hin)
      refine ⟨hab, ?_⟩
      by_contra hletter
      obtain ⟨r, hr, hne⟩ := exists_respelled a (by simpa using hletter)
      have hin := (hrange r).mpr hr
      rw [← hab, inByteRange_iff] at hin
      exact hne ((range_same a r true true).mp hin).2.2
    · intro hgiven
      obtain ⟨rfl, hplain⟩ := hgiven
      refine ⟨rfl, ?_⟩
      intro r
      rw [inByteRange_iff]
      constructor
      · intro hin
        rw [((range_same a r true true).mp hin).2.2]
      · intro hr
        rw [text_of_no_letter r a hplain hr]
        exact (range_same a a true true).mpr ⟨rfl, rfl, rfl⟩
  · have hnot : ∀ r, ¬ (loInc = true ∧ hiInc = true ∧ lower r = lower a) := by
      intro r hgiven
      obtain ⟨hlo, hhi, _⟩ := hgiven
      exact hboth (by rw [hlo, hhi]; rfl)
    simp only [hboth, Bool.false_eq_true, if_false]
    constructor
    · intro hgiven
      obtain ⟨hsame, hrange⟩ := hgiven
      refine ⟨hsame, ?_⟩
      by_contra hlt
      obtain ⟨r, hin, _⟩ := byteRange_between a b loInc hiInc hsame (not_le.mp hlt)
      exact hnot r ((hrange r).mp hin)
    · intro hgiven
      obtain ⟨hsame, hle⟩ := hgiven
      refine ⟨hsame, ?_⟩
      intro r
      refine ⟨fun hin => ?_, fun h => absurd h (hnot r)⟩
      rw [inByteRange_iff] at hin
      have hab : a = b := le_antisymm (range_bounds a r b loInc hiInc hin) hle
      rw [← hab, range_same] at hin
      exact absurd (by rw [hin.1, hin.2.1]; rfl) hboth

theorem rangeAgrees_iff (f : SalesforceField) (a b : Text) (loInc hiInc : Bool) :
    TextRangeAgrees f a b loInc hiInc ↔ RangeAgrees f a b loInc hiInc := by
  rw [textRange_iff]
  unfold RangeAgrees TextValue
  by_cases hid : isIdField f = true
  · simp only [hid, if_true, forall_const]
  · have hexp : ∀ s, idExpanded f s = s := fun s => by simp [idExpanded, hid]
    simp only [hid, Bool.false_eq_true, if_false, hexp, false_implies, forall_const]
    exact plainRange_iff a b loInc hiInc

/-! ### The tests of the code -/

section Tests
variable (fields : List SalesforceField) (projectionToField : List ℕ) (column idx : ℕ)
variable (f : SalesforceField)

/-- The column that the tests are about. -/
structure Bound : Prop where
  projection : projectionToField[column]? = some idx
  field : fields[idx]? = some f
  filterable : f.filterable = true

variable {fields projectionToField column idx f}

theorem Bound.fieldFor (h : Bound fields projectionToField column idx f) :
    fieldFor fields projectionToField (.columnRef column) = some f.name := by
  simp [DuckdbSalesforce.fieldFor, h.projection, h.field, h.filterable]

theorem Bound.operand (h : Bound fields projectionToField column idx f) (record : Record) :
    duckOperand fields projectionToField record (.columnRef column) = record f.name := by
  simp [duckOperand, h.projection, h.field]

theorem holds_flip (t t' : ExpressionType) (op op' : CompareOp) {α : Type} [LinearOrder α]
    (a b : α) (hflip : flipComparison t = some t') (hop : compareOp t' = some op)
    (hop' : compareOp t = some op') : op'.holds b a = op.holds a b := by
  cases t <;> simp [flipComparison] at hflip <;> subst hflip <;> simp [compareOp] at hop hop' <;>
    subst hop <;> subst hop' <;> simp [CompareOp.holds, eq_comm]

theorem compareTruth_flip (t t' : ExpressionType) (op op' : CompareOp) (x y : Option Datum)
    (hflip : flipComparison t = some t') (hop : compareOp t' = some op)
    (hop' : compareOp t = some op') : compareTruth op' y x = compareTruth op x y := by
  have hdatum : ∀ a b : Datum, b.compare op' a = a.compare op b := by
    intro a b
    cases a <;> cases b <;>
      simp only [Datum.compare, holds_flip t t' op op' _ _ hflip hop hop']
  cases x with
  | none => cases y <;> rfl
  | some a =>
    cases y with
    | none => rfl
    | some b => simp only [compareTruth, hdatum]

theorem columnFirst_flip (t : ExpressionType) (op : CompareOp)
    (h : columnFirst t true = some op) :
    ∃ t' op', flipComparison t = some t' ∧ compareOp t' = some op ∧ compareOp t = some op' := by
  cases t <;> simp [columnFirst, flipComparison, compareOp] at h <;>
    exact ⟨_, _, rfl, by rw [← h]; rfl, rfl⟩

theorem duck_comparison (h : Bound fields projectionToField column idx f) (record : Record)
    (t : ExpressionType) (v : Value) (constantFirst : Bool) (op : CompareOp)
    (hop : columnFirst t constantFirst = some op) :
    duckPredicate fields projectionToField record
        ((ScalarTest.compare t v constantFirst).expr column) =
      compareTruth op (record f.name) v.datum := by
  cases constantFirst with
  | false =>
    have hop' : compareOp t = some op := by simpa [columnFirst] using hop
    simp only [ScalarTest.expr, duckPredicate, hop', h.operand record]
    rfl
  | true =>
    obtain ⟨t', op', hflip, hto, hfrom⟩ := columnFirst_flip t op hop
    simp only [ScalarTest.expr, duckPredicate, hfrom, h.operand record]
    exact compareTruth_flip t t' op op' _ _ hflip hto hfrom

theorem operands_columnFirst (h : Bound fields projectionToField column idx f)
    (t : ExpressionType) (v : Value) (constantFirst : Bool) :
    clauseOf fields projectionToField ((ScalarTest.compare t v constantFirst).expr column) =
      match (if constantFirst then flipComparison t else some t) with
      | none => .ok none
      | some cmp =>
        match compareOp cmp with
        | none => .ok none
        | some op => (do
          if cmp = .compareEqual ∨ cmp = .compareNotEqual then
            checkIdLiterals fields f.name [v]
          if (soqlLiteral v).isSome then .ok (some (.leaf (.compare f.name op v), true))
          else .ok none) := by
  cases constantFirst with
  | false =>
    have hops : comparisonOperands fields projectionToField t (.columnRef column) (.constant v) =
        some (f.name, t, v) := by
      simp [comparisonOperands, h.fieldFor, constantOf]
    simp only [ScalarTest.expr, clauseOf, comparisonClause, hops]
    rfl
  | true =>
    have hops : comparisonOperands fields projectionToField t (.constant v) (.columnRef column) =
        (flipComparison t).map fun cmp => (f.name, cmp, v) := by
      have hconst : DuckdbSalesforce.fieldFor fields projectionToField (.constant v) = none := rfl
      simp [comparisonOperands, h.fieldFor, constantOf, hconst]
    simp only [ScalarTest.expr, clauseOf, comparisonClause, hops]
    cases flipComparison t with
    | none => rfl
    | some cmp => rfl

theorem equality_op (cmp : ExpressionType) (op : CompareOp) (h : compareOp cmp = some op) :
    (cmp = .compareEqual ∨ cmp = .compareNotEqual) ↔ (op = .eq ∨ op = .ne) := by
  cases cmp <;> simp [compareOp] at h <;> subst h <;> simp

theorem comparison_pushed (h : Bound fields projectionToField column idx f)
    (t : ExpressionType) (v : Value) (constantFirst : Bool) (c : Clause) :
    clauseOf fields projectionToField ((ScalarTest.compare t v constantFirst).expr column) =
        .ok (some (c, true)) ↔
      ∃ op, columnFirst t constantFirst = some op ∧
        (op = .eq ∨ op = .ne → checkIdLiterals fields f.name [v] = .ok ()) ∧
        (soqlLiteral v).isSome = true ∧ c = .leaf (.compare f.name op v) := by
  rw [operands_columnFirst h]
  unfold columnFirst
  cases (if constantFirst then flipComparison t else some t) with
  | none => simp
  | some cmp =>
    cases hop : compareOp cmp with
    | none => simp [hop]
    | some op =>
      simp only [Option.bind_some, hop, Option.some.injEq, exists_eq_left']
      rw [← equality_op cmp op hop]
      by_cases heq : cmp = .compareEqual ∨ cmp = .compareNotEqual
      · simp only [heq, if_true, forall_const]
        cases checkIdLiterals fields f.name [v] with
        | error e => simp [bind, Except.bind]
        | ok u =>
          by_cases hlit : (soqlLiteral v).isSome = true
          · simp [bind, Except.bind, hlit, eq_comm]
          · simp [bind, Except.bind, hlit]
      · simp only [heq, if_false, false_implies, true_and]
        by_cases hlit : (soqlLiteral v).isSome = true
        · simp [hlit, eq_comm]
        · simp [hlit]

theorem exactMeansExact_iff (test : ScalarTest) :
    ExactMeansExact fields projectionToField column f test ↔
      ∀ c, clauseOf fields projectionToField (test.expr column) = .ok (some (c, true)) →
        ∀ (R : SoqlRules) (record : Record), (∀ x ∈ record f.name, Fits f x) →
          (c.eval (R.predicate f record) = .tt ↔
            duckPredicate fields projectionToField record (test.expr column) = .tt) := by
  unfold ExactMeansExact
  rw [translateExpr_written]
  cases clauseOf fields projectionToField (test.expr column) with
  | error e => simp [Except.map]
  | ok r =>
    cases r with
    | none => simp [Except.map]
    | some p =>
      obtain ⟨c, x⟩ := p
      simp only [Except.map, Option.map_some, written, Except.ok.injEq, Option.some.injEq,
        Prod.mk.injEq]
      constructor
      · intro h c' hgiven
        obtain ⟨rfl, rfl⟩ := hgiven
        obtain ⟨c', ⟨rfl, _⟩, _, hc⟩ := h _ ⟨rfl, rfl⟩
        exact hc
      · intro h t hgiven
        obtain ⟨rfl, rfl⟩ := hgiven
        exact ⟨c, ⟨rfl, rfl⟩, rfl, h c ⟨rfl, rfl⟩⟩

theorem comparison_exact_iff (h : Bound fields projectionToField column idx f)
    (t : ExpressionType) (v : Value) (constantFirst : Bool) (hty : v.type = f.duckdbType) :
    ExactMeansExact fields projectionToField column f (.compare t v constantFirst) ↔
      ExactWhen fields f (.compare t v constantFirst) := by
  rw [exactMeansExact_iff]
  unfold ExactWhen
  constructor
  · intro hall op hop hid hlit
    rw [← agrees_iff f op v hty hlit]
    intro R x hx
    have hR := hall _ ((comparison_pushed h t v constantFirst _).mpr ⟨op, hop, hid, hlit, rfl⟩) R
      (fun _ => x) hx
    rw [duck_comparison h _ t v constantFirst op hop] at hR
    exact hR
  · intro hall c hc R record hx
    obtain ⟨op, hop, hid, hlit, rfl⟩ := (comparison_pushed h t v constantFirst c).mp hc
    rw [duck_comparison h _ t v constantFirst op hop]
    exact (agrees_iff f op v hty hlit).mpr (hall op hop hid hlit) R (record f.name) hx

theorem between_pushed (h : Bound fields projectionToField column idx f) (lo hi : Value)
    (loInc hiInc : Bool) (c : Clause) :
    clauseOf fields projectionToField ((ScalarTest.between lo hi loInc hiInc).expr column) =
        .ok (some (c, true)) ↔
      (lo.isNull = false ∧ hi.isNull = false) ∧
        ((soqlLiteral lo).isSome = true ∧ (soqlLiteral hi).isSome = true) ∧
        c = .all [.leaf (.compare f.name (lowerOp loInc) lo),
          .leaf (.compare f.name (upperOp hiInc) hi)] := by
  simp only [ScalarTest.expr, clauseOf, betweenClause, h.fieldFor, constantOf]
  by_cases hnull : lo.isNull = true ∨ hi.isNull = true
  · rw [if_pos hnull]
    rcases hnull with hnull | hnull <;> simp [hnull]
  · rw [if_neg hnull]
    simp only [not_or, Bool.not_eq_true] at hnull
    by_cases hlit : (soqlLiteral lo).isSome = true ∧ (soqlLiteral hi).isSome = true
    · rw [if_pos hlit]
      simp [hnull, hlit, lowerOp, upperOp, eq_comm]
    · rw [if_neg hlit]
      simp only [Except.ok.injEq, reduceCtorEq, false_iff, not_and]
      intro _ hlit'
      exact absurd hlit' hlit

theorem varchar_of_type (v : Value) (hty : v.type = .varchar) (hnull : v.isNull = false)
    (hlit : (soqlLiteral v).isSome = true) : ∃ c, v = .varchar c := by
  cases v with
  | null t => simp [Value.isNull] at hnull
  | varchar c => exact ⟨c, rfl⟩
  | boolean b => simp [Value.type] at hty
  | scalar t k str =>
    simp only [Value.type] at hty
    subst hty
    simp [soqlLiteral] at hlit

theorem between_exact_iff (h : Bound fields projectionToField column idx f) (lo hi : Value)
    (loInc hiInc : Bool) (hlo : lo.type = f.duckdbType) (hhi : hi.type = f.duckdbType) :
    ExactMeansExact fields projectionToField column f (.between lo hi loInc hiInc) ↔
      ExactWhen fields f (.between lo hi loInc hiInc) := by
  rw [exactMeansExact_iff]
  unfold ExactWhen
  have hduck : ∀ record, duckPredicate fields projectionToField record
        ((ScalarTest.between lo hi loInc hiInc).expr column) = .tt ↔
      compareTruth (lowerOp loInc) (record f.name) lo.datum = .tt ∧
        compareTruth (upperOp hiInc) (record f.name) hi.datum = .tt := by
    intro record
    simp only [ScalarTest.expr, duckPredicate, h.operand record, Truth.and_eq_tt]
    rfl
  have hsoql : ∀ (R : SoqlRules) (record : Record),
      (Cond.all [.leaf (.compare f.name (lowerOp loInc) lo),
        .leaf (.compare f.name (upperOp hiInc) hi)]).eval (R.predicate f record) = .tt ↔
      R.compare f (lowerOp loInc) (record f.name) lo = .tt ∧
        R.compare f (upperOp hiInc) (record f.name) hi = .tt := by
    intro R record
    rw [Cond.eval_all_eq_tt, List.forall_mem_cons, List.forall_mem_singleton]
    rfl
  constructor
  · intro hall a b heq hsame
    subst heq
    subst hsame
    rw [← rangeAgrees_iff]
    intro R r hr
    have hclause := (between_pushed h (.varchar a) (.varchar b) loInc hiInc _).mpr
      ⟨⟨rfl, rfl⟩, ⟨rfl, rfl⟩, rfl⟩
    have hR := hall _ hclause R (fun _ => some (.text r)) (fits_text f hlo.symm r hr)
    rw [hsoql, hduck, compare_text, compare_text, duck_text, duck_text, ← inByteRange_iff] at hR
    exact hR
  · intro hrange c hc R record hx
    obtain ⟨⟨hlon, hhin⟩, ⟨hlol, hhil⟩, rfl⟩ := (between_pushed h lo hi loInc hiInc c).mp hc
    rw [hsoql, hduck]
    have hlone : lowerOp loInc ≠ .ne := by cases loInc <;> simp [lowerOp]
    have hhine : upperOp hiInc ≠ .ne := by cases hiInc <;> simp [upperOp]
    by_cases htext : ∃ a b, lo = .varchar a ∧ hi = .varchar b
    · obtain ⟨a, b, rfl, rfl⟩ := htext
      by_cases hr : ∃ r, record f.name = some (.text r)
      · obtain ⟨r, hr⟩ := hr
        have hval : TextValue f r := (hx _ hr).2
        rw [hr, compare_text, compare_text, duck_text, duck_text, ← inByteRange_iff]
        exact (rangeAgrees_iff f a b loInc hiInc).mpr (hrange a b rfl rfl) R r hval
      · have hno : ∀ s c, record f.name = some (.text s) → Value.varchar a ≠ .varchar c :=
          fun s _ hs => absurd ⟨s, hs⟩ hr
        have hno' : ∀ s c, record f.name = some (.text s) → Value.varchar b ≠ .varchar c :=
          fun s _ hs => absurd ⟨s, hs⟩ hr
        rw [compare_nontext R f _ hlone _ _ hlon hno, compare_nontext R f _ hhine _ _ hhin hno']
    · have hother : ∀ v w : Value, (∃ c, v = .varchar c) → v.type = f.duckdbType →
          w.type = f.duckdbType → w.isNull = false → (soqlLiteral w).isSome = true →
            ∃ c, w = .varchar c := by
        intro v w hgiven hv hw hnull hlit
        obtain ⟨c, rfl⟩ := hgiven
        exact varchar_of_type w (hw.trans hv.symm) hnull hlit
      have hlono : ∀ s c, record f.name = some (.text s) → lo ≠ .varchar c := by
        intro s c _ heq
        subst heq
        obtain ⟨b, hb⟩ := hother (.varchar c) hi ⟨c, rfl⟩ hlo hhi hhin hhil
        exact htext ⟨c, b, rfl, hb⟩
      have hhino : ∀ s c, record f.name = some (.text s) → hi ≠ .varchar c := by
        intro s c _ heq
        subst heq
        obtain ⟨a, ha⟩ := hother (.varchar c) lo ⟨c, rfl⟩ hhi hlo hlon hlol
        exact htext ⟨a, c, ha, rfl⟩
      rw [compare_nontext R f _ hlone _ _ hlon hlono, compare_nontext R f _ hhine _ _ hhin hhino]

theorem nullTest_exact (h : Bound fields projectionToField column idx f) (test : ScalarTest)
    (htest : test = .isNull ∨ test = .isNotNull) :
    ExactMeansExact fields projectionToField column f test := by
  rw [exactMeansExact_iff]
  intro c hc R record _
  rcases htest with rfl | rfl
  · simp only [ScalarTest.expr, clauseOf, nullTestClause, h.fieldFor] at hc
    cases hc
    simp [Cond.eval, SoqlRules.predicate, SoqlRules.compare, Value.datum, ScalarTest.expr,
      duckPredicate, h.operand]
  · simp only [ScalarTest.expr, clauseOf, nullTestClause, h.fieldFor] at hc
    cases hc
    simp [Cond.eval, SoqlRules.predicate, SoqlRules.compare, Value.datum, ScalarTest.expr,
      duckPredicate, h.operand]

end Tests

end DuckdbSalesforce
