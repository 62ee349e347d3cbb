import Mathlib
import DuckdbSalesforce.Text
import DuckdbSalesforce.Library.Positional

/-!
# PK chunking (`salesforce_scan.cpp`)

`BuildIdRangeWheres` cuts the Id range of an object into ranges that Bulk jobs
read separately. Boundaries are interpolated over the first ten characters, as
base-62 numerals whose digit order is the byte order of the characters.
-/

namespace DuckdbSalesforce
open Positional

def base62Val (c : Char) : ℕ :=
  if '0' ≤ c ∧ c ≤ '9' then c.toNat - '0'.toNat
  else if 'A' ≤ c ∧ c ≤ 'Z' then c.toNat - 'A'.toNat + 10
  else if 'a' ≤ c ∧ c ≤ 'z' then c.toNat - 'a'.toNat + 36
  else 0

def base62Char (v : ℕ) : Char :=
  if v < 10 then Char.ofNat ('0'.toNat + v)
  else if v < 36 then Char.ofNat ('A'.toNat + v - 10)
  else Char.ofNat ('a'.toNat + v - 36)

def kIdPrec : ℕ := 10

def u64 (v : ℕ) : ℕ := v % 2 ^ 64

def idToNum (id : Text) : ℕ :=
  (List.range kIdPrec).foldl (fun v i => u64 (u64 (v * 62) +
    match id[i]? with
    | some c => base62Val c
    | none => 0)) 0

/-- The digit loop of `NumToId`, from the last of `k` places to the first. -/
def idDigits : ℕ → ℕ → Text → Text
  | 0, _, out => out
  | k + 1, v, out => idDigits k (v / 62) (base62Char (v % 62) :: out)

def numToId (v len : ℕ) : Text :=
  if len ≤ kIdPrec then (idDigits kIdPrec v []).take len
  else idDigits kIdPrec v [] ++ List.replicate (len - kIdPrec) '0'

def idBoundary (minId maxId : Text) (n i : ℕ) : Text :=
  numToId (u64 (idToNum minId +
      u64 (u64 (idToNum maxId + 2 ^ 64 - idToNum minId) * i) / n))
    (if minId.length ≥ maxId.length then minId.length else maxId.length)

def idBoundaries (minId maxId : Text) (n : ℕ) : List Text :=
  minId :: (List.range' 1 (n - 1)).map (idBoundary minId maxId n) ++ [maxId]

structure IdRange where
  lo : Text
  hi : Text
  last : Bool
  deriving DecidableEq, Repr

def IdRange.text (r : IdRange) : Text :=
  if r.last then "Id >= '".toList ++ r.lo ++ "' AND Id <= '".toList ++ r.hi ++ "'".toList
  else "Id >= '".toList ++ r.lo ++ "' AND Id < '".toList ++ r.hi ++ "'".toList

def IdRange.contains (r : IdRange) (x : Text) : Prop :=
  r.lo ≤ x ∧ if r.last then x ≤ r.hi else x < r.hi

/-- The chunk loop at index `i`, over the boundaries from `b[i]` on. -/
def idRangesFrom (n : ℕ) : ℕ → List Text → List IdRange
  | i, lo :: hi :: rest =>
    (if i > 0 ∧ hi ≤ lo then [] else [⟨lo, hi, i == n - 1⟩]) ++ idRangesFrom n (i + 1) (hi :: rest)
  | _, _ => []

def idRanges (minId maxId : Text) (n : ℕ) : List IdRange :=
  idRangesFrom n 0 (idBoundaries minId maxId n)

/-- The lambda `combine`. -/
def combineRange (pushed range : Text) : Text :=
  if pushed = [] then range else "(".toList ++ pushed ++ ") AND (".toList ++ range ++ ")".toList

def buildIdRangeWheres (pushed minId maxId : Text) (n : ℕ) : List Text :=
  (idRanges minId maxId n).map fun r => combineRange pushed r.text

/-! ### Characters as digits -/

theorem alnum_ranges (c : Char) (h : isAlnum c = true) :
    (48 ≤ c.toNat ∧ c.toNat ≤ 57) ∨ (65 ≤ c.toNat ∧ c.toNat ≤ 90) ∨
      (97 ≤ c.toNat ∧ c.toNat ≤ 122) := by
  simp only [isAlnum, Char.isAlphanum, Char.isAlpha, Char.isUpper, Char.isLower, Char.isDigit,
    Bool.or_eq_true, Bool.and_eq_true, decide_eq_true_eq, UInt32.le_iff_toNat_le, ge_iff_le] at h
  have hc : c.toNat = c.val.toNat := rfl
  rw [hc]
  rcases h with (h | h) | h
  · exact Or.inr (Or.inl h)
  · exact Or.inr (Or.inr h)
  · exact Or.inl h

theorem base62Val_eq (c : Char) :
    base62Val c =
      if 48 ≤ c.toNat ∧ c.toNat ≤ 57 then c.toNat - 48
      else if 65 ≤ c.toNat ∧ c.toNat ≤ 90 then c.toNat - 55
      else if 97 ≤ c.toNat ∧ c.toNat ≤ 122 then c.toNat - 61
      else 0 := by
  have hle : ∀ a b : Char, a ≤ b ↔ a.toNat ≤ b.toNat := fun a b => Iff.rfl
  unfold base62Val
  simp only [hle, show '0'.toNat = 48 from rfl, show '9'.toNat = 57 from rfl,
    show 'A'.toNat = 65 from rfl, show 'Z'.toNat = 90 from rfl, show 'a'.toNat = 97 from rfl,
    show 'z'.toNat = 122 from rfl]
  split
  · rfl
  · split
    · omega
    · split
      · omega
      · rfl

theorem base62Val_lt (c : Char) : base62Val c < 62 := by
  rw [base62Val_eq]
  split
  · omega
  · split
    · omega
    · split
      · omega
      · omega

theorem char_lt_iff (c d : Char) : c < d ↔ c.toNat < d.toNat := Iff.rfl

theorem alnum_val (c : Char) (h : isAlnum c = true) :
    (c.toNat ≤ 57 ∧ base62Val c + 48 = c.toNat) ∨
      (65 ≤ c.toNat ∧ c.toNat ≤ 90 ∧ base62Val c + 55 = c.toNat) ∨
      (97 ≤ c.toNat ∧ base62Val c + 61 = c.toNat) := by
  rw [base62Val_eq]
  rcases alnum_ranges c h with hr | hr | hr
  · rw [if_pos hr]
    omega
  · rw [if_neg (by omega), if_pos hr]
    omega
  · rw [if_neg (by omega), if_neg (by omega), if_pos hr]
    omega

theorem base62Val_lt_iff (c d : Char) (hc : isAlnum c = true) (hd : isAlnum d = true) :
    base62Val c < base62Val d ↔ c < d := by
  have hcv := alnum_val c hc
  have hdv := alnum_val d hd
  have hcl := base62Val_lt c
  have hdl := base62Val_lt d
  have hcr := alnum_ranges c hc
  have hdr := alnum_ranges d hd
  rw [char_lt_iff]
  omega

theorem base62Val_char (v : ℕ) (h : v < 62) :
    base62Val (base62Char v) = v ∧ isAlnum (base62Char v) = true := by
  have hall : ∀ v : Fin 62, base62Val (base62Char v) = v ∧ isAlnum (base62Char v) = true := by
    decide
  exact hall ⟨v, h⟩

/-! ### Texts as numerals -/

def idDigitValues (t : Text) : List ℕ := t.map base62Val

theorem idDigitValues_lt (t : Text) : ∀ d ∈ idDigitValues t, d < 62 := by
  intro d hd
  obtain ⟨c, _, rfl⟩ := List.mem_map.mp hd
  exact base62Val_lt c

/-- On alphanumeric texts the byte order is the order of the digits. -/
theorem idDigitValues_lt_iff (a b : Text) (ha : a.all isAlnum = true) (hb : b.all isAlnum = true) :
    idDigitValues a < idDigitValues b ↔ a < b := by
  induction a generalizing b with
  | nil =>
    cases b with
    | nil => simp [idDigitValues]
    | cons d b => simp [idDigitValues]
  | cons c a ih =>
    cases b with
    | nil => simp [idDigitValues]
    | cons d b =>
      simp only [List.all_cons, Bool.and_eq_true] at ha hb
      have hcd := base62Val_lt_iff c d ha.1 hb.1
      have hdc := base62Val_lt_iff d c hb.1 ha.1
      have heq : base62Val c = base62Val d ↔ c = d := by
        constructor
        · intro h
          rcases lt_trichotomy c d with hlt | heq | hgt
          · exact absurd (hcd.mpr hlt) (by omega)
          · exact heq
          · exact absurd (hdc.mpr hgt) (by omega)
        · intro h
          rw [h]
      simp only [idDigitValues, List.map_cons]
      rw [List.cons_lt_cons_iff, List.cons_lt_cons_iff, hcd, heq]
      exact or_congr_right (and_congr_right fun _ => ih b ha.2 hb.2)

theorem value_lt_iff_text (a b : Text) (hlen : a.length = b.length) (ha : a.all isAlnum = true)
    (hb : b.all isAlnum = true) : value 62 (idDigitValues a) < value 62 (idDigitValues b) ↔ a < b := by
  rw [value_lt_iff 62 _ _ (by simpa [idDigitValues] using hlen) (idDigitValues_lt a)
    (idDigitValues_lt b), idDigitValues_lt_iff a b ha hb]

/-- The digits that `IdToNum` reads: ten of them, zero where the Id is shorter. -/
def leadingDigits (id : Text) : List ℕ :=
  (List.range kIdPrec).map fun i =>
    match id[i]? with
    | some c => base62Val c
    | none => 0

theorem leadingDigits_lt (id : Text) : ∀ d ∈ leadingDigits id, d < 62 := by
  intro d hd
  obtain ⟨i, _, rfl⟩ := List.mem_map.mp hd
  cases id[i]? with
  | none => decide
  | some c => exact base62Val_lt c

theorem leadingDigits_length (id : Text) : (leadingDigits id).length = 10 := by
  simp [leadingDigits, kIdPrec]

theorem leadingDigits_eq (id : Text) :
    leadingDigits id = idDigitValues (id.take kIdPrec) ++ List.replicate (kIdPrec - id.length) 0 := by
  apply List.ext_getElem
  · simp [leadingDigits, idDigitValues]
    omega
  · intro i hi hj
    have hi10 : i < kIdPrec := by simpa [leadingDigits] using hi
    simp only [leadingDigits, List.getElem_map, List.getElem_range]
    by_cases hlen : i < id.length
    · rw [List.getElem_append_left (by simp [idDigitValues]; omega), List.getElem?_eq_getElem hlen]
      simp [idDigitValues]
    · rw [List.getElem_append_right (by simp [idDigitValues]; omega), List.getElem?_eq_none (by omega)]
      simp

theorem u64_of_lt (v : ℕ) (h : v < 62 ^ 10) : u64 v = v :=
  Nat.mod_eq_of_lt (lt_trans h (by decide))

theorem foldl_u64 (ds : List ℕ) (v j : ℕ) (hd : ∀ d ∈ ds, d < 62) (hv : v < 62 ^ j)
    (hj : j + ds.length ≤ 10) :
    ds.foldl (fun v d => u64 (u64 (v * 62) + d)) v = ds.foldl (fun v d => v * 62 + d) v := by
  induction ds generalizing v j with
  | nil => rfl
  | cons d ds ih =>
    rw [List.length_cons] at hj
    have hd62 : d < 62 := hd d (List.mem_cons_self ..)
    have hstep : v * 62 + d < 62 ^ (j + 1) := by
      rw [pow_succ]
      omega
    have hpow : 62 ^ (j + 1) ≤ 62 ^ 10 := Nat.pow_le_pow_right (by decide) (by omega)
    rw [List.foldl_cons, List.foldl_cons, u64_of_lt (v * 62) (by omega), u64_of_lt _ (by omega)]
    exact ih (v * 62 + d) (j + 1) (fun e he => hd e (List.mem_cons_of_mem _ he)) hstep (by omega)

theorem idToNum_value (id : Text) : idToNum id = value 62 (leadingDigits id) := by
  have hfold := foldl_u64 (leadingDigits id) 0 0 (leadingDigits_lt id) (by decide)
    (by rw [leadingDigits_length])
  rw [value, ← hfold]
  unfold idToNum leadingDigits
  rw [List.foldl_map]

theorem idToNum_lt (id : Text) : idToNum id < 62 ^ 10 := by
  rw [idToNum_value]
  have h := value_lt_pow 62 _ (leadingDigits_lt id)
  rwa [leadingDigits_length] at h

theorem idDigits_eq (k v : ℕ) (out : Text) :
    idDigits k v out = (digits 62 k v).map base62Char ++ out := by
  induction k generalizing v out with
  | zero => rfl
  | succ k ih =>
    rw [idDigits, ih, digits, List.map_append, List.append_assoc]
    rfl

theorem digit_chars (ds : List ℕ) (h : ∀ d ∈ ds, d < 62) :
    idDigitValues (ds.map base62Char) = ds ∧ (ds.map base62Char).all isAlnum = true := by
  induction ds with
  | nil => exact ⟨rfl, rfl⟩
  | cons d ds ih =>
    obtain ⟨hval, hall⟩ := ih fun e he => h e (List.mem_cons_of_mem _ he)
    obtain ⟨hd, hda⟩ := base62Val_char d (h d (List.mem_cons_self ..))
    refine ⟨?_, ?_⟩
    · simpa [idDigitValues, hd] using hval
    · simpa [hda] using hall

theorem numToId_length (v len : ℕ) : (numToId v len).length = len := by
  unfold numToId
  rw [idDigits_eq, List.append_nil]
  split
  · rw [List.length_take, List.length_map, digits_length]
    omega
  · rw [List.length_append, List.length_map, digits_length, List.length_replicate]
    omega

theorem numToId_alnum (v len : ℕ) : (numToId v len).all isAlnum = true := by
  obtain ⟨_, hall⟩ := digit_chars (digits 62 kIdPrec v) (digits_lt 62 (by decide) kIdPrec v)
  have hzero : (List.replicate (len - kIdPrec) '0').all isAlnum = true := by
    rw [List.all_eq_true]
    intro c hc
    rw [List.eq_of_mem_replicate hc]
    decide
  unfold numToId
  rw [idDigits_eq, List.append_nil]
  split
  · rw [List.all_eq_true] at hall ⊢
    exact fun c hc => hall c (List.mem_of_mem_take hc)
  · rw [List.all_append, hall, hzero]
    rfl

theorem idToNum_take (id : Text) :
    idToNum id = value 62 (idDigitValues (id.take kIdPrec)) * 62 ^ (kIdPrec - id.length) := by
  rw [idToNum_value, leadingDigits_eq, value_append, value_zeros, List.length_replicate,
    Nat.add_zero]

/-- The leading characters of a boundary are the number without the places
that a short Id has not. -/
theorem numToId_take (v len : ℕ) (hv : v < 62 ^ kIdPrec) :
    value 62 (idDigitValues ((numToId v len).take kIdPrec)) = v / 62 ^ (kIdPrec - len) := by
  have hdigits := digits_lt 62 (by decide) kIdPrec v
  have hlen := digits_length 62 kIdPrec v
  have hchars : (numToId v len).take kIdPrec = ((digits 62 kIdPrec v).take len).map base62Char := by
    unfold numToId
    rw [idDigits_eq, List.append_nil]
    by_cases hshort : len ≤ kIdPrec
    · rw [if_pos hshort, List.take_take, Nat.min_eq_right hshort, List.map_take]
    · rw [if_neg hshort, List.take_left' (by rw [List.length_map, hlen]),
        List.take_of_length_le (by omega)]
  rw [hchars, (digit_chars _ fun d hd => hdigits d (List.mem_of_mem_take hd)).1,
    value_take 62 _ len hdigits, hlen, value_digits, Nat.mod_eq_of_lt hv]

theorem lt_of_take_lt (a b : Text) (k : ℕ) (hlen : a.length = b.length)
    (h : a.take k < b.take k) : a < b := by
  rw [← List.take_append_drop k a, ← List.take_append_drop k b]
  exact append_lt_append _ _ _ _ (by rw [List.length_take, List.length_take, hlen]) h

theorem take_alnum (a : Text) (k : ℕ) (h : a.all isAlnum = true) :
    (a.take k).all isAlnum = true := by
  rw [List.all_eq_true] at h ⊢
  exact fun c hc => h c (List.mem_of_mem_take hc)

theorem numToId_lt (v : ℕ) (id : Text) (hid : id.all isAlnum = true) (hv : v < idToNum id) :
    numToId v id.length < id := by
  refine lt_of_take_lt _ _ kIdPrec (numToId_length v id.length) ?_
  rw [← value_lt_iff_text _ _ (by rw [List.length_take, List.length_take, numToId_length])
    (take_alnum _ _ (numToId_alnum v id.length)) (take_alnum _ _ hid),
    numToId_take v id.length (lt_trans hv (idToNum_lt id)), Nat.div_lt_iff_lt_mul (Nat.pow_pos (by decide)),
    ← idToNum_take]
  exact hv

theorem idToNum_mono (a b : Text) (hlen : a.length = b.length) (ha : a.all isAlnum = true)
    (hb : b.all isAlnum = true) (h : a < b) : idToNum a ≤ idToNum b := by
  by_contra hlt
  have hprefix : value 62 (idDigitValues (b.take kIdPrec)) <
      value 62 (idDigitValues (a.take kIdPrec)) := by
    rw [idToNum_take a, idToNum_take b, hlen] at hlt
    exact lt_of_mul_lt_mul_right (not_le.mp hlt) (Nat.zero_le _)
  rw [value_lt_iff_text _ _ (by rw [List.length_take, List.length_take, hlen]) (take_alnum _ _ hb)
    (take_alnum _ _ ha)] at hprefix
  exact lt_asymm h (lt_of_take_lt b a kIdPrec hlen.symm hprefix)

theorem eq_of_value_eq (a b : Text) (hlen : a.length = b.length) (ha : a.all isAlnum = true)
    (hb : b.all isAlnum = true) (h : value 62 (idDigitValues a) = value 62 (idDigitValues b)) :
    a = b := by
  rcases lt_trichotomy a b with hlt | heq | hgt
  · have hv := (value_lt_iff_text a b hlen ha hb).mpr hlt
    omega
  · exact heq
  · have hv := (value_lt_iff_text b a hlen.symm hb ha).mpr hgt
    omega

theorem zeros_le (s : Text) (h : s.all isAlnum = true) : List.replicate s.length '0' ≤ s := by
  induction s with
  | nil => exact le_refl _
  | cons c s ih =>
    simp only [List.all_cons, Bool.and_eq_true] at h
    have hc : '0'.toNat ≤ c.toNat := by
      have hr := alnum_ranges c h.1
      have h0 : '0'.toNat = 48 := rfl
      omega
    rw [List.length_cons, List.replicate_succ, ← not_lt, List.cons_lt_cons_iff]
    intro hor
    rcases hor with hlt | ⟨rfl, hlt⟩
    · rw [char_lt_iff] at hlt
      omega
    · exact not_lt.mpr (ih h.2) hlt

/-- When the ends share their leading characters the boundary is not above
the lower end. -/
theorem numToId_le (a b : Text) (hlen : a.length = b.length) (ha : a.all isAlnum = true)
    (hb : b.all isAlnum = true) (h : a < b) (hnum : idToNum a = idToNum b) :
    numToId (idToNum a) a.length ≤ a := by
  have hvalue : value 62 (idDigitValues (a.take kIdPrec)) =
      value 62 (idDigitValues (b.take kIdPrec)) := by
    rw [idToNum_take a, idToNum_take b, hlen] at hnum
    exact Nat.eq_of_mul_eq_mul_right (Nat.pow_pos (by decide)) hnum
  have hprefix := eq_of_value_eq _ _ (by rw [List.length_take, List.length_take, hlen])
    (take_alnum a kIdPrec ha) (take_alnum b kIdPrec hb) hvalue
  have hlong : ¬ a.length ≤ kIdPrec := by
    intro hshort
    rw [List.take_of_length_le hshort, List.take_of_length_le (hlen ▸ hshort)] at hprefix
    exact absurd hprefix (ne_of_lt h)
  have hdiv : kIdPrec - a.length = 0 := by omega
  have hlead : (numToId (idToNum a) a.length).take kIdPrec = a.take kIdPrec := by
    refine eq_of_value_eq _ _ (by rw [List.length_take, List.length_take, numToId_length])
      (take_alnum _ _ (numToId_alnum _ _)) (take_alnum a kIdPrec ha) ?_
    rw [numToId_take _ _ (idToNum_lt a), hdiv, pow_zero, Nat.div_one, idToNum_take a, hdiv,
      pow_zero, Nat.mul_one]
  have hdrop : (numToId (idToNum a) a.length).drop kIdPrec =
      List.replicate (a.drop kIdPrec).length '0' := by
    unfold numToId
    rw [if_neg hlong, idDigits_eq, List.append_nil,
      List.drop_left' (by rw [List.length_map, digits_length]), List.length_drop]
  have hzeros := zeros_le (a.drop kIdPrec) (by
    rw [List.all_eq_true] at ha ⊢
    exact fun c hc => ha c (List.mem_of_mem_drop hc))
  rw [← List.take_append_drop kIdPrec (numToId (idToNum a) a.length), hlead, hdrop]
  rcases lt_or_eq_of_le hzeros with hlt | heq
  · have happ : a.take kIdPrec ++ List.replicate (a.drop kIdPrec).length '0' <
        a.take kIdPrec ++ a.drop kIdPrec := List.append_left_lt hlt
    rw [List.take_append_drop] at happ
    exact le_of_lt happ
  · rw [heq, List.take_append_drop]

/-- The interpolation does not wrap. -/
theorem interpolate_eq (lo hi n i : ℕ) (hle : lo ≤ hi) (hhi : hi < 62 ^ 10) (hi' : i < n)
    (hn : n ≤ 8) :
    u64 (lo + u64 (u64 (hi + 2 ^ 64 - lo) * i) / n) = lo + (hi - lo) * i / n := by
  have hdiff : u64 (hi + 2 ^ 64 - lo) = hi - lo := by
    unfold u64
    omega
  have hmul : (hi - lo) * i ≤ 62 ^ 10 * 7 := Nat.mul_le_mul (by omega) (by omega)
  have hprod : u64 ((hi - lo) * i) = (hi - lo) * i := by
    refine Nat.mod_eq_of_lt (lt_of_le_of_lt hmul ?_)
    decide
  have hquot : (hi - lo) * i / n ≤ hi - lo := by
    apply Nat.div_le_of_le_mul
    rw [Nat.mul_comm n]
    exact Nat.mul_le_mul_left _ (by omega)
  rw [hdiff, hprod]
  exact u64_of_lt _ (by omega)

theorem idBoundary_lt (a b : Text) (n i : ℕ) (hlen : a.length = b.length)
    (ha : a.all isAlnum = true) (hb : b.all isAlnum = true) (h : a < b) (hi : i < n)
    (hn : n ≤ 8) : idBoundary a b n i < b := by
  have hmono := idToNum_mono a b hlen ha hb h
  unfold idBoundary
  rw [interpolate_eq _ _ n i hmono (idToNum_lt b) hi hn, if_pos (by omega)]
  rcases Nat.lt_or_eq_of_le hmono with hlt | heq
  · rw [hlen]
    refine numToId_lt _ b hb ?_
    have hquot : (idToNum b - idToNum a) * i / n < idToNum b - idToNum a := by
      rw [Nat.div_lt_iff_lt_mul (by omega)]
      exact Nat.mul_lt_mul_of_pos_left hi (by omega)
    omega
  · have hzero : idToNum b - idToNum a = 0 := by omega
    rw [hzero, Nat.zero_mul, Nat.zero_div, Nat.add_zero]
    exact lt_of_le_of_lt (numToId_le a b hlen ha hb h heq) h

theorem take_le_take (a b : Text) (k : ℕ) (hlen : a.length = b.length) (h : a ≤ b) :
    a.take k ≤ b.take k :=
  not_lt.mp fun hlt => not_lt.mpr h (lt_of_take_lt b a k hlen.symm hlt)

theorem numToId_mono (v w len : ℕ) (hle : v ≤ w) (hw : w < 62 ^ kIdPrec) :
    numToId v len ≤ numToId w len := by
  obtain ⟨hvval, hvall⟩ := digit_chars (digits 62 kIdPrec v) (digits_lt 62 (by decide) kIdPrec v)
  obtain ⟨hwval, hwall⟩ := digit_chars (digits 62 kIdPrec w) (digits_lt 62 (by decide) kIdPrec w)
  have hlen : ((digits 62 kIdPrec v).map base62Char).length =
      ((digits 62 kIdPrec w).map base62Char).length := by
    rw [List.length_map, List.length_map, digits_length, digits_length]
  have hdigits : (digits 62 kIdPrec v).map base62Char ≤ (digits 62 kIdPrec w).map base62Char := by
    rw [← not_lt, ← value_lt_iff_text _ _ hlen.symm hwall hvall, hvval, hwval, value_digits,
      value_digits, Nat.mod_eq_of_lt hw, Nat.mod_eq_of_lt (lt_of_le_of_lt hle hw)]
    omega
  unfold numToId
  rw [idDigits_eq, idDigits_eq, List.append_nil, List.append_nil]
  by_cases hshort : len ≤ kIdPrec
  · rw [if_pos hshort, if_pos hshort]
    exact take_le_take _ _ len hlen hdigits
  · rw [if_neg hshort, if_neg hshort]
    rcases lt_or_eq_of_le hdigits with hlt | heq
    · exact le_of_lt (append_lt_append _ _ _ _ hlen hlt)
    · rw [heq]

theorem idBoundary_mono (a b : Text) (n i j : ℕ) (hlen : a.length = b.length)
    (ha : a.all isAlnum = true) (hb : b.all isAlnum = true) (h : a < b) (hij : i ≤ j) (hj : j < n)
    (hn : n ≤ 8) : idBoundary a b n i ≤ idBoundary a b n j := by
  have hmono := idToNum_mono a b hlen ha hb h
  have htop := idToNum_lt b
  unfold idBoundary
  rw [interpolate_eq _ _ n i hmono htop (by omega) hn, interpolate_eq _ _ n j hmono htop hj hn]
  have hquot : (idToNum b - idToNum a) * i / n ≤ (idToNum b - idToNum a) * j / n :=
    Nat.div_le_div_right (Nat.mul_le_mul_left _ hij)
  have hlast : (idToNum b - idToNum a) * j / n ≤ idToNum b - idToNum a := by
    apply Nat.div_le_of_le_mul
    rw [Nat.mul_comm n]
    exact Nat.mul_le_mul_left _ (by omega)
  refine numToId_mono _ _ _ (by omega) ?_
  show _ < 62 ^ 10
  omega

/-! ### Coverage -/

/-- The ranges from boundary `lo` on cover what lies between it and the top. -/
theorem idRangesFrom_cover (n : ℕ) (x top : Text) (mids : List Text) (lo : Text) (i : ℕ)
    (hn : i + mids.length + 1 = n) (hlo : lo ≤ x) (htop : x ≤ top) (hmids : ∀ t ∈ mids, t < top)
    (hfirst : i = 0 ∨ lo < top) :
    ∃ r ∈ idRangesFrom n i (lo :: (mids ++ [top])), r.contains x := by
  induction mids generalizing lo i with
  | nil =>
    have hlast : (i == n - 1) = true := by
      rw [List.length_nil] at hn
      simp only [beq_iff_eq]
      omega
    have hkept : ¬ (i > 0 ∧ top ≤ lo) := by
      intro hgiven
      obtain ⟨hi, hle⟩ := hgiven
      rcases hfirst with h | h
      · omega
      · exact absurd hle (not_le.mpr h)
    refine ⟨⟨lo, top, i == n - 1⟩, ?_, hlo, ?_⟩
    · rw [List.nil_append, idRangesFrom, if_neg hkept]
      exact List.mem_append_left _ (List.mem_singleton_self _)
    · rw [if_pos hlast]
      exact htop
  | cons m mids ih =>
    rw [List.length_cons] at hn
    rw [List.cons_append, idRangesFrom]
    by_cases hx : x < m
    · have hlast : (i == n - 1) = false := by
        simp only [beq_eq_false_iff_ne]
        omega
      have hkept : ¬ (i > 0 ∧ m ≤ lo) := fun h => absurd h.2 (not_le.mpr (lt_of_le_of_lt hlo hx))
      refine ⟨⟨lo, m, i == n - 1⟩, ?_, hlo, ?_⟩
      · rw [if_neg hkept]
        exact List.mem_append_left _ (List.mem_singleton_self _)
      · rw [hlast]
        exact hx
    · obtain ⟨r, hr, hc⟩ := ih m (i + 1) (by omega) (not_lt.mp hx)
        (fun t ht => hmids t (List.mem_cons_of_mem _ ht))
        (Or.inr (hmids m (List.mem_cons_self ..)))
      exact ⟨r, List.mem_append_right _ hr, hc⟩

theorem idRanges_cover (a b : Text) (n : ℕ) (hlen : a.length = b.length)
    (ha : a.all isAlnum = true) (hb : b.all isAlnum = true) (h : a < b) (hn : 1 ≤ n) (hn8 : n ≤ 8)
    (x : Text) (hax : a ≤ x) (hxb : x ≤ b) : ∃ r ∈ idRanges a b n, r.contains x := by
  refine idRangesFrom_cover n x b _ a 0 ?_ hax hxb ?_ (Or.inl rfl)
  · rw [List.length_map, List.length_range']
    omega
  · intro t ht
    obtain ⟨i, hi, rfl⟩ := List.mem_map.mp ht
    rw [List.mem_range'] at hi
    obtain ⟨j, hj, rfl⟩ := hi
    exact idBoundary_lt a b n _ hlen ha hb h (by omega) hn8

theorem idRangesFrom_above (n i : ℕ) (lo top : Text) (mids : List Text)
    (hsorted : (lo :: mids).Pairwise (· ≤ ·)) :
    ∀ r ∈ idRangesFrom n i (lo :: (mids ++ [top])), lo ≤ r.lo := by
  induction mids generalizing lo i with
  | nil =>
    intro r hr
    rw [List.nil_append, idRangesFrom] at hr
    rcases List.mem_append.mp hr with hr | hr
    · split at hr
      · cases hr
      · rw [List.mem_singleton.mp hr]
    · cases hr
  | cons m mids ih =>
    obtain ⟨hfirst, hrest⟩ := List.pairwise_cons.mp hsorted
    intro r hr
    rw [List.cons_append, idRangesFrom] at hr
    rcases List.mem_append.mp hr with hr | hr
    · split at hr
      · cases hr
      · rw [List.mem_singleton.mp hr]
    · exact le_trans (hfirst m (List.mem_cons_self ..)) (ih (i + 1) m hrest r hr)

/-- The first boundary need not be below the next one: its range is empty then. -/
theorem idRangesFrom_disjoint (n i : ℕ) (lo top : Text) (mids : List Text)
    (hn : i + mids.length + 1 = n) (hsorted : mids.Pairwise (· ≤ ·)) :
    (idRangesFrom n i (lo :: (mids ++ [top]))).Pairwise
      fun r s => ∀ x, ¬ (r.contains x ∧ s.contains x) := by
  induction mids generalizing lo i with
  | nil =>
    rw [List.nil_append, idRangesFrom]
    split
    · exact List.Pairwise.nil
    · exact List.pairwise_singleton _ _
  | cons m mids ih =>
    rw [List.length_cons] at hn
    have hlast : (i == n - 1) = false := by
      simp only [beq_eq_false_iff_ne]
      omega
    rw [List.cons_append, idRangesFrom]
    refine List.pairwise_append.mpr ⟨?_, ih (i + 1) m (by omega) hsorted.of_cons, ?_⟩
    · split
      · exact List.Pairwise.nil
      · exact List.pairwise_singleton _ _
    · intro r hr s hs x hboth
      split at hr
      · cases hr
      · rw [List.mem_singleton.mp hr, hlast] at hboth
        have hbelow : x < m := hboth.1.2
        have habove := idRangesFrom_above n (i + 1) m top mids hsorted s hs
        exact absurd hbelow (not_lt.mpr (le_trans habove hboth.2.1))

theorem idRanges_disjoint (a b : Text) (n : ℕ) (hlen : a.length = b.length)
    (ha : a.all isAlnum = true) (hb : b.all isAlnum = true) (h : a < b) (hn : 1 ≤ n)
    (hn8 : n ≤ 8) :
    (idRanges a b n).Pairwise fun r s => ∀ x, ¬ (r.contains x ∧ s.contains x) := by
  refine idRangesFrom_disjoint n 0 a b _ ?_ ?_
  · rw [List.length_map, List.length_range']
    omega
  · rw [List.pairwise_map]
    refine List.Pairwise.imp_of_mem ?_ List.pairwise_lt_range'
    intro i j _ hj hij
    rw [List.mem_range'_1] at hj
    exact idBoundary_mono a b n i j hlen ha hb h (by omega) (by omega) hn8

theorem idRangesFrom_alnum (n i : ℕ) (bs : List Text) (h : ∀ t ∈ bs, t.all isAlnum = true) :
    ∀ r ∈ idRangesFrom n i bs, r.lo.all isAlnum = true ∧ r.hi.all isAlnum = true := by
  induction bs generalizing i with
  | nil => simp [idRangesFrom]
  | cons lo bs ih =>
    cases bs with
    | nil => simp [idRangesFrom]
    | cons hi rest =>
      intro r hr
      rw [idRangesFrom] at hr
      rcases List.mem_append.mp hr with hr | hr
      · split at hr
        · cases hr
        · rw [List.mem_singleton.mp hr]
          exact ⟨h lo (by simp), h hi (by simp)⟩
      · exact ih (i + 1) (fun t ht => h t (List.mem_cons_of_mem _ ht)) r hr

theorem idRanges_alnum (a b : Text) (n : ℕ) (ha : a.all isAlnum = true) (hb : b.all isAlnum = true) :
    ∀ r ∈ idRanges a b n, r.lo.all isAlnum = true ∧ r.hi.all isAlnum = true := by
  refine idRangesFrom_alnum n 0 _ ?_
  intro t ht
  unfold idBoundaries at ht
  rcases List.mem_append.mp ht with ht | ht
  · rcases List.mem_cons.mp ht with rfl | ht
    · exact ha
    · obtain ⟨i, _, rfl⟩ := List.mem_map.mp ht
      exact numToId_alnum _ _
  · rw [List.mem_singleton.mp ht]
    exact hb

end DuckdbSalesforce
