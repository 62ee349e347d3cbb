import Mathlib
import DuckdbSalesforce.Library.JsonText
import DuckdbSalesforce.Text

/-!
# The JSON readers (`salesforce_json.hpp`)

`sfjson` finds a member by searching the text for its quoted name. A text is
the list of its characters here: the readers look at ASCII only, and no byte of
a longer UTF-8 character is ASCII.
-/

namespace DuckdbSalesforce
open JsonText

/-- `std::string::find`. -/
def findText (needle : Text) : Text → Option ℕ
  | [] => if needle = [] then some 0 else none
  | c :: t => if needle.isPrefixOf (c :: t) then some 0 else (findText needle t).map (· + 1)

def skipWs (s : Text) (i : ℕ) : ℕ := i + ((s.drop i).takeWhile isBlank).length

def quoted (key : Text) : Text := '"' :: key ++ ['"']

/-- The position of the value; `none` is `npos`. -/
def findValue (json key : Text) : Option ℕ :=
  match findText (quoted key) json with
  | none => none
  | some k =>
    let i := skipWs json (k + (quoted key).length)
    if json[i]? = some ':' then some (skipWs json (i + 1)) else none

def unescape : Char → Char
  | 'n' => '\n'
  | 't' => '\t'
  | 'r' => '\r'
  | e => e

/-- `ReadStringAt` from behind the opening quote. -/
def readString : Text → Text
  | [] => []
  | [c] => if c = '"' then [] else [c]
  | c :: e :: t =>
    if c = '\\' then unescape e :: readString t
    else if c = '"' then []
    else c :: readString (e :: t)

def getString (json key : Text) : Text :=
  match findValue json key with
  | none => []
  | some i => if json[i]? = some '"' then readString (json.drop (i + 1)) else []

structure ValueRead where
  out : Text
  found : Bool
  isNull : Bool
  deriving DecidableEq, Repr

def getValue (json key : Text) : ValueRead :=
  match findValue json key with
  | none => ⟨[], false, false⟩
  | some i =>
    if json.length ≤ i then ⟨[], false, false⟩
    else if "null".toList.isPrefixOf (json.drop i) then ⟨[], true, true⟩
    else if json[i]? = some '"' then ⟨readString (json.drop (i + 1)), true, false⟩
    else ⟨(json.drop i).takeWhile fun c => !isTerminator c, true, false⟩

def getBool (json key : Text) (dflt : Bool) : Bool :=
  match findValue json key with
  | none => dflt
  | some i =>
    if "true".toList.isPrefixOf (json.drop i) then true
    else if "false".toList.isPrefixOf (json.drop i) then false
    else dflt

def decimal (digits : Text) : ℕ := digits.foldl (fun n c => 10 * n + (c.toNat - '0'.toNat)) 0

theorem decimal_natText (n : ℕ) : decimal (natText n) = n := by
  have h := Nat.ofDigitChars_ten_toDigits (n := n)
  rw [Nat.ofDigitChars_eq_foldl] at h
  rw [natText_eq]
  exact h

def inInt64 (v : ℤ) : Prop := -9223372036854775808 ≤ v ∧ v ≤ 9223372036854775807

instance (v : ℤ) : Decidable (inInt64 v) := inferInstanceAs (Decidable (_ ∧ _))

def signed (negative : Bool) (n : ℕ) : ℤ := if negative then -(n : ℤ) else n

/-- The sign and digits at the head; `std::stoll` throws outside of its range. -/
def readInt (s : Text) (dflt : ℤ) : ℤ :=
  let negative := s.head? = some '-'
  let rest := if s.head? = some '-' ∨ s.head? = some '+' then s.tail else s
  let digits := rest.takeWhile Char.isDigit
  if digits = [] then dflt
  else if inInt64 (signed negative (decimal digits)) then signed negative (decimal digits)
  else dflt

def getInt (json key : Text) (dflt : ℤ) : ℤ :=
  match findValue json key with
  | none => dflt
  | some i => readInt (json.drop i) dflt

/-- Outside of strings, inside of one, or behind a backslash in one, where the
source skips a character. -/
inductive ScanMode where
  | code
  | string
  | skip
  deriving DecidableEq, Repr

/-- The length up to the brace that closes the object. -/
def objectEnd (depth : ℤ) : ScanMode → Text → Option ℕ
  | _, [] => none
  | .skip, _ :: t => (objectEnd depth .string t).map (· + 1)
  | .string, c :: t =>
    if c = '\\' then (objectEnd depth .skip t).map (· + 1)
    else if c = '"' then (objectEnd depth .code t).map (· + 1)
    else (objectEnd depth .string t).map (· + 1)
  | .code, c :: t =>
    if c = '"' then (objectEnd depth .string t).map (· + 1)
    else if c = '{' then (objectEnd (depth + 1) .code t).map (· + 1)
    else if c = '}' then
      if depth - 1 = 0 then some 1 else (objectEnd (depth - 1) .code t).map (· + 1)
    else (objectEnd depth .code t).map (· + 1)

def extractObject (json key : Text) : Text :=
  match findValue json key with
  | none => []
  | some i =>
    if json[i]? = some '{' then
      match objectEnd 0 .code (json.drop i) with
      | none => []
      | some n => (json.drop i).take n
    else []

/-- The loop of `GetObjectArray` and `SplitArrayObjects` behind the bracket: the
depth, `in_obj`, and the text from `obj_start` on. -/
def scanObjects : ScanMode → ℤ → Bool → Text → Text → List Text
  | _, _, _, _, [] => []
  | .skip, depth, inObj, cur, c :: t => scanObjects .string depth inObj (cur ++ [c]) t
  | .string, depth, inObj, cur, c :: t =>
    if c = '\\' then scanObjects .skip depth inObj (cur ++ [c]) t
    else if c = '"' then scanObjects .code depth inObj (cur ++ [c]) t
    else scanObjects .string depth inObj (cur ++ [c]) t
  | .code, depth, inObj, cur, c :: t =>
    if c = '"' then scanObjects .string depth inObj (cur ++ [c]) t
    else if c = '{' then
      if depth = 0 then scanObjects .code (depth + 1) true [c] t
      else scanObjects .code (depth + 1) inObj (cur ++ [c]) t
    else if c = '}' then
      if depth - 1 = 0 ∧ inObj = true then
        (cur ++ [c]) :: scanObjects .code (depth - 1) false (cur ++ [c]) t
      else scanObjects .code (depth - 1) inObj (cur ++ [c]) t
    else if c = ']' ∧ depth = 0 then []
    else scanObjects .code depth inObj (cur ++ [c]) t

def getObjectArray (json key : Text) : List Text :=
  match findValue json key with
  | none => []
  | some v => if json[v]? = some '[' then scanObjects .code 0 false [] (json.drop (v + 1)) else []

def splitArrayObjects (json : Text) : List Text :=
  match findText ['['] json with
  | none => []
  | some i => scanObjects .code 0 false [] (json.drop (i + 1))

/-! ### The search -/

theorem findText_some (needle t : Text) (k : ℕ) (hne : needle ≠ []) :
    findText needle t = some k ↔
      needle <+: t.drop k ∧ ∀ j < k, ¬ needle <+: t.drop j := by
  induction t generalizing k with
  | nil =>
    have hno : ¬ needle <+: [] := fun h => hne (List.prefix_nil.mp h)
    simp [findText, hne]
  | cons c t ih =>
    unfold findText
    by_cases hp : needle <+: c :: t
    · rw [if_pos (by simpa using hp), Option.some.injEq]
      constructor
      · intro heq
        subst heq
        exact ⟨hp, fun j hj => absurd hj (Nat.not_lt_zero j)⟩
      · intro hgiven
        obtain ⟨_, hfirst⟩ := hgiven
        by_contra hk
        exact hfirst 0 (by omega) hp
    · rw [if_neg (by simpa using hp)]
      cases k with
      | zero =>
        constructor
        · intro h
          simp at h
        · intro hgiven
          obtain ⟨h, _⟩ := hgiven
          exact absurd h hp
      | succ k =>
        rw [Option.map_eq_some_iff]
        simp only [Nat.add_right_cancel_iff, exists_eq_right]
        rw [ih k]
        constructor
        · intro hgiven
          obtain ⟨h, hfirst⟩ := hgiven
          refine ⟨h, ?_⟩
          intro j hj
          cases j with
          | zero => exact hp
          | succ j => exact hfirst j (by omega)
        · intro hgiven
          obtain ⟨h, hfirst⟩ := hgiven
          exact ⟨h, fun j hj => hfirst (j + 1) (by omega)⟩

theorem findText_skip (c : Char) (a b : Text) (h : c ∉ a) :
    findText [c] (a ++ b) = (findText [c] b).map (· + a.length) := by
  induction a with
  | nil => simp
  | cons d a ih =>
    have hd : c ≠ d := fun hcd => h (by rw [hcd]; exact List.mem_cons_self)
    have ha : c ∉ a := fun hmem => h (List.mem_cons_of_mem d hmem)
    have hno : List.isPrefixOf [c] (d :: (a ++ b)) = false := by
      simpa [List.isPrefixOf] using hd
    rw [List.cons_append, findText, hno, if_neg Bool.false_ne_true, ih ha, Option.map_map]
    rfl

theorem findText_here (c : Char) (t : Text) : findText [c] (c :: t) = some 0 := by
  rw [findText, if_pos (by simp [List.isPrefixOf])]

theorem findText_absent (c : Char) (t : Text) (h : c ∉ t) : findText [c] t = none := by
  have hskip := findText_skip c t [] h
  rw [List.append_nil] at hskip
  rw [hskip]
  rfl

/-- A character is found at its first place. -/
theorem findText_cases (c : Char) (t : Text) :
    (c ∉ t ∧ findText [c] t = none) ∨
      ∃ a b, t = a ++ c :: b ∧ c ∉ a ∧ findText [c] t = some a.length := by
  by_cases h : c ∈ t
  · obtain ⟨a, b, rfl, ha⟩ := List.eq_append_cons_of_mem h
    refine Or.inr ⟨a, b, rfl, ha, ?_⟩
    rw [findText_skip c a _ ha, findText_here]
    simp
  · exact Or.inl ⟨h, findText_absent c t h⟩

/-- Nothing blank at the head. -/
def StartsSolid (t : Text) : Prop := ∀ c ∈ t.head?, isBlank c = false

theorem quoted_length (key : Text) : (quoted key).length = key.length + 2 := by
  simp [quoted]

theorem quoted_ne (key : Text) : quoted key ≠ [] := List.cons_ne_nil _ _

theorem startsSolid_dropWhile (t : Text) : StartsSolid (t.dropWhile isBlank) := by
  intro c hc
  have hnot := List.head?_dropWhile_not isBlank t
  rw [hc] at hnot
  exact hnot

theorem drop_blanks (t : Text) : t.drop (t.takeWhile isBlank).length = t.dropWhile isBlank := by
  induction t with
  | nil => rfl
  | cons c t ih =>
    cases hc : isBlank c with
    | false => simp [hc]
    | true => simpa [hc] using ih

theorem blanks_split (w y : Text) (hw : w.all isBlank = true) (hy : StartsSolid y) :
    (w ++ y).takeWhile isBlank = w ∧ (w ++ y).dropWhile isBlank = y := by
  have htake : (w ++ y).takeWhile isBlank = w := by
    rw [List.takeWhile_append_of_pos (List.all_eq_true.mp hw)]
    cases y with
    | nil => simp
    | cons c y =>
      have hc := hy c rfl
      rw [List.takeWhile_cons, hc]
      simp
  refine ⟨htake, ?_⟩
  have hdrop := drop_blanks (w ++ y)
  rw [htake, List.drop_left] at hdrop
  exact hdrop.symm

theorem skipWs_append (x t : Text) :
    skipWs (x ++ t) x.length = (x ++ t.takeWhile isBlank).length ∧
      (x ++ t).drop (x ++ t.takeWhile isBlank).length = t.dropWhile isBlank := by
  constructor
  · unfold skipWs
    rw [List.drop_left, List.length_append]
  · rw [List.length_append, ← List.drop_drop, List.drop_left, drop_blanks]

theorem findValue_at (x t key : Text)
    (hfirst : ∀ j < x.length, ¬ quoted key <+: (x ++ quoted key ++ t).drop j) :
    findValue (x ++ quoted key ++ t) key =
      if (t.dropWhile isBlank).head? = some ':' then
        some (x ++ quoted key ++ t.takeWhile isBlank ++
          ':' :: (t.dropWhile isBlank).tail.takeWhile isBlank).length
      else none := by
  have hk : findText (quoted key) (x ++ quoted key ++ t) = some x.length := by
    rw [findText_some _ _ _ (quoted_ne key)]
    refine ⟨?_, hfirst⟩
    rw [List.append_assoc, List.drop_left]
    exact List.prefix_append _ _
  obtain ⟨hskip, hrest⟩ := skipWs_append (x ++ quoted key) t
  have hat : (x ++ quoted key ++ t)[(x ++ quoted key ++ t.takeWhile isBlank).length]? =
      (t.dropWhile isBlank).head? := by
    rw [← List.head?_drop, hrest]
  unfold findValue
  rw [hk]
  simp only [← List.length_append, hskip, hat]
  split
  · rename_i hcolon
    obtain ⟨u, hu⟩ := List.head?_eq_some_iff.mp hcolon
    have hshape : x ++ quoted key ++ t = (x ++ quoted key ++ t.takeWhile isBlank ++ [':']) ++ u := by
      conv_lhs => rw [← List.takeWhile_append_dropWhile (p := isBlank) (l := t), hu]
      simp
    obtain ⟨hskip', _⟩ := skipWs_append (x ++ quoted key ++ t.takeWhile isBlank ++ [':']) u
    have hlen : (x ++ quoted key ++ t.takeWhile isBlank).length + 1 =
        (x ++ quoted key ++ t.takeWhile isBlank ++ [':']).length := by
      simp [Nat.add_assoc]
    have hsame : x ++ quoted key ++ t.takeWhile isBlank ++ [':'] ++ u.takeWhile isBlank =
        x ++ quoted key ++ t.takeWhile isBlank ++ ':' :: u.takeWhile isBlank := by
      simp
    rw [hlen, hshape, hskip', hu, List.tail_cons, hsame]
  · rfl

/-- The search succeeds at the first occurrence, when a colon follows it. -/
theorem findValue_some (json key : Text) (i : ℕ) :
    findValue json key = some i ↔
      ∃ x w v y, json = x ++ quoted key ++ w ++ ':' :: v ++ y ∧
        w.all isBlank = true ∧ v.all isBlank = true ∧ StartsSolid y ∧
        (∀ j < x.length, ¬ quoted key <+: json.drop j) ∧
        i = (x ++ quoted key ++ w ++ ':' :: v).length := by
  constructor
  · intro h
    cases hk : findText (quoted key) json with
    | none =>
      unfold findValue at h
      rw [hk] at h
      cases h
    | some k =>
      obtain ⟨⟨t, ht⟩, hfirst⟩ := (findText_some _ json k (quoted_ne key)).mp hk
      have hlen : k ≤ json.length := by
        have hl := congrArg List.length ht
        rw [List.length_append, List.length_drop, quoted_length] at hl
        omega
      have hxl : (json.take k).length = k := by
        rw [List.length_take]
        omega
      have hjson : json = json.take k ++ quoted key ++ t := by
        rw [List.append_assoc, ht, List.take_append_drop]
      generalize json.take k = x at hjson hxl
      subst hjson hxl
      rw [findValue_at x t key hfirst] at h
      split at h
      · rename_i hcolon
        obtain ⟨u, hu⟩ := List.head?_eq_some_iff.mp hcolon
        rw [hu, List.tail_cons] at h
        refine ⟨x, t.takeWhile isBlank, u.takeWhile isBlank, u.dropWhile isBlank, ?_,
          List.all_takeWhile, List.all_takeWhile, startsSolid_dropWhile u, hfirst,
          (Option.some.inj h).symm⟩
        have ht' : t = t.takeWhile isBlank ++ ':' :: (u.takeWhile isBlank ++ u.dropWhile isBlank) := by
          rw [List.takeWhile_append_dropWhile, ← hu, List.takeWhile_append_dropWhile]
        conv_lhs => rw [ht']
        simp
      · cases h
  · intro hgiven
    obtain ⟨x, w, v, y, hjson, hw, hv, hy, hfirst, hi⟩ := hgiven
    have hcolon : StartsSolid (':' :: (v ++ y)) := by
      intro c hc
      rw [← Option.some.inj hc]
      rfl
    obtain ⟨hw1, hw2⟩ := blanks_split w _ hw hcolon
    obtain ⟨hv1, _⟩ := blanks_split v y hv hy
    have hshape : json = x ++ quoted key ++ (w ++ ':' :: (v ++ y)) := by
      rw [hjson]
      simp
    rw [hshape] at hfirst ⊢
    rw [findValue_at x _ key hfirst, hw1, hw2, List.head?_cons, if_pos rfl, List.tail_cons, hv1, hi]

end DuckdbSalesforce
