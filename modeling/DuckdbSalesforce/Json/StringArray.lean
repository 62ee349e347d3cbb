import DuckdbSalesforce.Json.Arrays

/-!
# Arrays of strings

`GetStringArray` (salesforce_json.hpp) at a well-formed array of strings.
-/

namespace DuckdbSalesforce
open JsonText

/-- The loop behind the bracket: a string is read where it opens and skipped. -/
def scanStrings : ScanMode → Text → List Text
  | _, [] => []
  | .skip, _ :: t => scanStrings .string t
  | .string, c :: t =>
    if c = '\\' then scanStrings .skip t
    else if c = '"' then scanStrings .code t
    else scanStrings .string t
  | .code, c :: t =>
    if c = ']' then []
    else if c = '"' then readString t :: scanStrings .string t
    else scanStrings .code t

def getStringArray (json key : Text) : List Text :=
  match findValue json key with
  | none => []
  | some v => if json[v]? = some '[' then scanStrings .code (json.drop (v + 1)) else []

def AllStrings : Elements → Prop
  | .nil => True
  | .cons _ value _ rest => (∃ items, value = .string items) ∧ AllStrings rest

def stringTexts : Elements → List Text
  | .nil => []
  | .cons _ value _ rest => readText value :: stringTexts rest

theorem scanStrings_items (items : List StringItem) (rest : Text) :
    scanStrings .string (renderItems items ++ '"' :: rest) = scanStrings .code rest := by
  have hplain : ∀ (c : Char) (t : Text), c ≠ '"' ∧ c ≠ '\\' →
      scanStrings .string (c :: t) = scanStrings .string t := by
    intro c t h
    rw [scanStrings, if_neg h.2, if_neg h.1]
  induction items with
  | nil =>
    show scanStrings .string ('"' :: rest) = _
    rw [scanStrings, if_neg (by decide), if_pos rfl]
  | cons x xs ih =>
    rw [renderItems_cons, List.append_assoc]
    cases x with
    | plain c h =>
      rw [StringItem.render, List.singleton_append, hplain c _ h, ih]
    | escape e =>
      show scanStrings .string ('\\' :: e.char :: (renderItems xs ++ '"' :: rest)) = _
      rw [scanStrings, if_pos rfl, scanStrings, ih]
    | unicode a b c d =>
      show scanStrings .string ('\\' :: 'u' :: a.char :: b.char :: c.char :: d.char ::
        (renderItems xs ++ '"' :: rest)) = _
      rw [scanStrings, if_pos rfl, scanStrings, hplain _ _ (hex_not_special a),
        hplain _ _ (hex_not_special b), hplain _ _ (hex_not_special c),
        hplain _ _ (hex_not_special d), ih]

theorem scanStrings_between (a : Text) (h : ∀ c ∈ a, isNeutral c = true ∧ c ≠ ']') (rest : Text) :
    scanStrings .code (a ++ rest) = scanStrings .code rest := by
  induction a with
  | nil => rfl
  | cons c a ih =>
    obtain ⟨hneutral, hclose⟩ := h c List.mem_cons_self
    simp only [isNeutral, Bool.and_eq_true, bne_iff_ne] at hneutral
    rw [List.cons_append, scanStrings, if_neg hclose, if_neg hneutral.1.1,
      ih fun d hd => h d (List.mem_cons_of_mem _ hd)]

theorem scanStrings_elements (elements : Elements) (h : AllStrings elements) (rest : Text) :
    scanStrings .code (elements.render ++ ']' :: rest) = stringTexts elements := by
  match elements with
  | .nil => exact if_pos rfl
  | .cons pre value trail more =>
    obtain ⟨⟨items, rfl⟩, hmore⟩ := h
    have hshape : (Elements.cons pre (.string items) trail more).render ++ ']' :: rest =
        pre.text ++ '"' :: (renderItems items ++
          '"' :: (trail.text ++ (more.comma ++ (more.render ++ ']' :: rest)))) := by
      simp [Elements.render, Json.render, renderString]
    rw [hshape, scanStrings_between _ (blank_between pre), scanStrings, if_neg (by decide),
      if_pos rfl, readString_items, scanStrings_items, scanStrings_between _ (blank_between trail),
      scanStrings_between _ (comma_between more), scanStrings_elements more hmore]
    rfl

theorem getStringArray_at (json key : Text) (i : ℕ) (lead : Blank) (elements : Elements)
    (rest : Text) (hstrings : AllStrings elements) (hfind : findValue json key = some i)
    (hvalue : json.drop i = (Json.array lead elements).render ++ rest) :
    getStringArray json key = stringTexts elements := by
  have hopen : json[i]? = some '[' := by
    rw [← List.head?_drop, hvalue]
    rfl
  have htail : json.drop (i + 1) = lead.text ++ (elements.render ++ ']' :: rest) := by
    rw [← List.drop_drop, hvalue, List.drop_one]
    simp [Json.render]
  unfold getStringArray
  rw [hfind]
  show (if json[i]? = some '[' then _ else _) = _
  rw [if_pos hopen, htail, scanStrings_between _ (blank_between lead),
    scanStrings_elements elements hstrings]

end DuckdbSalesforce
