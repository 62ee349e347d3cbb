import DuckdbSalesforce.Json.StringArray
import DuckdbSalesforce.Json.StringDecode

/-!
# Two scanners over one string

`GetStringArray` reads an element with `ReadStringAt` and then looks for its
closing quote again by a loop of its own. Both stop at the same quote, in any
text.
-/

namespace DuckdbSalesforce
open JsonText

/-- `readString` with the place of the quote at which it returns; `none` when
the text ends before. -/
def readStringTo : Text → Text × Option ℕ
  | [] => ([], none)
  | [c] => if c = '"' then ([], some 0) else ([c], none)
  | c :: e :: t =>
    if c = '\\' then (unescape e :: (readStringTo t).1, (readStringTo t).2.map (· + 2))
    else if c = '"' then ([], some 0)
    else (c :: (readStringTo (e :: t)).1, (readStringTo (e :: t)).2.map (· + 1))

/-- The place in `json` of the quote at which `ReadStringAt` returns. -/
def readStopAt (json : Text) (pos : ℕ) : Option ℕ :=
  (readStringTo (json.drop (pos + 1))).2.map (· + (pos + 1))

/-- The loop `while (i < json.size())` behind an element that has been read. -/
def skipString (json : Text) (i : ℕ) : ℕ :=
  if i < json.length then
    if json[i]? = some '\\' then skipString json (i + 2)
    else if json[i]? = some '"' then i
    else skipString json (i + 1)
  else i
termination_by json.length - i

/-- Where the strings of an array open, from `start` on. -/
def openingQuotes (start : ℕ) : Elements → List ℕ
  | .nil => []
  | .cons pre value trail more =>
    (start + pre.text.length) :: openingQuotes (start + pre.text.length + value.render.length +
      trail.text.length + more.comma.length) more

/-- One element at `pos`: the two scanners stop at the quote that ends it. -/
structure SplitAt (json : Text) (pos : ℕ) (items : List StringItem) : Prop where
  element : renderString items <+: json.drop pos
  read : readStopAt json pos = some (pos + (renderItems items).length + 1)
  skipped : skipString json (pos + 1) = pos + (renderItems items).length + 1

def elementItems : Elements → List (List StringItem)
  | .nil => []
  | .cons _ (.string items) _ more => items :: elementItems more
  | .cons _ _ _ more => elementItems more

/-! ### Both scanners -/

theorem stop_escape (t : Text) :
    (readStringTo ('\\' :: t)).2 = (readStringTo (t.drop 1)).2.map (· + 2) := by
  cases t with
  | nil => rfl
  | cons e t => rfl

theorem stop_quote (t : Text) : (readStringTo ('"' :: t)).2 = some 0 := by
  cases t with
  | nil => rfl
  | cons e t => rfl

theorem stop_plain (c : Char) (t : Text) (h : c ≠ '"' ∧ c ≠ '\\') :
    (readStringTo (c :: t)).2 = (readStringTo t).2.map (· + 1) := by
  cases t with
  | nil =>
    have hone : readStringTo [c] = ([c], none) := if_neg h.1
    rw [hone]
    rfl
  | cons e t => rw [readStringTo, if_neg h.2, if_neg h.1]

theorem drop_at (json : Text) (i : ℕ) (c : Char) (h : json[i]? = some c) :
    json.drop i = c :: json.drop (i + 1) := by
  obtain ⟨hi, hc⟩ := List.getElem?_eq_some_iff.mp h
  rw [List.drop_eq_getElem_cons hi, hc]

/-- The skip stops where the reader does, and beyond the text when the reader
came to its end. -/
theorem skipString_stops (json : Text) (i : ℕ) :
    (∀ k, (readStringTo (json.drop i)).2 = some k → skipString json i = i + k) ∧
      ((readStringTo (json.drop i)).2 = none → json.length ≤ skipString json i) := by
  fun_induction skipString json i with
  | case1 i hi hescape ih =>
    rw [drop_at json i _ hescape, stop_escape, List.drop_drop]
    refine ⟨?_, ?_⟩
    · intro k hk
      obtain ⟨m, hm, rfl⟩ := Option.map_eq_some_iff.mp hk
      rw [ih.1 m hm]
      omega
    · intro hend
      exact ih.2 (Option.map_eq_none_iff.mp hend)
  | case2 i hi hescape hquote =>
    rw [drop_at json i _ hquote, stop_quote]
    refine ⟨?_, ?_⟩
    · intro k hk
      rw [← Option.some.inj hk, Nat.add_zero]
    · intro hend
      cases hend
  | case3 i hi hescape hquote ih =>
    have hc : json[i]? = some json[i] := List.getElem?_eq_getElem hi
    have hplain : json[i] ≠ '"' ∧ json[i] ≠ '\\' := by
      refine ⟨?_, ?_⟩
      · intro h
        rw [hc, h] at hquote
        exact hquote rfl
      · intro h
        rw [hc, h] at hescape
        exact hescape rfl
    rw [drop_at json i _ hc, stop_plain _ _ hplain]
    refine ⟨?_, ?_⟩
    · intro k hk
      obtain ⟨m, hm, rfl⟩ := Option.map_eq_some_iff.mp hk
      rw [ih.1 m hm]
      omega
    · intro hend
      exact ih.2 (Option.map_eq_none_iff.mp hend)
  | case4 i hi =>
    have hnil : json.drop i = [] := List.drop_eq_nil_of_le (not_lt.mp hi)
    rw [hnil]
    refine ⟨?_, ?_⟩
    · intro k hk
      cases hk
    · intro _
      exact not_lt.mp hi

/-! ### An element -/

theorem stop_items (items : List StringItem) (rest : Text) :
    (readStringTo (renderItems items ++ '"' :: rest)).2 = some (renderItems items).length := by
  induction items with
  | nil => exact stop_quote rest
  | cons x xs ih =>
    rw [renderItems_cons, List.append_assoc, List.length_append]
    cases x with
    | plain c h =>
      rw [StringItem.render, List.singleton_append, stop_plain c _ h, ih]
      simp [Nat.add_comm]
    | escape e =>
      show (readStringTo ('\\' :: e.char :: (renderItems xs ++ '"' :: rest))).2 = _
      rw [stop_escape, List.drop_one, List.tail_cons, ih]
      simp [StringItem.render, Nat.add_comm]
    | unicode a b c d =>
      show (readStringTo ('\\' :: 'u' :: a.char :: b.char :: c.char :: d.char ::
        (renderItems xs ++ '"' :: rest))).2 = _
      rw [stop_escape, List.drop_one, List.tail_cons, stop_plain _ _ (hex_not_special a),
        stop_plain _ _ (hex_not_special b), stop_plain _ _ (hex_not_special c),
        stop_plain _ _ (hex_not_special d), ih]
      simp [StringItem.render]
      omega

theorem readStringAt_element (json : Text) (pos : ℕ) (items : List StringItem) (tail : Text)
    (h : json.drop pos = renderString items ++ tail) :
    readStringAt json pos = readItems items ∧ SplitAt json pos items := by
  have hinside : json.drop (pos + 1) = renderItems items ++ '"' :: tail := by
    rw [← List.drop_drop, h]
    simp [renderString]
  have hstop : (readStringTo (json.drop (pos + 1))).2 = some (renderItems items).length := by
    rw [hinside, stop_items]
  refine ⟨?_, ⟨⟨tail, h.symm⟩, ?_, ?_⟩⟩
  · rw [readStringAt, hinside, readString_items]
  · rw [readStopAt, hstop, Option.map_some]
    congr 1
    omega
  · rw [(skipString_stops json (pos + 1)).1 _ hstop]
    omega

/-! ### The elements -/

theorem elements_split (json : Text) (start : ℕ) (elements : Elements) (rest : Text)
    (hstrings : AllStrings elements) (h : json.drop start = elements.render ++ rest) :
    (openingQuotes start elements).map (readStringAt json) = stringTexts elements ∧
      List.Forall₂ (SplitAt json) (openingQuotes start elements) (elementItems elements) := by
  match elements with
  | .nil => exact ⟨rfl, .nil⟩
  | .cons pre value trail more =>
    obtain ⟨⟨items, rfl⟩, hmore⟩ := hstrings
    have hhere : json.drop (start + pre.text.length) =
        renderString items ++ (trail.text ++ (more.comma ++ (more.render ++ rest))) := by
      rw [← List.drop_drop, h]
      simp [Elements.render, Json.render]
    have hnext : json.drop (start + pre.text.length + (Json.string items).render.length +
        trail.text.length + more.comma.length) = more.render ++ rest := by
      rw [← List.drop_drop, ← List.drop_drop, ← List.drop_drop, hhere]
      simp [Json.render]
    obtain ⟨hread, hsplit⟩ := readStringAt_element json _ items _ hhere
    obtain ⟨hreads, hsplits⟩ := elements_split json _ more rest hmore hnext
    refine ⟨?_, .cons hsplit hsplits⟩
    rw [openingQuotes, List.map_cons, hread, hreads]
    rfl

/-- Every element of an array of strings is what `ReadStringAt` makes of it
where it stands. -/
theorem getStringArray_splits (json key : Text) (v : ℕ) (lead : Blank) (elements : Elements)
    (rest : Text) (hstrings : AllStrings elements) (hfind : findValue json key = some v)
    (hvalue : json.drop v = (Json.array lead elements).render ++ rest) :
    getStringArray json key =
        (openingQuotes (v + 1 + lead.text.length) elements).map (readStringAt json) ∧
      List.Forall₂ (SplitAt json) (openingQuotes (v + 1 + lead.text.length) elements)
        (elementItems elements) := by
  have hinside : json.drop (v + 1 + lead.text.length) = elements.render ++ ']' :: rest := by
    rw [← List.drop_drop, ← List.drop_drop, hvalue]
    simp [Json.render]
  obtain ⟨hreads, hsplits⟩ := elements_split json _ elements (']' :: rest) hstrings hinside
  refine ⟨?_, hsplits⟩
  rw [hreads]
  exact getStringArray_at json key v lead elements rest hstrings hfind hvalue

theorem space_blank : " ".toList.all isBlank = true := rfl

/-- `["Account", "a\\\\\"],"]`: a backslash, a quote and a bracket inside. -/
def targets : Elements :=
  .cons .none (textOf "Account") .none (.cons ⟨" ".toList, space_blank⟩
    (.string (spell "a".toList ++ [.escape .backslash, .escape .quote] ++ spell "],".toList))
    .none .nil)

def targetsText : Text :=
  "\x7b\"referenceTo\": ".toList ++ (Json.array .none targets).render ++ "\x7d".toList

theorem targets_split :
    getStringArray targetsText "referenceTo".toList =
        (openingQuotes 17 targets).map (readStringAt targetsText) ∧
      List.Forall₂ (SplitAt targetsText) (openingQuotes 17 targets) (elementItems targets) :=
  getStringArray_splits targetsText "referenceTo".toList 16 .none targets "\x7d".toList
    ⟨⟨_, rfl⟩, ⟨_, rfl⟩, trivial⟩ (by decide) (by decide)

end DuckdbSalesforce
