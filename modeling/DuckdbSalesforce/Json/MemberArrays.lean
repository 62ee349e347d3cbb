import DuckdbSalesforce.Json.Arrays
import DuckdbSalesforce.Json.StringArray

/-!
# Arrays of a document

What an array member of a document holds, and when `GetObjectArray` and
`GetStringArray` deliver it.
-/

namespace DuckdbSalesforce
open JsonText

/-! ### What a document says -/

def elementObjects : Elements → List ObjectText
  | .nil => []
  | .cons _ (.object lead members) _ rest => ⟨.none, lead, members, .none⟩ :: elementObjects rest
  | .cons _ _ _ rest => elementObjects rest

def elementUnits : Elements → List (List ℕ)
  | .nil => []
  | .cons _ value _ rest => stringUnits (some value) :: elementUnits rest

section
variable (o : ObjectText) (key : Text)

/-- The value of the member of the object itself. -/
def valueOf : Option Json := (o.find key).map Found.value

/-- The object that is the member's value. -/
def nestedObject : Option ObjectText :=
  match valueOf o key with
  | some (.object lead members) => some ⟨.none, lead, members, .none⟩
  | _ => none

/-- The objects of an array member; no other member has any. -/
def objectsOf : List ObjectText :=
  match valueOf o key with
  | some (.array _ elements) => elementObjects elements
  | _ => []

def stringsOf : List (List ℕ) :=
  match valueOf o key with
  | some (.array _ elements) => elementUnits elements
  | _ => []

/-- The member is there, spelled like the key before anything else is, and an
array of it is as wanted; or it is not there and nothing looks like it. -/
def ArraySafe (Wanted : Elements → Prop) : Prop :=
  (∀ f, o.find key = some f →
    SpelledFirst key f ∧ ∀ lead elements, f.value = .array lead elements → Wanted elements) ∧
    (o.find key = none → NoFalseHit key o.text)

end

/-- Strings without a `\b`, `\f` or `\u` escape. -/
def PlainStrings : Elements → Prop
  | .nil => True
  | .cons _ value _ rest =>
    (∃ items, value = .string items ∧ ∀ x ∈ items, plainlyEscaped x = true) ∧ PlainStrings rest

def SaysText (t : Text) (units : List ℕ) : Prop := codeUnits t = units

/-! ### What is read -/

theorem elementTexts_objects (elements : Elements) (h : AllObjects elements) :
    elementTexts elements = (elementObjects elements).map ObjectText.text := by
  match elements with
  | .nil => rfl
  | .cons pre value trail rest =>
    obtain ⟨⟨lead, members, rfl⟩, hrest⟩ := h
    have htail := elementTexts_objects rest hrest
    have htext : (ObjectText.mk .none lead members .none).text = (Json.object lead members).render :=
      List.append_nil _
    rw [elementTexts, elementObjects, List.map_cons, htail, htext]

/-- The object text that a lookup cuts out; nothing without an object. -/
theorem extractObject_nested (o : ObjectText) (key : Text) (h : MemberFound o key) :
    extractObject o.text key = ((nestedObject o key).map ObjectText.text).getD [] := by
  rw [extractObject_finds o.text key _ (lookupFinds_member o key h), nestedObject, valueOf]
  cases (o.find key).map Found.value with
  | none => rfl
  | some v =>
    cases v with
    | object lead members => exact (List.append_nil _).symm
    | null | bool _ | number _ | string _ | array _ _ => rfl

theorem nestedObject_some (o e : ObjectText) (key : Text) (h : nestedObject o key = some e) :
    ∃ m lead members, o.find key = some m ∧ m.value = .object lead members ∧
      e = ⟨.none, lead, members, .none⟩ := by
  unfold nestedObject valueOf at h
  cases hfind : o.find key with
  | none =>
    rw [hfind] at h
    cases h
  | some m =>
    rw [hfind, Option.map_some] at h
    cases hvalue : m.value with
    | object lead members =>
      rw [hvalue] at h
      exact ⟨m, lead, members, rfl, hvalue, (Option.some.inj h).symm⟩
    | null | bool _ | number _ | string _ | array _ _ =>
      rw [hvalue] at h
      cases h

theorem plainMember_value (o : ObjectText) (key : Text) (h : PlainMember o key) :
    ∀ items, valueOf o key = some (.string items) → ∀ x ∈ items, plainlyEscaped x = true := by
  intro items hitems
  obtain ⟨m, hfind, hvalue⟩ := Option.map_eq_some_iff.mp hitems
  exact h m items hfind hvalue

/-- A string member that is found and plain is read as the record has it. -/
theorem getString_plain (o : ObjectText) (key : Text) (hfound : MemberFound o key)
    (hplain : PlainMember o key) : codeUnits (getString o.text key) = stringUnits (valueOf o key) :=
  getString_units o.text key _ (lookupFinds_member o key hfound) (plainMember_value o key hplain)

theorem allStrings_plain (elements : Elements) (h : PlainStrings elements) : AllStrings elements := by
  match elements with
  | .nil => trivial
  | .cons _ _ _ rest =>
    obtain ⟨⟨items, hitems, _⟩, hrest⟩ := h
    exact ⟨⟨items, hitems⟩, allStrings_plain rest hrest⟩

theorem stringTexts_said (elements : Elements) (h : PlainStrings elements) :
    List.Forall₂ SaysText (stringTexts elements) (elementUnits elements) := by
  match elements with
  | .nil => exact .nil
  | .cons _ _ _ rest =>
    obtain ⟨⟨items, rfl, hplain⟩, hrest⟩ := h
    exact .cons ((readItems_right_iff items).mpr hplain) (stringTexts_said rest hrest)

/-- Only an array opens with a bracket. -/
theorem bracket_array (v : Json) (t : Text) (h : (v.render ++ t).head? = some '[') :
    ∃ lead elements, v = .array lead elements := by
  cases v with
  | array lead elements => exact ⟨lead, elements, rfl⟩
  | null | string _ | object _ _ => simp [Json.render, renderString] at h
  | bool b => cases b <;> simp [Json.render, boolText] at h
  | number n =>
    obtain ⟨c, u, hr, hcase⟩ := number_head n
    rw [Json.render, hr] at h
    have hc : c = '[' := Option.some.inj h
    rcases hcase with ⟨hminus, _⟩ | hdigit
    · rw [hc] at hminus
      exact absurd hminus (by decide)
    · rw [hc] at hdigit
      exact absurd hdigit (by decide)

section
variable {o : ObjectText} {key : Text} {Wanted : Elements → Prop}

/-- Where the array readers start, or why they do not. -/
theorem arraySafe_cases (h : ArraySafe o key Wanted) :
    (∃ i lead elements rest, findValue o.text key = some i ∧
        o.text.drop i = (Json.array lead elements).render ++ rest ∧ Wanted elements ∧
        valueOf o key = some (.array lead elements)) ∨
      ((∀ i, findValue o.text key = some i → o.text[i]? ≠ some '[') ∧
        ∀ lead elements, valueOf o key ≠ some (.array lead elements)) := by
  unfold valueOf
  cases hfind : o.find key with
  | none =>
    have hnone := (findValue_none_iff o.text key).mpr (h.2 hfind)
    refine Or.inr ⟨?_, ?_⟩
    · intro i hi
      rw [hnone] at hi
      cases hi
    · intro lead elements hvalue
      cases hvalue
  | some f =>
    obtain ⟨hspelled, hwanted⟩ := h.1 f hfind
    obtain ⟨htext, hname, -⟩ := o.find_spec key f hfind
    have hpos := (findValue_found_iff f key hname).mpr hspelled
    have hdrop := found_drop f
    rw [htext] at hpos hdrop
    by_cases harray : ∃ lead elements, f.value = .array lead elements
    · obtain ⟨lead, elements, hvalue⟩ := harray
      rw [hvalue] at hdrop
      exact Or.inl ⟨f.head.length, lead, elements, f.after, hpos, hdrop,
        hwanted lead elements hvalue, by rw [Option.map_some, hvalue]⟩
    · refine Or.inr ⟨?_, ?_⟩
      · intro i hi hopen
        rw [hpos] at hi
        rw [← Option.some.inj hi, ← List.head?_drop, hdrop] at hopen
        exact harray (bracket_array f.value f.after hopen)
      · intro lead elements hvalue
        exact harray ⟨lead, elements, Option.some.inj hvalue⟩

theorem objectsOf_other (h : ∀ lead elements, valueOf o key ≠ some (.array lead elements)) :
    objectsOf o key = [] := by
  unfold objectsOf
  split
  · rename_i lead elements hvalue
    exact absurd hvalue (h lead elements)
  · rfl

theorem stringsOf_other (h : ∀ lead elements, valueOf o key ≠ some (.array lead elements)) :
    stringsOf o key = [] := by
  unfold stringsOf
  split
  · rename_i lead elements hvalue
    exact absurd hvalue (h lead elements)
  · rfl

theorem getObjectArray_safe (h : ArraySafe o key AllObjects) :
    getObjectArray o.text key = (objectsOf o key).map ObjectText.text := by
  rcases arraySafe_cases h with ⟨i, lead, elements, rest, hfind, hdrop, hall, hvalue⟩ | ⟨hnot, hother⟩
  · rw [getObjectArray_at o.text key i lead elements rest hall hfind hdrop,
      elementTexts_objects elements hall, objectsOf, hvalue]
  · rw [objectsOf_other hother]
    unfold getObjectArray
    cases hfind : findValue o.text key with
    | none => rfl
    | some i => exact if_neg (hnot i hfind)

theorem getStringArray_safe (h : ArraySafe o key PlainStrings) :
    List.Forall₂ SaysText (getStringArray o.text key) (stringsOf o key) := by
  rcases arraySafe_cases h with ⟨i, lead, elements, rest, hfind, hdrop, hall, hvalue⟩ | ⟨hnot, hother⟩
  · rw [getStringArray_at o.text key i lead elements rest (allStrings_plain elements hall) hfind hdrop,
      stringsOf, hvalue]
    exact stringTexts_said elements hall
  · have hnone : getStringArray o.text key = [] := by
      unfold getStringArray
      cases hfind : findValue o.text key with
      | none => rfl
      | some i => exact if_neg (hnot i hfind)
    rw [stringsOf_other hother, hnone]
    exact .nil

end
end DuckdbSalesforce
