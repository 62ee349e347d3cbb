import DuckdbSalesforce.Json.Arrays
import DuckdbSalesforce.Json.StringDecode

/-!
# Members that are found

A member of an object that the readers find, as a condition on the text: nothing
in front of it looks like it.
-/

namespace DuckdbSalesforce
open JsonText

def recordObject (lead : Blank) (members : Members) : ObjectText := ⟨.none, lead, members, .none⟩

theorem recordObject_text (lead : Blank) (members : Members) :
    (recordObject lead members).text = (Json.object lead members).render := by
  rw [ObjectText.text, recordObject, Blank.none, List.nil_append, List.append_nil]

/-- The object has the member, and nothing in front of it looks like it. -/
def HasMember (o : ObjectText) (key : Text) (v : Json) : Prop :=
  ∃ f, o.find key = some f ∧ SpelledFirst key f ∧ f.value = v

/-- The object has no such member, and nothing looks like one. -/
def LacksMember (o : ObjectText) (key : Text) : Prop := o.find key = none ∧ NoFalseHit key o.text

/-- A string member, none of its escapes `\b`, `\f` or `\u`. -/
def HasText (o : ObjectText) (key t : Text) : Prop :=
  ∃ items, HasMember o key (.string items) ∧ (∀ x ∈ items, plainlyEscaped x = true) ∧
    unitsOf items = codeUnits t

theorem member_found (o : ObjectText) (key : Text) (v : Json) (h : HasMember o key v) :
    ∃ i rest, findValue o.text key = some i ∧ o.text.drop i = v.render ++ rest ∧
      getString o.text key = readText v := by
  obtain ⟨f, hfind, hspelled, rfl⟩ := h
  obtain ⟨htext, hname, hterm⟩ := ObjectText.find_spec o key f hfind
  have hpos := (findValue_found_iff f key hname).mpr hspelled
  obtain ⟨hstring, _⟩ := readers_found f key hpos
  have hdrop := found_drop f
  rw [htext] at hpos hstring hdrop
  exact ⟨_, _, hpos, hdrop, hstring⟩

theorem getString_text (o : ObjectText) (key t : Text) (h : HasText o key t) :
    getString o.text key = t := by
  obtain ⟨items, hmember, hplain, hunits⟩ := h
  obtain ⟨_, _, _, _, hread⟩ := member_found o key _ hmember
  apply codeUnits_injective
  rw [hread, ← hunits]
  exact (readItems_right_iff items).mpr hplain

theorem getString_lacking (o : ObjectText) (key : Text) (h : LacksMember o key) :
    getString o.text key = [] := by
  rw [getString, (findValue_none_iff o.text key).mpr h.2]

theorem getBool_member (o : ObjectText) (key : Text) (b dflt : Bool) (h : HasMember o key (.bool b)) :
    getBool o.text key dflt = b := by
  obtain ⟨f, hfind, hspelled, hv⟩ := h
  obtain ⟨htext, hname, hterm⟩ := ObjectText.find_spec o key f hfind
  have hpos := (findValue_found_iff f key hname).mpr hspelled
  obtain ⟨_, _, hbool, _⟩ := readers_found f key hpos
  rw [htext] at hbool
  rw [hbool, hv]
  rfl

theorem getObjectArray_member (o : ObjectText) (key : Text) (lead : Blank) (elements : Elements)
    (hobjects : AllObjects elements) (h : HasMember o key (.array lead elements)) :
    getObjectArray o.text key = elementTexts elements := by
  obtain ⟨i, rest, hfind, hdrop, _⟩ := member_found o key _ h
  exact getObjectArray_at _ _ i lead elements rest hobjects hfind hdrop

theorem hasMember_of (o : ObjectText) (key : Text) (v : Json)
    (h : ∃ f, o.find key = some f ∧ findValue f.text key = some f.head.length ∧ f.value = v) :
    HasMember o key v := by
  obtain ⟨f, hfind, hpos, hv⟩ := h
  have hname := (ObjectText.find_spec o key f hfind).2.1
  exact ⟨f, hfind, (findValue_found_iff f key hname).mp hpos, hv⟩

theorem lacksMember_of (o : ObjectText) (key : Text) (hfind : o.find key = none)
    (hpos : findValue o.text key = none) : LacksMember o key :=
  ⟨hfind, (findValue_none_iff o.text key).mp hpos⟩

end DuckdbSalesforce
