import DuckdbSalesforce.Json.Lookup

/-!
# The readers and the member they name

What `sfjson` owes its callers for an object text and a key, and when it
delivers.
-/

namespace DuckdbSalesforce
open JsonText

/-- The string a member holds; nothing for another value or no member. -/
def stringUnits : Option Json → List ℕ
  | some (.string items) => unitsOf items
  | _ => []

/-- The output, `found` and `is_null` a member calls for. -/
def valueUnits : Option Json → List ℕ × Bool × Bool
  | none => ([], false, false)
  | some .null => ([], true, true)
  | some (.string items) => (unitsOf items, true, false)
  | some (.number n) => (codeUnits n.render, true, false)
  | some (.bool b) => (codeUnits (boolText b), true, false)
  | some (.array _ _) => ([], true, false)
  | some (.object _ _) => ([], true, false)

/-- Every reader answers for the member of the object itself with this name. -/
structure LookupRight (o : ObjectText) (key : Text) : Prop where
  position : findValue o.text key = (o.find key).map fun f => f.head.length
  string : codeUnits (getString o.text key) = stringUnits ((o.find key).map Found.value)
  value : (codeUnits (getValue o.text key).out, (getValue o.text key).found,
    (getValue o.text key).isNull) = valueUnits ((o.find key).map Found.value)
  bool : ∀ dflt, getBool o.text key dflt = boolOr dflt ((o.find key).map Found.value)
  int : ∀ dflt, IntRead dflt (getInt o.text key dflt) ((o.find key).map Found.value)
  object : extractObject o.text key = objectText ((o.find key).map Found.value)

/-- No object or array, no string with a `\b`, `\f` or `\u` escape, and no number
but an integer that fits. -/
structure Readable (v : Json) : Prop where
  scalar : v.isCompound = false
  plain : ∀ items, v = .string items → ∀ x ∈ items, plainlyEscaped x = true
  whole : ∀ n, v = .number n → WholeNumber n

/-- The member is there, spelled like the key before anything else is, and its
value is readable; or it is not there and nothing looks like it. -/
def LookupSafe (o : ObjectText) (key : Text) : Prop :=
  (∀ f, o.find key = some f → SpelledFirst key f ∧ Readable f.value) ∧
    (o.find key = none → NoFalseHit key o.text)

theorem readText_units (v : Json)
    (h : ∀ items, v = .string items → ∀ x ∈ items, plainlyEscaped x = true) :
    codeUnits (readText v) = stringUnits (some v) := by
  cases v with
  | string items => exact (readItems_right_iff items).mpr (h items rfl)
  | null | bool _ | number _ | array _ _ | object _ _ => rfl

theorem readValue_units (v : Json) (h : Readable v) :
    (codeUnits (readValue v).out, (readValue v).found, (readValue v).isNull) =
      valueUnits (some v) := by
  cases v with
  | string items =>
    have hitems := (readItems_right_iff items).mpr (h.plain items rfl)
    show (codeUnits (readItems items), true, false) = _
    rw [hitems]
    rfl
  | null | bool _ | number _ => rfl
  | array _ _ | object _ _ => exact absurd h.scalar (by simp [Json.isCompound])

theorem compound_units (v : Json) (h : v.isCompound = true) : (valueUnits (some v)).1 = [] := by
  cases v with
  | array _ _ | object _ _ => rfl
  | null | bool _ | number _ | string _ => cases h

theorem readers_found (f : Found) (key : Text)
    (h : findValue f.text key = some f.head.length) :
    getString f.text key = readText f.value ∧
      getValue f.text key = valueAt (f.value.render ++ f.after) ∧
      (∀ dflt, getBool f.text key dflt = boolOr dflt (some f.value)) ∧
      (∀ dflt, getInt f.text key dflt = readInt (f.value.render ++ f.after) dflt) ∧
      extractObject f.text key = objectText (some f.value) := by
  obtain ⟨hstring, hvalue, hbool, hint, hobject⟩ := readers_at f.text key f.head.length h
  rw [found_drop] at hstring hvalue hobject
  simp only [found_drop] at hbool hint
  refine ⟨?_, hvalue, ?_, hint, ?_⟩
  · rw [hstring, stringAt_value]
  · intro dflt
    rw [hbool, boolAt_value]
  · rw [hobject, objectAt_value]

section Lookups
variable {o : ObjectText} {key : Text}

/-- Without a member and without a hit every reader answers for an absent one. -/
theorem absent_right (hfind : o.find key = none) (hnone : findValue o.text key = none) :
    LookupRight o key := by
  refine ⟨?_, ?_, ?_, ?_, ?_, ?_⟩
  · rw [hnone, hfind]
    rfl
  · rw [hfind, getString, hnone]
    rfl
  · rw [hfind, getValue, hnone]
    rfl
  · intro dflt
    rw [hfind, getBool, hnone]
    rfl
  · intro dflt
    rw [hfind, getInt, hnone]
    exact rfl
  · rw [hfind, extractObject, hnone]
    rfl

/-- What all readers answer rightly is spelled first and readable. -/
theorem readable_of_right (f : Found) (hfind : o.find key = some f) (h : LookupRight o key) :
    SpelledFirst key f ∧ Readable f.value := by
  obtain ⟨htext, hname, hterm⟩ := o.find_spec key f hfind
  have hpos := h.position
  rw [hfind, ← htext] at hpos
  obtain ⟨hstring, hvalue, _, hint, _⟩ := readers_found f key hpos
  have hs := h.string
  have hv := h.value
  have hi := h.int
  rw [hfind, ← htext, hstring] at hs
  rw [hfind, ← htext, hvalue] at hv
  rw [hfind, ← htext] at hi
  simp only [hint] at hi
  refine ⟨(findValue_found_iff f key hname).mp hpos, ?_, ?_, ?_⟩
  · cases hcomp : f.value.isCompound with
    | false => rfl
    | true =>
      have hempty : codeUnits (valueAt (f.value.render ++ f.after)).out =
          (valueUnits (some f.value)).1 := congrArg Prod.fst hv
      rw [compound_units f.value hcomp] at hempty
      exact absurd (codeUnits_eq_nil _ hempty) (valueAt_compound f.value f.after hcomp)
  · intro items hitems
    rw [← readItems_right_iff]
    have hs' : codeUnits (readText f.value) = stringUnits (some f.value) := hs
    rw [hitems] at hs'
    exact hs'
  · intro n hn
    have hi' : ∀ dflt, IntRead dflt (readInt (f.value.render ++ f.after) dflt)
        (some f.value) := hi
    rw [hn] at hi'
    exact (number_read_iff n f.after hterm).mp hi'

theorem right_of_readable (f : Found) (hfind : o.find key = some f) (hspelled : SpelledFirst key f)
    (hread : Readable f.value) : LookupRight o key := by
  obtain ⟨htext, hname, hterm⟩ := o.find_spec key f hfind
  have hpos := (findValue_found_iff f key hname).mpr hspelled
  obtain ⟨hstring, hvalue, hbool, hint, hobject⟩ := readers_found f key hpos
  rw [valueAt_scalar f.value f.after hterm hread.scalar] at hvalue
  rw [htext] at hpos hstring hvalue hobject
  simp only [htext] at hbool hint
  refine ⟨?_, ?_, ?_, ?_, ?_, ?_⟩
  · rw [hpos, hfind]
    rfl
  · rw [hstring, hfind]
    exact readText_units f.value hread.plain
  · rw [hvalue, hfind]
    exact readValue_units f.value hread
  · intro dflt
    rw [hbool, hfind]
    rfl
  · intro dflt
    rw [hfind, hint]
    exact readInt_value f.value f.after dflt hterm hread.whole
  · rw [hobject, hfind]
    rfl

end Lookups

theorem lookup_right_iff (o : ObjectText) (key : Text) :
    LookupRight o key ↔ LookupSafe o key := by
  cases hfind : o.find key with
  | none =>
    constructor
    · intro h
      have hnone := h.position
      rw [hfind] at hnone
      refine ⟨fun f hf => ?_, fun _ => (findValue_none_iff o.text key).mp hnone⟩
      rw [hfind] at hf
      cases hf
    · intro h
      exact absent_right hfind ((findValue_none_iff o.text key).mpr (h.2 hfind))
  | some f =>
    constructor
    · intro h
      refine ⟨fun g hg => ?_, fun hno => ?_⟩
      · rw [hfind, Option.some.injEq] at hg
        subst hg
        exact readable_of_right f hfind h
      · rw [hfind] at hno
        cases hno
    · intro h
      obtain ⟨hspelled, hread⟩ := h.1 f hfind
      exact right_of_readable f hfind hspelled hread

/-! ### Lookups that find their member -/

/-- The search for a key ends at the member with this name. -/
def MemberFound (o : ObjectText) (key : Text) : Prop :=
  findValue o.text key = (o.find key).map fun f => f.head.length

/-- The search for a key ends in front of the value, or nowhere. -/
def LookupFinds (text key : Text) : Option Json → Prop
  | none => findValue text key = none
  | some v => ∃ i rest, findValue text key = some i ∧ text.drop i = v.render ++ rest ∧
      StartsTerminated rest

/-- A string of the member is written without `\b`, `\f` and `\u`. -/
def PlainMember (o : ObjectText) (key : Text) : Prop :=
  ∀ m items, o.find key = some m → m.value = .string items →
    ∀ x ∈ items, plainlyEscaped x = true

theorem plainMember_found (o : ObjectText) (key : Text) (m : Found) (hfind : o.find key = some m) :
    PlainMember o key ↔
      ∀ items, m.value = .string items → ∀ x ∈ items, plainlyEscaped x = true := by
  constructor
  · exact fun h items => h m items hfind
  · intro h m' items hfind'
    rw [hfind, Option.some.injEq] at hfind'
    rw [← hfind']
    exact h items

theorem lookupFinds_member (o : ObjectText) (key : Text) (h : MemberFound o key) :
    LookupFinds o.text key ((o.find key).map Found.value) := by
  cases hfind : o.find key with
  | none =>
    rw [MemberFound, hfind] at h
    exact h
  | some m =>
    obtain ⟨htext, _, hterm⟩ := o.find_spec key m hfind
    rw [MemberFound, hfind] at h
    refine ⟨m.head.length, m.after, h, ?_, hterm⟩
    rw [← htext, found_drop]

theorem lookupFinds_at (text key : Text) (v : Json) (i : ℕ) (hfind : findValue text key = some i)
    (hvalue : v.render <+: text.drop i)
    (hterm : (text.drop (i + v.render.length)).head?.all isTerminator = true) :
    LookupFinds text key (some v) := by
  obtain ⟨rest, hrest⟩ := hvalue
  rw [← List.drop_drop, ← hrest, List.drop_left] at hterm
  exact ⟨i, rest, hfind, hrest.symm, fun c hc => Option.all_eq_true _ _ |>.mp hterm c hc⟩

theorem getString_finds (text key : Text) (v : Option Json) (h : LookupFinds text key v) :
    getString text key = (v.map readText).getD [] := by
  cases v with
  | none =>
    have hnone : findValue text key = none := h
    rw [getString, hnone]
    rfl
  | some v =>
    obtain ⟨i, rest, hfind, hdrop, _⟩ := h
    rw [(readers_at text key i hfind).1, hdrop, stringAt_value]
    rfl

theorem getBool_finds (text key : Text) (dflt : Bool) (v : Option Json)
    (h : LookupFinds text key v) : getBool text key dflt = boolOr dflt v := by
  cases v with
  | none =>
    have hnone : findValue text key = none := h
    rw [getBool, hnone]
    rfl
  | some v =>
    obtain ⟨i, rest, hfind, hdrop, _⟩ := h
    rw [(readers_at text key i hfind).2.2.1, hdrop, boolAt_value]

theorem getValue_finds (text key : Text) (v : Json) (h : LookupFinds text key (some v))
    (hscalar : v.isCompound = false) : getValue text key = readValue v := by
  obtain ⟨i, rest, hfind, hdrop, hterm⟩ := h
  rw [(readers_at text key i hfind).2.1, hdrop, valueAt_scalar v rest hterm hscalar]

theorem extractObject_finds (text key : Text) (v : Option Json) (h : LookupFinds text key v) :
    extractObject text key = objectText v := by
  cases v with
  | none =>
    have hnone : findValue text key = none := h
    rw [extractObject, hnone]
    rfl
  | some v =>
    obtain ⟨i, rest, hfind, hdrop, _⟩ := h
    rw [(readers_at text key i hfind).2.2.2.2, hdrop, objectAt_value]

/-- A string member that is found and plain is read as it is. -/
theorem getString_units (text key : Text) (v : Option Json) (h : LookupFinds text key v)
    (hplain : ∀ items, v = some (.string items) → ∀ x ∈ items, plainlyEscaped x = true) :
    codeUnits (getString text key) = stringUnits v := by
  rw [getString_finds text key v h]
  cases v with
  | none => rfl
  | some v => exact readText_units v fun items hitems => hplain items (hitems ▸ rfl)

/-! ### A record with a nested name -/

/-- `"name":value` without blanks. -/
def memberOf (name : String) (value : Json) (rest : Members) : Members :=
  .cons .none (spell name.toList) .none .none value .none rest

def textOf (s : String) : Json := .string (spell s.toList)

/-- `{"Owner":{"Name":"Ana"},"Name":"Acme"}`. -/
def ownedRecord : ObjectText :=
  ⟨.none, .none, memberOf "Owner" (.object .none (memberOf "Name" (textOf "Ana") .nil))
    (memberOf "Name" (textOf "Acme") .nil), .none⟩

/-- The name of the owner is taken for that of the record. -/
theorem nested_name_taken : ¬ LookupRight ownedRecord "Name".toList := by
  intro h
  have hname := h.string
  have hread : getString ownedRecord.text "Name".toList = "Ana".toList := by decide
  have hfind : stringUnits ((ownedRecord.find "Name".toList).map Found.value) =
      codeUnits "Acme".toList := by decide
  rw [hread, hfind] at hname
  exact absurd hname (by decide)

end DuckdbSalesforce
