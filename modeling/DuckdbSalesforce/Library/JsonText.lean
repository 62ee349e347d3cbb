import Mathlib

/-!
# JSON texts

The concrete syntax of JSON: a tree keeps its blanks and the spelling of its
strings, so that every well-formed text is the rendering of a tree. A string
denotes UTF-16 code units, which is what its escapes spell.
-/

namespace JsonText

abbrev Text := List Char

def isBlank (c : Char) : Bool := c == ' ' || c == '\t' || c == '\n' || c == '\r'

structure Blank where
  text : Text
  blank : text.all isBlank = true

def Blank.none : Blank := ⟨[], rfl⟩

/-! ### Strings -/

def charUnits (c : Char) : List ℕ :=
  if c.toNat < 0x10000 then [c.toNat]
  else [0xD800 + (c.toNat - 0x10000) / 0x400, 0xDC00 + (c.toNat - 0x10000) % 0x400]

def codeUnits (t : Text) : List ℕ := t.flatMap charUnits

def isHex (c : Char) : Bool :=
  c.isDigit || (decide ('a' ≤ c) && decide (c ≤ 'f')) || (decide ('A' ≤ c) && decide (c ≤ 'F'))

def hexValue (c : Char) : ℕ :=
  if c.isDigit then c.toNat - '0'.toNat
  else if 'a' ≤ c then c.toNat - 'a'.toNat + 10
  else c.toNat - 'A'.toNat + 10

structure HexDigit where
  char : Char
  hex : isHex char = true

inductive Escape where
  | quote
  | backslash
  | slash
  | backspace
  | formFeed
  | newline
  | return
  | tab
  deriving DecidableEq, Repr

def Escape.char : Escape → Char
  | .quote => '"'
  | .backslash => '\\'
  | .slash => '/'
  | .backspace => 'b'
  | .formFeed => 'f'
  | .newline => 'n'
  | .return => 'r'
  | .tab => 't'

def Escape.unit : Escape → ℕ
  | .quote => 34
  | .backslash => 92
  | .slash => 47
  | .backspace => 8
  | .formFeed => 12
  | .newline => 10
  | .return => 13
  | .tab => 9

inductive StringItem where
  | plain (c : Char) (h : c ≠ '"' ∧ c ≠ '\\')
  | escape (e : Escape)
  | unicode (a b c d : HexDigit)

def StringItem.render : StringItem → Text
  | .plain c _ => [c]
  | .escape e => ['\\', e.char]
  | .unicode a b c d => ['\\', 'u', a.char, b.char, c.char, d.char]

def StringItem.units : StringItem → List ℕ
  | .plain c _ => charUnits c
  | .escape e => [e.unit]
  | .unicode a b c d =>
    [hexValue a.char * 4096 + hexValue b.char * 256 + hexValue c.char * 16 + hexValue d.char]

def renderItems (items : List StringItem) : Text := items.flatMap StringItem.render
def unitsOf (items : List StringItem) : List ℕ := items.flatMap StringItem.units

def renderString (items : List StringItem) : Text := '"' :: renderItems items ++ ['"']

theorem renderItems_cons (x : StringItem) (xs : List StringItem) :
    renderItems (x :: xs) = x.render ++ renderItems xs := rfl

theorem unitsOf_cons (x : StringItem) (xs : List StringItem) :
    unitsOf (x :: xs) = x.units ++ unitsOf xs := rfl

theorem unitsOf_append (xs ys : List StringItem) :
    unitsOf (xs ++ ys) = unitsOf xs ++ unitsOf ys := List.flatMap_append

theorem codeUnits_cons (c : Char) (t : Text) : codeUnits (c :: t) = charUnits c ++ codeUnits t := rfl

theorem codeUnits_append (a b : Text) : codeUnits (a ++ b) = codeUnits a ++ codeUnits b :=
  List.flatMap_append

theorem charUnits_length (c : Char) : 1 ≤ (charUnits c).length := by
  unfold charUnits
  split
  · exact le_refl _
  · exact Nat.le_succ 1

theorem length_le_codeUnits (t : Text) : t.length ≤ (codeUnits t).length := by
  induction t with
  | nil => exact le_refl _
  | cons c t ih =>
    have hc := charUnits_length c
    rw [codeUnits_cons, List.length_append, List.length_cons]
    omega

theorem codeUnits_render_item (x : StringItem) :
    x.units.length ≤ (codeUnits x.render).length := by
  cases x with
  | plain c h =>
    rw [StringItem.render, codeUnits_cons, List.length_append]
    exact Nat.le_add_right _ _
  | escape e =>
    have hlen : 2 ≤ _ := length_le_codeUnits (StringItem.escape e).render
    exact le_trans (Nat.le_succ 1) hlen
  | unicode a b c d =>
    have hlen : 6 ≤ _ := length_le_codeUnits (StringItem.unicode a b c d).render
    have hone : (StringItem.unicode a b c d).units.length = 1 := rfl
    omega

/-- A string denotes no more than its spelling read as plain text. -/
theorem unitsOf_length (items : List StringItem) :
    (unitsOf items).length ≤ (codeUnits (renderItems items)).length := by
  induction items with
  | nil => exact le_refl _
  | cons x xs ih =>
    have hx := codeUnits_render_item x
    rw [unitsOf_cons, renderItems_cons, codeUnits_append, List.length_append, List.length_append]
    omega

theorem codeUnits_eq_nil (t : Text) (h : codeUnits t = []) : t = [] := by
  have hlen := length_le_codeUnits t
  rw [h, List.length_nil] at hlen
  exact List.length_eq_zero_iff.mp (Nat.le_zero.mp hlen)

theorem charUnits_cases (c : Char) :
    (charUnits c = [c.toNat] ∧ (c.toNat < 0xD800 ∨ 0xDFFF < c.toNat)) ∨
    ∃ hi lo, charUnits c = [0xD800 + hi, 0xDC00 + lo] ∧ hi < 0x400 ∧ lo < 0x400 ∧
      c.toNat = 0x10000 + hi * 0x400 + lo := by
  have hvalid : c.toNat < 0xD800 ∨ 0xDFFF < c.toNat ∧ c.toNat < 0x110000 := c.valid
  unfold charUnits
  split
  · exact Or.inl ⟨rfl, by omega⟩
  · exact Or.inr ⟨_, _, rfl, by omega, by omega, by omega⟩

theorem charUnits_first (c d : Char) (s t : List ℕ) (h : charUnits c ++ s = charUnits d ++ t) :
    c = d ∧ s = t := by
  rcases charUnits_cases c with ⟨hc, hcode⟩ | ⟨hi, lo, hc, hhi, hlo, hcode⟩ <;>
    rcases charUnits_cases d with ⟨hd, hdode⟩ | ⟨hi', lo', hd, hhi', hlo', hdode⟩ <;>
    rw [hc, hd] at h <;> simp only [List.cons_append, List.nil_append, List.cons.injEq] at h
  · exact ⟨Char.toNat_inj.mp h.1, h.2⟩
  · omega
  · omega
  · exact ⟨Char.toNat_inj.mp (by omega), h.2.2⟩

theorem codeUnits_injective (s t : Text) (h : codeUnits s = codeUnits t) : s = t := by
  induction s generalizing t with
  | nil => exact (codeUnits_eq_nil t h.symm).symm
  | cons c s ih =>
    cases t with
    | nil => exact codeUnits_eq_nil _ h
    | cons d t =>
      obtain ⟨hcd, hrest⟩ := charUnits_first c d _ _ h
      rw [hcd, ih t hrest]

def spell (t : Text) : List StringItem :=
  t.map fun c => if h : c ≠ '"' ∧ c ≠ '\\' then .plain c h
    else .escape (if c = '"' then .quote else .backslash)

theorem unitsOf_spell (t : Text) : unitsOf (spell t) = codeUnits t := by
  induction t with
  | nil => rfl
  | cons c t ih =>
    have hc : StringItem.units (if h : c ≠ '"' ∧ c ≠ '\\' then .plain c h
        else .escape (if c = '"' then .quote else .backslash)) = charUnits c := by
      by_cases h : c ≠ '"' ∧ c ≠ '\\'
      · rw [dif_pos h]
        rfl
      · rw [dif_neg h]
        by_cases hq : c = '"'
        · subst hq
          rfl
        · have hb : c = '\\' := not_not.mp fun hb => h ⟨hq, hb⟩
          subst hb
          rfl
    rw [codeUnits_cons, ← ih, ← hc]
    rfl

theorem renderItems_spell (t : Text) (h : ∀ c ∈ t, c ≠ '"' ∧ c ≠ '\\') :
    renderItems (spell t) = t := by
  induction t with
  | nil => rfl
  | cons c t ih =>
    have hrest := ih fun d hd => h d (List.mem_cons_of_mem _ hd)
    have hc := h c List.mem_cons_self
    unfold spell at hrest ⊢
    rw [List.map_cons, dif_pos hc, renderItems_cons, hrest]
    rfl

/-! ### Quotes in spelled strings -/

theorem hex_not_special (d : HexDigit) : d.char ≠ '"' ∧ d.char ≠ '\\' := by
  constructor
  · intro h
    have hd := d.hex
    rw [h] at hd
    exact absurd hd (by decide)
  · intro h
    have hd := d.hex
    rw [h] at hd
    exact absurd hd (by decide)

theorem cons_eq_append_quote (c : Char) (t x y : Text) (hc : c ≠ '"')
    (h : c :: t = x ++ '"' :: y) : ∃ x', x = c :: x' ∧ t = x' ++ '"' :: y := by
  cases x with
  | nil =>
    injection h with hhead _
    exact absurd hhead hc
  | cons d x' =>
    injection h with hhead htail
    exact ⟨x', by rw [hhead], htail⟩

/-- A quote in a spelled string is the second character of an escape. -/
theorem renderItems_quote (items : List StringItem) (x y : Text)
    (h : renderItems items = x ++ '"' :: y) :
    ∃ before after, items = before ++ .escape .quote :: after ∧
      x = renderItems before ++ ['\\'] ∧ y = renderItems after := by
  induction items generalizing x with
  | nil => simp [renderItems] at h
  | cons item items ih =>
    rw [renderItems_cons] at h
    cases item with
    | plain c hc =>
      obtain ⟨x', rfl, ht⟩ := cons_eq_append_quote c _ x y hc.1 h
      obtain ⟨before, after, hitems, hx, hy⟩ := ih x' ht
      exact ⟨.plain c hc :: before, after, by rw [hitems]; rfl, by rw [hx]; rfl, hy⟩
    | escape e =>
      obtain ⟨x', rfl, ht⟩ := cons_eq_append_quote '\\' _ x y (by decide) h
      by_cases he : e = .quote
      · subst he
        cases x' with
        | nil =>
          have hy : renderItems items = y := (List.cons.inj ht).2
          exact ⟨[], items, rfl, rfl, hy.symm⟩
        | cons d x'' =>
          obtain ⟨hd, ht'⟩ := List.cons.inj ht
          obtain ⟨before, after, hitems, hx, hy⟩ := ih x'' ht'
          exact ⟨.escape .quote :: before, after, by rw [hitems]; rfl, by rw [hx, ← hd]; rfl, hy⟩
      · have hchar : e.char ≠ '"' := by
          cases e <;> first | exact absurd rfl he | decide
        obtain ⟨x'', rfl, ht'⟩ := cons_eq_append_quote e.char _ x' y hchar ht
        obtain ⟨before, after, hitems, hx, hy⟩ := ih x'' ht'
        exact ⟨.escape e :: before, after, by rw [hitems]; rfl, by rw [hx]; rfl, hy⟩
    | unicode a b c d =>
      obtain ⟨x1, rfl, h1⟩ := cons_eq_append_quote '\\' _ x y (by decide) h
      obtain ⟨x2, rfl, h2⟩ := cons_eq_append_quote 'u' _ x1 y (by decide) h1
      obtain ⟨x3, rfl, h3⟩ := cons_eq_append_quote a.char _ x2 y (hex_not_special a).1 h2
      obtain ⟨x4, rfl, h4⟩ := cons_eq_append_quote b.char _ x3 y (hex_not_special b).1 h3
      obtain ⟨x5, rfl, h5⟩ := cons_eq_append_quote c.char _ x4 y (hex_not_special c).1 h4
      obtain ⟨x6, rfl, h6⟩ := cons_eq_append_quote d.char _ x5 y (hex_not_special d).1 h5
      obtain ⟨before, after, hitems, hx, hy⟩ := ih x6 h6
      exact ⟨.unicode a b c d :: before, after, by rw [hitems]; rfl, by rw [hx]; rfl, hy⟩

theorem charUnits_quote (c : Char) (h : 34 ∈ charUnits c) : c = '"' := by
  unfold charUnits at h
  split at h
  · have hn : 34 = c.toNat := List.mem_singleton.mp h
    exact Char.toNat_inj.mp hn.symm
  · simp only [List.mem_cons, List.not_mem_nil, or_false] at h
    omega

theorem codeUnits_quote (t : Text) (u v : List ℕ) (h : codeUnits t = u ++ 34 :: v) :
    ∃ x y, t = x ++ '"' :: y ∧ codeUnits y = v := by
  induction t generalizing u with
  | nil => simp [codeUnits] at h
  | cons c t ih =>
    rw [codeUnits_cons] at h
    rcases List.append_eq_append_iff.mp h with ⟨w, hu, ht⟩ | ⟨w, hc, ht⟩
    · obtain ⟨x, y, rfl, hy⟩ := ih w ht
      exact ⟨c :: x, y, rfl, hy⟩
    · cases w with
      | nil =>
        rw [List.nil_append] at ht
        obtain ⟨x, y, rfl, hy⟩ := ih [] ht.symm
        exact ⟨c :: x, y, rfl, hy⟩
      | cons n w =>
        obtain ⟨hn, hv⟩ := List.cons.inj ht
        have hmem : 34 ∈ charUnits c := by
          rw [hc, ← hn]
          exact List.mem_append_right _ List.mem_cons_self
        have hquote := charUnits_quote c hmem
        subst hquote
        have hunits : charUnits '"' = [34] := rfl
        rw [hunits] at hc
        have hlen := congrArg List.length hc
        simp only [List.length_append, List.length_cons, List.length_nil] at hlen
        have hw : w = [] := List.length_eq_zero_iff.mp (by omega)
        rw [hw] at hv
        exact ⟨[], t, rfl, hv.symm⟩

/-- What stands before a quote cannot make a string denote its own spelling. -/
theorem units_ne_spelling (n : ℕ) (d : List ℕ) (items : List StringItem) (hn : items.length ≤ n) :
    d ++ 34 :: unitsOf items ≠ codeUnits (renderItems items) := by
  induction n generalizing d items with
  | zero =>
    intro h
    have hnil : items = [] := List.length_eq_zero_iff.mp (by omega)
    rw [hnil] at h
    cases d <;> cases h
  | succ n ih =>
    intro h
    obtain ⟨x, y, hxy, hy⟩ := codeUnits_quote _ _ _ h.symm
    obtain ⟨before, after, rfl, _, rfl⟩ := renderItems_quote items x y hxy
    rw [List.length_append, List.length_cons] at hn
    have hsplit : unitsOf (before ++ .escape .quote :: after) =
        unitsOf before ++ 34 :: unitsOf after := by
      rw [unitsOf_append, unitsOf_cons]
      rfl
    rw [hsplit] at hy
    exact ih (unitsOf before) after (by omega) hy.symm

/-- A name that denotes a key and ends, before its closing quote, in the key
after a quote, is the key spelled out. -/
theorem spelled_suffix (items : List StringItem) (key x a : Text)
    (hunits : unitsOf items = codeUnits key)
    (h : x ++ '"' :: key = a ++ '"' :: renderItems items) : x = a ∧ key = renderItems items := by
  rcases List.append_eq_append_iff.mp h with ⟨w, ha, hk⟩ | ⟨w, hx, hk⟩
  · cases w with
    | nil =>
      rw [List.append_nil] at ha
      exact ⟨ha.symm, (List.cons.inj hk).2⟩
    | cons c w =>
      have hkey : key = w ++ '"' :: renderItems items := (List.cons.inj hk).2
      have hle := unitsOf_length items
      rw [hunits, hkey, codeUnits_append, codeUnits_cons, List.length_append,
        List.length_append] at hle
      have hone := charUnits_length '"'
      omega
  · cases w with
    | nil =>
      rw [List.append_nil] at hx
      exact ⟨hx, ((List.cons.inj hk).2).symm⟩
    | cons c w =>
      have hr : renderItems items = w ++ '"' :: key := (List.cons.inj hk).2
      obtain ⟨before, after, rfl, _, rfl⟩ := renderItems_quote items w key hr
      rw [unitsOf_append, unitsOf_cons] at hunits
      exact absurd hunits (units_ne_spelling after.length (unitsOf before) after (le_refl _))

/-! ### Values -/

structure JsonNumber where
  negative : Bool
  digits : Text
  tail : Text
  digits_ne : digits ≠ []
  digits_digit : ∀ c ∈ digits, c.isDigit = true
  tail_head : ∀ c ∈ tail.head?, c = '.' ∨ c = 'e' ∨ c = 'E'
  tail_char : ∀ c ∈ tail, c.isDigit = true ∨ c ∈ ['.', 'e', 'E', '+', '-']

def JsonNumber.render (n : JsonNumber) : Text :=
  (if n.negative then ['-'] else []) ++ n.digits ++ n.tail

/-- The digits behind the point. -/
def JsonNumber.fraction (n : JsonNumber) : Text :=
  match n.tail with
  | '.' :: t => t.takeWhile Char.isDigit
  | _ => []

/-- The number behind the `e`. -/
def JsonNumber.exponent (n : JsonNumber) : ℤ :=
  match n.tail.dropWhile fun c => c == '.' || c.isDigit with
  | _ :: '-' :: t => -(Nat.ofDigitChars 10 t 0 : ℤ)
  | _ :: '+' :: t => Nat.ofDigitChars 10 t 0
  | _ :: t => Nat.ofDigitChars 10 t 0
  | [] => 0

def JsonNumber.value (n : JsonNumber) : ℚ :=
  (if n.negative then -1 else 1) * Nat.ofDigitChars 10 (n.digits ++ n.fraction) 0 /
    10 ^ n.fraction.length * 10 ^ n.exponent

mutual
inductive Json where
  | null
  | bool (b : Bool)
  | number (n : JsonNumber)
  | string (items : List StringItem)
  | array (lead : Blank) (elements : Elements)
  | object (lead : Blank) (members : Members)

inductive Elements where
  | nil
  | cons (pre : Blank) (value : Json) (trail : Blank) (rest : Elements)

inductive Members where
  | nil
  | cons (pre : Blank) (name : List StringItem) (mid post : Blank) (value : Json) (trail : Blank)
      (rest : Members)
end

def boolText (b : Bool) : Text := if b then "true".toList else "false".toList

def Elements.comma : Elements → Text
  | .nil => []
  | .cons _ _ _ _ => [',']

def Members.comma : Members → Text
  | .nil => []
  | .cons _ _ _ _ _ _ _ => [',']

mutual
def Json.render : Json → Text
  | .null => "null".toList
  | .bool b => boolText b
  | .number n => n.render
  | .string items => renderString items
  | .array lead elements => '[' :: (lead.text ++ elements.render ++ [']'])
  | .object lead members => '{' :: (lead.text ++ members.render ++ ['}'])

def Elements.render : Elements → Text
  | .nil => []
  | .cons pre value trail rest =>
    pre.text ++ value.render ++ trail.text ++ rest.comma ++ rest.render

def Members.render : Members → Text
  | .nil => []
  | .cons pre name mid post value trail rest =>
    pre.text ++ renderString name ++ mid.text ++ ':' :: post.text ++ value.render ++ trail.text ++
      rest.comma ++ rest.render
end

def Json.isCompound : Json → Bool
  | .array _ _ => true
  | .object _ _ => true
  | _ => false

/-! ### The members of an object text -/

/-- The text of an object, with blanks around it. -/
structure ObjectText where
  before : Blank
  lead : Blank
  members : Members
  trailing : Blank

def ObjectText.text (o : ObjectText) : Text :=
  o.before.text ++ (Json.object o.lead o.members).render ++ o.trailing.text

/-- A member in its text: what stands before its name, and after its value. -/
structure Found where
  before : Text
  name : List StringItem
  mid : Blank
  post : Blank
  value : Json
  after : Text

def Found.head (f : Found) : Text :=
  f.before ++ renderString f.name ++ f.mid.text ++ ':' :: f.post.text

def Found.text (f : Found) : Text := f.head ++ f.value.render ++ f.after

/-- The first member with this name, `before` being what stands in front of the
members and `after` behind them. -/
def Members.find (units : List ℕ) (before after : Text) : Members → Option Found
  | .nil => none
  | .cons pre name mid post value trail rest =>
    if unitsOf name = units then
      some ⟨before ++ pre.text, name, mid, post, value,
        trail.text ++ rest.comma ++ rest.render ++ after⟩
    else rest.find units (before ++ pre.text ++ renderString name ++ mid.text ++ ':' :: post.text ++
      value.render ++ trail.text ++ rest.comma) after

/-- The member of the object itself with this name. -/
def ObjectText.find (o : ObjectText) (key : Text) : Option Found :=
  o.members.find (codeUnits key) (o.before.text ++ '{' :: o.lead.text) ('}' :: o.trailing.text)

def isTerminator (c : Char) : Bool := c == ',' || c == '}' || c == ']' || isBlank c

def StartsTerminated (t : Text) : Prop := ∀ c ∈ t.head?, isTerminator c = true

theorem startsTerminated_blank (b : Blank) (t : Text) (h : StartsTerminated t) :
    StartsTerminated (b.text ++ t) := by
  cases hb : b.text with
  | nil => exact h
  | cons c cs =>
    intro d hd
    have hc : d = c := (Option.some.inj hd).symm
    have hblank := List.all_eq_true.mp b.blank c (by rw [hb]; exact List.mem_cons_self)
    rw [hc, isTerminator, hblank, Bool.or_true]

theorem find_spec (units : List ℕ) (members : Members) (before after : Text) (f : Found)
    (hafter : StartsTerminated after) (h : members.find units before after = some f) :
    f.text = before ++ members.render ++ after ∧ unitsOf f.name = units ∧
      StartsTerminated f.after := by
  match members with
  | .nil => cases h
  | .cons pre name mid post value trail rest =>
    unfold Members.find at h
    by_cases hname : unitsOf name = units
    · rw [if_pos hname, Option.some.injEq] at h
      subst h
      refine ⟨?_, hname, ?_⟩
      · simp [Found.text, Found.head, Members.render]
      · rw [List.append_assoc, List.append_assoc]
        refine startsTerminated_blank trail _ ?_
        cases rest with
        | nil => exact hafter
        | cons _ _ _ _ _ _ _ =>
          intro c hc
          rw [← Option.some.inj hc]
          rfl
    · rw [if_neg hname] at h
      obtain ⟨htext, hunits, hterm⟩ := find_spec units rest _ after f hafter h
      refine ⟨?_, hunits, hterm⟩
      rw [htext]
      simp [Members.render]

theorem ObjectText.find_spec (o : ObjectText) (key : Text) (f : Found) (h : o.find key = some f) :
    f.text = o.text ∧ unitsOf f.name = codeUnits key ∧ StartsTerminated f.after := by
  have hafter : StartsTerminated ('}' :: o.trailing.text) := by
    intro c hc
    rw [← Option.some.inj hc]
    rfl
  obtain ⟨htext, hrest⟩ := JsonText.find_spec _ _ _ _ f hafter h
  refine ⟨?_, hrest⟩
  rw [htext]
  simp [ObjectText.text, Json.render]

end JsonText
