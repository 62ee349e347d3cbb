import DuckdbSalesforce.Json.Reader

/-!
# Looking up a member

When the textual search finds the member of the object itself, and what each
reader returns for the value it stands in front of.
-/

namespace DuckdbSalesforce
open JsonText

/-! ### Strings -/

/-- What `readString` makes of an item. -/
def readItem : StringItem → Text
  | .plain c _ => [c]
  | .escape e => [unescape e.char]
  | .unicode a b c d => ['u', a.char, b.char, c.char, d.char]

def readItems (items : List StringItem) : Text := items.flatMap readItem

theorem readString_plain (c : Char) (t : Text) (h : c ≠ '"' ∧ c ≠ '\\') :
    readString (c :: t) = c :: readString t := by
  cases t with
  | nil => exact if_neg h.1
  | cons e t => rw [readString, if_neg h.2, if_neg h.1]

theorem readString_quote (t : Text) : readString ('"' :: t) = [] := by
  cases t with
  | nil => rfl
  | cons e t => rfl

theorem readString_escape (e : Char) (t : Text) :
    readString ('\\' :: e :: t) = unescape e :: readString t := by
  rw [readString, if_pos rfl]

theorem readString_items (items : List StringItem) (rest : Text) :
    readString (renderItems items ++ '"' :: rest) = readItems items := by
  induction items with
  | nil => exact readString_quote rest
  | cons x xs ih =>
    rw [renderItems_cons, List.append_assoc]
    cases x with
    | plain c h =>
      show readString (c :: (renderItems xs ++ '"' :: rest)) = c :: readItems xs
      rw [readString_plain c _ h, ih]
    | escape e =>
      show readString ('\\' :: e.char :: (renderItems xs ++ '"' :: rest)) = _
      rw [readString_escape, ih]
      rfl
    | unicode a b c d =>
      show readString ('\\' :: 'u' :: a.char :: b.char :: c.char :: d.char ::
        (renderItems xs ++ '"' :: rest)) = _
      rw [readString_escape, readString_plain _ _ (hex_not_special a),
        readString_plain _ _ (hex_not_special b), readString_plain _ _ (hex_not_special c),
        readString_plain _ _ (hex_not_special d), ih]
      rfl

/-- An escape that `readString` undoes. -/
def plainlyEscaped : StringItem → Bool
  | .plain _ _ => true
  | .escape e => e != .backspace && e != .formFeed
  | .unicode _ _ _ _ => false

theorem readItem_length (x : StringItem) : x.units.length ≤ (codeUnits (readItem x)).length := by
  cases x with
  | plain c h =>
    rw [readItem, codeUnits_cons, List.length_append]
    exact Nat.le_add_right _ _
  | escape e => cases e <;> decide
  | unicode a b c d =>
    have hlen : 5 ≤ _ := length_le_codeUnits (readItem (.unicode a b c d))
    have hone : (StringItem.unicode a b c d).units.length = 1 := rfl
    omega

theorem readItems_length (items : List StringItem) :
    (unitsOf items).length ≤ (codeUnits (readItems items)).length := by
  induction items with
  | nil => exact le_refl _
  | cons x xs ih =>
    have hx := readItem_length x
    have hcons : readItems (x :: xs) = readItem x ++ readItems xs := rfl
    rw [unitsOf_cons, hcons, codeUnits_append, List.length_append, List.length_append]
    omega

/-- A string is read right when none of its escapes is `\b`, `\f` or `\u`. -/
theorem readItems_right_iff (items : List StringItem) :
    codeUnits (readItems items) = unitsOf items ↔
      ∀ x ∈ items, plainlyEscaped x = true := by
  induction items with
  | nil => simp [readItems, unitsOf, codeUnits]
  | cons x xs ih =>
    have hcons : codeUnits (readItems (x :: xs)) = codeUnits (readItem x) ++ codeUnits (readItems xs) :=
      codeUnits_append _ _
    have hlen := readItems_length xs
    rw [hcons, unitsOf_cons, List.forall_mem_cons, ← ih]
    cases x with
    | plain c h =>
      have hc : codeUnits (readItem (.plain c h)) = charUnits c := by
        simp [readItem, codeUnits]
      rw [hc]
      simp [StringItem.units, plainlyEscaped]
    | escape e =>
      have hone : ∀ n m : ℕ, ∀ us vs : List ℕ, [n] ++ us = [m] ++ vs ↔ n = m ∧ us = vs := by
        intro n m us vs
        simp
      have hunits : codeUnits (readItem (.escape e)) = [(unescape e.char).toNat] := by
        cases e <;> rfl
      have hesc : (unescape e.char).toNat = e.unit ↔
          plainlyEscaped (.escape e) = true := by
        cases e <;> decide
      rw [hunits, StringItem.units, hone, hesc]
    | unicode a b c d =>
      constructor
      · intro h
        have hl := congrArg List.length h
        have hfive : 5 ≤ _ := length_le_codeUnits (readItem (.unicode a b c d))
        have hone : (StringItem.unicode a b c d).units.length = 1 := rfl
        rw [List.length_append, List.length_append] at hl
        omega
      · intro hgiven
        obtain ⟨h, _⟩ := hgiven
        cases h

/-! ### The value at a position -/

theorem number_head (n : JsonNumber) :
    ∃ c t, n.render = c :: t ∧ (c = '-' ∧ n.negative = true ∨ c.isDigit = true) := by
  obtain ⟨d, ds, hd⟩ := List.exists_cons_of_ne_nil n.digits_ne
  unfold JsonNumber.render
  cases hneg : n.negative with
  | true => exact ⟨'-', n.digits ++ n.tail, by simp, Or.inl ⟨rfl, rfl⟩⟩
  | false =>
    refine ⟨d, ds ++ n.tail, by simp [hd], Or.inr ?_⟩
    exact n.digits_digit d (by rw [hd]; exact List.mem_cons_self)

theorem digit_not_blank (c : Char) (h : c.isDigit = true) : isBlank c = false := by
  cases hb : isBlank c with
  | false => rfl
  | true =>
    simp only [isBlank, Bool.or_eq_true, beq_iff_eq] at hb
    rcases hb with ((rfl | rfl) | rfl) | rfl <;> exact absurd h (by decide)

theorem value_solid (v : Json) (t : Text) : StartsSolid (v.render ++ t) := by
  intro c hc
  cases v with
  | null | string _ | array _ _ | object _ _ =>
    rw [← Option.some.inj hc]
    rfl
  | bool b =>
    cases b <;> rw [← Option.some.inj hc] <;> rfl
  | number n =>
    obtain ⟨d, u, hd, hcase⟩ := number_head n
    rw [Json.render, hd] at hc
    rw [← Option.some.inj hc]
    rcases hcase with ⟨rfl, _⟩ | hdigit
    · rfl
    · exact digit_not_blank d hdigit

theorem found_drop (f : Found) : f.text.drop f.head.length = f.value.render ++ f.after := by
  rw [Found.text, List.append_assoc, List.drop_left]

/-- The name is spelled like the key, and nothing in front of it is. -/
def SpelledFirst (key : Text) (f : Found) : Prop :=
  renderItems f.name = key ∧ ∀ j < f.before.length, ¬ quoted key <+: f.text.drop j

theorem blank_suffix (a b w v : Text) (c d : Char) (hw : w.all isBlank = true)
    (hv : v.all isBlank = true) (hc : isBlank c = false) (hd : isBlank d = false)
    (h : a ++ c :: w = b ++ d :: v) : a = b ∧ c = d ∧ w = v := by
  have hno : ∀ (x : Text) (e : Char) (u s : Text), x.all isBlank = true → isBlank e = false →
      x ≠ u ++ e :: s := by
    intro x e u s hx he hxe
    have hblank := List.all_eq_true.mp hx e (by rw [hxe]; simp)
    rw [he] at hblank
    cases hblank
  rcases List.append_eq_append_iff.mp h with ⟨u, hb, hcw⟩ | ⟨u, ha, hdv⟩
  · cases u with
    | nil =>
      rw [List.append_nil] at hb
      exact ⟨hb.symm, (List.cons.inj hcw).1, (List.cons.inj hcw).2⟩
    | cons e u => exact absurd (List.cons.inj hcw).2 (hno w d u v hw hd)
  · cases u with
    | nil =>
      rw [List.append_nil] at ha
      exact ⟨ha, (List.cons.inj hdv).1.symm, (List.cons.inj hdv).2.symm⟩
    | cons e u => exact absurd (List.cons.inj hdv).2 (hno v c u w hv hc)

/-- The search ends at the member exactly when the member is the first thing in
the text that looks like it. -/
theorem findValue_found_iff (f : Found) (key : Text) (hname : unitsOf f.name = codeUnits key) :
    findValue f.text key = some f.head.length ↔ SpelledFirst key f := by
  rw [findValue_some]
  constructor
  · intro h
    obtain ⟨x, w, v, y, htext, hw, hv, hy, hfirst, hlen⟩ := h
    have hheads : f.head = x ++ quoted key ++ w ++ ':' :: v := by
      have hsame : f.head ++ (f.value.render ++ f.after) = x ++ quoted key ++ w ++ ':' :: v ++ y := by
        rw [← htext, Found.text, List.append_assoc]
      exact (List.append_inj hsame hlen).1
    have hcolon := blank_suffix (f.before ++ renderString f.name ++ f.mid.text)
      (x ++ quoted key ++ w) f.post.text v ':' ':' f.post.blank hv rfl rfl hheads
    have hquote := blank_suffix (f.before ++ '"' :: renderItems f.name) (x ++ '"' :: key)
      f.mid.text w '"' '"' f.mid.blank hw rfl rfl (by simpa [renderString, quoted] using hcolon.1)
    obtain ⟨hx, hkey⟩ := spelled_suffix f.name key x f.before hname hquote.1.symm
    exact ⟨hkey.symm, hx ▸ hfirst⟩
  · intro h
    obtain ⟨hkey, hfirst⟩ := h
    refine ⟨f.before, f.mid.text, f.post.text, f.value.render ++ f.after, ?_, f.mid.blank,
      f.post.blank, value_solid f.value f.after, hfirst, ?_⟩
    · simp [Found.text, Found.head, renderString, quoted, hkey]
    · simp [Found.head, renderString, quoted, hkey]

/-- The first place where the quoted key occurs, if any, is not followed by a
colon. -/
def NoFalseHit (key text : Text) : Prop :=
  ∀ x w y, text = x ++ quoted key ++ w ++ ':' :: y → w.all isBlank = true →
    ∃ j < x.length, quoted key <+: text.drop j

theorem findValue_none_iff (text key : Text) :
    findValue text key = none ↔ NoFalseHit key text := by
  constructor
  · intro h x w y htext hw
    by_contra hno
    have hfirst : ∀ j < x.length, ¬ quoted key <+: text.drop j :=
      fun j hj hp => hno ⟨j, hj, hp⟩
    have hsome := (findValue_some text key _).mpr ⟨x, w, y.takeWhile isBlank, y.dropWhile isBlank,
      by
        rw [htext]
        simp [List.takeWhile_append_dropWhile], hw, List.all_takeWhile, startsSolid_dropWhile y,
      hfirst, rfl⟩
    rw [h] at hsome
    cases hsome
  · intro h
    cases hi : findValue text key with
    | none => rfl
    | some i =>
      obtain ⟨x, w, v, y, htext, hw, _, _, hfirst, _⟩ := (findValue_some text key i).mp hi
      obtain ⟨j, hj, hp⟩ := h x w (v ++ y) (by rw [htext]; simp) hw
      exact absurd hp (hfirst j hj)

/-! ### The end of an object -/

/-- Scanning over `a` only moves on. -/
def Passes (d : ℤ) (m : ScanMode) (a : Text) (d' : ℤ) (m' : ScanMode) : Prop :=
  ∀ rest, objectEnd d m (a ++ rest) = (objectEnd d' m' rest).map (· + a.length)

theorem passes_nil (d : ℤ) (m : ScanMode) : Passes d m [] d m := by
  intro rest
  simp

theorem passes_append {d d' d'' : ℤ} {m m' m'' : ScanMode} {a b : Text}
    (ha : Passes d m a d' m') (hb : Passes d' m' b d'' m'') : Passes d m (a ++ b) d'' m'' := by
  intro rest
  rw [List.append_assoc, ha, hb, Option.map_map, List.length_append]
  congr 1
  funext n
  simp only [Function.comp]
  omega

theorem passes_cons {d d' d'' : ℤ} {m m' m'' : ScanMode} {c : Char} {b : Text}
    (hc : Passes d m [c] d' m') (hb : Passes d' m' b d'' m'') : Passes d m (c :: b) d'' m'' :=
  passes_append hc hb

def isNeutral (c : Char) : Bool := c != '"' && c != '{' && c != '}'

theorem passes_neutral (d : ℤ) (a : Text) (h : ∀ c ∈ a, isNeutral c = true) :
    Passes d .code a d .code := by
  induction a with
  | nil => exact passes_nil d .code
  | cons c a ih =>
    have hc := h c List.mem_cons_self
    simp only [isNeutral, Bool.and_eq_true, bne_iff_ne] at hc
    refine passes_cons ?_ (ih fun e he => h e (List.mem_cons_of_mem _ he))
    intro rest
    show objectEnd d .code (c :: rest) = _
    rw [objectEnd, if_neg hc.1.1, if_neg hc.1.2, if_neg hc.2]
    rfl

theorem passes_quote (d : ℤ) : Passes d .code ['"'] d .string := fun _ => rfl

theorem passes_plain (d : ℤ) (c : Char) (h : c ≠ '"' ∧ c ≠ '\\') :
    Passes d .string [c] d .string := by
  intro rest
  show objectEnd d .string (c :: rest) = _
  rw [objectEnd, if_neg h.2, if_neg h.1]
  rfl

theorem passes_escape (d : ℤ) (e : Char) : Passes d .string ['\\', e] d .string :=
  passes_cons (fun _ => rfl : Passes d .string ['\\'] d .skip)
    (fun _ => rfl : Passes d .skip [e] d .string)

theorem passes_items (d : ℤ) (items : List StringItem) :
    Passes d .string (renderItems items) d .string := by
  induction items with
  | nil => exact passes_nil d .string
  | cons x xs ih =>
    refine passes_append ?_ ih
    cases x with
    | plain c h => exact passes_plain d c h
    | escape e => exact passes_escape d e.char
    | unicode a b c e =>
      exact passes_append (passes_escape d 'u') (passes_cons (passes_plain d _ (hex_not_special a))
        (passes_cons (passes_plain d _ (hex_not_special b))
          (passes_cons (passes_plain d _ (hex_not_special c))
            (passes_plain d _ (hex_not_special e)))))

theorem passes_string (d : ℤ) (items : List StringItem) :
    Passes d .code (renderString items) d .code :=
  passes_append (passes_cons (passes_quote d) (passes_items d items)) fun _ => rfl

theorem blank_neutral (b : Blank) : ∀ c ∈ b.text, isNeutral c = true := by
  intro c hc
  have hblank := List.all_eq_true.mp b.blank c hc
  simp only [isBlank, Bool.or_eq_true, beq_iff_eq] at hblank
  rcases hblank with ((rfl | rfl) | rfl) | rfl <;> rfl

theorem digit_neutral (c : Char) (h : c.isDigit = true) : isNeutral c = true := by
  have hno : ∀ d ∈ ['"', '{', '}'], c ≠ d := by
    intro d hd heq
    subst heq
    simp only [List.mem_cons, List.not_mem_nil, or_false] at hd
    rcases hd with rfl | rfl | rfl <;> exact absurd h (by decide)
  simp [isNeutral, hno]

def isNumberChar (c : Char) : Bool := c.isDigit || c ∈ ['.', 'e', 'E', '+', '-']

theorem number_chars (n : JsonNumber) : ∀ c ∈ n.render, isNumberChar c = true := by
  intro c hc
  unfold JsonNumber.render at hc
  rcases List.mem_append.mp hc with hc | hc
  · rcases List.mem_append.mp hc with hc | hc
    · split at hc
      · rw [List.mem_singleton.mp hc]
        rfl
      · cases hc
    · rw [isNumberChar, n.digits_digit c hc, Bool.true_or]
  · rcases n.tail_char c hc with h | h
    · rw [isNumberChar, h, Bool.true_or]
    · rw [isNumberChar, decide_eq_true h, Bool.or_true]

theorem numberChar_cases (c : Char) (h : isNumberChar c = true) :
    c.isDigit = true ∨ c ∈ ['.', 'e', 'E', '+', '-'] := by
  simpa [isNumberChar] using h

theorem number_neutral (n : JsonNumber) : ∀ c ∈ n.render, isNeutral c = true := by
  intro c hc
  rcases numberChar_cases c (number_chars n c hc) with hd | hm
  · exact digit_neutral c hd
  · have hall : ['.', 'e', 'E', '+', '-'].all isNeutral = true := rfl
    exact List.all_eq_true.mp hall c hm

theorem passes_open (d : ℤ) : Passes d .code ['{'] (d + 1) .code := fun _ => rfl

theorem passes_close (d : ℤ) (h : 1 ≤ d) : Passes (d + 1) .code ['}'] d .code := by
  intro rest
  have hd : d + 1 - 1 = d := by omega
  have hne : ¬ d = 0 := by omega
  show objectEnd (d + 1) .code ('}' :: rest) = _
  rw [objectEnd, if_neg (by decide), if_neg (by decide), if_pos rfl, hd, if_neg hne]
  rfl

theorem passes_char (d : ℤ) (c : Char) (h : isNeutral c = true) : Passes d .code [c] d .code :=
  passes_neutral d [c] fun e he => by rw [List.mem_singleton.mp he]; exact h

theorem passes_blank (d : ℤ) (b : Blank) : Passes d .code b.text d .code :=
  passes_neutral d b.text (blank_neutral b)

theorem elements_comma (e : Elements) : ∀ c ∈ e.comma, isNeutral c = true := by
  intro c hc
  cases e with
  | nil => cases hc
  | cons _ _ _ _ =>
    rw [List.mem_singleton.mp hc]
    rfl

theorem members_comma (m : Members) : ∀ c ∈ m.comma, isNeutral c = true := by
  intro c hc
  cases m with
  | nil => cases hc
  | cons _ _ _ _ _ _ _ =>
    rw [List.mem_singleton.mp hc]
    rfl

mutual
theorem passes_value (d : ℤ) (hd : 1 ≤ d) : (v : Json) → Passes d .code v.render d .code
  | .null => passes_neutral d _ (List.all_eq_true.mp rfl)
  | .bool true => passes_neutral d _ (List.all_eq_true.mp rfl)
  | .bool false => passes_neutral d _ (List.all_eq_true.mp rfl)
  | .number n => passes_neutral d _ (number_neutral n)
  | .string items => passes_string d items
  | .array lead elements =>
    passes_cons (passes_char d '[' rfl)
      (passes_append (passes_append (passes_blank d lead) (passes_elements d hd elements))
        (passes_char d ']' rfl))
  | .object lead members =>
    passes_cons (passes_open d)
      (passes_append (passes_append (passes_blank _ lead)
        (passes_members (d + 1) (Int.le_add_one hd) members)) (passes_close d hd))

theorem passes_elements (d : ℤ) (hd : 1 ≤ d) :
    (elements : Elements) → Passes d .code elements.render d .code
  | .nil => passes_nil d .code
  | .cons pre value trail rest =>
    passes_append (passes_append (passes_append (passes_append (passes_blank d pre)
      (passes_value d hd value)) (passes_blank d trail))
        (passes_neutral d _ (elements_comma rest))) (passes_elements d hd rest)

theorem passes_members (d : ℤ) (hd : 1 ≤ d) :
    (members : Members) → Passes d .code members.render d .code
  | .nil => passes_nil d .code
  | .cons pre name mid post value trail rest =>
    passes_append (passes_append (passes_append (passes_append (passes_append (passes_append
      (passes_append (passes_blank d pre) (passes_string d name)) (passes_blank d mid))
        (passes_cons (passes_char d ':' rfl) (passes_blank d post))) (passes_value d hd value))
          (passes_blank d trail)) (passes_neutral d _ (members_comma rest)))
            (passes_members d hd rest)
end

theorem objectEnd_object (lead : Blank) (members : Members) (rest : Text) :
    objectEnd 0 .code ((Json.object lead members).render ++ rest) =
      some (Json.object lead members).render.length := by
  have hinner : Passes 0 .code ('{' :: (lead.text ++ members.render)) 1 .code :=
    passes_cons (passes_open 0) (passes_append (passes_blank _ lead)
      (passes_members 1 (Int.le_refl 1) members))
  have hshape : (Json.object lead members).render ++ rest =
      '{' :: (lead.text ++ members.render) ++ '}' :: rest := by
    simp [Json.render]
  have hclose : objectEnd 1 .code ('}' :: rest) = some 1 := rfl
  rw [hshape, hinner, hclose]
  simp [Json.render, Nat.add_comm, Nat.add_left_comm]

/-! ### The readers at a value -/

/-- The readers as functions of the text from the found position on. -/
def stringAt (s : Text) : Text := if s.head? = some '"' then readString s.tail else []

def valueAt (s : Text) : ValueRead :=
  if s = [] then ⟨[], false, false⟩
  else if "null".toList.isPrefixOf s then ⟨[], true, true⟩
  else if s.head? = some '"' then ⟨readString s.tail, true, false⟩
  else ⟨s.takeWhile fun c => !isTerminator c, true, false⟩

def boolAt (s : Text) (dflt : Bool) : Bool :=
  if "true".toList.isPrefixOf s then true
  else if "false".toList.isPrefixOf s then false
  else dflt

def objectAt (s : Text) : Text :=
  if s.head? = some '{' then
    match objectEnd 0 .code s with
    | none => []
    | some n => s.take n
  else []

theorem readers_at (json key : Text) (i : ℕ) (h : findValue json key = some i) :
    getString json key = stringAt (json.drop i) ∧ getValue json key = valueAt (json.drop i) ∧
      (∀ dflt, getBool json key dflt = boolAt (json.drop i) dflt) ∧
      (∀ dflt, getInt json key dflt = readInt (json.drop i) dflt) ∧
      extractObject json key = objectAt (json.drop i) := by
  have htail : json.drop (i + 1) = (json.drop i).tail := by
    rw [← List.drop_drop, List.drop_one]
  have hend : json.length ≤ i ↔ json.drop i = [] := List.drop_eq_nil_iff.symm
  refine ⟨?_, ?_, ?_, ?_, ?_⟩
  · unfold getString
    simp only [h, ← List.head?_drop, htail]
    rfl
  · unfold getValue
    simp only [h, ← List.head?_drop, htail, hend]
    rfl
  · intro dflt
    unfold getBool
    rw [h]
    rfl
  · intro dflt
    unfold getInt
    rw [h]
  · unfold extractObject
    simp only [h, ← List.head?_drop]
    rfl

theorem digit_ne (c d : Char) (hd : d.isDigit = false) (h : c.isDigit = true) : c ≠ d := by
  intro heq
  subst heq
  rw [hd] at h
  cases h

theorem number_first (n : JsonNumber) (t : Text) :
    ∃ c u, n.render ++ t = c :: u ∧ c ≠ '"' ∧ c ≠ '{' ∧ c ≠ 'n' ∧ c ≠ 't' ∧ c ≠ 'f' := by
  obtain ⟨c, u, hr, hcase⟩ := number_head n
  refine ⟨c, u ++ t, by rw [hr]; rfl, ?_⟩
  rcases hcase with ⟨rfl, _⟩ | hd
  · decide
  · exact ⟨digit_ne c _ rfl hd, digit_ne c _ rfl hd, digit_ne c _ rfl hd, digit_ne c _ rfl hd,
      digit_ne c _ rfl hd⟩

def readText : Json → Text
  | .string items => readItems items
  | _ => []

theorem stringAt_value (v : Json) (t : Text) : stringAt (v.render ++ t) = readText v := by
  cases v with
  | null | array _ _ | object _ _ => rfl
  | bool b => cases b <;> rfl
  | number n =>
    obtain ⟨c, u, hr, hquote, _⟩ := number_first n t
    rw [Json.render, hr, stringAt, List.head?_cons, if_neg (by simpa using hquote)]
    rfl
  | string items =>
    have hread := readString_items items t
    have hhead : ((Json.string items).render ++ t).head? = some '"' := rfl
    rw [stringAt, if_pos hhead]
    simpa [Json.render, renderString, readText] using hread

theorem takeWhile_literal (a t : Text) (ha : ∀ c ∈ a, isTerminator c = false)
    (ht : StartsTerminated t) : (a ++ t).takeWhile (fun c => !isTerminator c) = a := by
  rw [List.takeWhile_append_of_pos fun c hc => by rw [ha c hc]; rfl]
  cases t with
  | nil => simp
  | cons c t =>
    have hc := ht c rfl
    rw [List.takeWhile_cons, hc]
    simp

theorem numberChar_not_terminator (c : Char) (h : isNumberChar c = true) :
    isTerminator c = false := by
  rcases numberChar_cases c h with hd | hm
  · have hblank := digit_not_blank c hd
    have h1 := digit_ne c ',' rfl hd
    have h2 := digit_ne c '}' rfl hd
    have h3 := digit_ne c ']' rfl hd
    simp [isTerminator, hblank, h1, h2, h3]
  · have hall : ['.', 'e', 'E', '+', '-'].all (fun c => !isTerminator c) = true := rfl
    simpa using List.all_eq_true.mp hall c hm

theorem boolText_not_terminator (b : Bool) : ∀ c ∈ boolText b, isTerminator c = false := by
  intro c hc
  have hall : (boolText b).all (fun c => !isTerminator c) = true := by
    cases b <;> rfl
  simpa using List.all_eq_true.mp hall c hc

/-- What `getValue` makes of a value that is no object or array. -/
def readValue : Json → ValueRead
  | .null => ⟨[], true, true⟩
  | .string items => ⟨readItems items, true, false⟩
  | .number n => ⟨n.render, true, false⟩
  | .bool b => ⟨boolText b, true, false⟩
  | _ => ⟨[], true, false⟩

theorem valueAt_scalar (v : Json) (t : Text) (ht : StartsTerminated t)
    (hv : v.isCompound = false) : valueAt (v.render ++ t) = readValue v := by
  cases v with
  | null => rfl
  | array _ _ | object _ _ => cases hv
  | bool b =>
    cases b
    · have hlit := takeWhile_literal "false".toList t (boolText_not_terminator false) ht
      show ValueRead.mk (("false".toList ++ t).takeWhile fun c => !isTerminator c) true false = _
      rw [hlit]
      rfl
    · have hlit := takeWhile_literal "true".toList t (boolText_not_terminator true) ht
      show ValueRead.mk (("true".toList ++ t).takeWhile fun c => !isTerminator c) true false = _
      rw [hlit]
      rfl
  | number n =>
    have hlit := takeWhile_literal n.render t
      (fun c hc => numberChar_not_terminator c (number_chars n c hc)) ht
    obtain ⟨c, u, hr, hquote, _, hn, _⟩ := number_first n t
    have hnull : "null".toList.isPrefixOf (c :: u) = false := by
      show ('n' == c && _) = false
      rw [beq_false_of_ne (Ne.symm hn), Bool.false_and]
    rw [hr] at hlit
    rw [Json.render, hr, valueAt, if_neg (List.cons_ne_nil _ _), hnull, List.head?_cons,
      if_neg (by simp), if_neg (by simpa using hquote), hlit]
    rfl
  | string items =>
    have hread := readString_items items t
    have htail : (renderString items ++ t).tail = renderItems items ++ '"' :: t := by
      simp [renderString]
    show ValueRead.mk (readString (renderString items ++ t).tail) true false = _
    rw [htail, hread]
    rfl

theorem valueAt_compound (v : Json) (t : Text) (hv : v.isCompound = true) :
    (valueAt (v.render ++ t)).out ≠ [] := by
  cases v with
  | null | bool _ | number _ | string _ => cases hv
  | array lead elements => exact List.cons_ne_nil '[' _
  | object lead members => exact List.cons_ne_nil '{' _

def boolOr (dflt : Bool) : Option Json → Bool
  | some (.bool b) => b
  | _ => dflt

theorem boolAt_value (v : Json) (t : Text) (dflt : Bool) :
    boolAt (v.render ++ t) dflt = boolOr dflt (some v) := by
  cases v with
  | null | string _ | array _ _ | object _ _ => rfl
  | bool b => cases b <;> rfl
  | number n =>
    obtain ⟨c, u, hr, _, _, _, htrue, hfalse⟩ := number_first n t
    have h1 : "true".toList.isPrefixOf (c :: u) = false := by
      show ('t' == c && _) = false
      rw [beq_false_of_ne (Ne.symm htrue), Bool.false_and]
    have h2 : "false".toList.isPrefixOf (c :: u) = false := by
      show ('f' == c && _) = false
      rw [beq_false_of_ne (Ne.symm hfalse), Bool.false_and]
    rw [Json.render, hr, boolAt, h1, h2]
    rfl

def objectText : Option Json → Text
  | some (.object lead members) => (Json.object lead members).render
  | _ => []

theorem objectAt_value (v : Json) (t : Text) : objectAt (v.render ++ t) = objectText (some v) := by
  cases v with
  | null | string _ | array _ _ => rfl
  | bool b => cases b <;> rfl
  | number n =>
    obtain ⟨c, u, hr, _, hbrace, _⟩ := number_first n t
    rw [Json.render, hr, objectAt, List.head?_cons, if_neg (by simpa using hbrace)]
    rfl
  | object lead members =>
    have hend := objectEnd_object lead members t
    have hhead : ((Json.object lead members).render ++ t).head? = some '{' := rfl
    unfold objectAt
    rw [if_pos hhead, hend]
    exact List.take_left

/-- The integer in front of point and exponent. -/
def intValue (n : JsonNumber) : ℤ := signed n.negative (decimal n.digits)

/-- The integer a member calls for: the value of a number, else the default. -/
def IntRead (dflt r : ℤ) : Option Json → Prop
  | some (.number n) => (r : ℚ) = n.value
  | _ => r = dflt

/-- Point and exponent add nothing, and the integer fits. -/
def WholeNumber (n : JsonNumber) : Prop := n.value = intValue n ∧ inInt64 (intValue n)

instance (n : JsonNumber) : Decidable (WholeNumber n) := inferInstanceAs (Decidable (_ ∧ _))

theorem takeWhile_digits (n : JsonNumber) (t : Text) (ht : StartsTerminated t) :
    (n.digits ++ (n.tail ++ t)).takeWhile Char.isDigit = n.digits := by
  have hstop : ∀ c ∈ (n.tail ++ t).head?, c.isDigit = false := by
    intro c hc
    cases htail : n.tail with
    | nil =>
      rw [htail, List.nil_append] at hc
      have hterm := ht c hc
      cases hd : c.isDigit with
      | false => rfl
      | true =>
        have hno := numberChar_not_terminator c (by rw [isNumberChar, hd, Bool.true_or])
        rw [hno] at hterm
        cases hterm
    | cons d ds =>
      rw [htail] at hc
      have hhead := n.tail_head d (by rw [htail]; rfl)
      rw [← Option.some.inj hc]
      rcases hhead with rfl | rfl | rfl <;> rfl
  rw [List.takeWhile_append_of_pos n.digits_digit]
  cases hrest : n.tail ++ t with
  | nil => simp
  | cons c u =>
    have hc := hstop c (by rw [hrest]; rfl)
    rw [List.takeWhile_cons, hc]
    simp

theorem readInt_other (c : Char) (t : Text) (dflt : ℤ) (hd : c.isDigit = false) (hm : c ≠ '-')
    (hp : c ≠ '+') : readInt (c :: t) dflt = dflt := by
  unfold readInt
  have hsign : ¬ ((c :: t).head? = some '-' ∨ (c :: t).head? = some '+') := by
    simp [hm, hp]
  simp only [if_neg hsign, List.takeWhile_cons, hd]
  rfl

/-- Only the integer in front of point and exponent is looked at. -/
theorem readInt_number (n : JsonNumber) (t : Text) (dflt : ℤ) (ht : StartsTerminated t) :
    readInt (n.render ++ t) dflt = if inInt64 (intValue n) then intValue n else dflt := by
  have hdigits := takeWhile_digits n t ht
  obtain ⟨d, ds, hd⟩ := List.exists_cons_of_ne_nil n.digits_ne
  have hdd : d.isDigit = true := n.digits_digit d (by rw [hd]; exact List.mem_cons_self)
  unfold readInt JsonNumber.render intValue
  rw [List.append_assoc, List.append_assoc]
  cases hneg : n.negative with
  | true =>
    have hrest : (['-'] ++ (n.digits ++ (n.tail ++ t))).tail = n.digits ++ (n.tail ++ t) := rfl
    have hhead : (['-'] ++ (n.digits ++ (n.tail ++ t))).head? = some '-' := rfl
    simp only [if_true, hhead, true_or, hrest, hdigits, n.digits_ne, if_false, decide_true]
  | false =>
    have hhead : (n.digits ++ (n.tail ++ t)).head? = some d := by
      rw [hd]
      rfl
    have hm := digit_ne d '-' rfl hdd
    have hp := digit_ne d '+' rfl hdd
    simp only [Bool.false_eq_true, if_false, List.nil_append, hhead, Option.some.injEq, hm, hp,
      or_self, hdigits, n.digits_ne, decide_false]

/-- A number is read right, whatever the default, when it is whole. -/
theorem number_read_iff (n : JsonNumber) (t : Text) (ht : StartsTerminated t) :
    (∀ dflt, IntRead dflt (readInt (n.render ++ t) dflt) (some (.number n))) ↔ WholeNumber n := by
  have hread := fun dflt => readInt_number n t dflt ht
  constructor
  · intro h
    by_cases hfit : inInt64 (intValue n)
    · have hzero : ((readInt (n.render ++ t) 0 : ℤ) : ℚ) = n.value := h 0
      rw [hread, if_pos hfit] at hzero
      exact ⟨hzero.symm, hfit⟩
    · -- the default comes back, and it cannot always be the value
      have hzero : ((readInt (n.render ++ t) 0 : ℤ) : ℚ) = n.value := h 0
      have hone : ((readInt (n.render ++ t) 1 : ℤ) : ℚ) = n.value := h 1
      rw [hread, if_neg hfit] at hzero hone
      rw [← hzero] at hone
      exact absurd hone (by norm_num)
  · intro h dflt
    show ((readInt (n.render ++ t) dflt : ℤ) : ℚ) = n.value
    rw [hread, if_pos h.2, h.1]

theorem readInt_value (v : Json) (t : Text) (dflt : ℤ) (ht : StartsTerminated t)
    (hwhole : ∀ n, v = .number n → WholeNumber n) :
    IntRead dflt (readInt (v.render ++ t) dflt) (some v) := by
  cases v with
  | null | string _ | array _ _ | object _ _ => exact readInt_other _ _ dflt rfl (by decide) (by decide)
  | bool b => cases b <;> exact readInt_other _ _ dflt rfl (by decide) (by decide)
  | number n => exact (number_read_iff n t ht).mpr (hwhole n rfl) dflt

end DuckdbSalesforce
