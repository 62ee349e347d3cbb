import DuckdbSalesforce.Json.Decode
import DuckdbSalesforce.Json.Member

/-!
# Compact records

Objects without blanks and with plain member names, as the service writes
them. A name is found at its member when nothing in front of the member could
be taken for it.
-/

namespace DuckdbSalesforce
open JsonText

def compactMembers : List (Text × Json) → Members
  | [] => .nil
  | (name, v) :: rest => .cons .none (spell name) .none .none v .none (compactMembers rest)

def compactObject (members : List (Text × Json)) : ObjectText :=
  ⟨.none, .none, compactMembers members, .none⟩

def memberText (m : Text × Json) : Text :=
  renderString (spell m.1) ++ ':' :: m.2.render ++ [',']

theorem compactMembers_render (pre post : List (Text × Json)) (m : Text × Json) :
    (compactMembers (pre ++ m :: post)).render =
      pre.flatMap memberText ++ (compactMembers (m :: post)).render := by
  induction pre with
  | nil => rfl
  | cons p ps ih =>
    have hcomma : (compactMembers (ps ++ m :: post)).comma = [','] := by
      cases ps <;> rfl
    show Members.render (.cons .none (spell p.1) .none .none p.2 .none
      (compactMembers (ps ++ m :: post))) = _
    rw [Members.render, ih, hcomma]
    simp [memberText, Blank.none]

def compactBefore (pre : List (Text × Json)) : Text := '{' :: pre.flatMap memberText

/-- A member of a compact object in its text. -/
def compactFound (pre post : List (Text × Json)) (m : Text × Json) : Found :=
  ⟨compactBefore pre, spell m.1, .none, .none, m.2,
    (compactMembers post).comma ++ (compactMembers post).render ++ ['}']⟩

theorem compactFound_text (pre post : List (Text × Json)) (m : Text × Json) :
    (compactFound pre post m).text = (compactObject (pre ++ m :: post)).text := by
  simp [ObjectText.text, compactObject, Json.render, compactMembers_render, Found.text, Found.head,
    compactFound, compactBefore, compactMembers, Members.render, Blank.none]

theorem compactFound_after (pre post : List (Text × Json)) (m : Text × Json) :
    StartsTerminated (compactFound pre post m).after := by
  intro c hc
  cases post with
  | nil =>
    rw [← Option.some.inj hc]
    rfl
  | cons p ps =>
    rw [← Option.some.inj hc]
    rfl

/-! ### Texts without the name -/

/-- The quoted key starts nowhere in `a`, whatever follows. -/
def Avoids (key a : Text) : Prop :=
  ∀ rest, ∀ j < a.length, ¬ quoted key <+: (a ++ rest).drop j

theorem avoids_nil (key : Text) : Avoids key [] := by
  intro rest j hj
  exact absurd hj (Nat.not_lt_zero j)

theorem avoids_append (key a b : Text) (ha : Avoids key a) (hb : Avoids key b) :
    Avoids key (a ++ b) := by
  intro rest j hj
  rw [List.append_assoc]
  by_cases hlt : j < a.length
  · exact ha (b ++ rest) j hlt
  · have hdrop : (a ++ (b ++ rest)).drop j = (b ++ rest).drop (j - a.length) := by
      rw [List.drop_append, List.drop_eq_nil_of_le (by omega), List.nil_append]
    rw [hdrop]
    rw [List.length_append] at hj
    exact hb rest (j - a.length) (by omega)

theorem avoids_cons (key : Text) (c : Char) (a : Text)
    (hc : ∀ rest, ¬ quoted key <+: c :: (a ++ rest)) (ha : Avoids key a) : Avoids key (c :: a) := by
  intro rest j hj
  cases j with
  | zero => exact hc rest
  | succ j =>
    rw [List.length_cons] at hj
    exact ha rest j (by omega)

theorem avoids_unquoted (key a : Text) (h : '"' ∉ a) : Avoids key a := by
  induction a with
  | nil => exact avoids_nil key
  | cons c a ih =>
    refine avoids_cons key c a ?_ (ih fun hq => h (List.mem_cons_of_mem _ hq))
    intro rest hp
    have hc : '"' = c := (List.cons_prefix_cons.mp hp).1
    exact h (by rw [hc]; exact List.mem_cons_self)

theorem avoids_flatMap {α : Type} (key : Text) (f : α → Text) (xs : List α)
    (h : ∀ x ∈ xs, Avoids key (f x)) : Avoids key (xs.flatMap f) := by
  induction xs with
  | nil => exact avoids_nil key
  | cons x xs ih =>
    rw [List.flatMap_cons]
    exact avoids_append key _ _ (h x List.mem_cons_self)
      (ih fun y hy => h y (List.mem_cons_of_mem _ hy))

theorem quote_first (a b x y : Text) (ha : '"' ∉ a) (hb : '"' ∉ b)
    (h : a ++ '"' :: x = b ++ '"' :: y) : a = b := by
  induction a generalizing b with
  | nil =>
    cases b with
    | nil => rfl
    | cons d b =>
      have hd : '"' = d := (List.cons.inj h).1
      exact absurd (by rw [hd]; exact List.mem_cons_self) hb
  | cons c a ih =>
    cases b with
    | nil =>
      have hc : c = '"' := (List.cons.inj h).1
      exact absurd (by rw [hc]; exact List.mem_cons_self) ha
    | cons d b =>
      obtain ⟨hcd, htail⟩ := List.cons.inj h
      rw [hcd, ih b (fun hq => ha (List.mem_cons_of_mem _ hq))
        (fun hq => hb (List.mem_cons_of_mem _ hq)) htail]

structure PlainName (key : Text) : Prop where
  nonempty : key ≠ []
  alnum : ∀ c ∈ key, isAlnum c = true

theorem unquoted_of_plain (t : Text) (h : ∀ c ∈ t, c ≠ '"' ∧ c ≠ '\\') : '"' ∉ t :=
  fun hq => (h '"' hq).1 rfl

theorem PlainName.unquoted {key : Text} (h : PlainName key) : ∀ c ∈ key, c ≠ '"' ∧ c ≠ '\\' := by
  intro c hc
  have halnum := h.alnum c hc
  constructor
  · intro heq
    subst heq
    exact absurd halnum (by decide)
  · intro heq
    subst heq
    exact absurd halnum (by decide)

theorem avoids_quoted (key name : Text) (c : Char) (hkey : PlainName key)
    (hname : '"' ∉ name) (hne : name ≠ key) (hc : isAlnum c = false) (hq : '"' ∉ [c]) :
    Avoids key ('"' :: (name ++ ['"', c])) := by
  have hclose : Avoids key ['"', c] := by
    refine avoids_cons key '"' [c] ?_ (avoids_unquoted key [c] hq)
    intro rest hp
    obtain ⟨d, ds, hd⟩ := List.exists_cons_of_ne_nil hkey.nonempty
    rw [quoted, hd] at hp
    have hdc : d = c := (List.cons_prefix_cons.mp (List.cons_prefix_cons.mp hp).2).1
    have halnum := hkey.alnum d (by rw [hd]; exact List.mem_cons_self)
    rw [hdc, hc] at halnum
    cases halnum
  refine avoids_cons key '"' _ ?_ (avoids_append key name _ (avoids_unquoted key name hname) hclose)
  intro rest hp
  obtain ⟨t, ht⟩ := (List.cons_prefix_cons.mp hp).2
  have hsame : key ++ '"' :: t = name ++ '"' :: (c :: rest) := by simpa using ht
  exact hne (quote_first key name _ _ (unquoted_of_plain key hkey.unquoted) hname hsame).symm

theorem avoids_member (key name : Text) (v : Json) (hkey : PlainName key)
    (hname : ∀ c ∈ name, c ≠ '"' ∧ c ≠ '\\') (hne : name ≠ key)
    (hv : Avoids key (v.render ++ [','])) : Avoids key (memberText (name, v)) := by
  have htext : memberText (name, v) = '"' :: (name ++ ['"', ':']) ++ (v.render ++ [',']) := by
    simp [memberText, renderString, renderItems_spell name hname]
  rw [htext]
  exact avoids_append key _ _
    (avoids_quoted key name ':' hkey (unquoted_of_plain name hname) hne rfl (by decide)) hv

theorem avoids_stamp (key t : Text) (hkey : PlainName key) (ht : ∀ c ∈ t, isStampChar c = true)
    (hne : t ≠ key) : Avoids key ((stampText t).render ++ [',']) := by
  have hplain : ∀ c ∈ t, c ≠ '"' ∧ c ≠ '\\' := fun c hc => stamp_plain c (ht c hc)
  have htext : (stampText t).render ++ [','] = '"' :: (t ++ ['"', ',']) := by
    simp [stampText, Json.render, renderString, renderItems_spell t hplain]
  rw [htext]
  exact avoids_quoted key t ',' hkey (unquoted_of_plain t hplain) hne rfl (by decide)

theorem number_unquoted (n : JsonNumber) : '"' ∉ n.render := by
  intro hq
  have hneutral := number_neutral n _ hq
  cases hneutral

/-- A spelled value is no name with a letter that no stamp has. -/
theorem avoids_spelled (casts : CastFunctions) (type : LogicalType) (v : Value) (json : Json)
    (key : Text) (hkey : PlainName key) (hletter : ∃ c ∈ key, isStampChar c = false)
    (h : Spells casts type v json) : Avoids key (json.render ++ [',']) := by
  have hcomma : ∀ a : Text, '"' ∉ a → Avoids key (a ++ [',']) := by
    intro a ha
    exact avoids_append key a [','] (avoids_unquoted key a ha) (avoids_unquoted key _ (by decide))
  have hstamp : ∀ t, (∀ c ∈ t, isStampChar c = true) →
      Avoids key ((stampText t).render ++ [',']) := by
    intro t ht
    refine avoids_stamp key t hkey ht ?_
    intro heq
    subst heq
    obtain ⟨c, hc, hno⟩ := hletter
    rw [ht c hc] at hno
    cases hno
  cases h with
  | boolean _ b cast =>
    refine hcomma _ ?_
    cases b <;> decide
  | number _ _ n plain cast => exact hcomma _ (number_unquoted n)
  | stamp _ _ t plain chars cast => exact hstamp t chars
  | time _ clock chars cast => exact hstamp _ (time_stamp clock chars)
  | timestamp _ date clock dateChars clockChars cast =>
    exact hstamp _ (dateTime_stamp date clock dateChars clockChars)

theorem getValue_compact (pre post : List (Text × Json)) (key : Text) (v : Json)
    (hkey : PlainName key) (hpre : ∀ m ∈ pre, Avoids key (memberText m))
    (hv : v.isCompound = false) :
    getValue (compactObject (pre ++ (key, v) :: post)).text key = readValue v := by
  have hname : unitsOf (compactFound pre post (key, v)).name = codeUnits key := unitsOf_spell key
  have havoid : Avoids key (compactBefore pre) :=
    avoids_cons key '{' _ (fun rest hp => absurd (List.cons_prefix_cons.mp hp).1 (by decide))
      (avoids_flatMap key memberText pre hpre)
  have hspelled : SpelledFirst key (compactFound pre post (key, v)) := by
    refine ⟨renderItems_spell key hkey.unquoted, ?_⟩
    intro j hj
    have htext : (compactFound pre post (key, v)).text = compactBefore pre ++
        (renderString (spell key) ++ ':' :: (v.render ++ (compactFound pre post (key, v)).after)) := by
      simp [Found.text, Found.head, compactFound, Blank.none]
    rw [htext]
    exact havoid _ j hj
  have hterm := compactFound_after pre post (key, v)
  have hpos := (findValue_found_iff _ key hname).mpr hspelled
  obtain ⟨_, hvalue, _⟩ := readers_found _ key hpos
  rw [compactFound_text] at hvalue
  rw [hvalue]
  exact valueAt_scalar v _ hterm hv

end DuckdbSalesforce
