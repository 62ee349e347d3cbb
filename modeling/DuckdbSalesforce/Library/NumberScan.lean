import Mathlib

/-!
# Scanning numbers

Decimal numbers between separators, the way `scanf` reads them with `%d` and
ordinary characters in turn: blanks and a sign may stand before the digits, and
reading stops at the first thing that does not match.
-/

namespace NumberScan

/-- `isspace` of the C locale. -/
def isSpace (c : Char) : Bool := c == ' ' || ('\t' ≤ c && c ≤ '\r')

structure Number where
  blanks : List Char
  sign : Option Bool
  digits : List Char
  blank : ∀ c ∈ blanks, isSpace c = true
  digits_ne : digits ≠ []
  digit : ∀ c ∈ digits, c.isDigit = true

def signText : Option Bool → List Char
  | none => []
  | some true => ['-']
  | some false => ['+']

def Number.text (n : Number) : List Char := n.blanks ++ (signText n.sign ++ n.digits)

def signedValue (sign : Option Bool) (n : ℕ) : ℤ := if sign = some true then -(n : ℤ) else n

def Number.value (n : Number) : ℤ := signedValue n.sign (Nat.ofDigitChars 10 n.digits 0)

def NoDigit (t : List Char) : Prop := ∀ c ∈ t.head?, c.isDigit = false

/-! ### One number -/

def readSign : List Char → Option Bool × List Char
  | [] => (none, [])
  | c :: t => if c = '-' then (some true, t) else if c = '+' then (some false, t) else (none, c :: t)

def readNumber (t : List Char) : Option (ℤ × List Char) :=
  let s := readSign (t.dropWhile isSpace)
  let digits := s.2.takeWhile Char.isDigit
  if digits = [] then none
  else some (signedValue s.1 (Nat.ofDigitChars 10 digits 0), s.2.dropWhile Char.isDigit)

theorem dropWhile_stop (p : Char → Bool) (a t : List Char) (ha : ∀ c ∈ a, p c = true)
    (ht : ∀ c ∈ t.head?, p c = false) : (a ++ t).dropWhile p = t := by
  rw [List.dropWhile_append_of_pos ha]
  cases t with
  | nil => rfl
  | cons c t => rw [List.dropWhile_cons_of_neg (by simp [ht c rfl])]

theorem takeWhile_stop (p : Char → Bool) (a t : List Char) (ha : ∀ c ∈ a, p c = true)
    (ht : ∀ c ∈ t.head?, p c = false) : (a ++ t).takeWhile p = a := by
  rw [List.takeWhile_append_of_pos ha]
  cases t with
  | nil => rw [List.takeWhile_nil, List.append_nil]
  | cons c t => rw [List.takeWhile_cons_of_neg (by simp [ht c rfl]), List.append_nil]

theorem dropWhile_head (p : Char → Bool) (t : List Char) : ∀ c ∈ (t.dropWhile p).head?, p c = false := by
  intro c hc
  cases ht : t.dropWhile p with
  | nil =>
    rw [ht] at hc
    cases hc
  | cons d u =>
    rw [ht] at hc
    have hd := List.head?_dropWhile_not p t
    rw [ht] at hd
    rw [← Option.some.inj hc]
    simpa using hd

theorem digit_not_sign (c : Char) (h : c.isDigit = true) : c ≠ '-' ∧ c ≠ '+' := by
  refine ⟨?_, ?_⟩
  · intro hc
    rw [hc] at h
    exact absurd h (by decide)
  · intro hc
    rw [hc] at h
    exact absurd h (by decide)

theorem digit_not_space (c : Char) (h : c.isDigit = true) : isSpace c = false := by
  have hlow : '0' ≤ c := by
    simp only [Char.isDigit, Bool.and_eq_true, decide_eq_true_eq] at h
    exact h.1
  have hblank : ¬ c = ' ' := by
    intro hc
    rw [hc] at h
    exact absurd h (by decide)
  have hhigh : ¬ c ≤ '\r' := by
    intro hc
    exact absurd (le_trans hlow hc) (by decide)
  rw [isSpace, beq_false_of_ne hblank, decide_eq_false hhigh, Bool.and_false, Bool.or_false]

theorem readSign_text (sign : Option Bool) (t : List Char) (ht : ∀ c ∈ t.head?, c ≠ '-' ∧ c ≠ '+') :
    readSign (signText sign ++ t) = (sign, t) := by
  cases sign with
  | some b => cases b <;> rfl
  | none =>
    cases t with
    | nil => rfl
    | cons c t =>
      have hc := ht c rfl
      show readSign (c :: t) = _
      rw [readSign, if_neg hc.1, if_neg hc.2]

theorem readSign_split (t : List Char) : t = signText (readSign t).1 ++ (readSign t).2 := by
  cases t with
  | nil => rfl
  | cons c t =>
    rw [readSign]
    by_cases hm : c = '-'
    · rw [if_pos hm, hm]
      rfl
    · rw [if_neg hm]
      by_cases hp : c = '+'
      · rw [if_pos hp, hp]
        rfl
      · rw [if_neg hp]
        rfl

/-- A number reads back, whatever follows that is no digit. -/
theorem readNumber_append (n : Number) (rest : List Char) (h : NoDigit rest) :
    readNumber (n.text ++ rest) = some (n.value, rest) := by
  obtain ⟨d, ds, hd⟩ := List.exists_cons_of_ne_nil n.digits_ne
  have hdigit : d.isDigit = true := n.digit d (by rw [hd]; exact List.mem_cons_self)
  have hhead : ∀ c ∈ (n.digits ++ rest).head?, c = d := by
    intro c hc
    rw [hd] at hc
    exact (Option.some.inj hc).symm
  have hsolid : ∀ c ∈ (signText n.sign ++ (n.digits ++ rest)).head?, isSpace c = false := by
    intro c hc
    cases hs : n.sign with
    | none =>
      rw [hs] at hc
      rw [hhead c hc]
      exact digit_not_space d hdigit
    | some b =>
      rw [hs] at hc
      cases b <;> rw [← Option.some.inj hc] <;> decide
  have hblank : (n.text ++ rest).dropWhile isSpace = signText n.sign ++ (n.digits ++ rest) := by
    have hshape : n.text ++ rest = n.blanks ++ (signText n.sign ++ (n.digits ++ rest)) := by
      simp [Number.text]
    rw [hshape]
    exact dropWhile_stop isSpace _ _ n.blank hsolid
  have hsign : readSign (signText n.sign ++ (n.digits ++ rest)) = (n.sign, n.digits ++ rest) := by
    apply readSign_text
    intro c hc
    rw [hhead c hc]
    exact digit_not_sign d hdigit
  unfold readNumber
  rw [hblank, hsign]
  simp only [takeWhile_stop Char.isDigit n.digits rest n.digit h,
    dropWhile_stop Char.isDigit n.digits rest n.digit h, if_neg n.digits_ne]
  rfl

/-- What is read is a number, and no digit follows it. -/
theorem readNumber_some (t : List Char) (v : ℤ) (rest : List Char)
    (h : readNumber t = some (v, rest)) :
    ∃ n : Number, t = n.text ++ rest ∧ v = n.value ∧ NoDigit rest := by
  unfold readNumber at h
  simp only at h
  split at h
  · cases h
  · rename_i hne
    obtain ⟨rfl, rfl⟩ := Prod.mk.inj (Option.some.inj h)
    refine ⟨⟨t.takeWhile isSpace, (readSign (t.dropWhile isSpace)).1,
      (readSign (t.dropWhile isSpace)).2.takeWhile Char.isDigit, ?_, hne, ?_⟩, ?_, rfl, ?_⟩
    · intro c hc
      exact List.mem_takeWhile_imp hc
    · intro c hc
      exact List.mem_takeWhile_imp hc
    · simp only [Number.text, List.append_assoc, List.takeWhile_append_dropWhile]
      rw [← readSign_split, List.takeWhile_append_dropWhile]
    · exact dropWhile_head Char.isDigit _

theorem readNumber_none (t : List Char) (h : readNumber t = none) (n : Number) (rest : List Char) :
    t ≠ n.text ++ rest := by
  intro ht
  -- the digits may go on in the rest
  have hlong : n.text ++ rest = Number.text ⟨n.blanks, n.sign,
      n.digits ++ rest.takeWhile Char.isDigit, n.blank, by simp [n.digits_ne], by
        intro c hc
        rcases List.mem_append.mp hc with hc | hc
        · exact n.digit c hc
        · exact List.mem_takeWhile_imp hc⟩ ++ rest.dropWhile Char.isDigit := by
    simp [Number.text, List.takeWhile_append_dropWhile]
  rw [ht, hlong, readNumber_append _ _ (dropWhile_head Char.isDigit rest)] at h
  cases h

/-! ### Numbers behind separators -/

/-- The numbers of a text, each behind its separator. -/
def scanNumbers : List Char → List Char → List ℤ
  | [], _ => []
  | _ :: _, [] => []
  | sep :: seps, c :: t =>
    if c = sep then
      match readNumber t with
      | none => []
      | some (v, rest) => v :: scanNumbers seps rest
    else []

/-- The text starts with these numbers, each behind its separator, and no
further one can be read. -/
inductive Reads : List Char → List Char → List ℤ → Prop
  | done (t : List Char) : Reads [] t []
  | stop (sep : Char) (seps t : List Char) (h : ∀ (n : Number) rest, t ≠ sep :: (n.text ++ rest)) :
    Reads (sep :: seps) t []
  | next (sep : Char) (seps rest : List Char) (n : Number) (values : List ℤ) (hrest : NoDigit rest)
      (h : Reads seps rest values) : Reads (sep :: seps) (sep :: (n.text ++ rest)) (n.value :: values)

theorem scanNumbers_reads (seps t : List Char) : Reads seps t (scanNumbers seps t) := by
  induction seps generalizing t with
  | nil =>
    cases t with
    | nil => exact Reads.done []
    | cons c t => exact Reads.done (c :: t)
  | cons sep seps ih =>
    cases t with
    | nil => exact Reads.stop sep seps [] fun n rest => (List.cons_ne_nil _ _).symm
    | cons c t =>
      rw [scanNumbers]
      by_cases hc : c = sep
      · rw [if_pos hc, hc]
        cases hread : readNumber t with
        | none =>
          apply Reads.stop
          intro n rest h
          exact readNumber_none t hread n rest (List.cons.inj h).2
        | some p =>
          obtain ⟨v, rest⟩ := p
          obtain ⟨n, rfl, rfl, hrest⟩ := readNumber_some t v rest hread
          exact Reads.next sep seps rest n _ hrest (ih rest)
      · rw [if_neg hc]
        apply Reads.stop
        intro n rest h
        exact hc (List.cons.inj h).1

theorem reads_scanNumbers (seps t : List Char) (values : List ℤ) (h : Reads seps t values) :
    scanNumbers seps t = values := by
  induction h with
  | done t => cases t <;> rfl
  | stop sep seps t hno =>
    have hscan := scanNumbers_reads (sep :: seps) t
    generalize hv : scanNumbers (sep :: seps) t = found at hscan
    cases hscan with
    | stop _ _ _ _ => rfl
    | next _ _ rest n values _ _ => exact absurd rfl (hno n rest)
  | next sep seps rest n values hrest _ ih =>
    rw [scanNumbers, if_pos rfl, readNumber_append n rest hrest]
    exact congrArg _ ih

theorem scanNumbers_next (sep : Char) (seps rest : List Char) (n : Number) (hrest : NoDigit rest) :
    scanNumbers (sep :: seps) (sep :: (n.text ++ rest)) = n.value :: scanNumbers seps rest :=
  reads_scanNumbers _ _ _ (Reads.next sep seps rest n _ hrest (scanNumbers_reads seps rest))

/-- A number first, then numbers behind their separators. -/
def scanFormat (seps t : List Char) : List ℤ :=
  match readNumber t with
  | none => []
  | some (v, rest) => v :: scanNumbers seps rest

inductive ReadsFormat (seps : List Char) : List Char → List ℤ → Prop
  | stop (t : List Char) (h : ∀ (n : Number) rest, t ≠ n.text ++ rest) : ReadsFormat seps t []
  | next (rest : List Char) (n : Number) (values : List ℤ) (hrest : NoDigit rest)
      (h : Reads seps rest values) : ReadsFormat seps (n.text ++ rest) (n.value :: values)

theorem scanFormat_reads (seps t : List Char) : ReadsFormat seps t (scanFormat seps t) := by
  unfold scanFormat
  cases hread : readNumber t with
  | none => exact ReadsFormat.stop t (readNumber_none t hread)
  | some p =>
    obtain ⟨v, rest⟩ := p
    obtain ⟨n, rfl, rfl, hrest⟩ := readNumber_some t v rest hread
    exact ReadsFormat.next rest n _ hrest (scanNumbers_reads seps rest)

theorem reads_scanFormat (seps t : List Char) (values : List ℤ) (h : ReadsFormat seps t values) :
    scanFormat seps t = values := by
  cases h with
  | stop _ hno =>
    have hscan := scanFormat_reads seps t
    generalize hv : scanFormat seps t = found at hscan
    cases hscan with
    | stop _ _ => rfl
    | next rest n values _ _ => exact absurd rfl (hno n rest)
  | next rest n values hrest hreads =>
    rw [scanFormat, readNumber_append n rest hrest]
    exact congrArg _ (reads_scanNumbers seps rest values hreads)

theorem scanFormat_next (seps rest : List Char) (n : Number) (hrest : NoDigit rest) :
    scanFormat seps (n.text ++ rest) = n.value :: scanNumbers seps rest :=
  reads_scanFormat _ _ _ (ReadsFormat.next rest n _ hrest (scanNumbers_reads seps rest))

/-! ### Leading zeros -/

/-- The decimal digits of a number, with zeros in front up to a width. -/
def padded (width n : ℕ) : List Char :=
  List.replicate (width - (Nat.toDigits 10 n).length) '0' ++ Nat.toDigits 10 n

theorem padded_digit (width n : ℕ) (c : Char) (h : c ∈ padded width n) : c.isDigit = true := by
  rcases List.mem_append.mp h with h | h
  · rw [(List.mem_replicate.mp h).2]
    decide
  · exact Nat.isDigit_of_mem_toDigits (by decide) (by decide) h

theorem padded_ne (width n : ℕ) : padded width n ≠ [] := by
  intro h
  exact Nat.toDigits_ne_nil (List.append_eq_nil_iff.mp h).2

theorem padded_value (width n : ℕ) : Nat.ofDigitChars 10 (padded width n) 0 = n := by
  rw [padded, Nat.ofDigitChars_append, Nat.ofDigitChars_replicate_zero, Nat.mul_zero,
    Nat.ofDigitChars_ten_toDigits]

theorem padded_length (width n : ℕ) (hw : 0 < width) (h : n < 10 ^ width) :
    (padded width n).length = width := by
  have hdigits : (Nat.toDigits 10 n).length ≤ width :=
    (Nat.length_toDigits_le_iff (by decide) hw).mpr h
  rw [padded, List.length_append, List.length_replicate]
  omega

theorem ofDigitChars_lt (t : List Char) (n : ℕ) (h : ∀ c ∈ t, c.isDigit = true) :
    Nat.ofDigitChars 10 t n < 10 ^ t.length * (n + 1) := by
  induction t generalizing n with
  | nil =>
    rw [Nat.ofDigitChars_nil, List.length_nil]
    omega
  | cons c t ih =>
    have hc : c.toNat - '0'.toNat ≤ 9 := by
      have hdigit := h c List.mem_cons_self
      simp only [Char.isDigit, Bool.and_eq_true, decide_eq_true_eq] at hdigit
      have hle : c.toNat ≤ '9'.toNat := hdigit.2
      have hnine : '9'.toNat = 57 := by decide
      have hzero : '0'.toNat = 48 := by decide
      omega
    have hrest := ih (10 * n + (c.toNat - '0'.toNat)) fun d hd => h d (List.mem_cons_of_mem _ hd)
    have hstep : 10 ^ t.length * (10 * n + (c.toNat - '0'.toNat) + 1) ≤
        10 ^ t.length * (10 * (n + 1)) := Nat.mul_le_mul_left _ (by omega)
    have hpow : 10 ^ (c :: t).length * (n + 1) = 10 ^ t.length * (10 * (n + 1)) := by
      rw [List.length_cons, pow_succ, Nat.mul_assoc]
    rw [Nat.ofDigitChars_cons, hpow]
    exact lt_of_lt_of_le hrest hstep

def paddedNumber (width n : ℕ) : Number :=
  ⟨[], none, padded width n, List.forall_mem_nil _, padded_ne width n, padded_digit width n⟩

theorem paddedNumber_value (width n : ℕ) : (paddedNumber width n).value = n :=
  congrArg Nat.cast (padded_value width n)

end NumberScan
