import Mathlib

/-!
# C++ strings

A `string` is the list of its bytes, each byte the `Char` with that code, so
that `size()` is the length. The case functions are those of `StringUtil`
(ASCII letters only), `isAlnum` is `std::isalnum` in the C locale.
-/

namespace DuckdbSalesforce

abbrev Text := List Char

instance : LawfulBEq Text := inferInstance

def lower (t : Text) : Text := t.map Char.toLower
def upper (t : Text) : Text := t.map Char.toUpper
def ciEquals (a b : Text) : Bool := lower a == lower b
def isAlnum (c : Char) : Bool := c.isAlphanum

def isTrimBlank (c : Char) : Bool := c == ' ' || c == '\t' || c == '\r' || c == '\n'

/-- `std::isspace` in the C locale. -/
def isSpace (c : Char) : Bool := isTrimBlank c || c == '\x0b' || c == '\x0c'

def natText (n : ℕ) : Text := (toString n).toList

/-- The texts one after the other with `sep` between them: the
`if (i > 0) out += sep` loops of the source. -/
def joinText (sep : Text) : List Text → Text
  | [] => []
  | [t] => t
  | t :: rest => t ++ sep ++ joinText sep rest

theorem natText_eq (n : ℕ) : natText n = Nat.toDigits 10 n := by
  simp [natText]

theorem natText_digits (n : ℕ) : natText n ≠ [] ∧ ∀ c ∈ natText n, c.isDigit = true := by
  rw [natText_eq]
  exact ⟨Nat.toDigits_ne_nil, fun c hc =>
    Nat.isDigit_of_mem_toDigits (by decide) (by decide) hc⟩

theorem natText_injective (m n : ℕ) (h : natText m = natText n) : m = n := by
  rw [natText_eq, natText_eq] at h
  rw [← Nat.ofDigitChars_ten_toDigits (n := m), ← Nat.ofDigitChars_ten_toDigits (n := n), h]

theorem toLower_digit (c : Char) (h : c.isDigit = true) : c.toLower = c := by
  simp only [Char.isDigit, Bool.and_eq_true, decide_eq_true_eq] at h
  unfold Char.toLower
  rw [dif_neg]
  intro hup
  have h57 : c.val ≤ 57 := h.2
  have h65 : (65 : UInt32) ≤ c.val := hup.1
  exact absurd (UInt32.le_trans h65 h57) (by decide)

theorem joinText_cons (sep t u : Text) (rest : List Text) :
    joinText sep (t :: u :: rest) = t ++ sep ++ joinText sep (u :: rest) := rfl

theorem lower_length (t : Text) : (lower t).length = t.length := List.length_map _

/-- The state of such a loop after some of the texts. -/
theorem joinText_loop (sep acc : Text) (t : Text) (rest : List Text) :
    joinText sep ((acc ++ sep ++ t) :: rest) = acc ++ sep ++ joinText sep (t :: rest) := by
  cases rest with
  | nil => rfl
  | cons u rest => simp only [joinText_cons, List.append_assoc]

theorem joinText_append (sep : Text) (ts us : List Text) (ht : ts ≠ []) (hu : us ≠ []) :
    joinText sep (ts ++ us) = joinText sep ts ++ sep ++ joinText sep us := by
  obtain ⟨u, us, rfl⟩ := List.exists_cons_of_ne_nil hu
  induction ts with
  | nil => exact absurd rfl ht
  | cons t ts ih =>
    cases ts with
    | nil => rfl
    | cons t' ts =>
      have hrest := ih (List.cons_ne_nil t' ts)
      rw [List.cons_append, List.cons_append, joinText_cons, joinText_cons, ← List.cons_append,
        hrest]
      simp only [List.append_assoc]

theorem joinText_length (sep : Text) (ts : List Text) :
    (joinText sep ts).length = (ts.map List.length).sum + sep.length * (ts.length - 1) := by
  induction ts with
  | nil => rfl
  | cons t ts ih =>
    cases ts with
    | nil => simp [joinText]
    | cons u us =>
      have hcount : (t :: u :: us).length - 1 = (u :: us).length - 1 + 1 := rfl
      have hsum : ((t :: u :: us).map List.length).sum =
          t.length + ((u :: us).map List.length).sum := List.sum_cons
      rw [joinText_cons, List.length_append, List.length_append, ih, hcount, hsum, Nat.mul_succ]
      omega

theorem joinText_eq_nil (sep : Text) (ts : List Text) (hne : ∀ t ∈ ts, t ≠ [])
    (h : joinText sep ts = []) : ts = [] := by
  cases ts with
  | nil => rfl
  | cons t ts =>
    have ht := hne t (List.mem_cons_self ..)
    cases ts with
    | nil => exact absurd h ht
    | cons u us =>
      rw [joinText_cons, List.append_assoc] at h
      exact absurd (List.append_eq_nil_iff.mp h).1 ht

/-! ### Byte order -/

/-- A difference inside texts of one length stays whatever follows them. -/
theorem append_lt_append (a b s t : Text) (hlen : a.length = b.length) (h : a < b) :
    a ++ s < b ++ t := by
  induction a generalizing b with
  | nil =>
    have hb : b = [] := List.length_eq_zero_iff.mp hlen.symm
    rw [hb] at h
    exact absurd h (by simp)
  | cons x a ih =>
    cases b with
    | nil => simp at hlen
    | cons y b =>
      rw [List.cons_append, List.cons_append]
      rw [List.cons_lt_cons_iff] at h ⊢
      rcases h with h | ⟨rfl, h⟩
      · exact Or.inl h
      · exact Or.inr ⟨rfl, ih b (by simpa using hlen) h⟩

theorem lt_append (a t : Text) (ht : t ≠ []) : a < a ++ t := by
  induction a with
  | nil =>
    obtain ⟨c, t, rfl⟩ := List.exists_cons_of_ne_nil ht
    exact List.nil_lt_cons c t
  | cons x a ih =>
    rw [List.cons_append, List.cons_lt_cons_iff]
    exact Or.inr ⟨rfl, ih⟩

end DuckdbSalesforce
