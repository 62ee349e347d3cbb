import Mathlib

/-!
# Positional numerals

Digit lists with the most significant digit first, in any base. For numerals
of one length the order of the values is the lexicographic order of the lists.
-/

namespace Positional
variable (b : ℕ)

def value (ds : List ℕ) : ℕ := ds.foldl (fun v d => v * b + d) 0

/-- The last `k` digits of `v`. -/
def digits : ℕ → ℕ → List ℕ
  | 0, _ => []
  | k + 1, v => digits k (v / b) ++ [v % b]

theorem foldl_value (ds : List ℕ) (v : ℕ) :
    ds.foldl (fun v d => v * b + d) v = v * b ^ ds.length + value b ds := by
  unfold value
  induction ds generalizing v with
  | nil => simp
  | cons d ds ih =>
    rw [List.foldl_cons, List.foldl_cons, ih, ih (0 * b + d), List.length_cons]
    ring

theorem value_cons (d : ℕ) (ds : List ℕ) :
    value b (d :: ds) = d * b ^ ds.length + value b ds := by
  have h := foldl_value b ds (0 * b + d)
  rw [Nat.zero_mul, Nat.zero_add] at h
  rw [← h, value, List.foldl_cons, Nat.zero_mul, Nat.zero_add]

theorem value_append (ds es : List ℕ) :
    value b (ds ++ es) = value b ds * b ^ es.length + value b es := by
  rw [value, List.foldl_append, foldl_value]
  rfl

theorem value_zeros (k : ℕ) : value b (List.replicate k 0) = 0 := by
  induction k with
  | zero => rfl
  | succ k ih => rw [List.replicate_succ, value_cons, ih, Nat.zero_mul]

theorem value_lt_pow (ds : List ℕ) (h : ∀ d ∈ ds, d < b) : value b ds < b ^ ds.length := by
  induction ds with
  | nil => exact Nat.one_pos
  | cons d ds ih =>
    have hd : d < b := h d (List.mem_cons_self ..)
    have hds := ih fun e he => h e (List.mem_cons_of_mem _ he)
    have hmul : (d + 1) * b ^ ds.length ≤ b * b ^ ds.length :=
      Nat.mul_le_mul_right _ (by omega)
    rw [value_cons, List.length_cons, pow_succ]
    have hexp : (d + 1) * b ^ ds.length = d * b ^ ds.length + b ^ ds.length := by ring
    have hcomm : b ^ ds.length * b = b * b ^ ds.length := by ring
    omega

/-- The first digit that differs decides. -/
theorem value_lt_iff (ds es : List ℕ) (hlen : ds.length = es.length) (hd : ∀ d ∈ ds, d < b)
    (he : ∀ e ∈ es, e < b) : value b ds < value b es ↔ ds < es := by
  induction ds generalizing es with
  | nil =>
    have hes : es = [] := List.length_eq_zero_iff.mp hlen.symm
    subst hes
    simp
  | cons d ds ih =>
    cases es with
    | nil => simp at hlen
    | cons e es =>
      have hlen' : ds.length = es.length := by simpa using hlen
      have hds : ∀ x ∈ ds, x < b := fun x hx => hd x (List.mem_cons_of_mem _ hx)
      have hes : ∀ x ∈ es, x < b := fun x hx => he x (List.mem_cons_of_mem _ hx)
      have hv := value_lt_pow b ds hds
      have hw := value_lt_pow b es hes
      rw [value_cons, value_cons, List.cons_lt_cons_iff, hlen', ← ih es hlen' hds hes]
      rw [hlen'] at hv
      rcases Nat.lt_trichotomy d e with hlt | rfl | hgt
      · have hmul : (d + 1) * b ^ es.length ≤ e * b ^ es.length := Nat.mul_le_mul_right _ hlt
        have hexp : (d + 1) * b ^ es.length = d * b ^ es.length + b ^ es.length := by ring
        refine iff_of_true (by omega) (Or.inl hlt)
      · simp
      · have hmul : (e + 1) * b ^ es.length ≤ d * b ^ es.length := Nat.mul_le_mul_right _ hgt
        have hexp : (e + 1) * b ^ es.length = e * b ^ es.length + b ^ es.length := by ring
        refine iff_of_false (by omega) ?_
        intro hor
        rcases hor with h | ⟨rfl, _⟩
        · omega
        · omega

theorem digits_length (k v : ℕ) : (digits b k v).length = k := by
  induction k generalizing v with
  | zero => rfl
  | succ k ih => rw [digits, List.length_append, ih, List.length_singleton]

theorem digits_lt (hb : 0 < b) (k v : ℕ) : ∀ d ∈ digits b k v, d < b := by
  induction k generalizing v with
  | zero => simp [digits]
  | succ k ih =>
    intro d hd
    rcases List.mem_append.mp hd with hd | hd
    · exact ih (v / b) d hd
    · rw [List.mem_singleton.mp hd]
      exact Nat.mod_lt v hb

theorem value_digits (k v : ℕ) : value b (digits b k v) = v % b ^ k := by
  induction k generalizing v with
  | zero => simp [digits, value, Nat.mod_one]
  | succ k ih =>
    rw [digits, value_append, ih, List.length_singleton, pow_one]
    have hsingle : value b [v % b] = v % b := by simp [value]
    rw [hsingle, pow_succ, Nat.mul_comm (b ^ k) b, Nat.mod_mul]
    ring

theorem value_take (ds : List ℕ) (k : ℕ) (h : ∀ d ∈ ds, d < b) :
    value b (ds.take k) = value b ds / b ^ (ds.length - k) := by
  have hlt := value_lt_pow b (ds.drop k) fun d hd => h d (List.mem_of_mem_drop hd)
  rw [List.length_drop] at hlt
  have happ := value_append b (ds.take k) (ds.drop k)
  rw [List.take_append_drop, List.length_drop] at happ
  rw [happ, Nat.add_comm, Nat.add_mul_div_right _ _ (by omega), Nat.div_eq_of_lt hlt, Nat.zero_add]

end Positional
