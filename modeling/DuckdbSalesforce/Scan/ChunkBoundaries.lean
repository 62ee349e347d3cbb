import DuckdbSalesforce.Scan.IdChunks

/-!
# The boundaries between the chunks

`NumToId` inverts `IdToNum`, so that an interpolated boundary lies between the
two ends as a number and shares with them what they have in common.
-/

namespace DuckdbSalesforce
open Positional

/-- What the service asks of a boundary between two chunks. -/
structure ValidBoundary (minId maxId x : Text) : Prop where
  alnum : x.all isAlnum = true
  length : x.length = minId.length
  shared : ∀ p, p <+: minId.take kIdPrec → p <+: maxId.take kIdPrec → p <+: x
  below : x < maxId

/-- The first characters of a long Id are the first digits of its number. -/
theorem idToNum_lead (id : Text) (j : ℕ) (hlong : kIdPrec ≤ id.length) (hj : j ≤ kIdPrec) :
    value 62 (idDigitValues (id.take j)) = idToNum id / 62 ^ (kIdPrec - j) := by
  have hplaces : kIdPrec - id.length = 0 := by omega
  have htake : idDigitValues (id.take j) = (idDigitValues (id.take kIdPrec)).take j := by
    rw [idDigitValues, idDigitValues, ← List.map_take, List.take_take, Nat.min_eq_left hj]
  have hlen : (idDigitValues (id.take kIdPrec)).length = kIdPrec := by
    rw [idDigitValues, List.length_map, List.length_take, Nat.min_eq_left hlong]
  rw [htake, value_take 62 _ j (idDigitValues_lt _), hlen, idToNum_take, hplaces, pow_zero,
    Nat.mul_one]

theorem idToNum_numToId (v len : ℕ) (hv : v < 62 ^ kIdPrec) (hlong : kIdPrec ≤ len) :
    idToNum (numToId v len) = v := by
  have hplaces : kIdPrec - len = 0 := by omega
  rw [idToNum_take, numToId_take v len hv, numToId_length, hplaces, pow_zero, Nat.div_one,
    Nat.mul_one]

/-- Digits that two Ids share at the front are those of every Id between them. -/
theorem take_between (a x b : Text) (j : ℕ) (ha : a.all isAlnum = true) (hx : x.all isAlnum = true)
    (halong : kIdPrec ≤ a.length) (hxlong : kIdPrec ≤ x.length) (hblong : kIdPrec ≤ b.length)
    (hj : j ≤ kIdPrec) (hax : idToNum a ≤ idToNum x) (hxb : idToNum x ≤ idToNum b)
    (hab : a.take j = b.take j) : x.take j = a.take j := by
  have hlow : idToNum a / 62 ^ (kIdPrec - j) ≤ idToNum x / 62 ^ (kIdPrec - j) :=
    Nat.div_le_div_right hax
  have hhigh : idToNum x / 62 ^ (kIdPrec - j) ≤ idToNum b / 62 ^ (kIdPrec - j) :=
    Nat.div_le_div_right hxb
  have hends : idToNum a / 62 ^ (kIdPrec - j) = idToNum b / 62 ^ (kIdPrec - j) := by
    rw [← idToNum_lead a j halong hj, ← idToNum_lead b j hblong hj, hab]
  refine eq_of_value_eq _ _ ?_ (take_alnum x j hx) (take_alnum a j ha) ?_
  · rw [List.length_take, List.length_take]
    omega
  · rw [idToNum_lead x j hxlong hj, idToNum_lead a j halong hj]
    omega

theorem prefix_between (a x b p : Text) (ha : a.all isAlnum = true) (hx : x.all isAlnum = true)
    (halong : kIdPrec ≤ a.length) (hxlong : kIdPrec ≤ x.length) (hblong : kIdPrec ≤ b.length)
    (hax : idToNum a ≤ idToNum x) (hxb : idToNum x ≤ idToNum b) (hpa : p <+: a.take kIdPrec)
    (hpb : p <+: b.take kIdPrec) : p <+: x := by
  have hlen : p.length ≤ kIdPrec := by
    have hle := hpa.length_le
    rw [List.length_take] at hle
    omega
  have hfront : ∀ t : Text, p <+: t.take kIdPrec → t.take p.length = p := by
    intro t ht
    exact (List.prefix_iff_eq_take.mp (ht.trans (List.take_prefix kIdPrec t))).symm
  have htake := take_between a x b p.length ha hx halong hxlong hblong hlen hax hxb
    (by rw [hfront a hpa, hfront b hpb])
  rw [hfront a hpa] at htake
  rw [List.prefix_iff_eq_take, htake]

theorem idBoundary_between (a b : Text) (n i : ℕ) (hlen : a.length = b.length)
    (hlong : kIdPrec ≤ a.length) (ha : a.all isAlnum = true) (hb : b.all isAlnum = true)
    (h : a < b) (hi : i < n) (hn : n ≤ 8) :
    idToNum a ≤ idToNum (idBoundary a b n i) ∧ idToNum (idBoundary a b n i) ≤ idToNum b := by
  have hmono := idToNum_mono a b hlen ha hb h
  have htop := idToNum_lt b
  have hpart : (idToNum b - idToNum a) * i / n ≤ idToNum b - idToNum a := by
    apply Nat.div_le_of_le_mul
    rw [Nat.mul_comm n]
    exact Nat.mul_le_mul_left _ (by omega)
  have hup : idToNum a + (idToNum b - idToNum a) * i / n ≤ idToNum b := by omega
  unfold idBoundary
  rw [interpolate_eq _ _ n i hmono htop hi hn, if_pos (by omega),
    idToNum_numToId _ _ (lt_of_le_of_lt hup htop) hlong]
  exact ⟨Nat.le_add_right _ _, hup⟩

theorem idBoundary_valid (a b : Text) (n i : ℕ) (hlen : a.length = b.length)
    (hlong : kIdPrec ≤ a.length) (ha : a.all isAlnum = true) (hb : b.all isAlnum = true)
    (h : a < b) (hi : i < n) (hn : n ≤ 8) : ValidBoundary a b (idBoundary a b n i) := by
  have hsize : (idBoundary a b n i).length = a.length := by
    rw [idBoundary, numToId_length, if_pos (by omega)]
  have halnum : (idBoundary a b n i).all isAlnum = true := numToId_alnum _ _
  obtain ⟨hlow, hhigh⟩ := idBoundary_between a b n i hlen hlong ha hb h hi hn
  refine ⟨halnum, hsize, ?_, idBoundary_lt a b n i hlen ha hb h hi hn⟩
  intro p hpa hpb
  exact prefix_between a _ b p ha halnum hlong (by omega) (by omega) hlow hhigh hpa hpb

theorem interior_boundaries_valid (a b : Text) (n : ℕ) (hlen : a.length = b.length)
    (hlong : kIdPrec ≤ a.length) (ha : a.all isAlnum = true) (hb : b.all isAlnum = true)
    (h : a < b) (hn : 2 ≤ n) (hn8 : n ≤ 8) :
    ∃ inner, idBoundaries a b n = a :: inner ++ [b] ∧ inner.length = n - 1 ∧
      (∀ x ∈ inner, ValidBoundary a b x) ∧ inner.Pairwise (· ≤ ·) := by
  refine ⟨(List.range' 1 (n - 1)).map (idBoundary a b n), rfl, ?_, ?_, ?_⟩
  · rw [List.length_map, List.length_range']
  · intro x hx
    obtain ⟨i, hi, rfl⟩ := List.mem_map.mp hx
    rw [List.mem_range'_1] at hi
    exact idBoundary_valid a b n i hlen hlong ha hb h (by omega) hn8
  · rw [List.pairwise_map]
    refine List.Pairwise.imp_of_mem ?_ List.pairwise_lt_range'
    intro i j _ hj hij
    rw [List.mem_range'_1] at hj
    exact idBoundary_mono a b n i j hlen ha hb h (by omega) (by omega) hn8

/-- The Ids of an account page, one key prefix. -/
theorem account_boundaries :
    ∃ inner, idBoundaries "001000000000000".toList "001zzzzzzzzzzzz".toList 3 =
        "001000000000000".toList :: inner ++ ["001zzzzzzzzzzzz".toList] ∧ inner.length = 2 ∧
      (∀ x ∈ inner, ValidBoundary "001000000000000".toList "001zzzzzzzzzzzz".toList x) ∧
      inner.Pairwise (· ≤ ·) :=
  interior_boundaries_valid "001000000000000".toList "001zzzzzzzzzzzz".toList 3 (by decide)
    (by decide) (by decide) (by decide) (by decide) (by decide) (by decide)

end DuckdbSalesforce
