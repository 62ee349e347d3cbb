import DuckdbSalesforce.Scan.Transports

/-!
# The Id chunks are a partition

Every Id between the two ends satisfies the range of exactly one clause of
`BuildIdRangeWheres`, and every clause reads as the pushed WHERE joined with
its range.
-/

namespace DuckdbSalesforce
open ThreeValued CondGrammar Positional

theorem exists_unique_index {α : Type} (p : α → Prop) (l : List α) (hex : ∃ r ∈ l, p r)
    (hdisjoint : l.Pairwise fun r s => ¬ (p r ∧ p s)) :
    ∃! i : ℕ, ∃ r, l[i]? = some r ∧ p r := by
  obtain ⟨r, hr, hp⟩ := hex
  obtain ⟨i, hi⟩ := List.mem_iff_getElem?.mp hr
  rw [List.pairwise_iff_getElem] at hdisjoint
  refine ⟨i, ⟨r, hi, hp⟩, ?_⟩
  intro j hj
  obtain ⟨s, hs, hq⟩ := hj
  obtain ⟨hil, hir⟩ := List.getElem?_eq_some_iff.mp hi
  obtain ⟨hjl, hjs⟩ := List.getElem?_eq_some_iff.mp hs
  rcases lt_trichotomy j i with hlt | heq | hgt
  · exact absurd ⟨hjs ▸ hq, hir ▸ hp⟩ (hdisjoint j i hjl hil hlt)
  · exact heq
  · exact absurd ⟨hir ▸ hp, hjs ▸ hq⟩ (hdisjoint i j hil hjl hgt)

/-- No `uint64_t` operation of the interpolation wraps. -/
structure NoWrap (minId maxId : Text) (n : ℕ) : Prop where
  low : idToNum minId = value 62 (leadingDigits minId)
  high : idToNum maxId = value 62 (leadingDigits maxId)
  difference : idToNum minId ≤ idToNum maxId
  product : ∀ i < n, (idToNum maxId - idToNum minId) * i < 2 ^ 64
  sum : ∀ i < n, idToNum minId + (idToNum maxId - idToNum minId) * i / n < 2 ^ 64
  boundary : ∀ i < n, idBoundary minId maxId n i =
    numToId (idToNum minId + (idToNum maxId - idToNum minId) * i / n) minId.length

theorem interpolation_noWrap (a b : Text) (n : ℕ) (hlen : a.length = b.length)
    (ha : a.all isAlnum = true) (hb : b.all isAlnum = true) (h : a < b) (hn : n ≤ 8) :
    NoWrap a b n := by
  have hmono := idToNum_mono a b hlen ha hb h
  have htop := idToNum_lt b
  have hpow : 62 ^ 10 * 8 < 2 ^ 64 := by decide
  have hproduct : ∀ i < n, (idToNum b - idToNum a) * i ≤ 62 ^ 10 * 7 := by
    intro i hi
    exact Nat.mul_le_mul (by omega) (by omega)
  refine ⟨idToNum_value a, idToNum_value b, hmono, ?_, ?_, ?_⟩
  · intro i hi
    have hle := hproduct i hi
    omega
  · intro i hi
    have hle := hproduct i hi
    have hquot := Nat.div_le_self ((idToNum b - idToNum a) * i) n
    omega
  · intro i hi
    rw [idBoundary, interpolate_eq _ _ n i hmono htop hi hn, if_pos (by omega)]

/-- A clause is the pushed WHERE as a unit of its own, joined with a range. -/
structure ReadsAs (pushed : Text) (g : IdRange) (clause : Text) : Prop where
  text : clause = if pushed = [] then g.text
    else "(".toList ++ pushed ++ ") AND (".toList ++ g.text ++ ")".toList
  condition : ∃ R, parseCondition g.text = some R ∧
    (∀ truth x, ComparesId truth x → (R.eval truth = .tt ↔ g.contains x)) ∧
    (pushed = [] → parseCondition clause = some R) ∧
    ∀ P, parseCondition pushed = some P → parseCondition clause = some (.all [P, R])

theorem combineRange_reads (pushed : Text) (g : IdRange) (hlo : g.lo.all isAlnum = true)
    (hhi : g.hi.all isAlnum = true) : ReadsAs pushed g (combineRange pushed g.text) := by
  have hrange := idRange_condition g hlo hhi
  refine ⟨rfl, _, hrange, fun truth x hx => range_eval truth x g hx, ?_, ?_⟩
  · intro hnone
    rw [combineRange, if_pos hnone]
    exact hrange
  · intro P hP
    rw [combineRange, if_neg (whereReads_ne_nil pushed P hP)]
    exact parse_units pushed g.text P _ hP hrange

theorem clauses_read (pushed : Text) (ranges : List IdRange)
    (h : ∀ g ∈ ranges, g.lo.all isAlnum = true ∧ g.hi.all isAlnum = true) :
    List.Forall₂ (ReadsAs pushed) ranges (ranges.map fun g => combineRange pushed g.text) := by
  induction ranges with
  | nil => exact .nil
  | cons g ranges ih =>
    obtain ⟨hlo, hhi⟩ := h g (List.mem_cons_self ..)
    exact .cons (combineRange_reads pushed g hlo hhi)
      (ih fun g' hg' => h g' (List.mem_cons_of_mem _ hg'))

theorem id_chunks_partition (pushed a b : Text) (n : ℕ) (hlen : a.length = b.length)
    (ha : a.all isAlnum = true) (hb : b.all isAlnum = true) (h : a < b) (hn : 2 ≤ n)
    (hn8 : n ≤ 8) :
    (∀ x, a ≤ x → x ≤ b → ∃! i : ℕ, ∃ g, (idRanges a b n)[i]? = some g ∧ g.contains x) ∧
      List.Forall₂ (ReadsAs pushed) (idRanges a b n) (buildIdRangeWheres pushed a b n) ∧
      NoWrap a b n := by
  refine ⟨?_, ?_, interpolation_noWrap a b n hlen ha hb h hn8⟩
  · intro x hax hxb
    have hcover := idRanges_cover a b n hlen ha hb h (by omega) hn8 x hax hxb
    have hdisjoint := idRanges_disjoint a b n hlen ha hb h (by omega) hn8
    exact exists_unique_index (fun g => g.contains x) _ hcover (hdisjoint.imp fun hrs => hrs x)
  · exact clauses_read pushed (idRanges a b n) (idRanges_alnum a b n ha hb)

/-- The two Ids differ after the characters that are interpolated, so that all
inner boundaries are the same one. -/
theorem close_ids_partition :
    (idRanges "00100000000000B".toList "00100000000000K".toList 8).length = 2 ∧
      ∃! i : ℕ, ∃ g, (idRanges "00100000000000B".toList "00100000000000K".toList 8)[i]? = some g ∧
        g.contains "00100000000000C".toList := by
  have h := id_chunks_partition "Industry = 'Tech'".toList "00100000000000B".toList
    "00100000000000K".toList 8 (by decide) (by decide) (by decide) (by decide) (by decide)
    (by decide)
  exact ⟨by decide, h.1 _ (by decide) (by decide)⟩

end DuckdbSalesforce
