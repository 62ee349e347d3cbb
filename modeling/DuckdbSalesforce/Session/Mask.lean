import DuckdbSalesforce.Json.Reader
import DuckdbSalesforce.Library.Masking

/-!
# Redaction (`RedactSecrets`, salesforce_mask.hpp)

One secret after another is searched for from the front, and what is found is
replaced by the mask. The loop is given twice, the second time over characters
that keep their place in the input.
-/

namespace DuckdbSalesforce
open Masking

def kMask : Text := "***REDACTED***".toList

/-- The `while` loop, `pos` being where the search goes on. -/
def redactLoop (s : Text) : ℕ → Text → ℕ → Text
  | 0, text, _ => text
  | rounds + 1, text, pos =>
    match findText s (text.drop pos) with
    | none => text
    | some k =>
      redactLoop s rounds (text.take (pos + k) ++ kMask ++ text.drop (pos + k + s.length))
        (pos + k + kMask.length)

/-- Every round leaves less of the text behind `pos`. -/
def redactSecret (text s : Text) : Text :=
  if s = [] then text else redactLoop s (text.length + 1) text 0

def redactSecrets (text : Text) (secrets : List Text) : Text := secrets.foldl redactSecret text

def traceLoop (s : Text) : ℕ → List (Cell Char) → ℕ → List (Cell Char)
  | 0, t, _ => t
  | rounds + 1, t, pos =>
    match findText s (values (t.drop pos)) with
    | none => t
    | some k =>
      traceLoop s rounds (t.take (pos + k) ++ maskCells kMask ++ t.drop (pos + k + s.length))
        (pos + k + kMask.length)

def traceSecret (t : List (Cell Char)) (s : Text) : List (Cell Char) :=
  if s = [] then t else traceLoop s (t.length + 1) t 0

def traceSecrets (text : Text) (secrets : List Text) : List (Cell Char) :=
  secrets.foldl traceSecret (cellsFrom 0 text)

/-- The places of the input whose characters have not been replaced. -/
def survivors (text : Text) (secrets : List Text) : List ℕ := origins (traceSecrets text secrets)

structure Redacted (text : Text) (secrets : List Text) : Prop where
  absent : ∀ s ∈ secrets, s ≠ [] → ¬ s <:+: redactSecrets text secrets
  replaced : ∀ p, InWord text secrets p → p ∉ survivors text secrets

/-! ### The loop and its trace -/

theorem traceLoop_text (s : Text) (rounds : ℕ) (t : List (Cell Char)) (pos : ℕ) :
    values (traceLoop s rounds t pos) = redactLoop s rounds (values t) pos := by
  induction rounds generalizing t pos with
  | zero => rfl
  | succ rounds ih =>
    have hdrop : ∀ n, (values t).drop n = values (t.drop n) := fun n => List.map_drop.symm
    have htake : ∀ n, (values t).take n = values (t.take n) := fun n => List.map_take.symm
    rw [traceLoop, redactLoop, hdrop]
    cases findText s (values (t.drop pos)) with
    | none => rfl
    | some k =>
      show values (traceLoop s rounds _ _) = redactLoop s rounds _ _
      rw [ih, values_append, values_append, values_mask, hdrop, htake]

theorem traceSecrets_text (text : Text) (secrets : List Text) :
    values (traceSecrets text secrets) = redactSecrets text secrets := by
  induction secrets using List.reverseRecOn with
  | nil => exact values_cellsFrom 0 text
  | append_singleton done s ih =>
    rw [traceSecrets, redactSecrets, List.foldl_append, List.foldl_append]
    show values (traceSecret (traceSecrets text done) s) = redactSecret (redactSecrets text done) s
    rw [← ih, traceSecret, redactSecret]
    by_cases hs : s = []
    · rw [if_pos hs, if_pos hs]
    · have hlen : (values (traceSecrets text done)).length = (traceSecrets text done).length :=
        List.length_map _
      rw [if_neg hs, if_neg hs, traceLoop_text, hlen]

theorem findText_nowhere (needle t : Text) (hne : needle ≠ []) (h : findText needle t = none) :
    ∀ j, ¬ needle <+: t.drop j := by
  induction t with
  | nil =>
    intro j hj
    rw [List.drop_nil] at hj
    exact hne (List.prefix_nil.mp hj)
  | cons c t ih =>
    rw [findText] at h
    by_cases hhere : needle.isPrefixOf (c :: t) = true
    · rw [if_pos hhere] at h
      cases h
    · rw [if_neg hhere, Option.map_eq_none_iff] at h
      intro j
      cases j with
      | zero => rwa [List.isPrefixOf_iff_prefix] at hhere
      | succ j => exact ih h j

/-- Up to the first occurrence the text stays, and behind it the search goes on. -/
theorem maskAll_found (s : Text) (hs : s ≠ []) (t : List (Cell Char)) (k : ℕ)
    (h : findText s (values t) = some k) :
    k + s.length ≤ t.length ∧ maskAll kMask s 0 t =
      t.take k ++ (maskCells kMask ++ maskAll kMask s 0 (t.drop (k + s.length))) := by
  obtain ⟨hhere, hfirst⟩ := (findText_some s (values t) k hs).mp h
  have hrest : s <+: values (t.drop k) := by
    rw [values, List.map_drop]
    exact hhere
  obtain ⟨m, b, hm, hvalues⟩ := prefix_values _ s hrest
  have hmlen : m.length = s.length := by
    rw [← hvalues]
    exact (List.length_map _).symm
  have hsplit : t.take k ++ (m ++ b) = t := by rw [← hm, List.take_append_drop]
  have hlen := congrArg List.length hm
  rw [List.length_drop, List.length_append] at hlen
  have hpos := List.length_pos_of_ne_nil hs
  have hb : t.drop (k + s.length) = b := by rw [← List.drop_drop, hm, ← hmlen, List.drop_left]
  refine ⟨by omega, ?_⟩
  rw [hb, ← maskAll_here kMask s hs m b hvalues, ← maskAll_over, hsplit]
  intro j hj hearlier
  rw [List.length_take] at hj
  rw [hsplit, values, List.map_drop] at hearlier
  exact hfirst j (by omega) hearlier

/-- The loop masks all that `find` finds. -/
theorem traceLoop_eq (s : Text) (hs : s ≠ []) (rounds : ℕ) (t : List (Cell Char)) (pos : ℕ)
    (hrounds : t.length < pos + rounds) :
    traceLoop s rounds t pos = t.take pos ++ maskAll kMask s 0 (t.drop pos) := by
  induction rounds generalizing t pos with
  | zero =>
    rw [traceLoop, List.take_of_length_le (by omega), List.drop_eq_nil_of_le (by omega), maskAll,
      List.append_nil]
  | succ rounds ih =>
    rw [traceLoop]
    cases hfind : findText s (values (t.drop pos)) with
    | none =>
      have habsent : ¬ s <:+: values (t.drop pos) := by
        intro hoccurs
        obtain ⟨a, b, hab⟩ := hoccurs
        refine findText_nowhere s _ hs hfind a.length ?_
        rw [← hab, List.append_assoc, List.drop_left]
        exact List.prefix_append s b
      show t = _
      rw [maskAll_absent kMask s _ habsent, List.take_append_drop]
    | some k =>
      obtain ⟨hlen, hmask⟩ := maskAll_found s hs (t.drop pos) k hfind
      have hpos := List.length_pos_of_ne_nil hs
      rw [List.length_drop] at hlen
      have hfront : (t.take (pos + k) ++ maskCells kMask).length = pos + k + kMask.length := by
        rw [List.length_append, List.length_take, maskCells, List.length_map]
        omega
      show traceLoop s rounds _ _ = _
      rw [ih, ← hfront, List.take_left, List.drop_left, hmask, List.drop_drop, List.take_add]
      · simp only [List.append_assoc, Nat.add_assoc]
      · rw [List.length_append, hfront, List.length_drop]
        omega

theorem traceSecret_eq (t : List (Cell Char)) (s : Text) :
    traceSecret t s = maskWord kMask t s := by
  unfold traceSecret maskWord
  by_cases hs : s = []
  · rw [if_pos hs, if_pos hs]
  · rw [if_neg hs, if_neg hs, traceLoop_eq s hs _ t 0 (by omega), List.take_zero, List.nil_append,
      List.drop_zero]

theorem traceSecrets_eq (text : Text) (secrets : List Text) :
    traceSecrets text secrets = maskWords kMask secrets (cellsFrom 0 text) := by
  unfold traceSecrets maskWords
  rw [funext fun t => funext fun s => traceSecret_eq t s]

theorem redacted_iff_masked (text : Text) (secrets : List Text) :
    Redacted text secrets ↔ Masked kMask text secrets := by
  have htrace := traceSecrets_eq text secrets
  have htext := traceSecrets_text text secrets
  rw [htrace] at htext
  constructor
  · intro h
    refine ⟨?_, ?_⟩
    · rw [htext]
      exact h.absent
    · rw [← htrace]
      exact h.replaced
  · intro h
    refine ⟨?_, ?_⟩
    · rw [← htext]
      exact h.absent
    · rw [survivors, htrace]
      exact h.replaced

/-! ### When nothing of the secrets is left -/

/-- The occurrences, taken in the order of the list and for one secret from left
to right where none of their characters is taken yet, cover all the others; and
no secret can be read at a place that includes a character of a mask, neither
when its turn comes nor in the end. -/
structure Maskable (text : Text) (secrets : List Text) : Prop where
  covered : Covered text secrets
  way : ¬ ReadsOnTheWay kMask text secrets
  last : ∀ s ∈ secrets, ¬ ReadsMask s (view kMask (takeWords text secrets))

theorem apart_way (text : Text) (secrets : List Text)
    (h : ∀ s ∈ secrets, s ≠ [] → ¬ Overlap s kMask) : ¬ ReadsOnTheWay kMask text secrets := by
  intro hway
  obtain ⟨done, s, todo, hsecrets, hreads⟩ := hway
  have hs : s ∈ secrets := by
    rw [hsecrets]
    exact List.mem_append_right _ List.mem_cons_self
  exact apart_reads kMask text secrets done h s hs hreads

theorem maskable_apart (text : Text) (secrets : List Text)
    (h : ∀ s ∈ secrets, s ≠ [] → ¬ Overlap s kMask) :
    Maskable text secrets ↔ Covered text secrets := by
  refine ⟨Maskable.covered, ?_⟩
  intro hcovered
  exact ⟨hcovered, apart_way text secrets h, apart_reads kMask text secrets secrets h⟩

/-- Only where a mask was itself searched, and replaced in part, can the outcome
be right otherwise. For secrets that do not overlap the mask the coverage
decides. -/
theorem redaction_iff (text : Text) (secrets : List Text) :
    (Maskable text secrets → Redacted text secrets) ∧
      (Redacted text secrets → Maskable text secrets ∨ ReadsOnTheWay kMask text secrets) ∧
      ((∀ s ∈ secrets, s ≠ [] → ¬ Overlap s kMask) →
        (Redacted text secrets ↔ Covered text secrets)) ∧
      ((∃ s ∈ secrets, s ≠ [] ∧ s <:+: text) → (∃ s ∈ secrets, s ≠ [] ∧ s <:+: kMask) →
        ¬ Redacted text secrets) := by
  have hmask : kMask ≠ [] := by decide
  have hiff := masked_iff kMask text hmask secrets
  rw [redacted_iff_masked]
  have henough : Maskable text secrets → Masked kMask text secrets :=
    fun h => (hiff h.way).mpr ⟨h.covered, h.last⟩
  refine ⟨henough, ?_, ?_, ?_⟩
  · intro h
    by_cases hway : ReadsOnTheWay kMask text secrets
    · exact Or.inr hway
    · obtain ⟨hcovered, hlast⟩ := (hiff hway).mp h
      exact Or.inl ⟨hcovered, hway, hlast⟩
  · intro hapart
    constructor
    · intro h
      exact ((hiff (apart_way text secrets hapart)).mp h).1
    · intro hcovered
      exact henough ((maskable_apart text secrets hapart).mpr hcovered)
  · intro hsome hmasked h
    obtain ⟨s, hs, hne, hinside⟩ := hmasked
    exact masked_mask kMask text secrets h hsome s hs hne hinside

/-- The second secret begins with the first, and its tail stays. -/
theorem tail_left :
    ¬ Redacted "key=hunter22".toList ["hunter".toList, "hunter22".toList] := by
  intro h
  have hplace : InWord "key=hunter22".toList ["hunter".toList, "hunter22".toList] 10 :=
    ⟨"hunter22".toList, by decide, 4, by decide, by decide, by decide⟩
  exact h.replaced 10 hplace (by decide)

end DuckdbSalesforce
