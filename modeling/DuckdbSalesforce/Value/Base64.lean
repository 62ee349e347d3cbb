import Mathlib
import DuckdbSalesforce.Bulk.CreateBody
import DuckdbSalesforce.DeleteSync.Timestamps
import DuckdbSalesforce.Json.Decode
import DuckdbSalesforce.Library.Base64Text

/-!
# Blob values (`DecodeBase64`, salesforce_value.cpp)

What the decoder makes of an encoding, what it takes, and how far its `int`
accumulator, which keeps every sextet, is the number it stands for.
-/

namespace DuckdbSalesforce
open Base64Text

/-! ### What the loop reads -/

def knownChar (c : Char) : Bool := isBase64Skipped c || alphabet.contains c

theorem base64Alphabet_eq (c : Char) : base64Alphabet.idxOf? c = value c := rfl

theorem skipped_value (c : Char) (h : isBase64Skipped c = true) : value c = none := by
  have hchars : c = '=' ∨ c = '\n' ∨ c = '\r' ∨ c = ' ' := by
    simpa [isBase64Skipped, or_assoc] using h
  rw [value_none]
  rcases hchars with rfl | rfl | rfl | rfl <;> decide +kernel

/-- The cases of a round. -/
theorem base64Loop_cons (s : Base64State) (c : Char) (t : Text) :
    (value c = none ∧ isBase64Skipped c = true ∧ base64Loop s (c :: t) = base64Loop s t) ∨
    (value c = none ∧ knownChar c = false ∧ base64Loop s (c :: t) = none) ∨
    (∃ d < 64, value c = some d ∧ isBase64Skipped c = false ∧ knownChar c = true ∧
      base64Loop s (c :: t) = base64Loop (base64Step s d) t) := by
  rw [base64Loop, base64Alphabet_eq]
  cases hskip : isBase64Skipped c with
  | true => exact Or.inl ⟨skipped_value c hskip, rfl, rfl⟩
  | false =>
    right
    cases hvalue : value c with
    | none =>
      have hc : c ∉ alphabet := (value_none c).mp hvalue
      exact Or.inl ⟨rfl, by simp [knownChar, hskip, hc], rfl⟩
    | some d =>
      have hc : c ∈ alphabet := (value_some c).mp ⟨d, hvalue⟩
      exact Or.inr ⟨d, value_lt c d hvalue, rfl, rfl, by simp [knownChar, hc], rfl⟩

/-- The loop ends exactly when every character is known, having pushed their
sextets. -/
theorem base64Loop_eq (s : Base64State) (t : Text) :
    base64Loop s t =
      if t.all knownChar then some ((t.filterMap value).foldl base64Step s) else none := by
  induction t generalizing s with
  | nil => rfl
  | cons c t ih =>
    rcases base64Loop_cons s c t with ⟨hvalue, hskip, hloop⟩ | ⟨hvalue, hknown, hloop⟩ |
      ⟨d, -, hvalue, -, hknown, hloop⟩
    · have hknown : knownChar c = true := by simp [knownChar, hskip]
      rw [hloop, ih, List.all_cons, hknown, Bool.true_and, List.filterMap_cons, hvalue]
    · rw [hloop, List.all_cons, hknown, Bool.false_and, if_neg Bool.false_ne_true]
    · rw [hloop, ih, List.all_cons, hknown, Bool.true_and, List.filterMap_cons, hvalue]
      rfl

theorem decodeBase64_eq (t : Text) :
    decodeBase64 t = if t.all knownChar then
      some ((t.filterMap value).foldl base64Step base64Start).out else none := by
  rw [decodeBase64, base64Loop_eq]
  split <;> rfl

/-! ### The accumulator modulo 2^32 -/

def byteChar (b : UInt8) : Char := Char.ofNat b.toNat

def shiftIn (v : BitVec 32) (d : ℕ) : BitVec 32 := (v <<< 6) + BitVec.ofNat 32 d

theorem shiftIn_toNat (v : BitVec 32) (d : ℕ) :
    (shiftIn v d).toNat = (v.toNat * 64 + d) % 4294967296 := by
  rw [shiftIn, BitVec.toNat_add, BitVec.toNat_shiftLeft, BitVec.toNat_ofNat, Nat.shiftLeft_eq]
  omega

/-- Only the bits from `n` to `n + 7` make the byte. -/
theorem emitted_toNat (v : BitVec 32) (n : ℕ) (hn : n + 8 ≤ 32) :
    ((v.sshiftRight n) &&& 255#32).toNat = v.toNat / 2 ^ n % 256 := by
  have hbits : (v.sshiftRight n) &&& 255#32 = (v >>> n) &&& 255#32 := by
    apply BitVec.eq_of_getLsbD_eq
    intro i hi
    rw [BitVec.getLsbD_and, BitVec.getLsbD_and, BitVec.getLsbD_sshiftRight,
      BitVec.getLsbD_ushiftRight]
    by_cases hlow : i < 8
    · have hin : n + i < 32 := by omega
      have hi' : ¬ 32 ≤ i := by omega
      simp [hin, hi']
    · have hmask : (255#32).getLsbD i = false := by
        rw [BitVec.getLsbD_ofNat, Nat.testBit_lt_two_pow, Bool.and_false]
        exact lt_of_lt_of_le (by decide : 255 < 2 ^ 8) (Nat.pow_le_pow_right (by decide) (by omega))
      rw [hmask, Bool.and_false, Bool.and_false]
  rw [hbits, BitVec.toNat_and, BitVec.toNat_ushiftRight, Nat.shiftRight_eq_div_pow]
  exact Nat.and_two_pow_sub_one_eq_mod _ 8

theorem base64Step_emit (out : Text) (v : BitVec 32) (d n : ℕ) (hn : n ≤ 4) :
    base64Step ⟨out, v, (n : ℤ) - 6⟩ d =
      ⟨out ++ [Char.ofNat ((v.toNat * 64 + d) % 4294967296 / 2 ^ n % 256)], shiftIn v d,
        (n : ℤ) - 8⟩ := by
  have hbits : (n : ℤ) - 6 + 6 = n := by omega
  have hemit : (0 : ℤ) ≤ n := Int.natCast_nonneg n
  unfold base64Step
  simp only [hbits, if_pos hemit, Int.toNat_natCast]
  rw [← shiftIn, emitted_toNat _ n (by omega), shiftIn_toNat]

/-- The first byte of a group, whatever the accumulator held; the bits that
follow it are kept. -/
theorem push_first (out : Text) (v : BitVec 32) (a : UInt8) (x : ℕ) (hx : x < 16) :
    ∃ v', base64Step (base64Step ⟨out, v, -8⟩ (a.toNat / 4)) (a.toNat % 4 * 16 + x) =
      ⟨out ++ [byteChar a], v', -4⟩ ∧ v'.toNat % 16 = x := by
  have ha := a.toNat_lt
  have hemit := base64Step_emit out (shiftIn v (a.toNat / 4)) (a.toNat % 4 * 16 + x) 4 (by decide)
  have hbyte : ((shiftIn v (a.toNat / 4)).toNat * 64 + (a.toNat % 4 * 16 + x)) % 4294967296 /
      2 ^ 4 % 256 = a.toNat := by
    rw [shiftIn_toNat]
    omega
  refine ⟨shiftIn (shiftIn v (a.toNat / 4)) (a.toNat % 4 * 16 + x), ?_, ?_⟩
  · rw [hbyte] at hemit
    exact hemit
  · rw [shiftIn_toNat, shiftIn_toNat]
    omega

theorem push_second (out : Text) (v : BitVec 32) (b : UInt8) (y : ℕ) (hy : y < 4)
    (hv : v.toNat % 16 = b.toNat / 16) :
    ∃ v', base64Step ⟨out, v, -4⟩ (b.toNat % 16 * 4 + y) = ⟨out ++ [byteChar b], v', -6⟩ ∧
      v'.toNat % 4 = y := by
  have hb := b.toNat_lt
  have hemit := base64Step_emit out v (b.toNat % 16 * 4 + y) 2 (by decide)
  have hbyte : (v.toNat * 64 + (b.toNat % 16 * 4 + y)) % 4294967296 / 2 ^ 2 % 256 = b.toNat := by
    omega
  refine ⟨shiftIn v (b.toNat % 16 * 4 + y), ?_, ?_⟩
  · rw [hbyte] at hemit
    exact hemit
  · rw [shiftIn_toNat]
    omega

theorem push_third (out : Text) (v : BitVec 32) (c : UInt8) (hv : v.toNat % 4 = c.toNat / 64) :
    ∃ v', base64Step ⟨out, v, -6⟩ (c.toNat % 64) = ⟨out ++ [byteChar c], v', -8⟩ := by
  have hc := c.toNat_lt
  have hemit := base64Step_emit out v (c.toNat % 64) 0 (by decide)
  have hbyte : (v.toNat * 64 + c.toNat % 64) % 4294967296 / 2 ^ 0 % 256 = c.toNat := by omega
  rw [hbyte] at hemit
  exact ⟨shiftIn v (c.toNat % 64), hemit⟩

/-- The sextets of a byte string push its bytes. -/
theorem push_sextets (bytes : Bytes) (out : Text) (v : BitVec 32) :
    ((sextets bytes).foldl base64Step ⟨out, v, -8⟩).out = out ++ bytes.map byteChar := by
  fun_induction sextets bytes generalizing out v with
  | case1 => simp
  | case2 a =>
    obtain ⟨v', hfirst, -⟩ := push_first out v a 0 (by decide)
    rw [Nat.add_zero] at hfirst
    rw [List.foldl_cons, List.foldl_cons, List.foldl_nil, hfirst]
    rfl
  | case3 a b =>
    have hb := b.toNat_lt
    obtain ⟨v₁, hfirst, hkept⟩ := push_first out v a (b.toNat / 16) (by omega)
    obtain ⟨v₂, hsecond, -⟩ := push_second (out ++ [byteChar a]) v₁ b 0 (by decide) hkept
    rw [Nat.add_zero] at hsecond
    rw [List.foldl_cons, List.foldl_cons, hfirst, List.foldl_cons, List.foldl_nil, hsecond]
    simp
  | case4 a b c rest ih =>
    have hb := b.toNat_lt
    have hc := c.toNat_lt
    obtain ⟨v₁, hfirst, hkept⟩ := push_first out v a (b.toNat / 16) (by omega)
    obtain ⟨v₂, hsecond, hkept'⟩ :=
      push_second (out ++ [byteChar a]) v₁ b (c.toNat / 64) (by omega) hkept
    obtain ⟨v₃, hthird⟩ := push_third (out ++ [byteChar a] ++ [byteChar b]) v₂ c hkept'
    rw [List.foldl_cons, List.foldl_cons, hfirst, List.foldl_cons, hsecond, List.foldl_cons,
      hthird, ih]
    simp

/-! ### Encodings are decoded -/

def isBreakOrBlank (c : Char) : Bool := c == '\n' || c == '\r' || c == ' '

/-- A text that is an encoding but for breaks and blanks is decoded. -/
theorem decode_encoded (bytes : Bytes) (t : Text)
    (h : t.filter (fun c => !isBreakOrBlank c) = encode bytes) :
    decodeBase64 t = some (bytes.map byteChar) := by
  have hbreak : ∀ c, isBreakOrBlank c = true → isBase64Skipped c = true := by
    intro c hc
    unfold isBase64Skipped isBreakOrBlank at *
    simp only [Bool.or_eq_true] at hc ⊢
    tauto
  have hknown : t.all knownChar = true := by
    rw [List.all_eq_true]
    intro c hc
    cases hb : isBreakOrBlank c with
    | true => simp [knownChar, hbreak c hb]
    | false =>
      have hmem : c ∈ encode bytes := by
        rw [← h]
        exact List.mem_filter.mpr ⟨hc, by simp [hb]⟩
      rcases encode_chars bytes c hmem with hdata | rfl
      · simp [knownChar, hdata]
      · rfl
  have hvalues : t.filterMap value = sextets bytes := by
    rw [← values_encode, ← h, List.filterMap_filter]
    apply List.filterMap_congr
    intro c _
    cases hb : isBreakOrBlank c with
    | true => simp [skipped_value c (hbreak c hb)]
    | false => simp
  rw [decodeBase64_eq, if_pos hknown, hvalues, base64Start, push_sextets, List.nil_append]

/-- Three bytes over two lines. -/
theorem decode_two_lines :
    decodeBase64 "TW\r\n Fu".toList = some [byteChar 77, byteChar 97, byteChar 110] :=
  decode_encoded [77, 97, 110] "TW\r\n Fu".toList (by decide +kernel)

/-! ### What is taken -/

def isOtherSpace (c : Char) : Bool := isSpace c && !isBreakOrBlank c

def withoutSpace (t : Text) : Text := t.filter fun c => !isSpace c

def IsForeign (c : Char) : Prop := c ∉ alphabet ∧ c ≠ '=' ∧ isSpace c = false

theorem breakOrBlank_space (c : Char) (h : isBreakOrBlank c = true) : isSpace c = true := by
  unfold isSpace isTrimBlank
  unfold isBreakOrBlank at h
  simp only [Bool.or_eq_true] at h ⊢
  tauto

theorem alphabet_not_space (c : Char) (h : c ∈ alphabet) : isSpace c = false := by
  have hall : alphabet.all (fun d => !isSpace d) = true := by decide +kernel
  simpa using List.all_eq_true.mp hall c h

theorem skipped_iff (c : Char) :
    isBase64Skipped c = true ↔ c = '=' ∨ isBreakOrBlank c = true := by
  simp [isBase64Skipped, isBreakOrBlank, or_assoc]

theorem known_iff (c : Char) (h : ¬ IsForeign c) : knownChar c = true ↔ isOtherSpace c = false := by
  have hknown : knownChar c = true ↔ (c = '=' ∨ isBreakOrBlank c = true) ∨ c ∈ alphabet := by
    rw [← skipped_iff]
    simp [knownChar]
  rw [hknown, isOtherSpace]
  cases hb : isBreakOrBlank c with
  | true => simp
  | false =>
    cases hspace : isSpace c with
    | true =>
      have hdata : c ∉ alphabet := by
        intro hc
        rw [alphabet_not_space c hc] at hspace
        cases hspace
      have hpad : c ≠ '=' := by
        intro heq
        subst heq
        cases hspace
      simp [hdata, hpad]
    | false =>
      have hin : c ∈ alphabet ∨ c = '=' := by
        by_contra hout
        exact h ⟨fun hc => hout (Or.inl hc), fun hc => hout (Or.inr hc), hspace⟩
      simpa using hin.symm

theorem decodes_iff (t : Text) :
    (∃ bytes, decodeBase64 t = some bytes) ↔ ∀ c ∈ t, knownChar c = true := by
  rw [decodeBase64_eq, ← List.all_eq_true]
  cases t.all knownChar <;> simp

/-- The decoder checks only the characters: it tells valid texts from others
exactly for these. -/
theorem decode_valid_iff (t : Text) :
    ((∃ bytes, decodeBase64 t = some bytes) ↔ Valid (withoutSpace t)) ↔
      (∃ c ∈ t, IsForeign c) ∨
        ((∃ c ∈ t, isOtherSpace c = true) ↔ ¬ Padded (withoutSpace t)) := by
  rw [decodes_iff, valid_iff]
  by_cases hforeign : ∃ c ∈ t, IsForeign c
  · obtain ⟨c, hc, hdata, hpad, hspace⟩ := hforeign
    have hunknown : ¬ ∀ c ∈ t, knownChar c = true := by
      intro hall
      have hknown := hall c hc
      have hskip : ¬ isBase64Skipped c = true := by
        rw [skipped_iff]
        intro hor
        rcases hor with h | h
        · exact hpad h
        · rw [breakOrBlank_space c h] at hspace
          cases hspace
      simp only [knownChar, Bool.or_eq_true, List.contains_iff_mem] at hknown
      exact hknown.elim hskip hdata
    have hinvalid : ¬ ((∀ c ∈ withoutSpace t, c ∈ alphabet ∨ c = '=') ∧ Padded (withoutSpace t)) := by
      intro h
      exact (h.1 c (List.mem_filter.mpr ⟨hc, by simp [hspace]⟩)).elim hdata hpad
    exact iff_of_true (iff_of_false hunknown hinvalid) (Or.inl ⟨c, hc, hdata, hpad, hspace⟩)
  · have hnone : ∀ c ∈ t, ¬ IsForeign c := fun c hc hf => hforeign ⟨c, hc, hf⟩
    have hknown : (∀ c ∈ t, knownChar c = true) ↔ ¬ ∃ c ∈ t, isOtherSpace c = true := by
      constructor
      · intro hall hgiven
        obtain ⟨c, hc, hother⟩ := hgiven
        rw [(known_iff c (hnone c hc)).mp (hall c hc)] at hother
        cases hother
      · intro hno c hc
        rw [known_iff c (hnone c hc)]
        by_contra hother
        exact hno ⟨c, hc, by simpa using hother⟩
    have hchars : ∀ c ∈ withoutSpace t, c ∈ alphabet ∨ c = '=' := by
      intro c hc
      obtain ⟨hmem, hspace⟩ := List.mem_filter.mp hc
      by_contra hout
      exact hnone c hmem ⟨fun h => hout (Or.inl h), fun h => hout (Or.inr h), by simpa using hspace⟩
    rw [hknown]
    have hvalid : ((∀ c ∈ withoutSpace t, c ∈ alphabet ∨ c = '=') ∧ Padded (withoutSpace t)) ↔
        Padded (withoutSpace t) := and_iff_right hchars
    rw [hvalid, or_iff_right hforeign, not_iff_comm]
    exact iff_comm

/-- A lone character at the end is dropped. -/
theorem truncated_decodes :
    ¬ ∀ t : Text, (∃ bytes, decodeBase64 t = some bytes) ↔ Valid (withoutSpace t) := by
  intro h
  obtain ⟨hlen, -⟩ := valid_padded _ ((h "QUJDR".toList).mp ⟨"ABC".toList, by decide +kernel⟩)
  revert hlen
  decide +kernel

/-! ### The range of the accumulator -/

/-- No value of a round leaves the range of an `int`. -/
structure RoundInRange (s : Base64State) (d : ℕ) : Prop where
  shifted : inInt32 (s.val.toInt * 64)
  val : inInt32 (s.val.toInt * 64 + d)
  bits : inInt32 (s.bits + 6)
  rest : inInt32 (s.bits + 6 - 8)

def LoopInRange (s : Base64State) : Text → Prop
  | [] => True
  | c :: t =>
    if isBase64Skipped c then LoopInRange s t
    else match base64Alphabet.idxOf? c with
      | none => True
      | some d => RoundInRange s d ∧ LoopInRange (base64Step s d) t

/-- The sextets read before the loop ends or throws. -/
def sextetsRead (t : Text) : List ℕ := (t.takeWhile knownChar).filterMap value

def appendSextets (n : ℕ) (ds : List ℕ) : ℕ := ds.foldl (fun n d => n * 64 + d) n

theorem le_appendSextets (n : ℕ) (ds : List ℕ) : n * 64 ^ ds.length ≤ appendSextets n ds := by
  induction ds generalizing n with
  | nil => simp [appendSextets]
  | cons d ds ih =>
    have hrest := ih (n * 64 + d)
    calc n * 64 ^ (ds.length + 1) = n * 64 * 64 ^ ds.length := by ring
      _ ≤ (n * 64 + d) * 64 ^ ds.length := Nat.mul_le_mul_right _ (by omega)
      _ ≤ appendSextets n (d :: ds) := hrest

theorem appendSextets_lt (n : ℕ) (ds : List ℕ) (h : ∀ d ∈ ds, d < 64) :
    appendSextets n ds < (n + 1) * 64 ^ ds.length := by
  induction ds generalizing n with
  | nil => simp [appendSextets]
  | cons d ds ih =>
    have hd : d < 64 := h d List.mem_cons_self
    calc appendSextets n (d :: ds) < (n * 64 + d + 1) * 64 ^ ds.length :=
          ih (n * 64 + d) fun e he => h e (List.mem_cons_of_mem d he)
      _ ≤ (n + 1) * 64 * 64 ^ ds.length := Nat.mul_le_mul_right _ (by omega)
      _ = (n + 1) * 64 ^ (ds.length + 1) := by ring

theorem base64Step_val (s : Base64State) (d : ℕ) : (base64Step s d).val = shiftIn s.val d := by
  simp only [base64Step]
  split <;> rfl

theorem base64Step_bits (s : Base64State) (d : ℕ) (h : -8 ≤ s.bits ∧ s.bits < 0) :
    -8 ≤ (base64Step s d).bits ∧ (base64Step s d).bits < 0 := by
  simp only [base64Step]
  split
  · dsimp only
    omega
  · dsimp only
    omega

theorem shiftIn_exact (v : BitVec 32) (d : ℕ) (h : v.toNat * 64 + d < 2147483648) :
    (shiftIn v d).toNat = v.toNat * 64 + d := by
  rw [shiftIn_toNat]
  omega

theorem toInt_exact (v : BitVec 32) (h : v.toNat < 2147483648) : v.toInt = v.toNat :=
  BitVec.toInt_eq_toNat_of_lt (by omega)

theorem roundInRange_iff (s : Base64State) (d : ℕ) (hval : s.val.toNat < 2147483648)
    (hbits : -8 ≤ s.bits ∧ s.bits < 0) :
    RoundInRange s d ↔ s.val.toNat * 64 + d < 2147483648 := by
  have hexact := toInt_exact s.val hval
  constructor
  · intro h
    have hupper := h.val.2
    rw [hexact] at hupper
    omega
  · intro h
    refine ⟨?_, ?_, ?_, ?_⟩
    · unfold inInt32
      omega
    · unfold inInt32
      omega
    · unfold inInt32
      omega
    · unfold inInt32
      omega

theorem sextetsRead_cons (c : Char) (t : Text) :
    sextetsRead (c :: t) =
      if knownChar c then (value c).toList ++ sextetsRead t else [] := by
  unfold sextetsRead
  rw [List.takeWhile_cons]
  split
  · rw [List.filterMap_cons]
    cases value c <;> rfl
  · rfl

/-- As long as nothing overflows the accumulator is the number its sextets
write, so the last value decides. -/
theorem loopInRange_iff (s : Base64State) (t : Text) (hval : s.val.toNat < 2147483648)
    (hbits : -8 ≤ s.bits ∧ s.bits < 0) :
    LoopInRange s t ↔ appendSextets s.val.toNat (sextetsRead t) < 2147483648 := by
  induction t generalizing s with
  | nil => exact iff_of_true trivial hval
  | cons c t ih =>
    rw [sextetsRead_cons, LoopInRange, base64Alphabet_eq]
    rcases base64Loop_cons s c t with ⟨hvalue, hskip, -⟩ | ⟨hvalue, hknown, -⟩ |
      ⟨d, hd, hvalue, hskip, hknown, -⟩
    · have hknown : knownChar c = true := by simp [knownChar, hskip]
      rw [hskip, hknown, hvalue, if_pos rfl, if_pos rfl]
      exact ih s hval hbits
    · have hskip : isBase64Skipped c = false := by
        cases h : isBase64Skipped c with
        | false => rfl
        | true =>
          rw [knownChar, h] at hknown
          cases hknown
      rw [hskip, hknown, hvalue]
      exact iff_of_true trivial hval
    · rw [hskip, hknown, hvalue, if_neg Bool.false_ne_true, if_pos rfl]
      have hround := roundInRange_iff s d hval hbits
      have hstep : appendSextets s.val.toNat ((some d).toList ++ sextetsRead t) =
          appendSextets (s.val.toNat * 64 + d) (sextetsRead t) := rfl
      rw [hstep]
      show RoundInRange s d ∧ LoopInRange (base64Step s d) t ↔ _
      rw [hround]
      by_cases hfits : s.val.toNat * 64 + d < 2147483648
      · have hexact := shiftIn_exact s.val d hfits
        have hrest := ih (base64Step s d) (by rw [base64Step_val, hexact]; exact hfits)
          (base64Step_bits s d hbits)
        rw [base64Step_val, hexact] at hrest
        rw [hrest]
        exact and_iff_right hfits
      · refine iff_of_false (fun h => hfits h.1) ?_
        have hle := le_appendSextets (s.val.toNat * 64 + d) (sextetsRead t)
        have hpow : 1 ≤ 64 ^ (sextetsRead t).length := Nat.one_le_pow _ _ (by decide)
        have hgrows := Nat.le_mul_of_pos_right (s.val.toNat * 64 + d) hpow
        omega

/-- Zero sextets at the head do not count. -/
theorem appendSextets_zeros (ds : List ℕ) :
    appendSextets 0 ds = appendSextets 0 (ds.dropWhile (· = 0)) := by
  induction ds with
  | nil => rfl
  | cons d ds ih =>
    by_cases hd : d = 0
    · subst hd
      exact ih
    · rw [List.dropWhile_cons, if_neg (by simpa using hd)]

theorem sextetsRead_lt (t : Text) : ∀ d ∈ sextetsRead t, d < 64 := by
  intro d hd
  obtain ⟨c, -, hvalue⟩ := List.mem_filterMap.mp hd
  exact value_lt c d hvalue

/-- Five sextets fit, and six when the first is 1. -/
theorem appendSextets_fits (ds : List ℕ) (hlt : ∀ d ∈ ds, d < 64) (hhead : ds.head? ≠ some 0) :
    appendSextets 0 ds < 2147483648 ↔ ds.length ≤ 5 ∨ ds.length = 6 ∧ ds.head? = some 1 := by
  cases ds with
  | nil => simp [appendSextets]
  | cons d ds =>
    have hd : d ≠ 0 := by simpa using hhead
    have hfirst : appendSextets 0 (d :: ds) = appendSextets d ds := by simp [appendSextets]
    have hlow := le_appendSextets d ds
    have hhigh := appendSextets_lt d ds fun e he => hlt e (List.mem_cons_of_mem d he)
    rw [hfirst, List.length_cons, List.head?_cons, Option.some.injEq]
    have hd64 : d < 64 := hlt d List.mem_cons_self
    rcases Nat.lt_trichotomy ds.length 5 with hshort | hfive | hlong
    · have hpow : 64 ^ ds.length ≤ 64 ^ 4 := Nat.pow_le_pow_right (by decide) (by omega)
      have hbound : (d + 1) * 64 ^ ds.length ≤ 64 * 64 ^ 4 := Nat.mul_le_mul (by omega) hpow
      exact iff_of_true (by omega) (Or.inl (by omega))
    · rw [hfive] at hlow hhigh
      omega
    · have hpow : 64 ^ 6 ≤ 64 ^ ds.length := Nat.pow_le_pow_right (by decide) (by omega)
      have hbound : 1 * 64 ^ 6 ≤ d * 64 ^ ds.length := Nat.mul_le_mul (by omega) hpow
      exact iff_of_false (by omega) (by omega)

/-- The accumulator stays in range exactly for texts of at most five sextets
that count, or six from 1 on. -/
theorem accumulator_range_iff (t : Text) :
    LoopInRange base64Start t ↔
      ((sextetsRead t).dropWhile (· = 0)).length ≤ 5 ∨
        ((sextetsRead t).dropWhile (· = 0)).length = 6 ∧
          ((sextetsRead t).dropWhile (· = 0)).head? = some 1 := by
  rw [loopInRange_iff base64Start t (by decide) (by decide)]
  have hstart : base64Start.val.toNat = 0 := rfl
  rw [hstart, appendSextets_zeros]
  apply appendSextets_fits
  · intro d hd
    exact sextetsRead_lt t d ((List.dropWhile_sublist _).mem hd)
  · intro hhead
    have hnot := List.head?_dropWhile_not (fun d : ℕ => decide (d = 0)) (sextetsRead t)
    rw [hhead] at hnot
    simp at hnot

/-- The first six characters of a PNG file overflow it. -/
theorem accumulator_overflows : ¬ ∀ t : Text, LoopInRange base64Start t := by
  intro h
  have hpng := (loopInRange_iff base64Start "iVBORw".toList (by decide) (by decide)).mp (h _)
  revert hpng
  decide +kernel

end DuckdbSalesforce
