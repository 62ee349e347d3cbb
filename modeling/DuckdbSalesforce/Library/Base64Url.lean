import Mathlib
import DuckdbSalesforce.Library.Base64Text

/-!
# Base64 for URLs

The encoding without padding over the alphabet whose last two characters are
`-` and `_`, and its inverse: a text is decoded when it is the encoding of
something.
-/

namespace Base64Text

def urlAlphabet : List Char :=
  "ABCDEFGHIJKLMNOPQRSTUVWXYZabcdefghijklmnopqrstuvwxyz0123456789-_".toList

def urlDigit (n : ℕ) : Char := urlAlphabet.getD n 'A'

def urlValue (c : Char) : Option ℕ := urlAlphabet.idxOf? c

def urlEncode (bytes : List UInt8) : List Char := (sextets bytes).map urlDigit

/-- The bytes of which these are the sextets: the bits that fill up the last
one are zero. -/
def bytesOf : List ℕ → Option (List UInt8)
  | [] => some []
  | [_] => none
  | [x, y] => if y % 16 = 0 then some [UInt8.ofNat (x * 4 + y / 16)] else none
  | [x, y, z] =>
    if z % 4 = 0 then some [UInt8.ofNat (x * 4 + y / 16), UInt8.ofNat (y % 16 * 16 + z / 4)]
    else none
  | x :: y :: z :: w :: rest =>
    (bytesOf rest).map fun bytes =>
      UInt8.ofNat (x * 4 + y / 16) :: UInt8.ofNat (y % 16 * 16 + z / 4) ::
        UInt8.ofNat (z % 4 * 64 + w) :: bytes

def urlDecode (t : List Char) : Option (List UInt8) := (t.mapM urlValue).bind bytesOf

/-! ### The alphabet -/

theorem urlAlphabet_nodup : urlAlphabet.Nodup := by decide +kernel

theorem urlValue_digit (n : ℕ) (h : n < 64) : urlValue (urlDigit n) = some n := by
  have hlen : n < urlAlphabet.length := h
  have hdigit : urlDigit n = urlAlphabet[n] := List.getD_eq_getElem _ _ hlen
  rw [urlValue, hdigit, List.idxOf?_eq_some_iff]
  refine ⟨hlen, rfl, ?_⟩
  intro j hj hsame
  have hsame' := (urlAlphabet_nodup.getElem_inj_iff).mp hsame
  omega

theorem urlDigit_value (c : Char) (n : ℕ) (h : urlValue c = some n) : n < 64 ∧ urlDigit n = c := by
  obtain ⟨hlen, hat, -⟩ := List.idxOf?_eq_some_iff.mp h
  refine ⟨hlen, ?_⟩
  rw [urlDigit, List.getD_eq_getElem _ _ hlen]
  simpa using hat

theorem urlDigit_mem (n : ℕ) (h : n < 64) : urlDigit n ∈ urlAlphabet := by
  have hlen : n < urlAlphabet.length := h
  rw [urlDigit, List.getD_eq_getElem _ _ hlen]
  exact List.getElem_mem hlen

theorem urlValues_digits (ns : List ℕ) (h : ∀ n ∈ ns, n < 64) :
    (ns.map urlDigit).mapM urlValue = some ns := by
  induction ns with
  | nil => rfl
  | cons n ns ih =>
    rw [List.map_cons, List.mapM_cons, urlValue_digit n (h n List.mem_cons_self),
      ih fun m hm => h m (List.mem_cons_of_mem n hm)]
    rfl

theorem urlDigits_values (t : List Char) (ns : List ℕ) (h : t.mapM urlValue = some ns) :
    (∀ n ∈ ns, n < 64) ∧ ns.map urlDigit = t := by
  induction t generalizing ns with
  | nil =>
    have hns : [] = ns := Option.some.inj h
    subst hns
    simp
  | cons c t ih =>
    rw [List.mapM_cons] at h
    obtain ⟨n, hn, h⟩ := Option.bind_eq_some_iff.mp h
    obtain ⟨ms, hms, h⟩ := Option.bind_eq_some_iff.mp h
    have hns : n :: ms = ns := Option.some.inj h
    obtain ⟨hlt, hdigits⟩ := ih ms hms
    obtain ⟨hn64, hc⟩ := urlDigit_value c n hn
    subst hns
    refine ⟨?_, ?_⟩
    · intro m hm
      rcases List.mem_cons.mp hm with rfl | hm
      · exact hn64
      · exact hlt m hm
    · rw [List.map_cons, hc, hdigits]

/-! ### Sextets and bytes -/

theorem ofNat_eq (b : UInt8) (n : ℕ) (h : n = b.toNat) : UInt8.ofNat n = b := by
  rw [h, UInt8.ofNat_toNat]

theorem bytesOf_sextets (bytes : List UInt8) : bytesOf (sextets bytes) = some bytes := by
  fun_induction sextets bytes with
  | case1 => rfl
  | case2 a =>
    have ha := a.toNat_lt
    rw [bytesOf, if_pos (by omega), ofNat_eq a _ (by omega)]
  | case3 a b =>
    have ha := a.toNat_lt
    have hb := b.toNat_lt
    rw [bytesOf, if_pos (by omega), ofNat_eq a _ (by omega), ofNat_eq b _ (by omega)]
  | case4 a b c rest ih =>
    have ha := a.toNat_lt
    have hb := b.toNat_lt
    have hc := c.toNat_lt
    rw [bytesOf, ih, ofNat_eq a _ (by omega), ofNat_eq b _ (by omega), ofNat_eq c _ (by omega)]
    rfl

theorem sextets_bytesOf (ns : List ℕ) (bytes : List UInt8) (hlt : ∀ n ∈ ns, n < 64)
    (h : bytesOf ns = some bytes) : sextets bytes = ns := by
  have hbyte : ∀ n, n < 256 → (UInt8.ofNat n).toNat = n := fun n hn => by
    rw [UInt8.toNat_ofNat', Nat.mod_eq_of_lt hn]
  fun_induction bytesOf ns generalizing bytes with
  | case1 =>
    rw [← Option.some.inj h]
    rfl
  | case2 x => cases h
  | case3 x y hy =>
    simp only [List.mem_cons, List.not_mem_nil, or_false, forall_eq_or_imp, forall_eq] at hlt
    rw [← Option.some.inj h, sextets, hbyte _ (by omega)]
    simp only [List.cons.injEq, and_true]
    omega
  | case4 x y hy => cases h
  | case5 x y z hz =>
    simp only [List.mem_cons, List.not_mem_nil, or_false, forall_eq_or_imp, forall_eq] at hlt
    rw [← Option.some.inj h, sextets, hbyte _ (by omega), hbyte _ (by omega)]
    simp only [List.cons.injEq, and_true]
    omega
  | case6 x y z hz => cases h
  | case7 x y z w rest ih =>
    simp only [List.mem_cons, forall_eq_or_imp] at hlt
    obtain ⟨hx, hy, hz, hw, hrest⟩ := hlt
    obtain ⟨more, hmore, rfl⟩ := Option.map_eq_some_iff.mp h
    rw [sextets, hbyte _ (by omega), hbyte _ (by omega), hbyte _ (by omega), ih more hrest hmore]
    simp only [List.cons.injEq, and_true]
    omega

theorem sextets_length (bytes : List UInt8) :
    (sextets bytes).length = (bytes.length * 8 + 5) / 6 := by
  fun_induction sextets bytes with
  | case1 => rfl
  | case2 a => simp
  | case3 a b => simp
  | case4 a b c rest ih =>
    simp only [List.length_cons, ih]
    omega

/-! ### The encoding -/

theorem urlEncode_chars (bytes : List UInt8) : ∀ c ∈ urlEncode bytes, c ∈ urlAlphabet := by
  intro c hc
  obtain ⟨n, hn, rfl⟩ := List.mem_map.mp hc
  exact urlDigit_mem n (sextets_lt bytes n hn)

theorem urlEncode_length (bytes : List UInt8) :
    (urlEncode bytes).length = (bytes.length * 8 + 5) / 6 := by
  rw [urlEncode, List.length_map, sextets_length]

/-- The decoder accepts exactly the encodings. -/
theorem urlDecode_iff (t : List Char) (bytes : List UInt8) :
    urlDecode t = some bytes ↔ urlEncode bytes = t := by
  constructor
  · intro h
    obtain ⟨ns, hns, hbytes⟩ := Option.bind_eq_some_iff.mp h
    obtain ⟨hlt, hdigits⟩ := urlDigits_values t ns hns
    rw [urlEncode, sextets_bytesOf ns bytes hlt hbytes, hdigits]
  · intro ht
    rw [← ht, urlDecode, urlEncode, urlValues_digits _ (sextets_lt bytes)]
    exact bytesOf_sextets bytes

end Base64Text
