import DuckdbSalesforce.Bulk.CreateBody
import DuckdbSalesforce.Library.Base64Url
import DuckdbSalesforce.Quota.BulkStart
import DuckdbSalesforce.Scan.ScanRows

/-!
# The signed login assertion (salesforce_auth.cpp)

In `Base64Url` three bytes at a time make a `uint32_t` of 24 bits, which is cut
into four places of the table; one or two bytes that are left make two or three.
The JWT flow sends three such encodings, joined by dots.
-/

namespace DuckdbSalesforce
open Base64Text JsonText

def base64UrlTable : Text :=
  "ABCDEFGHIJKLMNOPQRSTUVWXYZabcdefghijklmnopqrstuvwxyz0123456789-_".toList

/-- `tbl[(n >> shift) & 63]`, the last place with no shift. -/
def tableAt (n shift : UInt32) : Char := base64UrlTable.getD ((n >>> shift) &&& 63).toNat 'A'

def base64Url : Bytes → Text
  | [] => []
  | [a] =>
    let n := a.toUInt32 <<< 16
    [tableAt n 18, tableAt n 12]
  | [a, b] =>
    let n := a.toUInt32 <<< 16 ||| b.toUInt32 <<< 8
    [tableAt n 18, tableAt n 12, tableAt n 6]
  | a :: b :: c :: rest =>
    let n := a.toUInt32 <<< 16 ||| b.toUInt32 <<< 8 ||| c.toUInt32
    tableAt n 18 :: tableAt n 12 :: tableAt n 6 :: tableAt n 0 :: base64Url rest

/-- `Base64Url` of a `string`. -/
def base64UrlText (s : Text) : Text := base64Url (ascii s)

/-- `JsonEscape` of this file. -/
def claimEscape (s : Text) : Text := s.flatMap fun c => if c = '"' ∨ c = '\\' then ['\\', c] else [c]

def jwtHeader : Text := "\x7b\"alg\":\"RS256\",\"typ\":\"JWT\"\x7d".toList

def jwtClaims (config : SalesforceConfig) (now : ℤ) : Text :=
  "\x7b\"iss\":\"".toList ++ claimEscape config.clientId ++
    "\",\"sub\":\"".toList ++ claimEscape config.username ++
    "\",\"aud\":\"".toList ++ claimEscape (trimTrailingSlash config.loginUrl) ++
    "\",\"iat\":".toList ++ intText now ++ ",\"exp\":".toList ++ intText (now + 300) ++
    "\x7d".toList

def jwtSigningInput (config : SalesforceConfig) (now : ℤ) : Text :=
  base64UrlText jwtHeader ++ '.' :: base64UrlText (jwtClaims config now)

/-- `signRs256` is OpenSSL's part of `ExchangeJwtBearer`. -/
def jwtAssertion (signRs256 : Text → Text → Except Text Bytes) (config : SalesforceConfig)
    (now : ℤ) : Except Text Text :=
  (signRs256 config.privateKey (jwtSigningInput config now)).map fun sig =>
    jwtSigningInput config now ++ '.' :: base64Url sig

/-! ### The accumulator -/

/-- `v` is the six bits of `n` from bit `k` on. -/
theorem tableAt_digit (n shift : UInt32) (k v : ℕ) (hk : shift.toNat = k) (hlt : k < 32)
    (hv : n.toNat / 2 ^ k % 64 = v) : tableAt n shift = urlDigit v := by
  have hplace : ((n >>> shift) &&& 63).toNat = v := by
    rw [UInt32.toNat_and, UInt32.toNat_shiftRight, hk, Nat.mod_eq_of_lt hlt,
      Nat.shiftRight_eq_div_pow, ← hv]
    exact Nat.and_two_pow_sub_one_eq_mod _ 6
  rw [tableAt, hplace]
  rfl

theorem or_low (h l k : ℕ) (hl : l < 2 ^ k) : h * 2 ^ k ||| l = h * 2 ^ k + l := by
  rw [← Nat.shiftLeft_eq, Nat.shiftLeft_add_eq_or_of_lt hl]

theorem byte_shifted (a : UInt8) (k : UInt32) (hk : k.toNat ≤ 16) :
    (a.toUInt32 <<< k).toNat = a.toNat * 2 ^ k.toNat := by
  have ha := a.toNat_lt
  have hpow : 2 ^ k.toNat ≤ 2 ^ 16 := Nat.pow_le_pow_right (by decide) hk
  have hlt : a.toNat * 2 ^ k.toNat < 2 ^ 32 :=
    calc a.toNat * 2 ^ k.toNat ≤ 255 * 2 ^ 16 := Nat.mul_le_mul (by omega) hpow
      _ < 2 ^ 32 := by decide
  rw [UInt32.toNat_shiftLeft, UInt8.toNat_toUInt32, Nat.mod_eq_of_lt (by omega : k.toNat < 32),
    Nat.shiftLeft_eq, Nat.mod_eq_of_lt hlt]

theorem two_toNat (a b : UInt8) :
    (a.toUInt32 <<< 16 ||| b.toUInt32 <<< 8).toNat = a.toNat * 65536 + b.toNat * 256 := by
  have hb := b.toNat_lt
  rw [UInt32.toNat_or, byte_shifted a 16 (by decide), byte_shifted b 8 (by decide)]
  exact or_low a.toNat (b.toNat * 256) 16 (by omega)

theorem three_toNat (a b c : UInt8) :
    (a.toUInt32 <<< 16 ||| b.toUInt32 <<< 8 ||| c.toUInt32).toNat =
      a.toNat * 65536 + b.toNat * 256 + c.toNat := by
  have hbytes : a.toNat * 65536 + b.toNat * 256 = (a.toNat * 256 + b.toNat) * 2 ^ 8 := by omega
  rw [UInt32.toNat_or, two_toNat, UInt8.toNat_toUInt32, hbytes]
  exact or_low (a.toNat * 256 + b.toNat) c.toNat 8 c.toNat_lt

/-! ### The encoding -/

theorem base64Url_eq (bytes : Bytes) : base64Url bytes = urlEncode bytes := by
  unfold urlEncode
  fun_induction base64Url bytes with
  | case1 => rfl
  | case2 a n =>
    have ha := a.toNat_lt
    have hn : n.toNat = a.toNat * 65536 := byte_shifted a 16 (by decide)
    rw [tableAt_digit n 18 18 (a.toNat / 4) rfl (by decide) (by omega),
      tableAt_digit n 12 12 (a.toNat % 4 * 16) rfl (by decide) (by omega)]
    rfl
  | case3 a b n =>
    have ha := a.toNat_lt
    have hb := b.toNat_lt
    have hn : n.toNat = a.toNat * 65536 + b.toNat * 256 := two_toNat a b
    rw [tableAt_digit n 18 18 (a.toNat / 4) rfl (by decide) (by omega),
      tableAt_digit n 12 12 (a.toNat % 4 * 16 + b.toNat / 16) rfl (by decide) (by omega),
      tableAt_digit n 6 6 (b.toNat % 16 * 4) rfl (by decide) (by omega)]
    rfl
  | case4 a b c rest n ih =>
    have ha := a.toNat_lt
    have hb := b.toNat_lt
    have hc := c.toNat_lt
    have hn : n.toNat = a.toNat * 65536 + b.toNat * 256 + c.toNat := three_toNat a b c
    rw [tableAt_digit n 18 18 (a.toNat / 4) rfl (by decide) (by omega),
      tableAt_digit n 12 12 (a.toNat % 4 * 16 + b.toNat / 16) rfl (by decide) (by omega),
      tableAt_digit n 6 6 (b.toNat % 16 * 4 + c.toNat / 64) rfl (by decide) (by omega),
      tableAt_digit n 0 0 (c.toNat % 64) rfl (by decide) (by omega), ih]
    rfl

theorem base64Url_decodes (bytes : Bytes) :
    (∀ c ∈ base64Url bytes, c ∈ urlAlphabet ∧ c ≠ '=') ∧
      (base64Url bytes).length = (bytes.length * 8 + 5) / 6 ∧
      urlDecode (base64Url bytes) = some bytes := by
  rw [base64Url_eq]
  refine ⟨?_, urlEncode_length bytes, (urlDecode_iff _ bytes).mpr rfl⟩
  intro c hc
  have hmem := urlEncode_chars bytes c hc
  refine ⟨hmem, ?_⟩
  intro hpad
  rw [hpad] at hmem
  exact absurd hmem (by decide +kernel)

/-! ### The assertion -/

theorem base64Url_no_dot (bytes : Bytes) : '.' ∉ base64Url bytes := by
  intro hdot
  rw [base64Url_eq] at hdot
  exact absurd (urlEncode_chars bytes '.' hdot) (by decide +kernel)

theorem claimEscape_spell (s : Text) : claimEscape s = renderItems (spell s) := by
  induction s with
  | nil => rfl
  | cons c s ih =>
    have hcons : claimEscape (c :: s) =
        (if c = '"' ∨ c = '\\' then ['\\', c] else [c]) ++ claimEscape s := rfl
    have hspell : spell (c :: s) = (if h : c ≠ '"' ∧ c ≠ '\\' then .plain c h
        else .escape (if c = '"' then .quote else .backslash)) :: spell s := rfl
    rw [hcons, hspell, renderItems_cons, ih]
    by_cases hq : c = '"'
    · subst hq
      rfl
    by_cases hb : c = '\\'
    · subst hb
      rfl
    · rw [if_neg (not_or.mpr ⟨hq, hb⟩), dif_pos ⟨hq, hb⟩]
      rfl

theorem intText_eq (z : ℤ) : intText z = (if z < 0 then ['-'] else []) ++ natText z.natAbs := by
  cases z with
  | ofNat n => rfl
  | negSucc n =>
    show ("-" ++ toString (n + 1)).toList = _
    rw [String.toList_append, if_pos (Int.negSucc_lt_zero n)]
    rfl

theorem whole_head : ∀ c ∈ ([] : Text).head?, c = '.' ∨ c = 'e' ∨ c = 'E' := by simp

theorem whole_char : ∀ c ∈ ([] : Text), c.isDigit = true ∨ c ∈ ['.', 'e', 'E', '+', '-'] := by simp

def intNumber (z : ℤ) : JsonNumber where
  negative := decide (z < 0)
  digits := natText z.natAbs
  tail := []
  digits_ne := (natText_digits z.natAbs).1
  digits_digit := (natText_digits z.natAbs).2
  tail_head := whole_head
  tail_char := whole_char

theorem intNumber_render (z : ℤ) : (intNumber z).render = intText z := by
  rw [JsonNumber.render, intText_eq]
  simp [intNumber]

/-- The claims are a JSON object whose strings denote what is configured. -/
theorem jwtClaims_object (config : SalesforceConfig) (now : ℤ) :
    jwtClaims config now = (Json.object .none
      (memberOf "iss" (.string (spell config.clientId))
      (memberOf "sub" (.string (spell config.username))
      (memberOf "aud" (.string (spell (trimTrailingSlash config.loginUrl)))
      (memberOf "iat" (.number (intNumber now))
      (memberOf "exp" (.number (intNumber (now + 300))) .nil)))))).render := by
  have hname : ∀ t : Text, (t.all fun c => c != '"' && c != '\\') = true →
      renderItems (spell t) = t := by
    intro t ht
    refine renderItems_spell t ?_
    intro c hc
    simpa using List.all_eq_true.mp ht c hc
  -- each piece of the source ends one member and begins the next
  have hiss : "\x7b\"iss\":\"".toList = '{' :: '"' :: ("iss".toList ++ ['"', ':', '"']) := by decide
  have hsub : "\",\"sub\":\"".toList = '"' :: ',' :: '"' :: ("sub".toList ++ ['"', ':', '"']) := by
    decide
  have haud : "\",\"aud\":\"".toList = '"' :: ',' :: '"' :: ("aud".toList ++ ['"', ':', '"']) := by
    decide
  have hiat : "\",\"iat\":".toList = '"' :: ',' :: '"' :: ("iat".toList ++ ['"', ':']) := by decide
  have hexp : ",\"exp\":".toList = ',' :: '"' :: ("exp".toList ++ ['"', ':']) := by decide
  have hend : "\x7d".toList = ['}'] := by decide
  unfold jwtClaims
  simp only [claimEscape_spell, ← intNumber_render, hiss, hsub, haud, hiat, hexp, hend, memberOf,
    Json.render, Members.render, Members.comma, renderString, Blank.none,
    hname "iss".toList rfl, hname "sub".toList rfl, hname "aud".toList rfl,
    hname "iat".toList rfl, hname "exp".toList rfl, List.append_assoc, List.nil_append,
    List.cons_append, List.append_nil]

/-- The service reads off the header, the claims and the signature. -/
theorem jwtAssertion_parts (signRs256 : Text → Text → Except Text Bytes)
    (config : SalesforceConfig) (now : ℤ) (t : Text)
    (h : jwtAssertion signRs256 config now = .ok t) :
    ∃ sig, signRs256 config.privateKey (jwtSigningInput config now) = .ok sig ∧
      (t.splitOn '.').map urlDecode =
        [some (ascii jwtHeader), some (ascii (jwtClaims config now)), some sig] := by
  rw [jwtAssertion] at h
  cases hsign : signRs256 config.privateKey (jwtSigningInput config now) with
  | error e =>
    rw [hsign] at h
    cases h
  | ok sig =>
    rw [hsign] at h
    have ht : jwtSigningInput config now ++ '.' :: base64Url sig = t := Except.ok.inj h
    have hplain : ∀ bytes, (base64Url bytes).splitOn '.' = [base64Url bytes] :=
      fun bytes => List.splitOn_eq_singleton (base64Url_no_dot bytes)
    have hdecode : ∀ bytes, urlDecode (base64Url bytes) = some bytes := by
      intro bytes
      rw [base64Url_eq]
      exact (urlDecode_iff _ bytes).mpr rfl
    refine ⟨sig, rfl, ?_⟩
    rw [← ht, List.splitOn_append_cons_self, jwtSigningInput, List.splitOn_append_cons_self,
      base64UrlText, base64UrlText, hplain, hplain, hplain]
    simp [hdecode]

end DuckdbSalesforce
