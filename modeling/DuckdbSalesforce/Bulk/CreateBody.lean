import Mathlib
import DuckdbSalesforce.Json.Compact
import DuckdbSalesforce.Library.JsonGrammar
import DuckdbSalesforce.Soql.Translate

/-!
# The body that creates a Bulk query job (salesforce_session.cpp)

`JsonEscape` works on the bytes of the SOQL and `BulkStartJob` puts the result
between quotes. The SOQL is a text in UTF-8, so that no byte of a longer
character is taken for one that is escaped.
-/

namespace DuckdbSalesforce
open JsonText

abbrev Bytes := List UInt8

def jsonEscapeByte (c : UInt8) : Bytes :=
  if c = '"'.toUInt8 then ascii ['\\', '"']
  else if c = '\\'.toUInt8 then ascii ['\\', '\\']
  else if c = '\n'.toUInt8 then ascii ['\\', 'n']
  else if c = '\r'.toUInt8 then ascii ['\\', 'r']
  else if c = '\t'.toUInt8 then ascii ['\\', 't']
  else [c]

def jsonEscape (s : Bytes) : Bytes := s.flatMap jsonEscapeByte

def bulkOperation (queryAll : Bool) : Text := (if queryAll then "queryAll" else "query").toList

def bulkCreateBody (queryAll : Bool) (soql : Bytes) : Bytes :=
  ascii "\x7b\"operation\":\"".toList ++ ascii (bulkOperation queryAll) ++
    ascii "\",\"query\":\"".toList ++ jsonEscape soql ++
    ascii "\",\"contentType\":\"CSV\",\"lineEnding\":\"LF\"\x7d".toList

/-! ### The string the escaper writes -/

def escapeItem (c : Char) : StringItem :=
  if hq : c = '"' then .escape .quote
  else if hb : c = '\\' then .escape .backslash
  else if c = '\n' then .escape .newline
  else if c = '\r' then .escape .return
  else if c = '\t' then .escape .tab
  else .plain c ⟨hq, hb⟩

def escapeItems (t : Text) : List StringItem := t.map escapeItem

theorem escapeItem_cases (c : Char) :
    (∃ e : Escape, escapeItem c = .escape e ∧ charUnits c = [e.unit] ∧
      c ∈ ['"', '\\', '\n', '\r', '\t'] ∧
      (String.utf8EncodeChar c).flatMap jsonEscapeByte = ascii ['\\', e.char]) ∨
    (∃ h, escapeItem c = .plain c h ∧ c ≠ '\n' ∧ c ≠ '\r' ∧ c ≠ '\t') := by
  unfold escapeItem
  by_cases hq : c = '"'
  · subst hq
    exact Or.inl ⟨.quote, rfl, rfl, by decide, rfl⟩
  by_cases hb : c = '\\'
  · subst hb
    exact Or.inl ⟨.backslash, rfl, rfl, by decide, rfl⟩
  by_cases hn : c = '\n'
  · subst hn
    exact Or.inl ⟨.newline, rfl, rfl, by decide, rfl⟩
  by_cases hr : c = '\r'
  · subst hr
    exact Or.inl ⟨.return, rfl, rfl, by decide, rfl⟩
  by_cases ht : c = '\t'
  · subst ht
    exact Or.inl ⟨.tab, rfl, rfl, by decide, rfl⟩
  · rw [dif_neg hq, dif_neg hb, if_neg hn, if_neg hr, if_neg ht]
    exact Or.inr ⟨⟨hq, hb⟩, rfl, hn, hr, ht⟩

theorem escapeItem_units (c : Char) : (escapeItem c).units = charUnits c := by
  rcases escapeItem_cases c with ⟨e, he, hunits, _⟩ | ⟨h, he, _⟩
  · rw [he, hunits]
    rfl
  · rw [he]
    rfl

theorem escapeItems_units (t : Text) : unitsOf (escapeItems t) = codeUnits t := by
  unfold unitsOf escapeItems codeUnits
  rw [List.flatMap_map]
  simp only [escapeItem_units]

theorem jsonEscapeByte_other (c : Char) (hascii : c.toNat < 128)
    (h : c ∉ ['"', '\\', '\n', '\r', '\t']) : jsonEscapeByte c.toUInt8 = [c.toUInt8] := by
  have hne : ∀ d : Char, d.toNat < 128 → c ≠ d → c.toUInt8 ≠ d.toUInt8 := by
    intro d hd hcd heq
    have hsame : c.toNat % 256 = d.toNat % 256 := congrArg UInt8.toNat heq
    exact hcd (Char.toNat_inj.mp (by omega))
  simp only [List.mem_cons, List.not_mem_nil, or_false, not_or] at h
  obtain ⟨hq, hb, hn, hr, ht⟩ := h
  unfold jsonEscapeByte
  rw [if_neg (hne _ (by decide) hq), if_neg (hne _ (by decide) hb), if_neg (hne _ (by decide) hn),
    if_neg (hne _ (by decide) hr), if_neg (hne _ (by decide) ht)]

theorem jsonEscapeByte_high (b : UInt8) (h : 128 ≤ b.toNat) : jsonEscapeByte b = [b] := by
  have hne : ∀ d : UInt8, d.toNat < 128 → b ≠ d := by
    intro d hd heq
    rw [heq] at h
    omega
  unfold jsonEscapeByte
  rw [if_neg (hne _ (by decide)), if_neg (hne _ (by decide)), if_neg (hne _ (by decide)),
    if_neg (hne _ (by decide)), if_neg (hne _ (by decide))]

theorem jsonEscape_char (c : Char) :
    jsonEscape (String.utf8EncodeChar c) = utf8 (escapeItem c).render := by
  rcases escapeItem_cases c with ⟨e, he, _, _, hbytes⟩ | ⟨⟨hq, hb⟩, he, hn, hr, ht⟩
  · have hrender : utf8 (StringItem.escape e).render = ascii ['\\', e.char] := by
      cases e <;> rfl
    rw [he, hrender]
    exact hbytes
  · have hself : jsonEscape (String.utf8EncodeChar c) = String.utf8EncodeChar c := by
      by_cases hascii : c.toNat < 128
      · rw [utf8_char_ascii c hascii, jsonEscape, List.flatMap_singleton]
        exact jsonEscapeByte_other c hascii (by simp [hq, hb, hn, hr, ht])
      · have hhigh := utf8_char_high c (by omega)
        unfold jsonEscape
        rw [List.flatMap_congr fun b hmem => jsonEscapeByte_high b (hhigh b hmem),
          List.flatMap_singleton']
    rw [hself, he]
    show _ = String.utf8EncodeChar c ++ utf8 []
    exact (List.append_nil _).symm

theorem jsonEscape_utf8 (t : Text) : jsonEscape (utf8 t) = utf8 (renderItems (escapeItems t)) := by
  induction t with
  | nil => rfl
  | cons c t ih =>
    have hcons : jsonEscape (utf8 (c :: t)) =
        jsonEscape (String.utf8EncodeChar c) ++ jsonEscape (utf8 t) := by
      rw [utf8_cons]
      exact List.flatMap_append
    rw [hcons, jsonEscape_char, ih, ← utf8_append]
    rfl

theorem escapeItems_strict (t : Text) (h : Clean t) : StrictItems (escapeItems t) := by
  intro x hx
  obtain ⟨c, hc, rfl⟩ := List.mem_map.mp hx
  rcases escapeItem_cases c with ⟨e, he, _⟩ | ⟨hplain, he, hn, hr, ht⟩
  · rw [he]
    exact True.intro
  · rw [he]
    show 0x20 ≤ c.toNat
    by_contra hlow
    rcases h c hc (by omega) with heq | heq | heq
    · exact ht heq
    · exact hn heq
    · exact hr heq

/-- An unescaped control character stands in the spelled string as it is. -/
theorem escapeItems_control (t : Text) (h : Clean (renderItems (escapeItems t))) : Clean t := by
  intro c hc hlow
  rcases escapeItem_cases c with ⟨e, _, _, hmem, _⟩ | ⟨hplain, he, _⟩
  · simp only [List.mem_cons, List.not_mem_nil, or_false] at hmem
    rcases hmem with heq | heq | heq | heq | heq
    · rw [heq] at hlow
      exact absurd hlow (by decide)
    · rw [heq] at hlow
      exact absurd hlow (by decide)
    · exact Or.inr (Or.inl heq)
    · exact Or.inr (Or.inr heq)
    · exact Or.inl heq
  · refine h c ?_ hlow
    refine List.mem_flatMap.mpr ⟨escapeItem c, List.mem_map_of_mem hc, ?_⟩
    rw [he]
    exact List.mem_singleton.mpr rfl

/-! ### The body -/

def plainMember (name value : Text) : Text × Json := (name, .string (spell value))

def createObject (queryAll : Bool) (soql : Text) : ObjectText :=
  compactObject [plainMember "operation".toList (bulkOperation queryAll),
    ("query".toList, .string (escapeItems soql)),
    plainMember "contentType".toList "CSV".toList, plainMember "lineEnding".toList "LF".toList]

theorem createObject_text (queryAll : Bool) (soql : Text) :
    (createObject queryAll soql).text =
      "\x7b\"operation\":\"".toList ++ bulkOperation queryAll ++ "\",\"query\":\"".toList ++
        renderItems (escapeItems soql) ++
        "\",\"contentType\":\"CSV\",\"lineEnding\":\"LF\"\x7d".toList := by
  have hspell : ∀ t : Text, (t.all fun c => c != '"' && c != '\\') = true →
      renderItems (spell t) = t := by
    intro t ht
    refine renderItems_spell t ?_
    intro c hc
    have hok := List.all_eq_true.mp ht c hc
    simpa using hok
  have hop : renderItems (spell (bulkOperation queryAll)) = bulkOperation queryAll :=
    hspell _ (by cases queryAll <;> rfl)
  simp only [createObject, plainMember, compactObject, compactMembers, ObjectText.text,
    Json.render, Members.render, Members.comma, renderString, Blank.none, hop,
    hspell "operation".toList rfl, hspell "query".toList rfl, hspell "contentType".toList rfl,
    hspell "CSV".toList rfl, hspell "lineEnding".toList rfl, hspell "LF".toList rfl,
    List.append_assoc, List.nil_append, List.cons_append, List.append_nil]
  rfl

theorem bulkCreateBody_utf8 (queryAll : Bool) (soql : Text) :
    bulkCreateBody queryAll (utf8 soql) = utf8 (createObject queryAll soql).text := by
  have hlit : ∀ t : Text, (t.all fun c => decide (c.toNat < 128)) = true → ascii t = utf8 t := by
    intro t ht
    refine (utf8_ascii t ?_).symm
    intro c hc
    exact of_decide_eq_true (List.all_eq_true.mp ht c hc)
  have hop : ascii (bulkOperation queryAll) = utf8 (bulkOperation queryAll) :=
    hlit _ (by cases queryAll <;> rfl)
  rw [createObject_text, bulkCreateBody, jsonEscape_utf8, hop, hlit _ rfl, hlit _ rfl, hlit _ rfl]
  simp only [utf8_append]

/-- The body is valid and its `query` is the SOQL. -/
def CarriesSoql (queryAll : Bool) (soql : Text) : Prop :=
  ∃ o : ObjectText, o.Encodes (bulkCreateBody queryAll (utf8 soql)) ∧
    ∃ f items, o.find "query".toList = some f ∧ f.value = .string items ∧
      unitsOf items = codeUnits soql

theorem createObject_query (queryAll : Bool) (soql : Text) :
    ∃ f, (createObject queryAll soql).find "query".toList = some f ∧
      f.value = .string (escapeItems soql) := by
  have hother : unitsOf (spell "operation".toList) ≠ codeUnits "query".toList := by
    rw [unitsOf_spell]
    decide
  unfold createObject plainMember ObjectText.find compactObject
  simp only [compactMembers, Members.find]
  rw [if_neg hother, if_pos (unitsOf_spell _)]
  exact ⟨_, rfl, rfl⟩

theorem spell_strict (t : Text) (h : (t.all fun c => decide (0x20 ≤ c.toNat)) = true) :
    StrictItems (spell t) := by
  intro x hx
  obtain ⟨c, hc, rfl⟩ := List.mem_map.mp hx
  split
  · show 0x20 ≤ c.toNat
    exact of_decide_eq_true (List.all_eq_true.mp h c hc)
  · exact True.intro

theorem createObject_strict (queryAll : Bool) (soql : Text) (h : Clean soql) :
    (createObject queryAll soql).members.Strict := by
  have hop : StrictItems (spell (bulkOperation queryAll)) :=
    spell_strict _ (by cases queryAll <;> rfl)
  exact ⟨spell_strict _ rfl, hop, spell_strict _ rfl, escapeItems_strict soql h,
    spell_strict _ rfl, spell_strict _ rfl, spell_strict _ rfl, spell_strict _ rfl, True.intro⟩

theorem clean_of_carries (queryAll : Bool) (soql : Text) (h : CarriesSoql queryAll soql) :
    Clean soql := by
  obtain ⟨o, ⟨hstrict, hbytes⟩, _⟩ := h
  rw [bulkCreateBody_utf8] at hbytes
  have htext := utf8_injective _ _ hbytes
  have hclean := clean_object o hstrict
  rw [← htext, createObject_text] at hclean
  refine escapeItems_control soql ?_
  intro c hc
  exact hclean c (List.mem_append_left _ (List.mem_append_right _ hc))

/-- The body is right exactly when tabs and line ends are the only control
characters of the SOQL. -/
theorem bulkCreateBody_carries_iff (queryAll : Bool) (soql : Text) :
    CarriesSoql queryAll soql ↔ Clean soql := by
  refine ⟨clean_of_carries queryAll soql, ?_⟩
  intro h
  obtain ⟨f, hfind, hvalue⟩ := createObject_query queryAll soql
  exact ⟨createObject queryAll soql,
    ⟨createObject_strict queryAll soql h, bulkCreateBody_utf8 queryAll soql⟩,
    f, escapeItems soql, hfind, hvalue, escapeItems_units soql⟩

/-- A backspace in a string literal reaches the body unescaped. -/
theorem backspace_unescaped :
    ¬ CarriesSoql false
      ("SELECT Id FROM Account WHERE Name = ".toList ++ soqlString ['a', '\x08', 'b']) := by
  intro h
  have hclean := clean_of_carries _ _ h
  exact absurd (hclean '\x08' (by decide) (by decide)) (by decide)

end DuckdbSalesforce
