import DuckdbSalesforce.Report.CandidateSound
import DuckdbSalesforce.Soql.Literals

/-!
# What the org accepts of a candidate

SOQL selects a field once, has LIKE for text only, and compares a field with
literals of the kind that its type has.
-/

namespace DuckdbSalesforce
open CondGrammar Numerals ThreeValued

/-! ### Types and literals -/

def textLikeTypes : List Text :=
  ["string".toList, "textarea".toList, "phone".toList, "email".toList, "url".toList,
    "encryptedstring".toList, "combobox".toList]

def quotedTypes : List Text :=
  textLikeTypes ++ ["id".toList, "reference".toList, "picklist".toList, "multipicklist".toList]

def numericTypes : List Text :=
  ["int".toList, "double".toList, "currency".toList, "percent".toList]

section Accepts
variable (G : LiteralForms) (eng : MetadataEngine)

/-- What a field is called in a query on the base object. -/
inductive FieldPath (base : Text) : Text → ObjectField → Prop
  | own (d : ObjectDescribe) (f : ObjectField) (hd : eng.getObjectDescribe base = .ok d)
      (hf : f ∈ d.fields) : FieldPath base f.name f
  | related (d e : ObjectDescribe) (r f : ObjectField) (target : Text)
      (hd : eng.getObjectDescribe base = .ok d) (hr : r ∈ d.fields) (hname : r.relationshipName ≠ [])
      (htarget : r.referenceTo = [target]) (he : eng.getObjectDescribe target = .ok e)
      (hf : f ∈ e.fields) : FieldPath base (r.relationshipName ++ '.' :: f.name) f

/-- The literals for fields of a type: quoted, or a bare well-formed number. -/
inductive LiteralFits (sfType : Text) : Atom → Prop
  | quoted (s : Text) (h : lower sfType ∈ quotedTypes) : LiteralFits sfType (.str s)
  | number (n : Numeral) (hforms : G.Admits n) (h : lower sfType ∈ numericTypes) :
    LiteralFits sfType (.word n.text)

inductive PredicateAccepted (base : Text) : Leaf Atom → Prop
  | compare (field op : Text) (literal : Atom) (f : ObjectField) (hfield : FieldPath eng base field f)
      (hliteral : LiteralFits G f.sfType literal) :
    PredicateAccepted base [wordAtom field, .atom (.sym op), .atom literal]
  | like (field pattern : Text) (f : ObjectField) (hfield : FieldPath eng base field f)
      (htext : lower f.sfType ∈ textLikeTypes) :
    PredicateAccepted base [wordAtom field, wordAtom "LIKE".toList, .atom (.str pattern)]

/-- The fields of a select list, whose letter case does not matter. -/
def selectedFields (items : List Token) : List Text :=
  items.filterMap fun t =>
    match t with
    | .atom (.word w) => some (lower w)
    | _ => none

def Acceptable (soql : Text) : Prop :=
  ∃ st, parseSelect soql = some st ∧ (selectedFields st.items).Nodup ∧
    ∀ c, st.condition = some c → ∀ leaf ∈ c.leaves, PredicateAccepted G eng st.object leaf

/-! ### When it is -/

variable (tokenMap : Text)

def columnField (base column : Text) : Option Text :=
  match resolveReportField eng tokenMap base column with
  | .ok (_, some f) => some (lower f.field)
  | _ => none

/-- The type of the field suits the operator and the spelling of the value. -/
def FilterFits (sfType : Text) (f : ReportFilter) : Prop :=
  if f.op = "contains".toList then lower sfType ∈ textLikeTypes
  else if isNumericLiteral f.value = true then
    lower sfType ∈ numericTypes ∧ ∃ n : Numeral, G.Admits n ∧ f.value = n.text
  else lower sfType ∈ quotedTypes

/-- No two columns stand for one field, and every filter fits its field. -/
structure ReportFits (m : ReportMetadata) (base : Text) : Prop where
  columns : (m.columns.map (columnField eng tokenMap base)).Nodup
  filters : ∀ f ∈ m.filters, ∀ field, ResolvesField eng tokenMap base f.field field →
    ∃ d, FieldPath eng base field.field d ∧ FilterFits G d.sfType f

/-! ### The select list -/

theorem selectedFields_items (items : List Text) :
    selectedFields (itemTokens items) = items.map lower := by
  unfold itemTokens joinComma
  induction items with
  | nil => rfl
  | cons item items ih =>
    cases items with
    | nil => rfl
    | cons next items =>
      have hsep : ∀ ts, selectedFields (wordAtom item :: .atom .comma :: ts) =
          lower item :: selectedFields ts := fun ts => rfl
      rw [List.map_cons, List.map_cons, List.intersperse_cons_cons, hsep, ← List.map_cons, ih]
      rfl

section Resolved
variable {eng tokenMap} {base : Text}

theorem resolves_unique {token : Text} {f g : ReportField}
    (hf : ResolvesField eng tokenMap base token f) (hg : ResolvesField eng tokenMap base token g) :
    f = g := by
  obtain ⟨meant, hf⟩ := hf
  obtain ⟨meant', hg⟩ := hg
  rw [hf] at hg
  exact Option.some.inj (Prod.mk.inj (Except.ok.inj hg)).2

theorem forall_resolves {token : Text} {f : ReportField}
    (h : ResolvesField eng tokenMap base token f) (P : ReportField → Prop) :
    (∀ g, ResolvesField eng tokenMap base token g → P g) ↔ P f := by
  constructor
  · intro hall
    exact hall f h
  · intro hf g hg
    rw [← resolves_unique h hg]
    exact hf

theorem columnField_resolves {column : Text} {f : ReportField}
    (h : ResolvesField eng tokenMap base column f) :
    columnField eng tokenMap base column = some (lower f.field) := by
  obtain ⟨meant, hresolve⟩ := h
  rw [columnField, hresolve]

theorem select_distinct_iff {columns : List Text} {fields : List ReportField}
    (h : List.Forall₂ (ResolvesField eng tokenMap base) columns fields) :
    (selectedFields (itemTokens (fields.map ReportField.field))).Nodup ↔
      (columns.map (columnField eng tokenMap base)).Nodup := by
  have hcolumns : columns.map (columnField eng tokenMap base) =
      ((fields.map ReportField.field).map lower).map some := by
    induction h with
    | nil => rfl
    | cons hfield _ ih => rw [List.map_cons, columnField_resolves hfield, ih]; rfl
  rw [selectedFields_items, hcolumns, List.nodup_map_iff (Option.some_injective Text)]

end Resolved

/-! ### The predicates -/

section Predicates
variable {G eng tokenMap} {base : Text}

theorem compare_accepted_iff (field op : Text) (literal : Atom) :
    PredicateAccepted G eng base [wordAtom field, .atom (.sym op), .atom literal] ↔
      ∃ d, FieldPath eng base field d ∧ LiteralFits G d.sfType literal := by
  constructor
  · rintro (⟨_, _, _, d, hfield, hliteral⟩)
    exact ⟨d, hfield, hliteral⟩
  · intro h
    obtain ⟨d, hfield, hliteral⟩ := h
    exact .compare field op literal d hfield hliteral

theorem like_accepted_iff (field pattern : Text) :
    PredicateAccepted G eng base [wordAtom field, wordAtom "LIKE".toList, .atom (.str pattern)] ↔
      ∃ d, FieldPath eng base field d ∧ lower d.sfType ∈ textLikeTypes := by
  constructor
  · intro h
    cases h with
    | like _ _ d hfield htext => exact ⟨d, hfield, htext⟩
  · intro hgiven
    obtain ⟨d, hfield, htext⟩ := hgiven
    exact .like field pattern d hfield htext

theorem literalFits_str (sfType s : Text) :
    LiteralFits G sfType (.str s) ↔ lower sfType ∈ quotedTypes := by
  constructor
  · intro hgiven
    obtain ⟨_, h⟩ := hgiven
    exact h
  · exact .quoted s

theorem literalFits_word (sfType w : Text) :
    LiteralFits G sfType (.word w) ↔
      lower sfType ∈ numericTypes ∧ ∃ n : Numeral, G.Admits n ∧ w = n.text := by
  constructor
  · intro h
    cases h with
    | number n hforms h => exact ⟨h, n, hforms, rfl⟩
  · intro hgiven
    obtain ⟨h, n, hforms, rfl⟩ := hgiven
    exact .number n hforms h

theorem filterFits_contains (sfType : Text) (f : ReportFilter) (hop : f.op = "contains".toList) :
    FilterFits G sfType f ↔ lower sfType ∈ textLikeTypes := by
  rw [FilterFits, if_pos hop]

theorem filterOp_not_contains (op : Text) (cmp : CompareOp) (h : filterOp op = some cmp) :
    op ≠ "contains".toList := by
  intro heq
  subst heq
  cases h

theorem sends_accepted_iff {f : ReportFilter} {p : Predicate}
    (h : Sends eng tokenMap base f p) :
    PredicateAccepted G eng base p.tokens ↔ ∀ field, ResolvesField eng tokenMap base f.field field →
      ∃ d, FieldPath eng base field.field d ∧ FilterFits G d.sfType f := by
  cases h with
  | contains field hfield _ hop =>
    rw [forall_resolves hfield]
    simp only [filterFits_contains _ f hop]
    exact like_accepted_iff field.field _
  | number field op hfield _ hop hnumeric =>
    rw [forall_resolves hfield]
    simp only [FilterFits, if_neg (filterOp_not_contains f.op op hop), if_pos hnumeric]
    refine (compare_accepted_iff field.field op.text (.word f.value)).trans ?_
    simp only [literalFits_word]
  | text field op hfield _ hop hnumeric =>
    rw [forall_resolves hfield]
    simp only [FilterFits, if_neg (filterOp_not_contains f.op op hop), hnumeric,
      if_neg Bool.false_ne_true]
    refine (compare_accepted_iff field.field op.text (.str f.value)).trans ?_
    simp only [literalFits_str]

end Predicates

theorem forall₂_forall_iff {α β : Type} {R : α → β → Prop} {P : α → Prop} {Q : β → Prop}
    {as : List α} {bs : List β} (h : List.Forall₂ R as bs) (hiff : ∀ a b, R a b → (Q b ↔ P a)) :
    (∀ b ∈ bs, Q b) ↔ ∀ a ∈ as, P a := by
  induction h with
  | nil => exact iff_of_true (List.forall_mem_nil _) (List.forall_mem_nil _)
  | cons hab _ ih => rw [List.forall_mem_cons, List.forall_mem_cons, hiff _ _ hab, ih]

theorem conjunction_leaves (ps : List Predicate) (P : Leaf Atom → Prop) :
    (∀ c, conjunction ps = some c → ∀ leaf ∈ c.leaves, P leaf) ↔ ∀ p ∈ ps, P p.tokens := by
  cases ps with
  | nil =>
    refine iff_of_true ?_ (List.forall_mem_nil _)
    intro c hc
    cases hc
  | cons p ps =>
    have hsome : conjunction (p :: ps) = some (.mkAll ((p :: ps).map fun q => .leaf q.tokens)) := rfl
    constructor
    · intro h q hq
      refine h _ hsome q.tokens ?_
      rw [Cond.mem_leaves_mkAll]
      exact ⟨_, List.mem_map_of_mem hq, List.mem_singleton_self _⟩
    · intro h c hc leaf hleaf
      rw [← Option.some.inj (hsome.symm.trans hc), Cond.mem_leaves_mkAll] at hleaf
      obtain ⟨_, hmem, hleaf⟩ := hleaf
      obtain ⟨q, hq, rfl⟩ := List.mem_map.mp hmem
      rw [List.mem_singleton.mp hleaf]
      exact h q hq

/-! ### The report -/

theorem isBase_unique {m : ReportMetadata} {base base' : Text} (h : IsBase eng m base)
    (h' : IsBase eng m base') : base = base' := by
  obtain ⟨_, c, hc, rfl⟩ := h
  obtain ⟨_, c', hc', rfl⟩ := h'
  rw [hc] at hc'
  rw [Option.some.inj (Except.ok.inj hc')]

theorem translated_acceptable_iff (m : ReportMetadata) (soql : Text) (base : Text)
    (fields : List ReportField) (ps : List Predicate)
    (hcolumns : List.Forall₂ (ResolvesField eng tokenMap base) m.columns fields)
    (hfilters : List.Forall₂ (Sends eng tokenMap base) m.filters ps)
    (hparse : parseSelect soql =
      some ⟨itemTokens (fields.map ReportField.field), base, conjunction ps, none⟩) :
    Acceptable G eng soql ↔ ReportFits G eng tokenMap m base := by
  have hselect := select_distinct_iff hcolumns
  have hwhere := (conjunction_leaves ps (PredicateAccepted G eng base)).trans
    (forall₂_forall_iff hfilters fun _ _ hsends => sends_accepted_iff hsends)
  constructor
  · intro hgiven
    obtain ⟨st, hst, hnodup, haccepted⟩ := hgiven
    rw [hparse] at hst
    obtain rfl := Option.some.inj hst
    exact ⟨hselect.mp hnodup, hwhere.mp haccepted⟩
  · intro h
    exact ⟨_, hparse, hselect.mpr h.columns, hwhere.mpr h.filters⟩

/-- Nothing else is looked at: a report that nothing blocks is sent whether or not
it fits. -/
theorem report_acceptable_iff (hnames : NamesIdentify eng) (reportId body : Text)
    (out : ReportSoqlBindData) (h : reportSoqlBind eng tokenMap reportId body = .ok out) :
    (out.translatable = true → Acceptable G eng out.soql) ↔
      (∃ r, Raised eng tokenMap (readReportMetadata body) r) ∨
        ∀ base, IsBase eng (readReportMetadata body) base →
          ReportFits G eng tokenMap (readReportMetadata body) base := by
  have hfree := (bind_blocks eng tokenMap _ reportId out h).1
  by_cases hraised : ∃ r, Raised eng tokenMap (readReportMetadata body) r
  · refine iff_of_true (fun htrue => ?_) (Or.inl hraised)
    exact absurd hraised (not_exists.mpr (hfree.mp htrue))
  · have htrue : out.translatable = true := hfree.mpr (not_exists.mp hraised)
    obtain ⟨c, fields, ps, _, _, hbase, _, _, hcolumns, hfilters, hparse⟩ :=
      bind_translates eng tokenMap _ hnames reportId out h htrue
    rw [or_iff_right hraised, forall_prop_of_true htrue,
      translated_acceptable_iff G eng tokenMap _ _ c.obj fields ps hcolumns hfilters hparse]
    constructor
    · intro hfits base hother
      rw [isBase_unique eng hother hbase]
      exact hfits
    · intro hfits
      exact hfits c.obj hbase

end Accepts

/-! ### A name that is a number -/

theorem nameOrg_path (sfType : String) (field : Text) (d : ObjectField) (base : Text)
    (h : FieldPath (nameOrg sfType) base field d) : d.sfType = sfType.toList := by
  cases h with
  | own o _ hd hf =>
    rw [← Except.ok.inj hd] at hf
    rw [List.mem_singleton.mp hf]
    rfl
  | related o _ r _ _ hd hr hname =>
    rw [← Except.ok.inj hd] at hr
    rw [List.mem_singleton.mp hr] at hname
    exact absurd rfl hname

/-- A name is compared with a number that has no quotes. -/
theorem bare_number_on_text : ∃ out,
    reportSoqlBind (nameOrg "string") [] "00O1".toList
      (accountReport nameColumn "equals" "5").text = .ok out ∧
    out.translatable = true ∧ out.soql = "SELECT Name FROM Account WHERE Name = 5".toList ∧
    ∀ G, ¬ Acceptable G (nameOrg "string") out.soql := by
  have hsent : (reportSoqlBind (nameOrg "string") [] "00O1".toList
      (accountReport nameColumn "equals" "5").text).map (fun out => (out.translatable, out.soql)) =
        .ok (true, "SELECT Name FROM Account WHERE Name = 5".toList) := by decide +kernel
  have hparse : parseSelect "SELECT Name FROM Account WHERE Name = 5".toList =
      some ⟨[wordAtom "Name".toList], "Account".toList,
        some (.leaf [wordAtom "Name".toList, .atom (.sym "=".toList), wordAtom "5".toList]), none⟩ := by
    rfl
  obtain ⟨out, h, hpair⟩ := Fallible.map_ok hsent
  obtain ⟨htrue, hsoql⟩ := Prod.mk.inj hpair
  refine ⟨out, h, htrue, hsoql, ?_⟩
  intro G hgiven
  obtain ⟨st, hst, _, haccepted⟩ := hgiven
  rw [hsoql, hparse] at hst
  obtain rfl := Option.some.inj hst
  obtain ⟨d, hfield, hliteral⟩ := (compare_accepted_iff _ _ _).mp
    (haccepted _ rfl _ (List.mem_singleton_self _))
  rw [nameOrg_path "string" _ d _ hfield, literalFits_word] at hliteral
  exact absurd hliteral.1 (by decide)

/-- A text is looked for in a name. -/
theorem contains_on_text : ∃ out,
    reportSoqlBind (nameOrg "string") [] "00O1".toList
      (accountReport nameColumn "contains" "a' OR 'b").text = .ok out ∧
    out.translatable = true ∧ Acceptable plainForms (nameOrg "string") out.soql := by
  have hflag : (reportSoqlBind (nameOrg "string") [] "00O1".toList
      (accountReport nameColumn "contains" "a' OR 'b").text).map
        ReportSoqlBindData.translatable = .ok true := by decide +kernel
  have hcolumns : (readReportMetadata (accountReport nameColumn "contains" "a' OR 'b").text).columns =
      ["NAME".toList] := by decide +kernel
  have hfilters : (readReportMetadata (accountReport nameColumn "contains" "a' OR 'b").text).filters =
      [⟨"NAME".toList, "contains".toList, "a' OR 'b".toList⟩] := by decide +kernel
  have hname : ∀ base, resolveReportField (nameOrg "string") [] base "NAME".toList =
      .ok (false, some ⟨"Name".toList, true, []⟩) := fun base => rfl
  have hfits : ∀ base, ReportFits plainForms (nameOrg "string") []
      (readReportMetadata (accountReport nameColumn "contains" "a' OR 'b").text) base := by
    intro base
    constructor
    · rw [hcolumns]
      exact List.nodup_singleton _
    · rw [hfilters]
      intro f hf field hfield
      rw [List.mem_singleton.mp hf] at hfield ⊢
      rw [resolves_unique hfield ⟨false, hname base⟩]
      refine ⟨_, .own _ (describedField "Name" "string") rfl (List.mem_singleton_self _), ?_⟩
      exact (filterFits_contains _ _ rfl).mpr (by decide)
  obtain ⟨out, h, htrue⟩ := Fallible.map_ok hflag
  exact ⟨out, h, htrue, (report_acceptable_iff plainForms (nameOrg "string") []
    (nameOrg_names "string") "00O1".toList _ out h).mpr (Or.inr fun base _ => hfits base) htrue⟩

end DuckdbSalesforce
