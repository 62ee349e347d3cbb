import DuckdbSalesforce.Report.CandidateSoql
import DuckdbSalesforce.Soql.Printed

/-!
# What a candidate owes

The fields and predicates that a report asks for, the reasons that block it, and
that what is resolved and quoted is one word or one literal.
-/

namespace DuckdbSalesforce

/-! ### What the org has -/

def keywords : List Text := ["AND".toList, "OR".toList, "NOT".toList] ++ clauseWords

/-- A name of SOQL: letters, digits and underscores behind a letter, no keyword. -/
def IsIdentifier (name : Text) : Prop := validSeg name = true ∧ upper name ∉ keywords

/-- The names of the org are identifiers; a field may be no relationship. -/
structure NamesIdentify (eng : MetadataEngine) : Prop where
  object : ∀ infos i, eng.globalInfos = .ok infos → i ∈ infos → IsIdentifier i.name
  field : ∀ key d f, eng.describe key = .ok d → f ∈ d.fields → IsIdentifier f.name
  relationship : ∀ key d f, eng.describe key = .ok d → f ∈ d.fields → f.relationshipName ≠ [] →
    IsIdentifier f.relationshipName

def Queryable (eng : MetadataEngine) (object : Text) : Prop :=
  ∃ names n, eng.globalObjects = .ok names ∧ n ∈ names ∧ ciEquals n object = true

/-- The token is one of the names that stand for the object's field. -/
def NamesField (eng : MetadataEngine) (object token name : Text) (filterable : Bool) : Prop :=
  ∃ d f c, eng.getObjectDescribe object = .ok d ∧ f ∈ d.fields ∧
    c ∈ MetadataEngine.fieldCandidates token ∧ lower f.name = lower c ∧ name = f.name ∧
    filterable = f.filterable

/-- The field that the token of a report stands for: the base's own, or one of
an object that a relationship of the base leads to. -/
inductive Shows (eng : MetadataEngine) (tokenMap base : Text) : Text → Text → Bool → Prop
  | own (token name : Text) (filterable : Bool) (hdot : '.' ∉ token)
      (h : NamesField eng base token name filterable) : Shows eng tokenMap base token name filterable
  | mapped (token name : Text) (filterable : Bool) (hdot : '.' ∉ token)
      (h : NamesField eng base (resolveReportTokenCandidate tokenMap base token) name filterable) :
    Shows eng tokenMap base token name filterable
  | qualified (object rest name : Text) (filterable : Bool) (hobject : '.' ∉ object)
      (hrest : '.' ∉ rest) (hbase : ciEquals object base = true)
      (h : NamesField eng base rest name filterable) :
    Shows eng tokenMap base (object ++ '.' :: rest) name filterable
  | related (relationship rest name target : Text) (filterable : Bool) (d : ObjectDescribe)
      (r : ObjectField) (hrelationship : '.' ∉ relationship) (hrest : '.' ∉ rest)
      (hd : eng.getObjectDescribe base = .ok d) (hr : r ∈ d.fields) (hname : r.relationshipName ≠ [])
      (hci : ciEquals r.relationshipName relationship = true) (htarget : r.referenceTo = [target])
      (hqueryable : Queryable eng target) (h : NamesField eng target rest name filterable) :
    Shows eng tokenMap base (relationship ++ '.' :: rest) (r.relationshipName ++ '.' :: name) filterable

/-! ### What is owed -/

def filterOp (op : Text) : Option CompareOp :=
  if op = "equals".toList then some .eq
  else if op = "notEqual".toList then some .ne
  else if op = "lessThan".toList then some .lt
  else if op = "greaterThan".toList then some .gt
  else none

/-- The predicate of a filter: on a filterable field, with its value as one
literal. -/
inductive FilterPredicate (eng : MetadataEngine) (tokenMap base : Text) (f : ReportFilter) :
    Predicate → Prop
  | compare (field : Text) (op : CompareOp) (v : Value)
      (hfield : Shows eng tokenMap base f.field field true) (hop : filterOp f.op = some op)
      (hv : v = .varchar f.value ∨ v = .scalar .double 0 f.value ∧ PlainLiteral v) :
    FilterPredicate eng tokenMap base f (.compare field op v)
  | contains (field : Text) (hfield : Shows eng tokenMap base f.field field true)
      (hop : f.op = "contains".toList) :
    FilterPredicate eng tokenMap base f (.like field ('%' :: f.value ++ ['%']))

def conjunction (ps : List Predicate) : Option SoqlCond :=
  if ps.isEmpty then none else some (.mkAll (ps.map fun p => .leaf p.tokens))

/-- The text selects the fields of the columns from the queryable base where the
predicates of the filters hold. -/
def Translates (eng : MetadataEngine) (tokenMap : Text) (m : ReportMetadata) (soql : Text) : Prop :=
  ∃ (base : Text) (fields : List Text) (ps : List Predicate),
    (∃ c ∈ baseCandidates m, c.obj = base ∧ c.source ≠ .columnPrefix) ∧ Queryable eng base ∧
    fields ≠ [] ∧
    List.Forall₂ (fun column field => ∃ b, Shows eng tokenMap base column field b) m.columns fields ∧
    List.Forall₂ (FilterPredicate eng tokenMap base) m.filters ps ∧
    parseSelect soql = some ⟨itemTokens fields, base, conjunction ps, none⟩

/-! ### The reasons that are there -/

section Reasons
variable (eng : MetadataEngine) (tokenMap : Text) (m : ReportMetadata)

def ShapeRaises (r : BlockReason) : Prop :=
  ciEquals m.format "TABULAR".toList = false ∧ r = .reportShape ∨
    m.crossFilters ≠ [] ∧ r = .crossFilter

/-- The base object is looked for when the shape does not block. -/
def BaseRaises (r : BlockReason) : Prop :=
  (∀ q, ¬ ShapeRaises m q) ∧
    (∀ c, acceptBase eng (baseCandidates m) = .ok (some c) → c.source = .columnPrefix) ∧
    r = .baseObject

def IsBase (base : Text) : Prop :=
  (∀ q, ¬ ShapeRaises m q) ∧ ∃ c, acceptBase eng (baseCandidates m) = .ok (some c) ∧ c.obj = base

def ColumnRaises (base column : Text) (r : BlockReason) : Prop :=
  ∃ meant, resolveReportField eng tokenMap base column = .ok (meant, none) ∧
    r = if meant then .relationship else .projectedField

def FieldRaises (base : Text) (f : ReportFilter) (isLike : Bool) (r : BlockReason) : Prop :=
  (∃ meant, resolveReportField eng tokenMap base f.field = .ok (meant, none) ∧
    r = if meant then .relationship else .filterField) ∨
  ∃ meant field, resolveReportField eng tokenMap base f.field = .ok (meant, some field) ∧
    (field.filterable = false ∧ r = .filterability ∨
      field.filterable = true ∧ isLike = false ∧ isNumericLiteral f.value = false ∧
        isAmbiguousLiteral f.value = true ∧ r = .literal)

def FilterRaises (base : Text → Prop) (f : ReportFilter) (r : BlockReason) : Prop :=
  safeOperator f.op = none ∧ r = .operator ∨
    ∃ b op isLike, base b ∧ safeOperator f.op = some (op, isLike) ∧
      FieldRaises eng tokenMap b f isLike r

/-- Everything that blocks the report, in no order. -/
def Raised (r : BlockReason) : Prop :=
  ShapeRaises m r ∨ BaseRaises eng m r ∨
    (∃ base, IsBase eng m base ∧ (∃ column ∈ m.columns, ColumnRaises eng tokenMap base column r)) ∨
    (∃ base, IsBase eng m base ∧ m.columns = [] ∧ r = .projectedField) ∨
    (∃ f ∈ m.filters, FilterRaises eng tokenMap (IsBase eng m) f r) ∨
    booleanFilterAndOnly m.booleanFilter m.filters.length = false ∧ r = .booleanFilter

end Reasons

/-! ### Resolution -/

section Resolution
variable (eng : MetadataEngine) (tokenMap base : Text)

theorem resolveField_names (object token name : Text) (filterable : Bool)
    (h : eng.resolveField object token = .ok (some (name, filterable))) :
    NamesField eng object token name filterable := by
  obtain ⟨d, hd, hmatch⟩ := Fallible.map_ok h
  obtain ⟨f, hf, hpair⟩ := Option.map_eq_some_iff.mp hmatch
  obtain ⟨c, hc, hfind⟩ := List.exists_of_findSome?_eq_some hf
  have hname : lower f.name = lower c := by simpa using List.find?_some hfind
  exact ⟨d, f, c, hd, List.mem_of_find?_eq_some hfind, hc, hname, (congrArg Prod.fst hpair).symm,
    (congrArg Prod.snd hpair).symm⟩

theorem isQueryable_true (object : Text) (h : eng.isQueryable object = .ok true) :
    Queryable eng object := by
  obtain ⟨names, hnames, hany⟩ := Fallible.map_ok h
  obtain ⟨n, hn, heq⟩ := List.any_eq_true.mp hany
  exact ⟨names, n, hnames, hn, heq⟩

theorem resolveRelationship_some (relationship target realRel : Text)
    (h : eng.resolveRelationship base relationship = .ok (some (target, realRel))) :
    ∃ d r, eng.getObjectDescribe base = .ok d ∧ r ∈ d.fields ∧ r.relationshipName ≠ [] ∧
      ciEquals r.relationshipName relationship = true ∧ r.referenceTo = [target] ∧
      Queryable eng target ∧ realRel = r.relationshipName := by
  obtain ⟨d, hd, hfind⟩ := Fallible.bind_ok h
  cases hr : d.fields.find? fun f =>
      f.relationshipName != [] && ciEquals f.relationshipName relationship with
  | none =>
    simp only [hr] at hfind
    cases hfind
  | some r =>
    simp only [hr] at hfind
    have hname := List.find?_some hr
    simp only [Bool.and_eq_true, bne_iff_ne] at hname
    match hrefs : r.referenceTo with
    | [] =>
      simp only [hrefs] at hfind
      cases hfind
    | _ :: _ :: _ =>
      simp only [hrefs] at hfind
      cases hfind
    | [t] =>
      simp only [hrefs] at hfind
      obtain ⟨queryable, hqueryable, hout⟩ := Fallible.map_ok hfind
      cases queryable with
      | false => cases hout
      | true =>
        obtain ⟨rfl, rfl⟩ := Prod.mk.inj (Option.some.inj hout)
        exact ⟨d, r, hd, List.mem_of_find?_eq_some hr, hname.1, hname.2, hrefs,
          isQueryable_true eng t hqueryable, rfl⟩

theorem resolvePlain_shows (token : Text) (f : ReportField) (hdot : '.' ∉ token)
    (h : resolvePlain eng tokenMap base token = .ok (some f)) :
    Shows eng tokenMap base token f.field f.filterable := by
  obtain ⟨own, hown, hrest⟩ := Fallible.bind_ok h
  cases own with
  | some r =>
    obtain ⟨name, filterable⟩ := r
    rw [← Option.some.inj (Except.ok.inj hrest)]
    exact .own token name filterable hdot (resolveField_names eng base token name filterable hown)
  | none =>
    simp only at hrest
    split at hrest
    · cases hrest
    · obtain ⟨other, hother, hf⟩ := Fallible.map_ok hrest
      obtain ⟨⟨name, filterable⟩, rfl, rfl⟩ := Option.map_eq_some_iff.mp hf
      exact .mapped token name filterable hdot (resolveField_names eng base _ name filterable hother)

theorem resolveReportField_shows (token : Text) (meant : Bool) (f : ReportField)
    (h : resolveReportField eng tokenMap base token = .ok (meant, some f)) :
    Shows eng tokenMap base token f.field f.filterable := by
  rcases findText_cases '.' token with ⟨hdot, hfind⟩ | ⟨object, rest, rfl, hobject, hfind⟩
  · simp only [resolveReportField, hfind] at h
    obtain ⟨r, hr, hpair⟩ := Fallible.map_ok h
    rw [(Prod.mk.inj hpair).2] at hr
    exact resolvePlain_shows eng tokenMap base token f hdot hr
  · have hdrop : (object ++ '.' :: rest).drop (object.length + 1) = rest := by
      rw [← List.drop_drop, List.drop_left, List.drop_one, List.tail_cons]
    simp only [resolveReportField, hfind, List.take_left, hdrop] at h
    split at h
    · cases h
    rename_i hrest
    split at h
    · rename_i hbase
      obtain ⟨own, hown, hpair⟩ := Fallible.map_ok h
      obtain ⟨⟨name, filterable⟩, rfl, rfl⟩ := Option.map_eq_some_iff.mp (Prod.mk.inj hpair).2
      exact .qualified object rest name filterable hobject hrest hbase
        (resolveField_names eng base rest name filterable hown)
    · obtain ⟨r, hr, hpair⟩ := Fallible.map_ok h
      rw [(Prod.mk.inj hpair).2] at hr
      obtain ⟨rel, hrel, hfinal⟩ := Fallible.bind_ok hr
      cases rel with
      | none => cases hfinal
      | some rel =>
        obtain ⟨target, realRel⟩ := rel
        obtain ⟨final, hresolved, hf⟩ := Fallible.map_ok hfinal
        obtain ⟨⟨name, filterable⟩, rfl, rfl⟩ := Option.map_eq_some_iff.mp hf
        obtain ⟨d, r, hd, hmem, hname, hci, hrefs, hqueryable, rfl⟩ :=
          resolveRelationship_some eng base object target realRel hrel
        exact .related object rest name target filterable d r hobject hrest hd hmem hname hci hrefs
          hqueryable (resolveField_names eng target rest name filterable hresolved)

def ResolvesField (token : Text) (f : ReportField) : Prop :=
  ∃ meant, resolveReportField eng tokenMap base token = .ok (meant, some f)

/-- The predicate that a filter is sent as: on a filterable field, with the value
as a pattern, as a number or as a text. -/
inductive Sends (f : ReportFilter) : Predicate → Prop
  | contains (field : ReportField) (hfield : ResolvesField eng tokenMap base f.field field)
      (hfilterable : field.filterable = true) (hop : f.op = "contains".toList) :
    Sends f (.like field.field ('%' :: f.value ++ ['%']))
  | number (field : ReportField) (op : CompareOp)
      (hfield : ResolvesField eng tokenMap base f.field field)
      (hfilterable : field.filterable = true) (hop : filterOp f.op = some op)
      (hnumeric : isNumericLiteral f.value = true) :
    Sends f (.compare field.field op (.scalar .double 0 f.value))
  | text (field : ReportField) (op : CompareOp)
      (hfield : ResolvesField eng tokenMap base f.field field)
      (hfilterable : field.filterable = true) (hop : filterOp f.op = some op)
      (hnumeric : isNumericLiteral f.value = false) :
    Sends f (.compare field.field op (.varchar f.value))

end Resolution

/-! ### Words -/

theorem upper_of_lower (a b : Text) (h : lower a = lower b) : upper a = upper b := by
  have hcase : ∀ t : Text, upper (lower t) = upper t := by
    intro t
    simp [upper, lower, List.map_map, Function.comp_def]
  rw [← hcase a, h, hcase b]

theorem bare_of_chars (w : Text) (hne : w ≠ []) (hchars : ∀ c ∈ w, isNameChar c = true ∨ c = '.')
    (hkey : upper w ∉ keywords) : isBareToken w = true := by
  have hword : w.all isWordChar = true := by
    rw [List.all_eq_true]
    intro c hc
    rcases hchars c hc with hname | rfl
    · simp only [isNameChar, Bool.or_eq_true, beq_iff_eq] at hname
      rcases hname with halnum | rfl
      · rw [isWordChar, halnum, Bool.true_or]
      · rfl
    · rfl
  simp only [isBareToken, hword, Bool.and_true, Bool.and_eq_true, bne_iff_ne, Bool.not_eq_true',
    List.contains_eq_mem, decide_eq_false_iff_not]
  exact ⟨hne, hkey⟩

theorem identifier_chars (name : Text) (h : IsIdentifier name) :
    name ≠ [] ∧ ∀ c ∈ name, isNameChar c = true := by
  obtain ⟨hseg, _⟩ := h
  cases name with
  | nil => cases hseg
  | cons c name =>
    simp only [validSeg, Bool.and_eq_true] at hseg
    exact ⟨List.cons_ne_nil c name, List.all_eq_true.mp hseg.2⟩

theorem bare_of_identifier (name : Text) (h : IsIdentifier name) : isBareToken name = true := by
  obtain ⟨hne, hchars⟩ := identifier_chars name h
  exact bare_of_chars name hne (fun c hc => Or.inl (hchars c hc)) h.2

theorem bare_of_path (relationship name : Text) (hr : IsIdentifier relationship)
    (hn : IsIdentifier name) : isBareToken (relationship ++ '.' :: name) = true := by
  refine bare_of_chars _ (by simp) ?_ ?_
  · intro c hc
    rcases List.mem_append.mp hc with hc | hc
    · exact Or.inl ((identifier_chars relationship hr).2 c hc)
    · rcases List.mem_cons.mp hc with rfl | hc
      · exact Or.inr rfl
      · exact Or.inl ((identifier_chars name hn).2 c hc)
  · intro hkey
    have hno : keywords.all (fun k => !k.contains '.') = true := by decide
    have hdot : '.' ∈ upper (relationship ++ '.' :: name) := by
      rw [upper, List.map_append, List.map_cons]
      exact List.mem_append_right _ List.mem_cons_self
    have hfree := List.all_eq_true.mp hno _ hkey
    simp only [List.contains_eq_mem, Bool.not_eq_true', decide_eq_false_iff_not] at hfree
    exact hfree hdot

theorem safeSegments_chars (seg t : Text) (h : safeSegments seg t = true) :
    ∀ c ∈ seg ++ t, isNameChar c = true ∨ c = '.' := by
  have hseg : ∀ seg : Text, validSeg seg = true → ∀ c ∈ seg, isNameChar c = true ∨ c = '.' := by
    intro seg hvalid c hc
    cases seg with
    | nil => cases hc
    | cons d seg =>
      simp only [validSeg, Bool.and_eq_true] at hvalid
      exact Or.inl (List.all_eq_true.mp hvalid.2 c hc)
  induction t generalizing seg with
  | nil =>
    rw [List.append_nil]
    exact hseg seg h
  | cons d t ih =>
    rw [safeSegments] at h
    split at h
    · rename_i hdot
      rw [Bool.and_eq_true] at h
      intro c hc
      rcases List.mem_append.mp hc with hc | hc
      · exact hseg seg h.1 c hc
      · rcases List.mem_cons.mp hc with rfl | hc
        · exact Or.inr hdot
        · exact ih [] h.2 c hc
    · have hall := ih (seg ++ [d]) h
      rw [List.append_assoc] at hall
      exact hall

/-- A queryable name is a word in whatever letter case. -/
theorem bare_of_queryable (eng : MetadataEngine) (hnames : NamesIdentify eng) (object : Text)
    (hsafe : isSafeIdentifier object = true) (h : Queryable eng object) :
    isBareToken object = true := by
  obtain ⟨names, n, hglobal, hn, hci⟩ := h
  obtain ⟨infos, hinfos, rfl⟩ := Fallible.map_ok hglobal
  obtain ⟨i, hi, rfl⟩ := List.mem_map.mp hn
  have hidentifier := hnames.object infos i hinfos (List.mem_filter.mp hi).1
  have hupper := upper_of_lower i.name object (by simpa [ciEquals] using hci)
  rw [isSafeIdentifier] at hsafe
  split at hsafe
  · cases hsafe
  · rename_i hne
    refine bare_of_chars object hne (safeSegments_chars [] object hsafe) ?_
    rw [← hupper]
    exact hidentifier.2

theorem shows_bare (eng : MetadataEngine) (hnames : NamesIdentify eng) (tokenMap base token : Text)
    (field : Text) (filterable : Bool) (h : Shows eng tokenMap base token field filterable) :
    isBareToken field = true := by
  have hfield : ∀ object token name filterable, NamesField eng object token name filterable →
      IsIdentifier name := by
    intro object token name filterable hgiven
    obtain ⟨d, f, _, hd, hf, _, _, rfl, _⟩ := hgiven
    exact hnames.field _ d f hd hf
  cases h with
  | own | mapped | qualified =>
    rename_i h
    exact bare_of_identifier _ (hfield _ _ _ _ h)
  | related relationship rest name target filterable d r _ _ hd hr hname _ _ _ h =>
    exact bare_of_path _ _ (hnames.relationship _ d r hd hr hname) (hfield _ _ _ _ h)

theorem numericLoop_chars (digit dot : Bool) (t : Text) (h : numericLoop digit dot t = true) :
    (∀ c ∈ t, c.isDigit = true ∨ c = '.') ∧ (digit = true ∨ ∃ c ∈ t, c.isDigit = true) := by
  induction t generalizing digit dot with
  | nil => exact ⟨List.forall_mem_nil _, Or.inl h⟩
  | cons c t ih =>
    rw [numericLoop] at h
    split at h
    · rename_i hc
      obtain ⟨hall, _⟩ := ih true dot h
      exact ⟨List.forall_mem_cons.mpr ⟨Or.inl hc, hall⟩, Or.inr ⟨c, List.mem_cons_self, hc⟩⟩
    · split at h
      · rename_i hdot
        obtain ⟨hall, hsome⟩ := ih digit true h
        refine ⟨List.forall_mem_cons.mpr ⟨Or.inr hdot.1, hall⟩, ?_⟩
        rcases hsome with hd | ⟨d, hd, hdigit⟩
        · exact Or.inl hd
        · exact Or.inr ⟨d, List.mem_cons_of_mem c hd, hdigit⟩
      · cases h

theorem numeric_bare (v : Text) (h : isNumericLiteral v = true) : isBareToken v = true := by
  rw [isNumericLiteral] at h
  split at h
  · cases h
  have hword : ∀ c : Char, c.isDigit = true ∨ c = '.' → isWordChar c = true := by
    intro c hor
    rcases hor with hc | rfl
    · exact isWordChar_digit c hc
    · rfl
  split at h
  · rename_i hsign
    obtain ⟨hall, hsome⟩ := numericLoop_chars false false v.tail h
    obtain ⟨d, hd, hdigit⟩ := hsome.resolve_left Bool.false_ne_true
    cases v with
    | nil => cases hd
    | cons c v =>
      refine isBareToken_of_digit _ ?_ d hdigit (List.mem_cons_of_mem c hd)
      rw [List.all_cons, Bool.and_eq_true]
      refine ⟨?_, List.all_eq_true.mpr fun e he => hword e (hall e he)⟩
      rcases hsign with hc | hc <;> rw [Option.some.inj hc] <;> rfl
  · obtain ⟨hall, hsome⟩ := numericLoop_chars false false v h
    obtain ⟨d, hd, hdigit⟩ := hsome.resolve_left Bool.false_ne_true
    exact isBareToken_of_digit v (List.all_eq_true.mpr fun e he => hword e (hall e he)) d hdigit hd

end DuckdbSalesforce
