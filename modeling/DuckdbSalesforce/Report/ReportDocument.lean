import DuckdbSalesforce.Json.MemberArrays
import DuckdbSalesforce.Report.CandidateSound

/-!
# What a describe says of a report

The members of a report describe, and what is owed to the report that they spell
out. A member that a lookup misses is lost without a trace.
-/

namespace DuckdbSalesforce
open JsonText

/-! ### What the describe says -/

structure SpellsFilter (o : ObjectText) (f : ReportFilter) : Prop where
  field : codeUnits f.field = stringUnits (valueOf o "column".toList)
  op : codeUnits f.op = stringUnits (valueOf o "operator".toList)
  value : codeUnits f.value = stringUnits (valueOf o "value".toList)

/-- The members of `reportMetadata` that decide about the candidate. -/
structure SpellsMetadata (o : ObjectText) (m : ReportMetadata) : Prop where
  reportType : codeUnits m.reportType =
    match nestedObject o "reportType".toList with
    | none => []
    | some t => stringUnits (valueOf t "type".toList)
  format : codeUnits m.format = stringUnits (valueOf o "reportFormat".toList)
  columns : List.Forall₂ SaysText m.columns (stringsOf o "detailColumns".toList)
  filters : List.Forall₂ SpellsFilter (objectsOf o "reportFilters".toList) m.filters
  crossFilters : m.crossFilters = (objectsOf o "crossFilters".toList).map ObjectText.text
  booleanFilter : codeUnits m.booleanFilter = stringUnits (valueOf o "reportBooleanFilter".toList)

/-- The describe spells out this report. The columns of its type name the object,
unless the type itself does. -/
structure SpellsReport (body : ObjectText) (m : ReportMetadata) : Prop where
  metadata : ∃ o, nestedObject body "reportMetadata".toList = some o ∧ SpellsMetadata o m
  shape : '$' ∉ m.reportType → ReportTypeShape body
  typeObject : '$' ∉ m.reportType →
    UniquePrefix (columnPrefixes (firstColumns body)) m.typeObject

/-! ### When it is read -/

/-- A member that the lookup finds, and no string with `\b`, `\f` or `\u`. -/
structure TextFound (o : ObjectText) (key : Text) : Prop where
  found : MemberFound o key
  plain : PlainMember o key

structure MetadataFound (o : ObjectText) : Prop where
  reportType : MemberFound o "reportType".toList
  type : ∀ t, nestedObject o "reportType".toList = some t → TextFound t "type".toList
  format : TextFound o "reportFormat".toList
  columns : ArraySafe o "detailColumns".toList PlainStrings
  filters : ArraySafe o "reportFilters".toList AllObjects
  filter : ∀ f ∈ objectsOf o "reportFilters".toList,
    TextFound f "column".toList ∧ TextFound f "operator".toList ∧ TextFound f "value".toList
  crossFilters : ArraySafe o "crossFilters".toList AllObjects
  booleanFilter : TextFound o "reportBooleanFilter".toList

/-- Each member that is read is found, and the strings are plain. -/
structure ReportFound (body : ObjectText) (reportType : Text) : Prop where
  metadata : MemberFound body "reportMetadata".toList
  members : ∀ o, nestedObject body "reportMetadata".toList = some o → MetadataFound o
  type : '$' ∉ reportType → ReportTypeRead body

/-! ### What is read -/

theorem getString_says (o : ObjectText) (key t : Text) (h : TextFound o key)
    (hsaid : codeUnits t = stringUnits (valueOf o key)) : getString o.text key = t := by
  apply codeUnits_injective
  rw [hsaid]
  exact getString_plain o key h.found h.plain

theorem texts_unique (as bs : List Text) (units : List (List ℕ))
    (ha : List.Forall₂ SaysText as units) (hb : List.Forall₂ SaysText bs units) : as = bs := by
  induction ha generalizing bs with
  | nil =>
    cases hb
    rfl
  | cons h _ ih =>
    cases hb with
    | cons h' hrest =>
      have hunits : codeUnits _ = codeUnits _ := Eq.trans h (Eq.symm h')
      rw [codeUnits_injective _ _ hunits, ih _ hrest]

theorem filters_read (os : List ObjectText) (fs : List ReportFilter)
    (hspells : List.Forall₂ SpellsFilter os fs)
    (hfound : ∀ o ∈ os,
      TextFound o "column".toList ∧ TextFound o "operator".toList ∧ TextFound o "value".toList) :
    (os.map ObjectText.text).map readFilter = fs := by
  induction hspells with
  | nil => rfl
  | @cons o f os fs h _ ih =>
    obtain ⟨hcolumn, hop, hvalue⟩ := hfound o List.mem_cons_self
    have hfilter : readFilter o.text = f := by
      rw [readFilter, getString_says o _ _ hcolumn h.field, getString_says o _ _ hop h.op,
        getString_says o _ _ hvalue h.value]
    rw [List.map_cons, List.map_cons, hfilter, ih fun o' ho' => hfound o' (List.mem_cons_of_mem _ ho')]

theorem uniquePrefix_unique (prefixes : List (List ℕ)) (a b : Text)
    (ha : UniquePrefix prefixes a) (hb : UniquePrefix prefixes b) : a = b := by
  by_cases hone : ∃ p, ∀ q, q ∈ prefixes ↔ q = p
  · obtain ⟨p, hp⟩ := hone
    exact codeUnits_injective a b ((ha.1 p hp).trans (hb.1 p hp).symm)
  · rw [ha.2 hone, hb.2 hone]

/-- Two reports that differ at most in their name, and in a type's object that is
not asked for. -/
structure SameReport (m m' : ReportMetadata) : Prop where
  candidates : baseCandidates m = baseCandidates m'
  format : m.format = m'.format
  columns : m.columns = m'.columns
  filters : m.filters = m'.filters
  crossFilters : m.crossFilters = m'.crossFilters
  booleanFilter : m.booleanFilter = m'.booleanFilter

section Same
variable {m m' : ReportMetadata} (h : SameReport m m')
include h

theorem SameReport.translates (eng : MetadataEngine) (tokenMap soql : Text) :
    Translates eng tokenMap m soql ↔ Translates eng tokenMap m' soql := by
  unfold Translates
  rw [h.candidates, h.columns, h.filters]

theorem SameReport.raised (eng : MetadataEngine) (tokenMap : Text) (r : BlockReason) :
    Raised eng tokenMap m r ↔ Raised eng tokenMap m' r := by
  have hshape : ShapeRaises m = ShapeRaises m' := by
    funext q
    unfold ShapeRaises
    rw [h.format, h.crossFilters]
  have hbase : IsBase eng m = IsBase eng m' := by
    funext base
    unfold IsBase
    rw [hshape, h.candidates]
  unfold Raised BaseRaises
  rw [hshape, hbase, h.candidates, h.columns, h.filters, h.booleanFilter]

end Same

theorem metadata_read (body : ObjectText) (m : ReportMetadata) (hspells : SpellsReport body m)
    (hfound : ReportFound body m.reportType) : SameReport (readReportMetadata body.text) m := by
  obtain ⟨o, ho, hspelled⟩ := hspells.metadata
  have hmembers := hfound.members o ho
  have hobject : extractObject body.text "reportMetadata".toList = o.text := by
    rw [extractObject_nested body _ hfound.metadata, ho]
    rfl
  have htype : getString (extractObject o.text "reportType".toList) "type".toList = m.reportType := by
    have hsaid := hspelled.reportType
    rw [extractObject_nested o _ hmembers.reportType]
    cases ht : nestedObject o "reportType".toList with
    | none =>
      rw [ht] at hsaid
      rw [codeUnits_eq_nil _ hsaid]
      rfl
    | some t =>
      rw [ht] at hsaid
      exact getString_says t _ _ (hmembers.type t ht) hsaid
  have hcolumns : getStringArray o.text "detailColumns".toList = m.columns :=
    texts_unique _ _ _ (getStringArray_safe hmembers.columns) hspelled.columns
  have hfilters : (getObjectArray o.text "reportFilters".toList).map readFilter = m.filters := by
    rw [getObjectArray_safe hmembers.filters]
    exact filters_read _ _ hspelled.filters hmembers.filter
  have hcross : getObjectArray o.text "crossFilters".toList = m.crossFilters := by
    rw [getObjectArray_safe hmembers.crossFilters, hspelled.crossFilters]
  have hformat := getString_says o _ _ hmembers.format hspelled.format
  have hlogic := getString_says o _ _ hmembers.booleanFilter hspelled.booleanFilter
  rw [readReportMetadata]
  simp only [hobject, htype, hcolumns, hfilters, hcross, hformat, hlogic]
  refine ⟨?_, rfl, rfl, rfl, rfl, rfl⟩
  unfold baseCandidates
  by_cases hdollar : '$' ∈ m.reportType
  · simp only [afterDollar, if_pos hdollar]
  · have hobject : firstCategoryUniqueObject body.text = m.typeObject :=
      uniquePrefix_unique _ _ _ (uniqueObject_read body (hspells.shape hdollar) (hfound.type hdollar))
        (hspells.typeObject hdollar)
    simp only [afterDollar, if_neg hdollar, hobject]

/-- What is owed to the report that a describe spells out. -/
def CandidateOwed (eng : MetadataEngine) (tokenMap : Text) (m : ReportMetadata)
    (out : ReportSoqlBindData) : Prop :=
  (out.translatable = true → Translates eng tokenMap m out.soql) ∧
    (out.translatable = false → out.soql = [] ∧
      ∃ r, out.blockedBy = r.text ∧ Raised eng tokenMap m r ∧
        ∀ q, Raised eng tokenMap m q → r.rank ≤ q.rank)

theorem candidate_soql (eng : MetadataEngine) (hnames : NamesIdentify eng)
    (tokenMap reportId : Text) (body : ObjectText) (m : ReportMetadata)
    (hspells : SpellsReport body m) (hfound : ReportFound body m.reportType)
    (out : ReportSoqlBindData) (h : reportSoqlBind eng tokenMap reportId body.text = .ok out) :
    CandidateOwed eng tokenMap m out := by
  have hsame := metadata_read body m hspells hfound
  obtain ⟨htranslates, hblocks⟩ := bindMetadata_candidate eng tokenMap _ hnames reportId out h
  refine ⟨fun htrue => (hsame.translates eng tokenMap out.soql).mp (htranslates htrue),
    fun hfalse => ?_⟩
  obtain ⟨hempty, r, htext, hraised, hleast⟩ := hblocks hfalse
  refine ⟨hempty, r, htext, (hsame.raised eng tokenMap r).mp hraised, fun q hq => ?_⟩
  exact hleast q ((hsame.raised eng tokenMap q).mpr hq)

/-! ### A report and its name -/

def quotedFilter : JsonText.Members :=
  memberOf "column" (textOf "NAME") (memberOf "operator" (textOf "contains")
    (memberOf "value" (textOf "a' OR 'b") .nil))

/-- A tabular report of account names, with a quote in the value of its filter. -/
def namedMembers (name : String) : JsonText.Members :=
  memberOf "name" (textOf name) (memberOf "reportType"
    (objectOf (memberOf "type" (textOf "AccountList") .nil))
    (memberOf "reportFormat" (textOf "TABULAR")
      (memberOf "detailColumns" (.array .none nameColumn)
        (memberOf "reportFilters" (.array .none (.cons .none (objectOf quotedFilter) .none .nil))
          .nil))))

def namedReport (name : String) : ObjectText :=
  recordObject .none (memberOf "reportMetadata" (objectOf (namedMembers name)) .nil)

def namedMetadata (name : String) : ReportMetadata where
  name := name.toList
  reportType := "AccountList".toList
  format := "TABULAR".toList
  columns := ["NAME".toList]
  filters := [⟨"NAME".toList, "contains".toList, "a' OR 'b".toList⟩]
  crossFilters := []
  booleanFilter := []
  typeObject := []

theorem namedReport_spells (name : String) : SpellsReport (namedReport name) (namedMetadata name) := by
  refine ⟨⟨recordObject .none (namedMembers name), rfl, rfl, rfl, .cons rfl .nil, ?_, rfl, rfl⟩,
    fun _ => ⟨?_, ?_, ?_⟩, fun _ => uniquePrefix_none⟩
  · exact .cons ⟨rfl, rfl, rfl⟩ .nil
  · exact fun _ h => nomatch h
  · exact fun _ _ h => nomatch h
  · exact List.forall_mem_nil _

theorem textFound_string (o : ObjectText) (key : Text) (f : Found) (t : String)
    (hfind : o.find key = some f) (hvalue : f.value = textOf t)
    (hpos : findValue o.text key = some f.head.length)
    (hplain : ∀ x ∈ spell t.toList, plainlyEscaped x = true) : TextFound o key := by
  refine ⟨?_, (plainMember_found o key f hfind).mpr fun items hitems => ?_⟩
  · rw [MemberFound, hfind, hpos]
    rfl
  · rw [hvalue] at hitems
    cases hitems
    exact hplain

theorem textFound_none (o : ObjectText) (key : Text) (hfind : o.find key = none)
    (hpos : findValue o.text key = none) : TextFound o key := by
  refine ⟨?_, fun m items hm => ?_⟩
  · rw [MemberFound, hfind, hpos]
    rfl
  · rw [hfind] at hm
    cases hm

theorem arraySafe_found (o : ObjectText) (key : Text) (f : Found) (Wanted : Elements → Prop)
    (hfind : o.find key = some f) (hpos : findValue o.text key = some f.head.length)
    (hwanted : ∀ lead elements, f.value = .array lead elements → Wanted elements) :
    ArraySafe o key Wanted := by
  obtain ⟨htext, hname, _⟩ := o.find_spec key f hfind
  rw [← htext] at hpos
  refine ⟨fun g hg => ?_, fun hnone => ?_⟩
  · rw [hfind, Option.some.injEq] at hg
    rw [← hg]
    exact ⟨(findValue_found_iff f key hname).mp hpos, hwanted⟩
  · rw [hfind] at hnone
    cases hnone

theorem arraySafe_none (o : ObjectText) (key : Text) (Wanted : Elements → Prop)
    (hfind : o.find key = none) (hpos : findValue o.text key = none) : ArraySafe o key Wanted := by
  refine ⟨fun g hg => ?_, fun _ => (findValue_none_iff o.text key).mp hpos⟩
  rw [hfind] at hg
  cases hg

theorem quotedFilter_found :
    TextFound (recordObject .none quotedFilter) "column".toList ∧
      TextFound (recordObject .none quotedFilter) "operator".toList ∧
      TextFound (recordObject .none quotedFilter) "value".toList :=
  ⟨textFound_string _ _ _ "NAME" rfl rfl (by decide +kernel) (by decide),
    textFound_string _ _ _ "contains" rfl rfl (by decide +kernel) (by decide),
    textFound_string _ _ _ "a' OR 'b" rfl rfl (by decide +kernel) (by decide)⟩

theorem namesMembers_found : MetadataFound (recordObject .none (namedMembers "Names")) where
  reportType := by
    unfold MemberFound
    decide +kernel
  type := by
    intro t ht
    rw [← Option.some.inj ht]
    exact textFound_string _ _ _ "AccountList" rfl rfl (by decide +kernel) (by decide)
  format := textFound_string _ _ _ "TABULAR" rfl rfl (by decide +kernel) (by decide)
  columns := by
    refine arraySafe_found _ _ _ _ rfl (by decide +kernel) fun lead elements hvalue => ?_
    cases hvalue
    exact ⟨⟨_, rfl, by decide⟩, trivial⟩
  filters := by
    refine arraySafe_found _ _ _ _ rfl (by decide +kernel) fun lead elements hvalue => ?_
    cases hvalue
    exact ⟨⟨_, _, rfl⟩, trivial⟩
  filter := by
    intro f hf
    rw [List.mem_singleton.mp hf]
    exact quotedFilter_found
  crossFilters := arraySafe_none _ _ _ rfl (by decide +kernel)
  booleanFilter := textFound_none _ _ rfl (by decide +kernel)

theorem namesReport_found : ReportFound (namedReport "Names") "AccountList".toList := by
  refine ⟨?_, ?_, fun _ => ⟨?_, ?_, ?_⟩⟩
  · unfold MemberFound
    decide +kernel
  · intro o ho
    rw [← Option.some.inj ho]
    exact namesMembers_found
  · refine ⟨(fun _ h => nomatch h), fun _ => (findValue_none_iff _ _).mp ?_⟩
    decide +kernel
  · exact fun _ h => nomatch h
  · exact List.forall_mem_nil _

/-- A quote in the value of a filter. -/
theorem quoted_report : ∃ out,
    reportSoqlBind (nameOrg "string") [] "00O1".toList (namedReport "Names").text = .ok out ∧
      out.translatable = true ∧ CandidateOwed (nameOrg "string") [] (namedMetadata "Names") out := by
  have hflag : (reportSoqlBind (nameOrg "string") [] "00O1".toList (namedReport "Names").text).map
      ReportSoqlBindData.translatable = .ok true := by decide +kernel
  obtain ⟨out, h, htrue⟩ := Fallible.map_ok hflag
  exact ⟨out, h, htrue, candidate_soql (nameOrg "string") (nameOrg_names "string") [] "00O1".toList
    (namedReport "Names") (namedMetadata "Names") (namedReport_spells "Names") namesReport_found out h⟩

/-- A report with the name `reportFilters` is translated without its filter. -/
theorem named_filters_lost :
    ¬ ∀ (eng : MetadataEngine) (tokenMap reportId : Text) (body : ObjectText) (m : ReportMetadata)
      (out : ReportSoqlBindData), NamesIdentify eng → SpellsReport body m →
      reportSoqlBind eng tokenMap reportId body.text = .ok out → CandidateOwed eng tokenMap m out := by
  intro hclaim
  have hread : (reportSoqlBind (nameOrg "string") [] "00O1".toList
      (namedReport "reportFilters").text).map (fun out => (out.translatable, out.soql)) =
      .ok (true, "SELECT Name FROM Account".toList) := by decide +kernel
  obtain ⟨out, h, hout⟩ := Fallible.map_ok hread
  have hflag : out.translatable = true := congrArg Prod.fst hout
  have hsoql : out.soql = "SELECT Name FROM Account".toList := congrArg Prod.snd hout
  obtain ⟨base, fields, ps, _, _, _, _, hps, hparse⟩ :=
    (hclaim (nameOrg "string") [] "00O1".toList _ _ out (nameOrg_names "string")
      (namedReport_spells "reportFilters") h).1 hflag
  have hnone : (parseSelect "SELECT Name FROM Account".toList).map (fun st => st.condition.isSome) =
      some false := by decide +kernel
  rw [← hsoql, hparse] at hnone
  cases hps with
  | cons _ _ => cases hnone

end DuckdbSalesforce
