import DuckdbSalesforce.Report.CandidateSpec

/-!
# The candidate is whole and safe

A translatable report is sent with one field for each column and one predicate
for each filter, and values stay inside of their literals. Otherwise the reason
that is shown is the first by rank of those that are there.
-/

namespace DuckdbSalesforce
open Precedence ThreeValued

/-! ### The reason that is shown -/

/-- The state shows the first of the reasons so far, and is blocked by any. -/
structure TracksReasons (raised : BlockReason → Prop) (s : SoqlBinding) : Prop where
  flag : s.translatable = s.blockedBy.isNone
  least : Least BlockReason.rank raised s.blockedBy

/-- A step that blocks for the one reason it has, or has none. -/
def Raises (reasons : BlockReason → Prop) (s s' : SoqlBinding) : Prop :=
  (∃ r, (∀ q, reasons q ↔ q = r) ∧ s'.translatable = false ∧
    s'.blockedBy = keep BlockReason.rank s.blockedBy r) ∨
  ((∀ q, ¬ reasons q) ∧ s'.translatable = s.translatable ∧ s'.blockedBy = s.blockedBy)

theorem tracks_congr {raised raised' : BlockReason → Prop} {s : SoqlBinding}
    (h : ∀ r, raised r ↔ raised' r) (ht : TracksReasons raised s) : TracksReasons raised' s :=
  ⟨ht.flag, least_congr h ht.least⟩

theorem tracks_free {raised : BlockReason → Prop} {s : SoqlBinding} (h : TracksReasons raised s) :
    s.translatable = true ↔ ∀ r, ¬ raised r := by
  have hleast := h.least
  rw [h.flag]
  cases hb : s.blockedBy with
  | none =>
    rw [hb] at hleast
    exact iff_of_true rfl hleast
  | some b =>
    rw [hb] at hleast
    exact iff_of_false Bool.false_ne_true fun hno => hno b hleast.1

theorem tracks_step {raised reasons : BlockReason → Prop} {s s' : SoqlBinding}
    (h : TracksReasons raised s) (hstep : Raises reasons s s') :
    TracksReasons (fun r => raised r ∨ reasons r) s' := by
  rcases hstep with ⟨r, hone, hflag, hkept⟩ | ⟨hno, hflag, hkept⟩
  · have hleast := least_keep h.least r
    rw [← hkept] at hleast
    obtain ⟨b, hb⟩ := least_isSome hleast (Or.inr rfl)
    refine ⟨by rw [hflag, hb]; rfl, least_congr (fun q => ?_) hleast⟩
    rw [hone q]
  · refine ⟨by rw [hflag, hkept, h.flag], ?_⟩
    rw [hkept]
    exact least_congr (fun q => (or_iff_left (hno q)).symm) h.least

theorem check_raises (bad : Prop) (reason : BlockReason) (s s' : SoqlBinding) (text : Text)
    (hbad : bad → s' = (s.block reason).caveat text) (hgood : ¬ bad → s' = s) :
    Raises (fun r => bad ∧ r = reason) s s' := by
  by_cases h : bad
  · rw [hbad h]
    exact Or.inl ⟨reason, fun q => and_iff_right h, rfl, rfl⟩
  · rw [hgood h]
    exact Or.inr ⟨fun q hq => h hq.1, rfl, rfl⟩

theorem raises_before {reasons : BlockReason → Prop} {s s' : SoqlBinding} (h : Raises reasons s s')
    (htrue : s'.translatable = true) : s.translatable = true := by
  rcases h with ⟨_, _, hflag, _⟩ | ⟨_, hflag, _⟩
  · rw [hflag] at htrue
    cases htrue
  · rw [← hflag]
    exact htrue

/-! ### Loops -/

section Loops
variable {α β : Type} {step : SoqlBinding → α → Except Text SoqlBinding}
  {reasons : α → BlockReason → Prop} {s t : SoqlBinding} {as : List α}

theorem loop_tracks {raised : BlockReason → Prop} (hs : TracksReasons raised s)
    (hraises : ∀ s a s', step s a = .ok s' → Raises (reasons a) s s')
    (hrun : Fallible.run step s as = .ok t) :
    TracksReasons (fun r => raised r ∨ ∃ a ∈ as, reasons a r) t := by
  refine Fallible.run_invariant step (fun done u =>
    TracksReasons (fun r => raised r ∨ ∃ a ∈ done, reasons a r) u) ?_ [] s t as ?_ hrun
  · intro done u a u' htracks hround
    refine tracks_congr (fun r => ?_) (tracks_step htracks (hraises u a u' hround))
    simp only [List.mem_append, List.mem_singleton, or_and_right, exists_or, exists_eq_left, or_assoc]
  · refine tracks_congr (fun r => ?_) hs
    simp

/-- What the rounds that do not block leave behind, item by item. -/
theorem loop_texts {texts : SoqlBinding → List Text} {R : α → β → Prop} {text : β → Text}
    (hnone : texts s = []) (hraises : ∀ s a s', step s a = .ok s' → Raises (reasons a) s s')
    (htexts : ∀ s a s', step s a = .ok s' → s'.translatable = true →
      ∃ b, R a b ∧ texts s' = texts s ++ [text b])
    (hrun : Fallible.run step s as = .ok t) (htrue : t.translatable = true) :
    ∃ bs, List.Forall₂ R as bs ∧ texts t = bs.map text := by
  refine Fallible.run_invariant step (fun done u => u.translatable = true →
    ∃ bs, List.Forall₂ R done bs ∧ texts u = bs.map text) ?_ [] s t as ?_ hrun htrue
  · intro done u a u' hdone hround hflag
    obtain ⟨bs, hbs, hbefore⟩ := hdone (raises_before (hraises u a u' hround) hflag)
    obtain ⟨b, hb, happend⟩ := htexts u a u' hround hflag
    refine ⟨bs ++ [b], List.rel_append hbs (.cons hb .nil), ?_⟩
    rw [happend, hbefore, List.map_append, List.map_singleton]
  · intro _
    exact ⟨[], .nil, hnone⟩

theorem loop_keeps {texts : SoqlBinding → List Text}
    (hkeeps : ∀ s a s', step s a = .ok s' → texts s' = texts s)
    (hrun : Fallible.run step s as = .ok t) : texts t = texts s := by
  refine Fallible.run_invariant step (fun _ u => texts u = texts s) ?_ [] s t as rfl hrun
  intro _ u a u' hdone hround
  exact (hkeeps u a u' hround).trans hdone

end Loops

section Stages
variable (eng : MetadataEngine) (tokenMap : Text) (m : ReportMetadata)

theorem shape_tracks :
    TracksReasons (ShapeRaises m) (checkCrossFilters m (checkFormat m (emptyBinding m))) := by
  have hempty : TracksReasons (fun _ => False) (emptyBinding m) := ⟨rfl, fun _ => not_false⟩
  have hformat : Raises (fun r => ciEquals m.format "TABULAR".toList = false ∧ r = .reportShape)
      (emptyBinding m) (checkFormat m (emptyBinding m)) :=
    check_raises _ _ _ _ _ (fun h => if_neg (by rw [h]; exact Bool.false_ne_true))
      fun h => if_pos (by simpa using h)
  have hcross : Raises (fun r => m.crossFilters ≠ [] ∧ r = .crossFilter)
      (checkFormat m (emptyBinding m)) (checkCrossFilters m (checkFormat m (emptyBinding m))) :=
    check_raises _ _ _ _ _ (fun h => if_neg h) fun h => if_pos (not_not.mp h)
  refine tracks_congr (fun r => ?_) (tracks_step (tracks_step hempty hformat) hcross)
  rw [ShapeRaises, false_or]

theorem unfound_base_raises (s s' : SoqlBinding) (hshape : ∀ q, ¬ ShapeRaises m q)
    (hnone : ∀ c, acceptBase eng (baseCandidates m) ≠ .ok (some c)) (hflag : s'.translatable = false)
    (hkept : s'.blockedBy = keep BlockReason.rank s.blockedBy .baseObject) :
    Raises (BaseRaises eng m) s s' ∧ ∀ base, none = some base ↔ IsBase eng m base := by
  refine ⟨Or.inl ⟨.baseObject, fun q => ?_, hflag, hkept⟩, fun base => ?_⟩
  · exact ⟨fun hq => hq.2.2, fun hq => ⟨hshape, fun c hc => absurd hc (hnone c), hq⟩⟩
  · exact iff_of_false (by simp) fun ⟨_, c, hc, _⟩ => hnone c hc

theorem found_base_raises (s : SoqlBinding) (c : BaseCandidate) (hshape : ∀ q, ¬ ShapeRaises m q)
    (haccept : acceptBase eng (baseCandidates m) = .ok (some c)) :
    Raises (BaseRaises eng m) s (acceptBinding m c s) ∧
      ∀ base, some c.obj = some base ↔ IsBase eng m base := by
  have hunique : ∀ d, acceptBase eng (baseCandidates m) = .ok (some d) → c = d := by
    intro d hd
    rw [haccept] at hd
    exact Option.some.inj (Except.ok.inj hd)
  constructor
  · rw [acceptBinding]
    by_cases hsource : c.source = .columnPrefix
    · rw [if_pos hsource]
      refine Or.inl ⟨.baseObject, fun q => ⟨fun hq => hq.2.2, fun hq => ⟨hshape, ?_, hq⟩⟩, rfl, rfl⟩
      intro d hd
      rw [← hunique d hd]
      exact hsource
    · rw [if_neg hsource]
      exact Or.inr ⟨fun q hq => hsource (hq.2.1 c haccept), rfl, rfl⟩
  · intro base
    constructor
    · intro h
      exact ⟨hshape, c, haccept, Option.some.inj h⟩
    · intro hgiven
      obtain ⟨_, d, hd, rfl⟩ := hgiven
      rw [hunique d hd]

theorem base_raises (s : SoqlBinding) (hs : TracksReasons (ShapeRaises m) s) :
    Raises (BaseRaises eng m) s (validateBase eng m s).1 ∧
      ∀ base, (validateBase eng m s).2 = some base ↔ IsBase eng m base := by
  have hfree := tracks_free hs
  rw [validateBase]
  cases hflag : s.translatable with
  | false =>
    have hblocked : ¬ ∀ q, ¬ ShapeRaises m q := by
      rw [← hfree, hflag]
      exact Bool.false_ne_true
    refine ⟨Or.inr ⟨fun q hq => hblocked hq.1, rfl, rfl⟩, fun base => ?_⟩
    exact iff_of_false (by simp) fun h => hblocked h.1
  | true =>
    have hshape := hfree.mp hflag
    rw [if_pos rfl]
    split
    · rename_i hnil
      refine unfound_base_raises eng m s _ hshape (fun c hc => ?_) rfl rfl
      rw [List.isEmpty_iff.mp hnil] at hc
      cases hc
    · cases haccept : acceptBase eng (baseCandidates m) with
      | error e =>
        refine unfound_base_raises eng m s _ hshape (fun c hc => ?_) rfl rfl
        rw [haccept] at hc
        cases hc
      | ok found =>
        cases found with
        | none =>
          refine unfound_base_raises eng m s _ hshape (fun c hc => ?_) rfl rfl
          rw [haccept] at hc
          cases hc
        | some c => exact found_base_raises eng m s c hshape haccept

/-! ### Columns -/

theorem columnStep_raises (base column : Text) (s s' : SoqlBinding)
    (h : columnStep eng tokenMap base s column = .ok s') :
    Raises (ColumnRaises eng tokenMap base column) s s' ∧ s'.clauses = s.clauses ∧
      (s'.translatable = true → ∃ f, ResolvesField eng tokenMap base column f ∧
        s'.soqlFields = s.soqlFields ++ [f.field]) := by
  obtain ⟨⟨meant, found⟩, hresolve, rfl⟩ := Fallible.map_ok h
  cases found with
  | some f =>
    refine ⟨Or.inr ⟨?_, rfl, rfl⟩, rfl, fun _ => ⟨f, ⟨meant, hresolve⟩, rfl⟩⟩
    intro q hgiven
    obtain ⟨meant', hnone, _⟩ := hgiven
    rw [hresolve] at hnone
    cases hnone
  | none =>
    refine ⟨Or.inl ⟨if meant then .relationship else .projectedField, ?_, rfl, rfl⟩, rfl,
      fun hflag => absurd hflag Bool.false_ne_true⟩
    intro q
    constructor
    · intro hgiven
      obtain ⟨meant', hnone, rfl⟩ := hgiven
      rw [hresolve] at hnone
      rw [(Prod.mk.inj (Except.ok.inj hnone)).1]
    · intro heq
      subst heq
      exact ⟨meant, hresolve, rfl⟩

theorem columns_run (base : Text) (raised : BlockReason → Prop) (s t : SoqlBinding)
    (hs : TracksReasons raised s) (hnone : s.soqlFields = []) (columns : List Text)
    (hrun : Fallible.run (columnStep eng tokenMap base) s columns = .ok t) :
    TracksReasons (fun r => raised r ∨ ∃ c ∈ columns, ColumnRaises eng tokenMap base c r) t ∧
      t.clauses = s.clauses ∧
      (t.translatable = true → ∃ fs, List.Forall₂ (ResolvesField eng tokenMap base) columns fs ∧
        t.soqlFields = fs.map ReportField.field) := by
  have hround := columnStep_raises eng tokenMap base
  have hraises : ∀ u column u', columnStep eng tokenMap base u column = .ok u' →
      Raises (ColumnRaises eng tokenMap base column) u u' :=
    fun u column u' h => (hround column u u' h).1
  refine ⟨loop_tracks hs hraises hrun, ?_, ?_⟩
  · exact loop_keeps (fun u column u' h => (hround column u u' h).2.1) hrun
  · exact loop_texts hnone hraises (fun u column u' h => (hround column u u' h).2.2) hrun

theorem columns_track (validated : Option Text) (raised : BlockReason → Prop) (s t : SoqlBinding)
    (hs : TracksReasons raised s) (hnone : s.soqlFields = [])
    (hrun : projectColumns eng tokenMap m validated s = .ok t) :
    TracksReasons (fun r => raised r ∨ (∃ base, validated = some base ∧
        ∃ c ∈ m.columns, ColumnRaises eng tokenMap base c r) ∨
      ∃ base, validated = some base ∧ m.columns = [] ∧ r = .projectedField) t ∧
      t.clauses = s.clauses ∧
      ∀ base, validated = some base → t.translatable = true → m.columns ≠ [] ∧
        ∃ fs, List.Forall₂ (ResolvesField eng tokenMap base) m.columns fs ∧
          t.soqlFields = fs.map ReportField.field := by
  cases validated with
  | none =>
    rw [← Except.ok.inj hrun]
    refine ⟨tracks_congr (fun r => ?_) hs, rfl, fun base hbase => by cases hbase⟩
    simp
  | some base =>
    obtain ⟨u, hcolumns, hcheck⟩ := Fallible.map_ok hrun
    obtain ⟨htracks, hclauses, hfields⟩ := columns_run eng tokenMap base raised s u hs hnone
      m.columns hcolumns
    have hempty : (u.soqlFields.isEmpty && m.columns.isEmpty) = true ↔ m.columns = [] := by
      rw [Bool.and_eq_true, List.isEmpty_iff, List.isEmpty_iff, and_iff_right_iff_imp]
      intro hnil
      rw [hnil] at hcolumns
      rw [← Except.ok.inj hcolumns, hnone]
    have hraises : Raises (fun r => m.columns = [] ∧ r = .projectedField) u t :=
      check_raises _ _ _ _ _ (fun h => hcheck.symm.trans (if_pos (hempty.mpr h)))
        fun h => hcheck.symm.trans (if_neg fun he => h (hempty.mp he))
    have hnext := tracks_step htracks hraises
    refine ⟨tracks_congr (fun r => ?_) hnext, ?_, ?_⟩
    · simp only [Option.some.injEq, exists_eq_left', or_assoc]
    · rw [← hcheck]
      split <;> exact hclauses
    · intro base' hbase hflag
      obtain rfl := Option.some.inj hbase
      have hno := (tracks_free hnext).mp hflag
      have hcolumnsNe : m.columns ≠ [] := fun hnil => hno _ (Or.inr ⟨hnil, rfl⟩)
      have hsame : t = u := hcheck.symm.trans (if_neg fun he => hcolumnsNe (hempty.mp he))
      rw [hsame]
      exact ⟨hcolumnsNe, hfields (raises_before hraises hflag)⟩

/-! ### Filters -/

theorem fieldRaises_unresolved (base : Text) (f : ReportFilter) (isLike meant : Bool)
    (h : resolveReportField eng tokenMap base f.field = .ok (meant, none)) (r : BlockReason) :
    FieldRaises eng tokenMap base f isLike r ↔
      r = if meant then .relationship else .filterField := by
  constructor
  · intro hor
    rcases hor with ⟨meant', hmeant, rfl⟩ | ⟨meant', field, hfield, _⟩
    · rw [h] at hmeant
      rw [(Prod.mk.inj (Except.ok.inj hmeant)).1]
    · rw [h] at hfield
      cases hfield
  · intro heq
    subst heq
    exact Or.inl ⟨meant, h, rfl⟩

theorem fieldRaises_resolved (base : Text) (f : ReportFilter) (isLike meant : Bool)
    (field : ReportField)
    (h : resolveReportField eng tokenMap base f.field = .ok (meant, some field)) (r : BlockReason) :
    FieldRaises eng tokenMap base f isLike r ↔
      (field.filterable = false ∧ r = .filterability ∨
        field.filterable = true ∧ isLike = false ∧ isNumericLiteral f.value = false ∧
          isAmbiguousLiteral f.value = true ∧ r = .literal) := by
  constructor
  · intro hor
    rcases hor with ⟨meant', hmeant, _⟩ | ⟨meant', field', hfield, hreason⟩
    · rw [h] at hmeant
      cases hmeant
    · rw [h] at hfield
      rw [Option.some.inj (Prod.mk.inj (Except.ok.inj hfield)).2]
      exact hreason
  · intro hreason
    exact Or.inr ⟨meant, field, h, hreason⟩

theorem filterRaises_iff (base : Text) (f : ReportFilter) (op : Text) (isLike : Bool)
    (hop : safeOperator f.op = some (op, isLike)) (r : BlockReason) :
    FilterRaises eng tokenMap (fun b => some base = some b) f r ↔
      FieldRaises eng tokenMap base f isLike r := by
  constructor
  · intro h
    rcases h with ⟨hnone, _⟩ | ⟨b, op', isLike', hb, hsome, hfield⟩
    · rw [hop] at hnone
      cases hnone
    · rw [hop] at hsome
      rw [Option.some.inj hb, (Prod.mk.inj (Option.some.inj hsome)).2]
      exact hfield
  · intro hfield
    exact Or.inr ⟨base, op, isLike, rfl, hop, hfield⟩

theorem safeOperator_cases (op text : Text) (isLike : Bool)
    (h : safeOperator op = some (text, isLike)) :
    (isLike = true ∧ op = "contains".toList) ∨
      (isLike = false ∧ ∃ cmp, filterOp op = some cmp ∧ text = cmp.text) := by
  unfold safeOperator at h
  unfold filterOp
  split at h
  · rename_i hop
    cases h
    exact Or.inr ⟨rfl, .eq, if_pos hop, rfl⟩
  rename_i hequals
  split at h
  · rename_i hop
    cases h
    exact Or.inr ⟨rfl, .ne, by rw [if_neg hequals, if_pos hop], rfl⟩
  rename_i hnotEqual
  split at h
  · rename_i hop
    cases h
    exact Or.inr ⟨rfl, .lt, by rw [if_neg hequals, if_neg hnotEqual, if_pos hop], rfl⟩
  rename_i hless
  split at h
  · rename_i hop
    cases h
    exact Or.inr ⟨rfl, .gt, by rw [if_neg hequals, if_neg hnotEqual, if_neg hless, if_pos hop], rfl⟩
  split at h
  · rename_i hop
    cases h
    exact Or.inl ⟨rfl, hop⟩
  · cases h

theorem addClause_raises (base : Text) (f : ReportFilter) (op : Text) (isLike meant : Bool)
    (field : ReportField) (s : SoqlBinding) (hop : safeOperator f.op = some (op, isLike))
    (hresolve : resolveReportField eng tokenMap base f.field = .ok (meant, some field))
    (hfilterable : field.filterable = true) :
    Raises (FieldRaises eng tokenMap base f isLike) s (addClause f field.field op isLike s) ∧
      (addClause f field.field op isLike s).soqlFields = s.soqlFields ∧
      ((addClause f field.field op isLike s).translatable = true →
        ∃ p, Sends eng tokenMap base f p ∧
          (addClause f field.field op isLike s).clauses = s.clauses ++ [p.text]) := by
  have hreasons := fieldRaises_resolved eng tokenMap base f isLike meant field hresolve
  have hfield : ResolvesField eng tokenMap base f.field field := ⟨meant, hresolve⟩
  rw [hfilterable] at hreasons
  -- no reason is left when the value is not one that blocks
  have hquiet : ¬ (isLike = false ∧ isNumericLiteral f.value = false ∧
      isAmbiguousLiteral f.value = true) → ∀ q, ¬ FieldRaises eng tokenMap base f isLike q := by
    intro hno q hq
    rcases (hreasons q).mp hq with ⟨hfalse, _⟩ | ⟨_, hlike, hnumeric, hambiguous, _⟩
    · cases hfalse
    · exact hno ⟨hlike, hnumeric, hambiguous⟩
  unfold addClause
  rcases safeOperator_cases f.op op isLike hop with ⟨rfl, hcontains⟩ | ⟨rfl, cmp, hcmp, rfl⟩
  · rw [if_pos rfl]
    exact ⟨Or.inr ⟨hquiet fun h => Bool.noConfusion h.1, rfl, rfl⟩, rfl,
      fun _ => ⟨_, .contains field hfield hfilterable hcontains, rfl⟩⟩
  rw [if_neg Bool.false_ne_true]
  by_cases hnumeric : isNumericLiteral f.value = true
  · rw [if_pos hnumeric]
    refine ⟨Or.inr ⟨hquiet fun h => ?_, rfl, rfl⟩, rfl, fun _ =>
      ⟨_, .number field cmp hfield hfilterable hcmp hnumeric, rfl⟩⟩
    rw [hnumeric] at h
    exact Bool.noConfusion h.2.1
  rw [if_neg hnumeric]
  by_cases hambiguous : isAmbiguousLiteral f.value = true
  · rw [if_pos hambiguous]
    refine ⟨Or.inl ⟨.literal, fun q => ?_, rfl, rfl⟩, rfl, fun h => absurd h Bool.false_ne_true⟩
    rw [hreasons q]
    simp [hnumeric, hambiguous]
  · rw [if_neg hambiguous]
    exact ⟨Or.inr ⟨hquiet fun h => hambiguous h.2.2, rfl, rfl⟩, rfl, fun _ =>
      ⟨_, .text field cmp hfield hfilterable hcmp (Bool.eq_false_iff.mpr hnumeric), rfl⟩⟩

theorem filterStep_raises (validated : Option Text) (f : ReportFilter) (s s' : SoqlBinding)
    (h : filterStep eng tokenMap validated s f = .ok s') :
    Raises (FilterRaises eng tokenMap (fun b => validated = some b) f) s s' ∧
      s'.soqlFields = s.soqlFields ∧
      ∀ base, validated = some base → s'.translatable = true →
        ∃ p, Sends eng tokenMap base f p ∧ s'.clauses = s.clauses ++ [p.text] := by
  unfold filterStep at h
  cases hop : safeOperator f.op with
  | none =>
    simp only [hop] at h
    rw [← Except.ok.inj h]
    refine ⟨Or.inl ⟨.operator, fun q => ?_, rfl, rfl⟩, rfl,
      fun _ _ hflag => absurd hflag Bool.false_ne_true⟩
    simp [FilterRaises, hop]
  | some safe =>
    obtain ⟨op, isLike⟩ := safe
    simp only [hop] at h
    cases validated with
    | none =>
      simp only at h
      rw [← Except.ok.inj h]
      refine ⟨Or.inr ⟨fun q => ?_, rfl, rfl⟩, rfl, fun base hbase => by cases hbase⟩
      simp [FilterRaises, hop]
    | some base =>
      have hreasons := filterRaises_iff eng tokenMap base f op isLike hop
      have hsame : FilterRaises eng tokenMap (fun b => some base = some b) f =
          FieldRaises eng tokenMap base f isLike := funext fun q => propext (hreasons q)
      rw [hsame]
      obtain ⟨⟨meant, found⟩, hresolve, rfl⟩ := Fallible.map_ok h
      cases found with
      | none =>
        refine ⟨Or.inl ⟨if meant then .relationship else .filterField,
          fieldRaises_unresolved eng tokenMap base f isLike meant hresolve, rfl, rfl⟩, rfl,
            fun _ _ hflag => absurd hflag Bool.false_ne_true⟩
      | some field =>
        simp only
        by_cases hfilterable : field.filterable = true
        · obtain ⟨hraises, hfields, hclause⟩ := addClause_raises eng tokenMap base f op isLike meant
            field s hop hresolve hfilterable
          rw [if_pos hfilterable]
          refine ⟨hraises, hfields, fun base' hbase => ?_⟩
          obtain rfl := Option.some.inj hbase
          exact hclause
        · rw [if_neg hfilterable]
          refine ⟨Or.inl ⟨.filterability, fun q => ?_, rfl, rfl⟩, rfl,
            fun _ _ hflag => absurd hflag Bool.false_ne_true⟩
          rw [fieldRaises_resolved eng tokenMap base f isLike meant field hresolve q]
          simp [hfilterable]

theorem filters_run (validated : Option Text) (raised : BlockReason → Prop) (s t : SoqlBinding)
    (hs : TracksReasons raised s) (hnone : s.clauses = []) (filters : List ReportFilter)
    (hrun : Fallible.run (filterStep eng tokenMap validated) s filters = .ok t) :
    TracksReasons (fun r => raised r ∨ ∃ f ∈ filters,
        FilterRaises eng tokenMap (fun b => validated = some b) f r) t ∧
      t.soqlFields = s.soqlFields ∧
      ∀ base, validated = some base → t.translatable = true →
        ∃ ps, List.Forall₂ (Sends eng tokenMap base) filters ps ∧
          t.clauses = ps.map Predicate.text := by
  have hround := filterStep_raises eng tokenMap validated
  have hraises : ∀ u f u', filterStep eng tokenMap validated u f = .ok u' →
      Raises (FilterRaises eng tokenMap (fun b => validated = some b) f) u u' :=
    fun u f u' h => (hround f u u' h).1
  refine ⟨loop_tracks hs hraises hrun, ?_, fun base hbase => ?_⟩
  · exact loop_keeps (fun u f u' h => (hround f u u' h).2.1) hrun
  · exact loop_texts hnone hraises (fun u f u' h => (hround f u u' h).2.2 base hbase) hrun

end Stages

/-! ### The text -/

theorem sends_predicate (eng : MetadataEngine) (tokenMap base : Text) (f : ReportFilter)
    (p : Predicate) (h : Sends eng tokenMap base f p) : FilterPredicate eng tokenMap base f p := by
  have hshows : ∀ field, ResolvesField eng tokenMap base f.field field → field.filterable = true →
      Shows eng tokenMap base f.field field.field true := by
    intro field hgiven hfilterable
    obtain ⟨meant, hresolve⟩ := hgiven
    rw [← hfilterable]
    exact resolveReportField_shows eng tokenMap base f.field meant field hresolve
  cases h with
  | contains field hfield hfilterable hop =>
    exact .contains field.field (hshows field hfield hfilterable) hop
  | number field op hfield hfilterable hop hnumeric =>
    exact .compare field.field op _ (hshows field hfield hfilterable) hop
      (Or.inr ⟨rfl, numeric_bare f.value hnumeric⟩)
  | text field op hfield hfilterable hop _ =>
    exact .compare field.field op _ (hshows field hfield hfilterable) hop (Or.inl rfl)

theorem filterPredicate_plain (eng : MetadataEngine) (hnames : NamesIdentify eng)
    (tokenMap base : Text) (f : ReportFilter) (p : Predicate)
    (h : FilterPredicate eng tokenMap base f p) : p.Plain := by
  cases h with
  | compare field op v hfield _ hv =>
    refine ⟨shows_bare eng hnames tokenMap base f.field field true hfield, ?_⟩
    intro w hw
    rw [List.mem_singleton.mp hw]
    rcases hv with rfl | ⟨_, hplain⟩
    · trivial
    · exact hplain
  | contains field hfield _ =>
    exact ⟨shows_bare eng hnames tokenMap base f.field field true hfield, List.forall_mem_nil _⟩

theorem predicate_text_ne (p : Predicate) : p.text ≠ [] := by
  cases p <;> simp [Predicate.text]

theorem candidateText_parses (base : Text) (s : SoqlBinding) (ps : List Predicate)
    (hbase : isBareToken base = true) (hfields : ∀ field ∈ s.soqlFields, isBareToken field = true)
    (hclauses : s.clauses = ps.map Predicate.text) (hplain : ∀ p ∈ ps, p.Plain) :
    parseSelect (candidateText base s) =
      some ⟨itemTokens s.soqlFields, base, conjunction ps, none⟩ := by
  have hnil : joinText " AND ".toList s.clauses = [] ↔ s.clauses.isEmpty = true := by
    rw [List.isEmpty_iff]
    constructor
    · intro h
      refine joinText_eq_nil _ _ (fun t ht => ?_) h
      rw [hclauses] at ht
      obtain ⟨p, _, rfl⟩ := List.mem_map.mp ht
      exact predicate_text_ne p
    · intro h
      rw [h]
      rfl
  have hwhere : WhereReads (joinText " AND ".toList s.clauses) (conjunction ps) := by
    cases ps with
    | nil =>
      rw [hclauses]
      exact .none
    | cons p ps =>
      refine .some _ _ ?_
      have hparse := parse_clauses ((p :: ps).map Cond.leaf) (by simp) (by
        intro c hc
        obtain ⟨q, hq, rfl⟩ := List.mem_map.mp hc
        exact .leaf q (hplain q hq))
      simp only [List.map_map, Function.comp_def, clauseText_leaf, clauseTree] at hparse
      rw [hclauses]
      exact hparse
  have htext : candidateText base s =
      buildSelectSoql base s.soqlFields (joinText " AND ".toList s.clauses) none := by
    have hlimit : limitText none = [] := rfl
    unfold candidateText buildSelectSoql
    rw [hlimit, List.append_nil]
    congr 1
    generalize joinText " AND ".toList s.clauses = w at hnil ⊢
    by_cases hempty : s.clauses.isEmpty = true
    · rw [if_pos hempty, if_pos (hnil.mpr hempty)]
    · rw [if_neg hempty, if_neg fun h => hempty (hnil.mp h)]
  rw [htext]
  exact parse_buildSelectSoql base s.soqlFields _ (conjunction ps) none hbase hfields hwhere

/-! ### The bind -/

theorem forall₂_right {α β : Type} {R : α → β → Prop} {P : β → Prop} {as : List α} {bs : List β}
    (h : List.Forall₂ R as bs) (himp : ∀ a b, R a b → P b) : ∀ b ∈ bs, P b := by
  induction h with
  | nil => exact List.forall_mem_nil _
  | cons hab _ ih => exact List.forall_mem_cons.mpr ⟨himp _ _ hab, ih⟩

section Bind
variable (eng : MetadataEngine) (tokenMap : Text) (m : ReportMetadata)

theorem acceptBase_some (cs : List BaseCandidate) (c : BaseCandidate)
    (h : acceptBase eng cs = .ok (some c)) :
    c ∈ cs ∧ isSafeIdentifier c.obj = true ∧ Queryable eng c.obj := by
  induction cs with
  | nil => cases h
  | cons d cs ih =>
    rw [acceptBase] at h
    split at h
    · rename_i hsafe
      obtain ⟨queryable, hqueryable, hrest⟩ := Fallible.bind_ok h
      split at hrest
      · rename_i htrue
        obtain rfl := Option.some.inj (Except.ok.inj hrest)
        rw [htrue] at hqueryable
        exact ⟨List.mem_cons_self, hsafe, isQueryable_true eng d.obj hqueryable⟩
      · obtain ⟨hmem, hc⟩ := ih hrest
        exact ⟨List.mem_cons_of_mem d hmem, hc⟩
    · obtain ⟨hmem, hc⟩ := ih h
      exact ⟨List.mem_cons_of_mem d hmem, hc⟩

theorem checked_empty : (checkCrossFilters m (checkFormat m (emptyBinding m))).soqlFields = [] ∧
    (checkCrossFilters m (checkFormat m (emptyBinding m))).clauses = [] := by
  unfold checkCrossFilters checkFormat
  split <;> split <;> exact ⟨rfl, rfl⟩

theorem validateBase_keeps (s : SoqlBinding) :
    (validateBase eng m s).1.soqlFields = s.soqlFields ∧
      (validateBase eng m s).1.clauses = s.clauses := by
  unfold validateBase
  split
  · split
    · exact ⟨rfl, rfl⟩
    · split
      · exact ⟨rfl, rfl⟩
      · exact ⟨rfl, rfl⟩
      · unfold acceptBinding
        simp only
        split <;> exact ⟨rfl, rfl⟩
  · exact ⟨rfl, rfl⟩

theorem bind_reaches (reportId : Text) (out : ReportSoqlBindData)
    (h : bindMetadata eng tokenMap reportId m = .ok out) :
    ∃ s validated, out = finishBinding m reportId validated s ∧
      (∀ base, validated = some base ↔ IsBase eng m base) ∧ TracksReasons (Raised eng tokenMap m) s ∧
      ∀ base, validated = some base → s.translatable = true → m.columns ≠ [] ∧
        (∃ fs, List.Forall₂ (ResolvesField eng tokenMap base) m.columns fs ∧
          s.soqlFields = fs.map ReportField.field) ∧
        ∃ ps, List.Forall₂ (Sends eng tokenMap base) m.filters ps ∧
          s.clauses = ps.map Predicate.text := by
  obtain ⟨hnoFields, hnoClauses⟩ := checked_empty m
  have hshape := shape_tracks m
  unfold bindMetadata at h
  generalize checkCrossFilters m (checkFormat m (emptyBinding m)) = checked at *
  obtain ⟨hbase, hvalidated⟩ := base_raises eng m checked hshape
  obtain ⟨hkeptFields, hkeptClauses⟩ := validateBase_keeps eng m checked
  simp only at h
  generalize validateBase eng m checked = stage at h hbase hvalidated hkeptFields hkeptClauses
  obtain ⟨s, validated⟩ := stage
  simp only at h hbase hvalidated hkeptFields hkeptClauses
  obtain ⟨t, hcolumns, hrest⟩ := Fallible.bind_ok h
  obtain ⟨u, hfilters, hout⟩ := Fallible.map_ok hrest
  obtain ⟨hcolumnTracks, hsameClauses, hfields⟩ := columns_track eng tokenMap m validated _ s t
    (tracks_step hshape hbase) (hkeptFields.trans hnoFields) hcolumns
  obtain ⟨hfilterTracks, hsameFields, hclauses⟩ := filters_run eng tokenMap validated _ t u
    hcolumnTracks (hsameClauses.trans (hkeptClauses.trans hnoClauses)) m.filters hfilters
  have hlogic : Raises (fun r => booleanFilterAndOnly m.booleanFilter m.filters.length = false ∧
      r = .booleanFilter) u (checkBooleanFilter m u) :=
    check_raises _ _ _ _ _ (fun h => if_neg (by rw [h]; exact Bool.false_ne_true))
      fun h => if_pos (by simpa using h)
  have hall := tracks_step hfilterTracks hlogic
  have hkept : (checkBooleanFilter m u).soqlFields = u.soqlFields ∧
      (checkBooleanFilter m u).clauses = u.clauses := by
    unfold checkBooleanFilter
    split <;> exact ⟨rfl, rfl⟩
  have hsame : (fun b => validated = some b) = IsBase eng m := funext fun b => propext (hvalidated b)
  refine ⟨checkBooleanFilter m u, validated, hout.symm, hvalidated, tracks_congr (fun r => ?_) hall, ?_⟩
  · rw [hsame, Raised]
    simp only [hvalidated, or_assoc]
  · intro base hvalid hflag
    have hbefore := raises_before hlogic hflag
    have hcolumnsBefore : t.translatable = true := by
      rw [tracks_free hcolumnTracks]
      exact fun r hr => (tracks_free hfilterTracks).mp hbefore r (Or.inl hr)
    obtain ⟨hne, hshows⟩ := hfields base hvalid hcolumnsBefore
    rw [hkept.1, hkept.2, hsameFields]
    exact ⟨hne, hshows, hclauses base hvalid hbefore⟩

/-- What a translatable report is sent as, and how that reads. -/
theorem bind_translates (hnames : NamesIdentify eng) (reportId : Text) (out : ReportSoqlBindData)
    (h : bindMetadata eng tokenMap reportId m = .ok out) (htrue : out.translatable = true) :
    ∃ (c : BaseCandidate) (fs : List ReportField) (ps : List Predicate),
      c ∈ baseCandidates m ∧ c.source ≠ .columnPrefix ∧ IsBase eng m c.obj ∧ Queryable eng c.obj ∧
      fs ≠ [] ∧ List.Forall₂ (ResolvesField eng tokenMap c.obj) m.columns fs ∧
      List.Forall₂ (Sends eng tokenMap c.obj) m.filters ps ∧
      parseSelect out.soql =
        some ⟨itemTokens (fs.map ReportField.field), c.obj, conjunction ps, none⟩ := by
  obtain ⟨s, validated, rfl, hvalidated, htracks, hwhole⟩ := bind_reaches eng tokenMap m reportId out h
  have hflag : s.translatable = true := htrue
  have hno := (tracks_free htracks).mp hflag
  have hshape : ∀ q, ¬ ShapeRaises m q := fun q hq => hno q (Or.inl hq)
  obtain ⟨c, haccept, hsource⟩ : ∃ c, acceptBase eng (baseCandidates m) = .ok (some c) ∧
      c.source ≠ .columnPrefix := by
    by_contra hnone
    refine hno .baseObject (Or.inr (Or.inl ⟨hshape, fun c hc => ?_, rfl⟩))
    by_contra hsource
    exact hnone ⟨c, hc, hsource⟩
  obtain ⟨hmem, hsafe, hqueryable⟩ := acceptBase_some eng _ c haccept
  have hbase : IsBase eng m c.obj := ⟨hshape, c, haccept, rfl⟩
  have hvalid := (hvalidated c.obj).mpr hbase
  obtain ⟨hcolumns, ⟨fs, hfs, htexts⟩, ps, hps, hclauses⟩ := hwhole c.obj hvalid hflag
  have hne : fs ≠ [] := by
    intro heq
    subst heq
    cases hcs : m.columns with
    | nil => exact hcolumns hcs
    | cons a as =>
      rw [hcs] at hfs
      cases hfs
  have hsoql : (finishBinding m reportId validated s).soql = candidateText c.obj s := by
    show (if s.translatable = true then candidateText (validated.getD []) s else []) = _
    rw [if_pos hflag, hvalid, Option.getD_some]
  have hresolved : ∀ f ∈ fs, isBareToken f.field = true :=
    forall₂_right hfs fun column f ⟨meant, hresolve⟩ =>
      shows_bare eng hnames tokenMap c.obj column f.field f.filterable
        (resolveReportField_shows eng tokenMap c.obj column meant f hresolve)
  have hbare : ∀ field ∈ s.soqlFields, isBareToken field = true := by
    rw [htexts]
    exact List.forall_mem_map.mpr hresolved
  have hplain : ∀ p ∈ ps, p.Plain := forall₂_right hps fun f p hp =>
    filterPredicate_plain eng hnames tokenMap c.obj f p (sends_predicate eng tokenMap c.obj f p hp)
  refine ⟨c, fs, ps, hmem, hsource, hbase, hqueryable, hne, hfs, hps, ?_⟩
  rw [hsoql, ← htexts]
  exact candidateText_parses c.obj s ps (bare_of_queryable eng hnames c.obj hsafe hqueryable) hbare
    hclauses hplain

/-- A report that is not translatable shows the first of its reasons. -/
theorem bind_blocks (reportId : Text) (out : ReportSoqlBindData)
    (h : bindMetadata eng tokenMap reportId m = .ok out) :
    (out.translatable = true ↔ ∀ r, ¬ Raised eng tokenMap m r) ∧
      (out.translatable = false → out.soql = [] ∧
        ∃ r, out.blockedBy = r.text ∧ Raised eng tokenMap m r ∧
          ∀ q, Raised eng tokenMap m q → r.rank ≤ q.rank) := by
  obtain ⟨s, validated, rfl, _, htracks, _⟩ := bind_reaches eng tokenMap m reportId out h
  refine ⟨tracks_free htracks, fun hfalse => ?_⟩
  have hflag : s.translatable = false := hfalse
  have hleast := htracks.least
  have hsome := htracks.flag
  rw [hflag] at hsome
  refine ⟨?_, ?_⟩
  · show (if s.translatable = true then candidateText (validated.getD []) s else []) = _
    rw [hflag]
    rfl
  · cases hb : s.blockedBy with
    | none =>
      rw [hb] at hsome
      cases hsome
    | some r =>
      rw [hb] at hleast
      refine ⟨r, ?_, hleast.1, hleast.2⟩
      show (if s.translatable = true then _ else (s.blockedBy.map BlockReason.text).getD _) = _
      rw [hflag, hb]
      rfl

/-- What is bound of metadata is owed to that metadata. -/
theorem bindMetadata_candidate (hnames : NamesIdentify eng) (reportId : Text)
    (out : ReportSoqlBindData) (h : bindMetadata eng tokenMap reportId m = .ok out) :
    (out.translatable = true → Translates eng tokenMap m out.soql) ∧
      (out.translatable = false → out.soql = [] ∧
        ∃ r, out.blockedBy = r.text ∧ Raised eng tokenMap m r ∧
          ∀ q, Raised eng tokenMap m q → r.rank ≤ q.rank) := by
  refine ⟨fun htrue => ?_, (bind_blocks eng tokenMap m reportId out h).2⟩
  obtain ⟨c, fs, ps, hmem, hsource, _, hqueryable, hne, hfs, hps, hparse⟩ :=
    bind_translates eng tokenMap m hnames reportId out h htrue
  refine ⟨c.obj, fs.map ReportField.field, ps, ⟨c, hmem, rfl, hsource⟩, hqueryable, by simpa using hne,
    ?_, hps.imp (sends_predicate eng tokenMap c.obj), hparse⟩
  rw [List.forall₂_map_right_iff]
  exact hfs.imp fun column f ⟨meant, hresolve⟩ =>
    ⟨f.filterable, resolveReportField_shows eng tokenMap c.obj column meant f hresolve⟩

end Bind

/-! ### A report of accounts -/

open JsonText in
/-- A tabular report of accounts: its columns, and a filter on the name. -/
def accountReport (columns : Elements) (op value : String) : ObjectText :=
  recordObject .none (memberOf "reportMetadata" (objectOf
    (memberOf "reportType" (objectOf (memberOf "type" (textOf "AccountList") .nil))
      (memberOf "reportFormat" (textOf "TABULAR") (memberOf "detailColumns" (.array .none columns)
        (memberOf "reportFilters" (.array .none (.cons .none (objectOf
          (memberOf "column" (textOf "NAME") (memberOf "operator" (textOf op)
            (memberOf "value" (textOf value) .nil)))) .none .nil)) .nil))))) .nil)

def describedField (name sfType : String) : ObjectField where
  name := name.toList
  sfType := sfType.toList
  duckdbType := (mapSalesforceType sfType.toList 18 0).1
  filterable := true
  sortable := true
  relationshipName := []
  isRelationship := false
  children := []
  unknownType := false
  nillable := true
  referenceTo := []

/-- An org whose one object is Account, with the field Name of this type. -/
def nameOrg (sfType : String) : MetadataEngine where
  describe _ := .ok ⟨"Account".toList, [describedField "Name" sfType], []⟩
  globalInfos := .ok [⟨"Account".toList, true⟩]

theorem nameOrg_names (sfType : String) : NamesIdentify (nameOrg sfType) := by
  have hname : IsIdentifier "Name".toList := ⟨by decide, by decide⟩
  have haccount : IsIdentifier "Account".toList := ⟨by decide, by decide⟩
  refine ⟨?_, ?_, ?_⟩
  · intro infos i hinfos hi
    rw [← Except.ok.inj hinfos] at hi
    rw [List.mem_singleton.mp hi]
    exact haccount
  · intro key d f hd hf
    rw [← Except.ok.inj hd] at hf
    rw [List.mem_singleton.mp hf]
    exact hname
  · intro key d f hd hf hrelationship
    rw [← Except.ok.inj hd] at hf
    rw [List.mem_singleton.mp hf] at hrelationship
    exact absurd rfl hrelationship

open JsonText in
def nameColumn : Elements := .cons .none (textOf "NAME") .none .nil

end DuckdbSalesforce
