import DuckdbSalesforce.Scan.PushdownCalls
import DuckdbSalesforce.Scan.ScanRequest
import DuckdbSalesforce.Scan.Transports

/-!
# Scans with pushed filters

Filters go through `ScanPushdownComplexFilter` in any sequence of calls,
`ScanInitGlobal` picks a transport and a plan, `ScanFunction` emits rows, and
DuckDB applies the filters left residual. The rows that come out are those that
a scan of the whole object and all filters in DuckDB would give.
-/

namespace DuckdbSalesforce
open ThreeValued Fallible JsonText

/-! ### What init starts -/

/-- The plans of a row scan, with what each was chosen for. -/
inductive StartsPlan (bind : SalesforceScanBindData) (answers : ScanAnswers) (columnIds : List ℕ) :
    ScanPlan → Prop where
  | countOnly (n : ℤ) (hnone : aggregateOnly bind columnIds = true)
      (hexact : bind.residualFilterCount = 0)
      (hcount : answers.estimateCount (countSoql bind) = some n) :
      StartsPlan bind answers columnIds (.countOnly n)
  | bulk (chunks : ℤ) : StartsPlan bind answers columnIds
      (.bulk (bulkChunkSoqls bind answers.minMaxId chunks columnIds))
  | rest : StartsPlan bind answers columnIds (.rest (rowSoql bind columnIds))

theorem countPushdown_some (bind : SalesforceScanBindData) (answers : ScanAnswers)
    (columnIds : List ℕ) (effective : Text) (n : ℤ)
    (h : countPushdown bind answers columnIds effective = some n) :
    StartsPlan bind answers columnIds (.countOnly n) := by
  unfold countPushdown at h
  split at h
  · rename_i hall
    exact .countOnly n hall.1 hall.2.1 h
  · cases h

theorem scanPlan_starts (bind : SalesforceScanBindData) (config : ScanConfig)
    (settings : ScanSettings) (answers : ScanAnswers) (columnIds : List ℕ) (effective : Text)
    (plan : ScanPlan) (h : scanPlan bind config settings answers columnIds effective = .ok plan) :
    StartsPlan bind answers columnIds plan := by
  obtain ⟨-, hbulk⟩ | ⟨-, hrest | ⟨n, hcount, hplan⟩⟩ :=
    scanPlan_ok bind config settings answers columnIds effective plan h
  · rw [hbulk]
    exact .bulk _
  · rw [hrest]
    exact .rest
  · rw [hplan]
    exact countPushdown_some bind answers columnIds effective n hcount

theorem scanInitGlobal_starts (bind : SalesforceScanBindData) (config : ScanConfig)
    (settings : ScanSettings) (answers : ScanAnswers) (columnIds : List ℕ) (start : ScanStart)
    (hrows : bind.pushedAggregates = [])
    (h : scanInitGlobal bind config settings answers columnIds = .ok start) :
    StartsPlan bind answers columnIds start.plan ∧
      ∃ mode, scanQueryMode config settings = .ok mode ∧
        start.queryAll = (mode == "queryall".toList) := by
  obtain ⟨transport, mode, -, hmode, hall, hstart⟩ :=
    scanInitGlobal_ok bind config settings answers columnIds start h
  obtain ⟨hagg, -⟩ | ⟨-, effective, -, hplan⟩ := hstart
  · exact absurd hrows hagg
  · exact ⟨scanPlan_starts bind config settings answers columnIds effective start.plan hplan, mode,
      hmode, hall⟩

/-! ### A record in both formats -/

/-- A record as the service writes it: its JSON object, and the data it holds
below a column. -/
structure RecordText where
  object : ObjectText
  data : SalesforceField → Nested

/-- The members are looked up right, no string has a `\b`, `\f` or `\u` escape,
and the CSV cells tell NULL from data. -/
structure RecordText.Holds (t : RecordText) (fields : List SalesforceField) : Prop where
  json : ∀ f ∈ fields, RecordHolds f t.object (t.data f)
  plain : ∀ f ∈ fields, PlainBelow f t.object
  csv : ∀ f ∈ fields, CsvTells f (t.data f)

def columnHeaders (columns : List (Option SalesforceField)) : List Text :=
  columns.flatMap fun c =>
    match c with
    | none => []
    | some f => if f.isRelationship then emitRelationshipSoql f.relationshipName f else [f.name]

theorem selectFields_headers (bind : SalesforceScanBindData) (columnIds : List ℕ) :
    selectFields bind columnIds =
      let out := columnHeaders (columnIds.map fun col => bind.fields[col]?)
      if out = [] then (bind.fields.take 1).map SalesforceField.name else out := by
  generalize hheaders : columnHeaders (columnIds.map fun col => bind.fields[col]?) = headers
  unfold columnHeaders at hheaders
  rw [List.flatMap_map] at hheaders
  subst hheaders
  rfl

def scalarCell : Nested → Text
  | .text raw => raw
  | _ => []

def columnCells (t : RecordText) (columns : List (Option SalesforceField)) : List Text :=
  columns.flatMap fun c =>
    match c with
    | none => []
    | some f => rowCells f (t.data f)

/-- The cells of a CSV row, in the order of the select list. -/
def csvCells (fields : List SalesforceField) (columns : List (Option SalesforceField))
    (t : RecordText) : List Text :=
  if columnHeaders columns = [] then (fields.take 1).map fun f => scalarCell (t.data f)
  else columnCells t columns

section Decode
variable (casts : CastFunctions) (t : RecordText)

theorem csvCell_decodes (f : SalesforceField) (pre post preCells postCells : List Text)
    (hholds : RecordHolds f t.object (t.data f)) (hplain : PlainBelow f t.object)
    (htells : CsvTells f (t.data f)) (hlen : preCells.length = pre.length)
    (hdistinct : DistinctHeaders (pre ++ (columnHeaders [some f] ++ post))) :
    csvCell casts (pre ++ (columnHeaders [some f] ++ post))
        (preCells ++ (rowCells f (t.data f) ++ postCells)) (some f) =
      jsonCell casts t.object.text (some f) := by
  have hjson : jsonCell casts t.object.text (some f) = decodeNested casts f (t.data f) :=
    appendJsonValue_holds casts f t.object _ hholds hplain
  rw [hjson]
  cases hrel : f.isRelationship with
  | true =>
    have hheaders : columnHeaders [some f] = emitRelationshipSoql f.relationshipName f := by
      simp [columnHeaders, hrel]
    rw [hheaders] at hdistinct ⊢
    rw [csvCell, if_pos hrel]
    exact appendBulkStruct_decodes casts f f.relationshipName _ pre post preCells postCells hrel
      hlen hdistinct htells
  | false =>
    have hheaders : columnHeaders [some f] = [f.name] := by simp [columnHeaders, hrel]
    rw [hheaders, List.singleton_append] at hdistinct ⊢
    rw [csvCell, hrel, if_neg Bool.false_ne_true, ← List.append_assoc]
    exact appendBulkCell_decodes casts f f.name _ pre post preCells postCells hrel hlen hdistinct
      htells

theorem rowCells_headers (f : SalesforceField) (d : Nested) :
    (rowCells f d).length = (columnHeaders [some f]).length := by
  cases hrel : f.isRelationship with
  | true =>
    have h := rowCells_length f f.relationshipName d
    rw [headersOf, if_pos hrel] at h
    simpa [columnHeaders, hrel] using h
  | false =>
    have h := rowCells_length f f.name d
    rw [headersOf, hrel] at h
    simpa [columnHeaders, hrel] using h

theorem csvColumns_decode (columns : List (Option SalesforceField)) (pre preCells : List Text)
    (hholds : t.Holds (columns.filterMap id)) (hlen : preCells.length = pre.length)
    (hdistinct : DistinctHeaders (pre ++ columnHeaders columns)) :
    collect (csvCell casts (pre ++ columnHeaders columns) (preCells ++ columnCells t columns)) columns =
      collect (jsonCell casts t.object.text) columns := by
  induction columns generalizing pre preCells with
  | nil => rfl
  | cons c cs ih =>
    cases c with
    | none =>
      have hrest := ih pre preCells hholds hlen hdistinct
      exact congrArg (fun r => Except.bind (.ok .null) fun b => Except.map (b :: ·) r) hrest
    | some f =>
      have hhead : columnHeaders (some f :: cs) = columnHeaders [some f] ++ columnHeaders cs := by
        simp [columnHeaders]
      have hcells : columnCells t (some f :: cs) = rowCells f (t.data f) ++ columnCells t cs := rfl
      rw [hhead] at hdistinct ⊢
      rw [hcells]
      have hcell := csvCell_decodes casts t f pre (columnHeaders cs) preCells (columnCells t cs)
        (hholds.json f List.mem_cons_self) (hholds.plain f List.mem_cons_self)
        (hholds.csv f List.mem_cons_self) hlen hdistinct
      have hrest := ih (pre ++ columnHeaders [some f]) (preCells ++ rowCells f (t.data f))
        ⟨fun g hg => hholds.json g (List.mem_cons_of_mem _ hg),
          fun g hg => hholds.plain g (List.mem_cons_of_mem _ hg),
          fun g hg => hholds.csv g (List.mem_cons_of_mem _ hg)⟩
        (by rw [List.length_append, List.length_append, hlen, rowCells_headers])
        (by rw [List.append_assoc]; exact hdistinct)
      rw [List.append_assoc, List.append_assoc] at hrest
      rw [collect, collect, hcell, hrest]

end Decode

theorem columnCells_length (t : RecordText) (columns : List (Option SalesforceField)) :
    (columnCells t columns).length = (columnHeaders columns).length := by
  induction columns with
  | nil => rfl
  | cons c cs ih =>
    cases c with
    | none => exact ih
    | some f =>
      have hhead : columnHeaders (some f :: cs) = columnHeaders [some f] ++ columnHeaders cs := by
        simp [columnHeaders]
      have hcells : columnCells t (some f :: cs) = rowCells f (t.data f) ++ columnCells t cs := rfl
      rw [hhead, hcells, List.length_append, List.length_append, ih, rowCells_headers]

/-- A row is decoded alike from the CSV cells under the select list and from the
JSON record. -/
theorem csvRow_decodes (casts : CastFunctions) (bind : SalesforceScanBindData)
    (columnIds : List ℕ) (t : RecordText) (columns : List (Option SalesforceField))
    (hcolumns : columns = columnIds.map fun col => bind.fields[col]?)
    (hholds : t.Holds (columns.filterMap id))
    (hdistinct : DistinctHeaders (selectFields bind columnIds)) :
    collect (csvCell casts (selectFields bind columnIds) (csvCells bind.fields columns t)) columns =
      jsonRow casts columns t.object.text := by
  rw [selectFields_headers, ← hcolumns] at hdistinct ⊢
  by_cases hnone : columnHeaders columns = []
  · have hcells : columnCells t columns = [] := by
      rw [← List.length_eq_zero_iff, columnCells_length, hnone]
      rfl
    have hrow := csvColumns_decode casts t columns ((bind.fields.take 1).map SalesforceField.name)
      ((bind.fields.take 1).map fun f => scalarCell (t.data f)) hholds (by simp)
    rw [hnone, hcells, List.append_nil, List.append_nil] at hrow
    simp only [hnone, if_true] at hdistinct ⊢
    rw [csvCells, if_pos hnone]
    exact hrow hdistinct
  · simp only [if_neg hnone] at hdistinct ⊢
    rw [csvCells, if_neg hnone]
    exact csvColumns_decode casts t columns [] [] hholds rfl hdistinct

/-! ### The WHERE of a sequence of calls -/

def recordTruth (r : SalesforceRecord) (p : Predicate) : Truth := r.truth p.tokens

theorem clauseTree_eval (r : SalesforceRecord) (c : Clause) :
    (clauseTree c).eval r.truth = c.eval (recordTruth r) := by
  induction c using Cond.induct with
  | leaf p => rfl
  | all cs ih =>
    rw [clauseTree, clauseTrees_eq, Cond.eval_mkAll, Cond.eval, Cond.eval]
    exact Cond.evalAll_congr (recordTruth r) r.truth clauseTree cs ih
  | any cs ih =>
    rw [clauseTree, clauseTrees_eq, Cond.eval_mkAny, Cond.eval, Cond.eval]
    exact Cond.evalAny_congr (recordTruth r) r.truth clauseTree cs ih
  | neg c ih => rw [clauseTree, Cond.eval, Cond.eval, ih]

theorem wellFormed_clauses (cs : List Clause) (h : ∀ c ∈ cs, Printable c) :
    WellFormedWhere (clausesText cs) := by
  by_cases hne : cs = []
  · subst hne
    exact .none
  · exact wellFormedWhere_some _ _ (parse_clauses cs hne h)

/-- Clauses of names and literals that are read back as they are. -/
theorem satisfies_clauses (r : SalesforceRecord) (cs : List Clause) (h : ∀ c ∈ cs, Printable c) :
    r.satisfies (clausesText cs) ↔ whereAccepts (recordTruth r) cs := by
  by_cases hne : cs = []
  · subst hne
    refine iff_of_true (satisfies_nil r) ?_
    rw [whereAccepts, Cond.eval_all_eq_tt]
    exact List.forall_mem_nil _
  · have hparse : parseCondition (clausesText cs) = _ := parse_clauses cs hne h
    rw [satisfies_some r _ _ hparse, whereAccepts, Cond.eval_mkAll_eq_tt, Cond.eval_all_eq_tt,
      List.forall_mem_map]
    exact forall₂_congr fun c _ => by rw [clauseTree_eval]

/-- Filters whose conjunctions are not empty and whose literals are words or
quoted. -/
def PlainFilters (filters : List Expr) : Prop :=
  ∀ e ∈ filters, e.Filled ∧ ∀ v ∈ e.literals, PlainLiteral v

theorem whereClauses_printable (fields : List SalesforceField) (projectionToField : List ℕ)
    (filters : List Expr) (r : PushdownResult) (hfields : ∀ f ∈ fields, isBareToken f.name = true)
    (hplain : PlainFilters filters)
    (hrun : pushdownToSoql fields projectionToField filters = .ok r) :
    ∀ c ∈ whereClauses fields projectionToField filters, Printable c := by
  intro c hc
  obtain ⟨hok, _⟩ := pushdown_run fields projectionToField filters r hrun
  by_cases hlong : overlong fields projectionToField filters = true
  · rw [whereClauses, if_pos hlong] at hc
    cases hc
  · obtain ⟨e, he, x, hx⟩ := (mem_whereClauses fields projectionToField filters hlong c).mp hc
    have hparts := clause_parts fields projectionToField e c x
      (pushedClause_of_ok fields projectionToField e (c, x) (hok e he) hx)
    obtain ⟨hfilled, hliterals⟩ := hplain e he
    refine hparts.printable hfilled ?_
    intro p hp
    obtain ⟨f, hf, hname⟩ := hparts.field p hp
    exact ⟨hname ▸ hfields f hf, hparts.plain.mp hliterals p hp⟩

theorem pushdownCall_frame (projectionToField : List ℕ) (bind bind' : PushdownBindData)
    (filters rest : List Expr)
    (h : scanPushdownComplexFilter projectionToField bind filters = .ok (bind', rest)) :
    bind'.object = bind.object ∧ bind'.fields = bind.fields ∧ bind'.rawWhere = bind.rawWhere ∧
      bind'.pushedAggregates = bind.pushedAggregates := by
  unfold scanPushdownComplexFilter at h
  split at h
  · cases h
    exact ⟨rfl, rfl, rfl, rfl⟩
  · cases hr : pushdownToSoql bind.fields projectionToField filters with
    | error e =>
      rw [hr] at h
      cases h
    | ok r =>
      rw [hr] at h
      cases h
      exact ⟨rfl, rfl, rfl, rfl⟩

section Calls
variable {Row : Type} (soql : Row → Predicate → Truth) (duck : List ℕ → Row → Expr → Truth)

/-- A run of the hook over plain filters. -/
inductive PlainRun (start : PushdownBindData) : HookSession Row → Prop
  | start : PlainRun start ⟨start, [], [], [], []⟩
  | empty (s : HookSession Row) (projection : List ℕ) (bind' : PushdownBindData)
      (rest : List Expr) (before : PlainRun start s)
      (call : scanPushdownComplexFilter projection s.bind [] = .ok (bind', rest)) :
      PlainRun start { s with bind := bind' }
  | filters (s : HookSession Row) (projection : List ℕ) (filters new : List Expr)
      (bind' : PushdownBindData) (rest : List Expr) (before : PlainRun start s)
      (presents : Presents soql duck s projection filters new) (plain : PlainFilters filters)
      (call : scanPushdownComplexFilter projection s.bind filters = .ok (bind', rest)) :
      PlainRun start ⟨bind', projection, rest,
        s.clauses ++ whereClauses s.bind.fields projection filters,
        s.presented ++ new.map (meaning duck projection)⟩

theorem PlainRun.hookRun {start : PushdownBindData} {s : HookSession Row}
    (h : PlainRun soql duck start s) : HookRun soql duck start s := by
  induction h with
  | start => exact .start
  | empty s projection bind' rest _ hcall ih => exact .empty s projection bind' rest ih hcall
  | filters s projection filters new bind' rest _ hpresents _ hcall ih =>
    exact .filters s projection filters new bind' rest ih hpresents hcall

/-- What the hook leaves alone, and the clauses it collects. -/
structure Collects (start : PushdownBindData) (s : HookSession Row) : Prop where
  object : s.bind.object = start.object
  fields : s.bind.fields = start.fields
  raw : s.bind.rawWhere = start.rawWhere
  aggregates : s.bind.pushedAggregates = start.pushedAggregates
  printable : ∀ c ∈ s.clauses, Printable c

theorem Collects.call {start : PushdownBindData} {s : HookSession Row} (h : Collects start s)
    (projection : List ℕ) (filters rest : List Expr) (bind' : PushdownBindData)
    (clauses : List Clause) (residual : List Expr) (presented : List (Row → Truth))
    (p : List ℕ) (hclauses : ∀ c ∈ clauses, Printable c)
    (hcall : scanPushdownComplexFilter projection s.bind filters = .ok (bind', rest)) :
    Collects start ⟨bind', p, residual, clauses, presented⟩ := by
  obtain ⟨hobject, hfields, hraw, haggregates⟩ :=
    pushdownCall_frame projection s.bind bind' filters rest hcall
  exact ⟨hobject.trans h.object, hfields.trans h.fields, hraw.trans h.raw,
    haggregates.trans h.aggregates, hclauses⟩

theorem PlainRun.collects {start : PushdownBindData} {s : HookSession Row}
    (h : PlainRun soql duck start s) (hfields : ∀ f ∈ start.fields, isBareToken f.name = true) :
    Collects start s := by
  induction h with
  | start => exact ⟨rfl, rfl, rfl, rfl, List.forall_mem_nil _⟩
  | empty s projection bind' rest _ hcall ih =>
    exact ih.call projection [] rest bind' _ _ _ _ ih.printable hcall
  | filters s projection filters new bind' rest _ hpresents hplain hcall ih =>
    obtain ⟨r, hrun, _⟩ :=
      pushdownCall_cases projection s.bind bind' filters rest hpresents.nonempty hcall
    refine ih.call projection filters rest bind' _ _ _ _ ?_ hcall
    intro c hc
    rcases List.mem_append.mp hc with hold | hnew
    · exact ih.printable c hold
    · exact whereClauses_printable s.bind.fields projection filters r (ih.fields ▸ hfields) hplain
        hrun c hnew

end Calls

/-! ### What the statements select -/

theorem selected_build (org : Org) (object w : Text) (items : List Text)
    (hitems : ∀ i ∈ items, isBareToken i = true) (hobj : isBareToken object = true)
    (hw : WellFormedWhere w) :
    org.selected (buildSelectSoql object items w none) =
      (org.records object).filter fun r => r.meets (parseCondition w) := by
  rw [Org.selected, parse_buildSelectSoql object items w _ none hobj hitems hw]

theorem selected_count (org : Org) (bind : SalesforceScanBindData)
    (hobj : isBareToken bind.object = true) (hw : WellFormedWhere (combinedWhere bind)) :
    org.selected (countSoql bind) =
      (org.records bind.object).filter fun r => r.meets (parseCondition (combinedWhere bind)) := by
  have hparse := parse_selectText "COUNT()".toList [wordAtom "COUNT".toList, .lpar, .rpar]
    bind.object (combinedWhere bind) _ none (by decide) (by decide) hobj hw
  rw [countSoql_eq, Org.selected, hparse]

/-- Parts that do not overlap and cover what `q` keeps hold it once. -/
theorem filter_parts {α γ : Type} (xs : List α) (p : γ → α → Bool) (gs : List γ) (q : α → Bool)
    (hdisjoint : gs.Pairwise fun g g' => ∀ x ∈ xs, ¬ (p g x = true ∧ p g' x = true))
    (hcover : ∀ x ∈ xs, q x = true ↔ ∃ g ∈ gs, p g x = true) :
    (gs.flatMap fun g => xs.filter (p g)).Perm (xs.filter q) := by
  induction gs generalizing q with
  | nil =>
    have hnone : xs.filter q = [] := by
      rw [List.filter_eq_nil_iff]
      intro x hx hq
      obtain ⟨g, hg, _⟩ := (hcover x hx).mp hq
      cases hg
    rw [hnone]
    exact List.Perm.refl _
  | cons g gs ih =>
    obtain ⟨hhead, htail⟩ := List.pairwise_cons.mp hdisjoint
    have hrest := ih (fun x => q x && !p g x) htail (by
      intro x hx
      have hx' := hcover x hx
      rw [List.exists_mem_cons_iff] at hx'
      constructor
      · intro h
        obtain ⟨hq, hnot⟩ := Bool.and_eq_true_iff.mp h
        exact (hx'.mp hq).resolve_left (by simpa using hnot)
      · intro h
        obtain ⟨g', hg', hp⟩ := h
        have hnot : ¬ p g x = true := fun hpg => hhead g' hg' x hx ⟨hpg, hp⟩
        exact Bool.and_eq_true_iff.mpr ⟨hx'.mpr (Or.inr ⟨g', hg', hp⟩), by simpa using hnot⟩)
    have hfirst : (xs.filter q).filter (p g) = xs.filter (p g) := by
      rw [List.filter_filter]
      refine List.filter_congr fun x hx => ?_
      have hx' := hcover x hx
      rw [List.exists_mem_cons_iff] at hx'
      cases hp : p g x with
      | false => rfl
      | true => rw [hx'.mpr (Or.inl hp), Bool.and_self]
    have hsecond : (xs.filter q).filter (fun x => !p g x) =
        xs.filter fun x => q x && !p g x := by
      rw [List.filter_filter]
      exact List.filter_congr fun x _ => Bool.and_comm ..
    have hsplit := List.filter_append_perm (p g) (xs.filter q)
    rw [hfirst, hsecond] at hsplit
    rw [List.flatMap_cons]
    exact (hrest.append_left _).trans hsplit

/-- The chunks of a Bulk scan hold each record of the pushed part once. -/
theorem bulkWheres_parts (org : Org) (bind : SalesforceScanBindData)
    (answer : Text → Option (Text × Text)) (chunks : ℤ) (hw : WellFormedWhere bind.pushedWhere)
    (hmm : MinMaxCorrect org answer bind.object bind.pushedWhere) :
    (∀ w ∈ bulkWheres bind answer chunks, WellFormedWhere w) ∧
      ((bulkWheres bind answer chunks).flatMap fun w =>
        (org.records bind.object).filter fun r => r.meets (parseCondition w)).Perm
        ((org.records bind.object).filter fun r => r.meets (parseCondition bind.pushedWhere)) := by
  have hsingle : (∀ w ∈ [bind.pushedWhere], WellFormedWhere w) ∧
      (([bind.pushedWhere]).flatMap fun w =>
        (org.records bind.object).filter fun r => r.meets (parseCondition w)).Perm
        ((org.records bind.object).filter fun r => r.meets (parseCondition bind.pushedWhere)) := by
    refine ⟨fun w hmem => List.mem_singleton.mp hmem ▸ hw, ?_⟩
    rw [List.flatMap_singleton]
  unfold bulkWheres
  by_cases hmany : chunkCount chunks > 1
  · rw [if_pos hmany]
    cases htry : tryMinMaxId answer bind.object bind.pushedWhere with
    | none => exact hsingle
    | some b =>
      obtain ⟨mn, mx⟩ := b
      obtain ⟨hans, hlt⟩ := tryMinMaxId_some _ _ _ _ _ htry
      obtain ⟨⟨rmn, _, _, hmn⟩, ⟨rmx, _, _, hmx⟩, hbounds⟩ := hmm mn mx hans
      have hmna : mn.all isAlnum = true := hmn ▸ rmn.id_alnum
      have hmxa : mx.all isAlnum = true := hmx ▸ rmx.id_alnum
      have hlen : mn.length = mx.length := by rw [← hmn, ← hmx, rmn.id_length, rmx.id_length]
      have hcover := idRanges_cover mn mx (chunkCount chunks) hlen hmna hmxa hlt
        (chunkCount_bounds chunks).1 (chunkCount_bounds chunks).2
      have hdisjoint := idRanges_disjoint mn mx (chunkCount chunks) hlen hmna hmxa hlt
        (chunkCount_bounds chunks).1 (chunkCount_bounds chunks).2
      have halnum := idRanges_alnum mn mx (chunkCount chunks) hmna hmxa
      have hchunk : ∀ (r : SalesforceRecord), ∀ g ∈ idRanges mn mx (chunkCount chunks),
          WellFormedWhere (combineRange bind.pushedWhere g.text) ∧
            (r.meets (parseCondition (combineRange bind.pushedWhere g.text)) = true ↔
              r.satisfies bind.pushedWhere ∧ g.contains r.id) := fun r g hg =>
        satisfies_chunk r bind.pushedWhere g hw (halnum g hg).1 (halnum g hg).2
      have hne : buildIdRangeWheres bind.pushedWhere mn mx (chunkCount chunks) ≠ [] := by
        intro hnil
        obtain ⟨g, hg, _⟩ := hcover mn (le_refl _) (le_of_lt hlt)
        rw [List.map_eq_nil_iff.mp hnil] at hg
        cases hg
      simp only [hne, if_false]
      refine ⟨?_, ?_⟩
      · intro w hmem
        obtain ⟨g, hg, rfl⟩ := List.mem_map.mp hmem
        exact (hchunk rmn g hg).1
      · rw [buildIdRangeWheres, List.flatMap_map]
        refine filter_parts _
          (fun (g : IdRange) (r : SalesforceRecord) =>
            r.meets (parseCondition (combineRange bind.pushedWhere g.text))) _ _ ?_ ?_
        · refine hdisjoint.imp_of_mem ?_
          intro g g' hg hg' hapart r _ hboth
          exact hapart r.id ⟨((hchunk r g hg).2.mp hboth.1).2, ((hchunk r g' hg').2.mp hboth.2).2⟩
        · intro r hr
          constructor
          · intro hpushed
            obtain ⟨hlow, hhigh⟩ := hbounds r hr hpushed
            obtain ⟨g, hg, hcontains⟩ := hcover r.id hlow hhigh
            exact ⟨g, hg, (hchunk r g hg).2.mpr ⟨hpushed, hcontains⟩⟩
          · intro h
            obtain ⟨g, hg, hmeets⟩ := h
            exact ((hchunk r g hg).2.mp hmeets).1
  · rw [if_neg hmany]
    exact hsingle

/-! ### The rows of a plan -/

def emittedRow (casts : CastFunctions) (columns : List (Option SalesforceField)) (t : RecordText) :
    List DecodedCell :=
  (jsonRow casts columns t.object.text).toOption.getD []

theorem emittedRow_ok (casts : CastFunctions) (columns : List (Option SalesforceField))
    (t : RecordText) (row : List DecodedCell) (h : jsonRow casts columns t.object.text = .ok row) :
    emittedRow casts columns t = row := by
  rw [emittedRow, h]
  rfl

theorem collect_records {β : Type} (decode : β → Except Text (List DecodedCell))
    (write : SalesforceRecord → β) (row : SalesforceRecord → List DecodedCell)
    (records : List SalesforceRecord) (rows : List (List DecodedCell))
    (hrow : ∀ r ∈ records, ∀ out, decode (write r) = .ok out → row r = out)
    (h : collect decode (records.map write) = .ok rows) : rows = records.map row := by
  have hall := collect_ok_map h
  rw [List.map_map] at hall
  induction records generalizing rows with
  | nil =>
    rw [List.map_nil] at hall
    rw [List.map_eq_nil_iff.mp hall.symm]
    rfl
  | cons r records ih =>
    cases rows with
    | nil => cases hall
    | cons out rows =>
      rw [List.map_cons, List.map_cons] at hall
      obtain ⟨hhead, htail⟩ := List.cons.inj hall
      have hrest : collect decode (records.map write) = .ok rows := by
        rw [List.map_cons] at h
        obtain ⟨b, _, hmore⟩ := bind_ok h
        obtain ⟨bs, hbs, heq⟩ := map_ok hmore
        rw [hbs, (List.cons.inj heq).2]
      rw [List.map_cons, hrow r List.mem_cons_self out hhead,
        ← ih rows (fun x hx => hrow x (List.mem_cons_of_mem _ hx)) hrest htail]

/-- The service answers the statements of a scan from the org, in JSON pages
and in CSV under the select list, when it answers at all. -/
structure ServedFrom (org : Org) (texts : SalesforceRecord → RecordText)
    (bind : SalesforceScanBindData) (columnIds : List ℕ) (answers : ScanAnswers)
    (records : Text → Except Text (List Text))
    (bulkRows : Text → Except Text (List Text × List (List Text))) : Prop where
  count : ∀ soql n, answers.estimateCount soql = some n → n = (org.selected soql).length
  minMax : MinMaxCorrect org answers.minMaxId bind.object bind.pushedWhere
  json : ∀ soql out, records soql = .ok out →
    out = (org.selected soql).map fun r => (texts r).object.text
  csv : ∀ w names rows,
    bulkRows (buildSelectSoql bind.object (selectFields bind columnIds) w none) = .ok (names, rows) →
      names = selectFields bind columnIds ∧
      rows = (org.selected (buildSelectSoql bind.object (selectFields bind columnIds) w none)).map
        fun r => csvCells bind.fields (columnIds.map fun col => bind.fields[col]?) (texts r)
  holds : ∀ r ∈ org.records bind.object, (texts r).Holds bind.fields

/-- Names of SOQL, and headers that tell the columns apart. -/
structure ScanNames (bind : SalesforceScanBindData) (columnIds : List ℕ) : Prop where
  object : isBareToken bind.object = true
  fields : ∀ f ∈ bind.fields, isBareToken f.name = true
  items : ∀ i ∈ selectFields bind columnIds, isBareToken i = true
  distinct : DistinctHeaders (selectFields bind columnIds)

section Rows
variable (casts : CastFunctions) (org : Org) (texts : SalesforceRecord → RecordText)
  (bind : SalesforceScanBindData) (columnIds : List ℕ)

/-- The records that a WHERE selects, as rows. -/
def whereRows (w : Text) : List (List DecodedCell) :=
  ((org.records bind.object).filter fun r => r.meets (parseCondition w)).map fun r =>
    emittedRow casts (columnIds.map fun col => bind.fields[col]?) (texts r)

variable {casts org texts bind columnIds}

theorem columns_mem (f : SalesforceField)
    (h : f ∈ (columnIds.map fun col => bind.fields[col]?).filterMap id) : f ∈ bind.fields := by
  obtain ⟨c, hc, hf⟩ := List.mem_filterMap.mp h
  obtain ⟨col, _, rfl⟩ := List.mem_map.mp hc
  exact List.mem_of_getElem? hf

theorem csvRows_emitted {answers : ScanAnswers} {records : Text → Except Text (List Text)}
    {bulkRows : Text → Except Text (List Text × List (List Text))}
    (hs : ServedFrom org texts bind columnIds answers records bulkRows)
    (hn : ScanNames bind columnIds) (wheres : List Text) (header : List Text)
    (rows : List (List DecodedCell)) (hw : ∀ w ∈ wheres, WellFormedWhere w)
    (hheader : header = [] ∨ header = selectFields bind columnIds)
    (h : csvRows casts bulkRows (columnIds.map fun col => bind.fields[col]?) header
      (wheres.map fun w => buildSelectSoql bind.object (selectFields bind columnIds) w none) =
        .ok rows) :
    rows = wheres.flatMap fun w => whereRows casts org texts bind columnIds w := by
  induction wheres generalizing header rows with
  | nil =>
    cases h
    rfl
  | cons w wheres ih =>
    rw [List.map_cons, csvRows] at h
    obtain ⟨⟨names, cells⟩, hpage, h⟩ := bind_ok h
    obtain ⟨decoded, hdecoded, h⟩ := bind_ok h
    obtain ⟨rest, hrest, rfl⟩ := map_ok h
    obtain ⟨hnames, hcells⟩ := hs.csv w names cells hpage
    have hnext : (if header = [] then names else header) = selectFields bind columnIds := by
      rcases hheader with hnone | hsome
      · rw [if_pos hnone, hnames]
      · by_cases hempty : header = []
        · rw [if_pos hempty, hnames]
        · rw [if_neg hempty, hsome]
    rw [hnext] at hdecoded hrest
    rw [hcells, selected_build org bind.object w _ hn.items hn.object (hw w List.mem_cons_self)]
      at hdecoded
    have hchunk : decoded = whereRows casts org texts bind columnIds w := by
      refine collect_records _ _ _ _ _ ?_ hdecoded
      intro r hr out hout
      have hfields := hs.holds r (List.mem_filter.mp hr).1
      have hcolumns : (texts r).Holds ((columnIds.map fun col => bind.fields[col]?).filterMap id) :=
        ⟨fun f hf => hfields.json f (columns_mem f hf),
          fun f hf => hfields.plain f (columns_mem f hf),
          fun f hf => hfields.csv f (columns_mem f hf)⟩
      rw [csvRow_decodes casts bind columnIds (texts r) _ rfl hcolumns hn.distinct] at hout
      exact emittedRow_ok casts _ (texts r) out hout
    rw [List.flatMap_cons, ← hchunk,
      ← ih _ rest (fun w' hw' => hw w' (List.mem_cons_of_mem _ hw')) (Or.inr rfl) hrest]

/-- With no column to decode every row is NULLs. -/
theorem emittedRow_none (hnone : aggregateOnly bind columnIds = true) (t : RecordText) :
    emittedRow casts (columnIds.map fun col => bind.fields[col]?) t =
      (columnIds.map fun col => bind.fields[col]?).map fun _ => .null := by
  refine emittedRow_ok casts _ t _ ?_
  unfold aggregateOnly at hnone
  induction columnIds with
  | nil => rfl
  | cons col cols ih =>
    rw [List.all_cons, Bool.and_eq_true, decide_eq_true_eq] at hnone
    have hcol : bind.fields[col]? = none := List.getElem?_eq_none hnone.1
    have hrest := ih hnone.2
    rw [jsonRow] at hrest ⊢
    rw [List.map_cons, collect, hcol, hrest]
    rfl

/-- Every plan emits the rows that the pushed WHERE selects. -/
theorem planRows_emitted (content : OrgContent) (connection : Connection) (queryAll : Bool)
    (hs : ServedFrom org texts bind columnIds (content.answers connection queryAll)
      (content.records connection queryAll) (content.bulkRows connection queryAll))
    (hn : ScanNames bind columnIds) (hw : WellFormedWhere bind.pushedWhere)
    (hraw : bind.rawWhere = []) (plan : ScanPlan) (rows : List (List DecodedCell))
    (hplan : StartsPlan bind (content.answers connection queryAll) columnIds plan)
    (h : planRows casts content connection queryAll (columnIds.map fun col => bind.fields[col]?)
      plan = .ok rows) :
    rows.Perm (whereRows casts org texts bind columnIds bind.pushedWhere) := by
  have hcombined : combinedWhere bind = bind.pushedWhere := by rw [combinedWhere, if_pos hraw]
  cases hplan with
  | countOnly n hnone _ hcount =>
    have hn' := hs.count _ n hcount
    have hselected := selected_count org bind hn.object (hcombined.symm ▸ hw)
    rw [hselected, hcombined] at hn'
    cases h
    rw [whereRows, hn', Int.toNat_natCast]
    have hrow : (fun r => emittedRow casts (columnIds.map fun col => bind.fields[col]?) (texts r)) =
        fun _ => (columnIds.map fun col => bind.fields[col]?).map fun _ => .null :=
      funext fun r => emittedRow_none hnone (texts r)
    rw [hrow]
    exact List.Perm.of_eq (List.map_const' ..).symm
  | rest =>
    obtain ⟨records, hrecords, hdecoded⟩ := bind_ok h
    have hjson := hs.json _ records hrecords
    rw [rowSoql, hcombined, selected_build org bind.object _ _ hn.items hn.object hw] at hjson
    rw [hjson] at hdecoded
    have hrows := collect_records (jsonRow casts (columnIds.map fun col => bind.fields[col]?))
      (fun r => (texts r).object.text) (fun r => emittedRow casts _ (texts r)) _ rows
      (fun r _ out hout => emittedRow_ok casts _ (texts r) out hout) hdecoded
    rw [hrows]
    exact List.Perm.refl _
  | bulk chunks =>
    obtain ⟨hwheres, hparts⟩ := bulkWheres_parts org bind
      (content.answers connection queryAll).minMaxId chunks hw hs.minMax
    have hrows := csvRows_emitted hs hn _ [] rows hwheres (Or.inl rfl) h
    rw [hrows]
    have hmap := hparts.map fun r =>
      emittedRow casts (columnIds.map fun col => bind.fields[col]?) (texts r)
    rw [List.map_flatMap] at hmap
    exact hmap

end Rows

/-! ### The scan and the filters left to DuckDB -/

abbrev OrgRow (org : Org) (object : Text) := {r : SalesforceRecord // r ∈ org.records object}

/-- Bind data before the first call of the hook, without a raw filter. -/
structure FreshBind (start : PushdownBindData) : Prop where
  pushed : start.pushedWhere = []
  raw : start.rawWhere = []
  aggregates : start.pushedAggregates = []
  pushedCount : start.pushedFilterCount = 0
  residualCount : start.residualFilterCount = 0

theorem selectFields_congr (a b : SalesforceScanBindData) (columnIds : List ℕ)
    (h : a.fields = b.fields) : selectFields a columnIds = selectFields b columnIds := by
  unfold selectFields
  rw [h]

/-- A scan of bind data that the hook has pushed filters into; DuckDB reads the
filters left on the rows as on the records. -/
structure PushedScan (casts : CastFunctions) (org : Org) (texts : SalesforceRecord → RecordText)
    (columnIds : List ℕ) (start : PushdownBindData) (a : SalesforceScanFunctionData)
    (duck : List ℕ → OrgRow org start.object → Expr → Truth)
    (duckRow : List DecodedCell → Expr → Truth) (s : HookSession (OrgRow org start.object)) :
    Prop where
  fresh : FreshBind start
  names : ScanNames start.toSalesforceScanBindData columnIds
  run : PlainRun (fun r => recordTruth r.1) duck start s
  bind : a.toSalesforceScanBindData = s.bind.toSalesforceScanBindData
  reads : ∀ r, ∀ e ∈ s.residual,
    duckTruth (duckRow (emittedRow casts (a.columns columnIds) (texts r.1))) e =
      duckTruth (duck s.projection r) e

/-- The filters left accept the row. -/
def residualAccepts (duckRow : List DecodedCell → Expr → Truth) (residual : List Expr)
    (row : List DecodedCell) : Bool :=
  decide (∀ e ∈ residual, duckTruth (duckRow row) e = .tt)

/-- The rows of the records that every filter presented accepts. -/
def tableRows (casts : CastFunctions) (org : Org) (texts : SalesforceRecord → RecordText)
    (columns : List (Option SalesforceField)) (object : Text)
    (presented : List (OrgRow org object → Truth)) : List (List DecodedCell) :=
  ((org.records object).attach.filter fun r => decide (∀ f ∈ presented, f r = .tt)).map fun r =>
    emittedRow casts columns (texts r.1)

section Kept
variable {casts : CastFunctions} {org : Org} {texts : SalesforceRecord → RecordText}
  {columnIds : List ℕ} {start : PushdownBindData} {a : SalesforceScanFunctionData}
  {duck : List ℕ → OrgRow org start.object → Expr → Truth}
  {duckRow : List DecodedCell → Expr → Truth} {s : HookSession (OrgRow org start.object)}

theorem PushedScan.inStep (h : PushedScan casts org texts columnIds start a duck duckRow s) :
    InStep (fun r => recordTruth r.1) duck s :=
  hookRun_inStep _ _ start h.fresh.pushed h.fresh.pushedCount h.fresh.residualCount s h.run.hookRun

theorem PushedScan.collects (h : PushedScan casts org texts columnIds start a duck duckRow s) :
    Collects start s :=
  PlainRun.collects _ _ h.run h.names.fields

theorem PushedScan.object (h : PushedScan casts org texts columnIds start a duck duckRow s) :
    a.object = start.object := by
  rw [h.bind]
  exact h.collects.object

theorem PushedScan.pushedWhere (h : PushedScan casts org texts columnIds start a duck duckRow s) :
    a.pushedWhere = clausesText s.clauses := by
  rw [h.bind]
  exact h.inStep.whereText

theorem PushedScan.scanNames (h : PushedScan casts org texts columnIds start a duck duckRow s) :
    ScanNames a.toSalesforceScanBindData columnIds := by
  have hfields : a.fields = start.fields := by
    rw [h.bind]
    exact h.collects.fields
  have hselect := selectFields_congr a.toSalesforceScanBindData start.toSalesforceScanBindData
    columnIds hfields
  exact ⟨h.object ▸ h.names.object, hfields ▸ h.names.fields, hselect ▸ h.names.items,
    hselect ▸ h.names.distinct⟩

theorem PushedScan.rawWhere (h : PushedScan casts org texts columnIds start a duck duckRow s) :
    a.rawWhere = [] := by
  rw [h.bind, h.collects.raw]
  exact h.fresh.raw

theorem PushedScan.pushedAggregates
    (h : PushedScan casts org texts columnIds start a duck duckRow s) :
    a.pushedAggregates = [] := by
  rw [h.bind, h.collects.aggregates]
  exact h.fresh.aggregates

theorem PushedScan.wellFormed (h : PushedScan casts org texts columnIds start a duck duckRow s) :
    WellFormedWhere a.pushedWhere := by
  rw [h.pushedWhere]
  exact wellFormed_clauses s.clauses h.collects.printable

/-- A record is kept when the WHERE selects it and the filters left accept its
row. -/
theorem PushedScan.keeps (h : PushedScan casts org texts columnIds start a duck duckRow s)
    (r : OrgRow org start.object) :
    (residualAccepts duckRow s.residual (emittedRow casts (a.columns columnIds) (texts r.1)) = true ∧
      r.1.satisfies a.pushedWhere) ↔ ∀ f ∈ s.presented, f r = .tt := by
  rw [residualAccepts, decide_eq_true_iff, ← h.inStep.accepts r, h.pushedWhere,
    satisfies_clauses r.1 s.clauses h.collects.printable, and_comm]
  exact and_congr_right fun _ => forall₂_congr fun e he => by rw [h.reads r e he]; rfl

theorem PushedScan.whereRows (h : PushedScan casts org texts columnIds start a duck duckRow s) :
    (whereRows casts org texts a.toSalesforceScanBindData columnIds a.pushedWhere).filter
        (residualAccepts duckRow s.residual) =
      tableRows casts org texts (a.columns columnIds) start.object s.presented := by
  rw [DuckdbSalesforce.whereRows, h.object, List.filter_map, List.filter_filter]
  conv_lhs => rw [← List.attach_map_subtype_val (org.records start.object)]
  rw [List.filter_map, List.map_map]
  have hfilter : ∀ r ∈ (org.records start.object).attach,
      ((fun r => residualAccepts duckRow s.residual
          (emittedRow casts (a.columns columnIds) (texts r)) &&
        r.meets (parseCondition a.pushedWhere)) ∘ Subtype.val) r =
        decide (∀ f ∈ s.presented, f r = .tt) := by
    intro r _
    rw [Function.comp_apply, Bool.eq_iff_iff, Bool.and_eq_true, decide_eq_true_iff]
    exact h.keeps r
  rw [tableRows, ← List.filter_congr hfilter]
  rfl

end Kept

def IsRecordId (id : String) : Prop := id.toList.length = 18 ∧ id.toList.all isAlnum = true

def namedAccount (id : String) (hid : IsRecordId id) (selected : Bool) : SalesforceRecord :=
  .of id hid.1 hid.2 fun _ => .ofBool selected

theorem acme_id : IsRecordId "001D000000IRFmaIAH" := by
  unfold IsRecordId
  decide

theorem upperAcme_id : IsRecordId "001D000000IRFmbIAH" := by
  unfold IsRecordId
  decide

theorem zeta_id : IsRecordId "001D000000IRGzzIAH" := by
  unfold IsRecordId
  decide

def acme : SalesforceRecord := namedAccount "001D000000IRFmaIAH" acme_id true
def upperAcme : SalesforceRecord := namedAccount "001D000000IRFmbIAH" upperAcme_id true
def zeta : SalesforceRecord := namedAccount "001D000000IRGzzIAH" zeta_id false

def namedOrg : Org := ⟨fun _ => [acme, upperAcme, zeta]⟩

def recordName (r : SalesforceRecord) : String :=
  if r.id = acme.id then "Acme" else if r.id = upperAcme.id then "ACME" else "Zeta"

def acmeRecord (n : String) : RecordText :=
  ⟨⟨.none, .none, memberOf "Name" (textOf n) .nil, .none⟩, fun _ => .text n.toList⟩

theorem acmeRecord_holds (n : String) (h : n ∈ ["Acme", "ACME", "Zeta"]) :
    (acmeRecord n).Holds nameFields := by
  have hlookup : ∀ n ∈ ["Acme", "ACME", "Zeta"],
      MemberFound (acmeRecord n).object "Name".toList ∧ n.toList ≠ [] ∧
        ∀ x ∈ spell n.toList, plainlyEscaped x = true := by
    unfold MemberFound
    decide
  refine ⟨?_, ?_, ?_⟩
  · intro f hf
    rw [List.mem_singleton.mp hf]
    exact .text _ _ _ _ rfl (hlookup n h).1 rfl (.string (spell n.toList) _ (unitsOf_spell _).symm)
  · intro f hf
    rw [List.mem_singleton.mp hf]
    refine (plainBelow_leaf _ _ rfl).mpr ((plainMember_found _ _ _ rfl).mpr fun items hitems => ?_)
    cases hitems
    exact (hlookup n h).2.2
  · intro f hf
    rw [List.mem_singleton.mp hf]
    exact fun hnil => (hlookup n h).2.1 (Nested.text.inj hnil)

theorem recordName_mem (r : SalesforceRecord) : recordName r ∈ ["Acme", "ACME", "Zeta"] := by
  unfold recordName
  split
  · decide
  · split <;> decide

def acmeFilter : List Expr :=
  [.function "prefix".toList [.columnRef 0, .constant (.varchar "Ac".toList)]]

def namedStart : PushdownBindData :=
  ⟨⟨"Account".toList, nameFields, [], [], 0, []⟩, 0, [], false⟩

/-- DuckDB tells the cases apart, the service does not. -/
def acmeDuck (_ : List ℕ) (r : OrgRow namedOrg namedStart.object) (_ : Expr) : Truth :=
  .ofBool (recordName r.1 == "Acme")

def acmeRow (row : List DecodedCell) (_ : Expr) : Truth :=
  match row with
  | [.value (.varchar t)] => .ofBool (t == "Acme".toList)
  | _ => .unknown

theorem nameFields_named : ["Name".toList] = nameFields.map SalesforceField.name := rfl

theorem noTerms_plain : ∀ pa ∈ ([] : List SalesforcePushedAggregate), '(' ∉ pa.func ∧ ')' ∉ pa.field :=
  List.forall_mem_nil _

def acmeScan (pushed : String) : SalesforceScanFunctionData where
  object := "Account".toList
  fields := nameFields
  pushedWhere := pushed.toList
  rawWhere := []
  residualFilterCount := 1
  pushedAggregates := []
  config := ⟨"org".toList, .refreshToken, [], [], [], [], [], "https://login".toList,
    "v60.0".toList, [], "bulk".toList, 2⟩
  token := ⟨"t".toList, "https://org".toList⟩
  columnNames := ["Name".toList]
  columnTypes := [.varchar]
  pushedFilterCount := 0
  catalogAlias := []
  explainFilters := []
  explainCaptured := true
  named := nameFields_named
  termsPlain := noTerms_plain

/-- The content of the org, as its service answers a scan of the names. -/
def namedContent : OrgContent where
  answers _ _ := ⟨fun _ => none, fun _ => some (acme.id, upperAcme.id), fun _ => none⟩
  records _ _ soql :=
    .ok ((namedOrg.selected soql).map fun r => (acmeRecord (recordName r)).object.text)
  bulkRows _ _ soql :=
    .ok (["Name".toList], (namedOrg.selected soql).map fun r =>
      csvCells nameFields [nameFields[0]?] (acmeRecord (recordName r)))

theorem acme_run : ∃ s, PlainRun (fun r => recordTruth r.1) acmeDuck namedStart s ∧
    s.bind.toSalesforceScanBindData = (acmeScan "Name LIKE 'Ac%'").toSalesforceScanBindData ∧
    s.residual = acmeFilter := by
  have hpresents : Presents (fun r : OrgRow namedOrg namedStart.object => recordTruth r.1) acmeDuck
      ⟨namedStart, [], [], [], []⟩ [0] acmeFilter acmeFilter := by
    refine ⟨List.cons_ne_nil _ _, ⟨[], rfl, List.Perm.refl _⟩, ?_⟩
    intro r f hf e he
    rw [List.mem_singleton.mp hf] at he
    rw [List.mem_singleton.mp he]
    intro c exact hc
    cases hc
    refine ⟨?_, fun h => nomatch h⟩
    obtain ⟨r, hr⟩ := r
    rcases List.mem_cons.mp hr with rfl | hr
    · exact fun _ => rfl
    rcases List.mem_cons.mp hr with rfl | hr
    · exact fun _ => rfl
    · obtain rfl := List.mem_singleton.mp hr
      exact fun hduck => nomatch hduck
  have hplain : PlainFilters acmeFilter := by
    intro e he
    rw [List.mem_singleton.mp he]
    refine ⟨.leaf _ (fun t cs h => nomatch h), ?_⟩
    intro v hv
    rw [List.mem_singleton.mp hv]
    trivial
  exact ⟨_, .filters _ [0] acmeFilter acmeFilter _ _ .start hpresents hplain rfl, rfl, rfl⟩

def noSettings : ScanSettings := ⟨none, none, none, none, none, none⟩

def firstWhere : Text :=
  "(Name LIKE 'Ac%') AND (Id >= '001D000000IRFmaIAH' AND Id < '001D00000000000000')".toList

def lastWhere : Text :=
  "(Name LIKE 'Ac%') AND (Id >= '001D00000000000000' AND Id <= '001D000000IRFmbIAH')".toList

def namesWhere (w : Text) : Text := buildSelectSoql "Account".toList ["Name".toList] w none

theorem acme_chunks :
    bulkChunkSoqls (acmeScan "Name LIKE 'Ac%'").toSalesforceScanBindData
      (fun _ => some (acme.id, upperAcme.id)) 2 [0] = [namesWhere firstWhere, namesWhere lastWhere] := by
  decide +kernel

theorem acme_meets (r : SalesforceRecord) (hr : r ∈ [acme, upperAcme, zeta]) :
    r.meets (parseCondition firstWhere) = false ∧
      r.meets (parseCondition lastWhere) = decide (r.id ≠ zeta.id) := by
  rcases List.mem_cons.mp hr with rfl | hr
  · decide +kernel
  rcases List.mem_cons.mp hr with rfl | hr
  · decide +kernel
  · rw [List.mem_singleton.mp hr]
    decide +kernel

theorem names_selected (w : Text) (h : (parseCondition w).isSome = true) :
    namedOrg.selected (namesWhere w) =
      [acme, upperAcme, zeta].filter fun r => r.meets (parseCondition w) := by
  obtain ⟨c, hc⟩ := Option.isSome_iff_exists.mp h
  exact selected_build namedOrg "Account".toList w ["Name".toList] (by decide) (by decide)
    (wellFormedWhere_some w c hc)

theorem first_selected : namedOrg.selected (namesWhere firstWhere) = [] := by
  rw [names_selected firstWhere (by decide +kernel),
    List.filter_congr fun r hr => (acme_meets r hr).1]
  rfl

theorem last_selected : namedOrg.selected (namesWhere lastWhere) = [acme, upperAcme] := by
  rw [names_selected lastWhere (by decide +kernel),
    List.filter_congr fun r hr => (acme_meets r hr).2]
  rfl

theorem acme_scanned :
    scannedRows (acmeScan "Name LIKE 'Ac%'") noSettings [0] ⟨fun _ _ => none, fun _ => []⟩
      namedContent =
      .ok [[.value (.varchar "Acme".toList)], [.value (.varchar "ACME".toList)]] := by
  have hinit : scanInitGlobal (acmeScan "Name LIKE 'Ac%'").toSalesforceScanBindData
      (acmeScan "Name LIKE 'Ac%'").config.overrides noSettings
      (namedContent.answers (acmeScan "Name LIKE 'Ac%'").connection false) [0] =
      .ok ⟨false, .bulk (bulkChunkSoqls (acmeScan "Name LIKE 'Ac%'").toSalesforceScanBindData
        (fun _ => some (acme.id, upperAcme.id)) 2 [0])⟩ := rfl
  have hqueryAll : (acmeScan "Name LIKE 'Ac%'").queryAll noSettings = false := rfl
  have hrows : ∀ soql, namedContent.bulkRows (acmeScan "Name LIKE 'Ac%'").connection false soql =
      .ok (["Name".toList], (namedOrg.selected soql).map fun r =>
        csvCells nameFields [nameFields[0]?] (acmeRecord (recordName r))) := fun _ => rfl
  rw [scannedRows, hqueryAll, hinit, acme_chunks]
  simp only [Except.bind, planRows, csvRows, hrows, first_selected, last_selected]
  rfl

theorem acme_served : ServedFrom namedOrg (fun r => acmeRecord (recordName r))
    (acmeScan "Name LIKE 'Ac%'").toSalesforceScanBindData [0]
    ⟨fun _ => none, fun _ => some (acme.id, upperAcme.id), fun _ => none⟩
    (namedContent.records (acmeScan "Name LIKE 'Ac%'").connection false)
    (namedContent.bulkRows (acmeScan "Name LIKE 'Ac%'").connection false) := by
  have hacme : acme.satisfies "Name LIKE 'Ac%'".toList := rfl
  have hupper : upperAcme.satisfies "Name LIKE 'Ac%'".toList := rfl
  refine ⟨(fun _ _ h => nomatch h), ?_, ?_, ?_, ?_⟩
  · intro mn mx h
    cases h
    refine ⟨⟨acme, List.mem_cons_self, hacme, rfl⟩,
      ⟨upperAcme, List.mem_cons_of_mem _ List.mem_cons_self, hupper, rfl⟩, ?_⟩
    intro r hr hsat
    rcases List.mem_cons.mp hr with rfl | hr
    · exact ⟨by decide, by decide⟩
    rcases List.mem_cons.mp hr with rfl | hr
    · exact ⟨by decide, by decide⟩
    · obtain rfl := List.mem_singleton.mp hr
      have hzeta : zeta.meets (parseCondition "Name LIKE 'Ac%'".toList) = true := hsat
      exact absurd hzeta (by decide)
  · intro soql out h
    cases h
    rfl
  · intro w names rows h
    cases h
    exact ⟨rfl, rfl⟩
  · exact fun r _ => acmeRecord_holds _ (recordName_mem r)

theorem acmeRow_reads (n : String) (h : n ∈ ["Acme", "ACME", "Zeta"]) (e : Expr) :
    acmeRow (emittedRow ⟨fun _ _ => none, fun _ => []⟩ [nameFields[0]?] (acmeRecord n)) e =
      .ofBool (n == "Acme") := by
  rcases List.mem_cons.mp h with rfl | h
  · rfl
  rcases List.mem_cons.mp h with rfl | h
  · rfl
  · rw [List.mem_singleton.mp h]
    rfl

theorem acme_pushed : ∃ s, PushedScan ⟨fun _ _ => none, fun _ => []⟩ namedOrg
    (fun r => acmeRecord (recordName r)) [0] namedStart (acmeScan "Name LIKE 'Ac%'") acmeDuck acmeRow
    s ∧ s.residual = acmeFilter := by
  obtain ⟨s, hrun, hbind, hresidual⟩ := acme_run
  refine ⟨s, ⟨⟨rfl, rfl, rfl, rfl, rfl⟩, ⟨by decide, by decide, by decide, ?_⟩, hrun, hbind.symm, ?_⟩,
    hresidual⟩
  · unfold DistinctHeaders
    decide
  · intro r e he
    rw [hresidual] at he
    have hleaf : ∀ duck : Expr → Truth, duckTruth duck e = duck e := by
      rw [List.mem_singleton.mp he]
      exact fun _ => rfl
    have hcolumns : (acmeScan "Name LIKE 'Ac%'").columns [0] = [nameFields[0]?] := rfl
    rw [hleaf, hleaf, hcolumns]
    exact acmeRow_reads (recordName r.1) (recordName_mem r.1) e

end DuckdbSalesforce
