import DuckdbSalesforce.Catalog.DescribeDocument
import DuckdbSalesforce.Catalog.RelationshipGraph
import DuckdbSalesforce.Library.TableChunks
import DuckdbSalesforce.Quota.BulkStart
import DuckdbSalesforce.Report.CandidateSoql
import DuckdbSalesforce.Report.ColumnNames
import DuckdbSalesforce.Report.ReportMetadata
import DuckdbSalesforce.Scan.QueryExplain

/-!
# The tables of the metadata functions

What `salesforce_metadata_fields`, `salesforce_picklist_values` and the other
functions with rows of their own write into the chunks of DuckDB, and what
DuckDB reads there: all rows, once, in their order, each with its own lists.
-/

namespace DuckdbSalesforce
open JsonText TableChunks

/-! ### Cells -/

def varcharCell (t : Text) : Option Value := some (.varchar t)
def varcharOrNull (t : Option Text) : Option Value := t.map .varchar
def emptyAsNull (t : Text) : Option Value := if t = [] then none else some (.varchar t)
def booleanCell (b : Bool) : Option Value := some (.boolean b)
def booleanOrNull (b : Option Bool) : Option Value := b.map .boolean
def bigintValue (n : ℤ) : Option Value := some (.scalar .bigint n (intText n))

/-- `static_cast<int32_t>`. -/
def integerCell (n : ℤ) : Option Value :=
  some (.scalar .integer (n.bmod (2 ^ 32)) (intText (n.bmod (2 ^ 32))))

def varcharItems (ts : List Text) : List Value := ts.map .varchar

/-! ### Functions with the rows of their bind -/

structure MetaFieldRow where
  fieldName : Text
  type : Text
  filterable : Bool
  sortable : Bool
  relationshipName : Text
  referenceTo : List Text
  picklistValues : List Text

def metaFieldRow (f : DescribeField) : MetaFieldRow :=
  ⟨f.name, f.sfType, f.filterable, f.sortable, f.relationshipName, f.referenceTo, f.picklistValues⟩

def metadataFieldsError : Text :=
  "salesforce_metadata_fields(catalog, object_name) requires a ".toList ++
    "non-NULL catalog alias and object name".toList

/-- The describes that the engine of a catalog keeps, and the service. -/
abbrev EngineFields (σ : Type) := MetadataMap (List DescribeField) × σ

section
variable {σ : Type} (describeJson : Text → Text → σ → Except Text Text × σ)

/-- `GetObjectDescribe`: asked for unless it is kept. -/
def engineFields (catalog object : Text) (w : EngineFields σ) :
    Except Text (List DescribeField) × EngineFields σ :=
  match w.1.lookup (lower object) with
  | some fields => (.ok fields, w)
  | none =>
    match describeJson catalog object w.2 with
    | (.error e, w') => (.error e, w.1, w')
    | (.ok body, w') =>
      (.ok (describeFields body), emplace w.1 (lower object) (describeFields body), w')

def metaFieldsBind (inputs : List (Option Text)) (w : EngineFields σ) :
    Except Text (Text × List MetaFieldRow) × EngineFields σ :=
  match inputs with
  | some catalog :: some object :: _ =>
    let r := engineFields describeJson catalog object w
    (r.1.map fun fields => (object, fields.map metaFieldRow), r.2)
  | _ => (.error metadataFieldsError, w)

end

def metaFieldsColumns (objectName : Text) : List (Column MetaFieldRow Value) :=
  [.flat fun _ => varcharCell objectName, .flat fun f => varcharCell f.fieldName,
    .flat fun f => varcharCell f.type, .flat fun f => booleanCell f.filterable,
    .flat fun f => booleanCell f.sortable, .flat fun f => emptyAsNull f.relationshipName,
    .list fun f => varcharItems f.referenceTo, .list fun f => varcharItems f.picklistValues]

/-- `salesforce_metadata_fields`, called `n` times behind its bind. -/
def metadataFields {σ : Type} (describeJson : Text → Text → σ → Except Text Text × σ)
    (inputs : List (Option Text)) (v n : ℕ) (w : EngineFields σ) :
    Except Text (Option (List (List (OutValue Value)))) × EngineFields σ :=
  let r := metaFieldsBind describeJson inputs w
  (r.1.map fun b => (emitCalls (metaFieldsColumns b.1) b.2 v n 0).map Prod.fst, r.2)

def metaObjectsColumns : List (Column SalesforceObjectInfo Value) :=
  [.flat fun o => varcharCell o.name, .flat fun o => booleanCell o.queryable]

def explainColumns : List (Column ExplainRow Value) :=
  [.flat fun r => varcharCell r.object, .flat fun r => varcharOrNull r.field,
    .flat fun r => varcharCell r.role, .flat fun r => booleanOrNull r.resolved,
    .flat fun r => booleanOrNull r.filterable, .flat fun r => booleanOrNull r.sortable,
    .flat fun r => varcharOrNull r.relationshipName, .list fun r => varcharItems r.referenceTo,
    .flat fun r => booleanCell r.pushed, .flat fun r => booleanCell r.residual,
    .flat fun r => varcharCell r.reason, .flat fun r => varcharCell r.guidance]

def RelStatus.text : RelStatus → Text
  | .polymorphic => "polymorphic".toList
  | .selfReference => "self_reference".toList
  | .cyclic => "cyclic".toList
  | .notQueryable => "not_queryable".toList
  | .notDescribable => "not_describable".toList
  | .resolved => "resolved".toList
  | .unnamedChild => "unnamed_child".toList

def relGraphColumns : List (Column RelEdgeRow Value) :=
  [.flat fun e => varcharCell e.sourceObject, .flat fun e => emptyAsNull e.relationshipName,
    .flat fun e => varcharCell e.path, .flat fun e => integerCell e.depthLevel,
    .flat fun e => varcharOrNull e.targetObject, .list fun e => varcharItems e.referenceTo,
    .flat fun e => varcharCell e.direction, .flat fun e => varcharCell e.relationshipType,
    .flat fun e => varcharCell e.status.text, .flat fun e => varcharOrNull e.caveat]

/-- `typeText` is `LogicalType::ToString`. -/
def describeColumns (typeText : LogicalType → Text) : List (Column DescribeField Value) :=
  [.flat fun f => varcharCell f.name, .flat fun f => varcharCell f.sfType,
    .flat fun f => varcharCell (typeText f.duckdbType), .flat fun f => booleanCell f.nillable,
    .flat fun f => bigintValue f.length, .flat fun f => bigintValue f.precision,
    .flat fun f => bigintValue f.scale, .flat fun f => booleanCell f.filterable,
    .flat fun f => booleanCell f.sortable, .flat fun f => booleanCell f.unknownType]

/-- A record with its index, which is the cursor. -/
def queryColumns : List (Column (Text × ℕ) Value) :=
  [.flat fun r => bigintValue r.2, .flat fun r => varcharCell r.1]

def reportTableColumns (b : ReportBindData) : List (Column (List Text) Value) :=
  (List.range b.dataCols).map (fun c => .flat fun vals => varcharCell (vals.getD c [])) ++
    [.flat fun _ => booleanCell b.truncated,
      .flat fun _ => if b.hasAllData then booleanCell b.allData else none,
      .flat fun _ => some (.scalar .bigint 2000 "2000".toList), .flat fun _ => varcharCell reportGuidance]

def filterFields (f : ReportFilter) : List.Vector Value 3 :=
  ⟨[.varchar f.field, .varchar f.op, .varchar f.value], rfl⟩

def confidence (translatable : Bool) : Value :=
  if translatable then .scalar .double 1 "1.0".toList else .scalar .double 0 "0.0".toList

def reportSoqlColumns : List (Column ReportSoqlBindData Value) :=
  [.flat fun b => varcharCell b.reportId, .flat fun b => varcharCell b.reportName,
    .flat fun b => varcharCell b.reportType, .flat fun b => varcharCell b.baseObject,
    .list fun b => varcharItems b.columns, .structs 3 fun b => b.filters.map filterFields,
    .flat fun b => if b.translatable then varcharCell b.soql else none,
    .flat fun b => booleanCell b.translatable, .flat fun b => varcharCell b.caveats,
    .flat fun b => varcharCell b.baseObjectResolvedBy,
    .flat fun b => varcharCell (if b.translatable then "full".toList else "none".toList),
    .flat fun b => varcharCell b.blockedBy, .list fun b => varcharItems b.unresolvedColumns,
    .list fun b => varcharItems b.unresolvedFilters,
    .flat fun b => some (confidence b.translatable)]

/-- What a function holds when it is called first. The `emitted` flag of
`ReportSoqlFunction` is a cursor past its one row. -/
inductive BoundTable where
  | metadataFields (object : Text) (rows : List MetaFieldRow)
  | metadataObjects (rows : List SalesforceObjectInfo)
  | queryExplain (rows : List ExplainRow)
  | relationshipGraph (rows : List RelEdgeRow)
  | describe (fields : List DescribeField)
  | query (records : List Text)
  | report (bind : ReportBindData)
  | reportSoql (bind : ReportSoqlBindData)

section
variable (typeText : LogicalType → Text)

/-- What `n` calls write, read back. -/
def BoundTable.calls (v n : ℕ) : BoundTable → Option (List (List (OutValue Value)) × ℕ)
  | .metadataFields object rows => emitCalls (metaFieldsColumns object) rows v n 0
  | .metadataObjects rows => emitCalls metaObjectsColumns rows v n 0
  | .queryExplain rows => emitCalls explainColumns rows v n 0
  | .relationshipGraph rows => emitCalls relGraphColumns rows v n 0
  | .describe fields => emitCalls (describeColumns typeText) fields v n 0
  | .query records => emitCalls queryColumns records.zipIdx v n 0
  | .report b => emitCalls (reportTableColumns b) b.rows v n 0
  | .reportSoql b => emitCalls reportSoqlColumns [b] v n 0

def BoundTable.relation : BoundTable → List (List (OutValue Value))
  | .metadataFields object rows => rows.map (rowValues (metaFieldsColumns object))
  | .metadataObjects rows => rows.map (rowValues metaObjectsColumns)
  | .queryExplain rows => rows.map (rowValues explainColumns)
  | .relationshipGraph rows => rows.map (rowValues relGraphColumns)
  | .describe fields => fields.map (rowValues (describeColumns typeText))
  | .query records => records.zipIdx.map (rowValues queryColumns)
  | .report b => b.rows.map (rowValues (reportTableColumns b))
  | .reportSoql b => [rowValues reportSoqlColumns b]

end

/-! ### Functions that build their rows at the first call -/

structure MetaGlobalState (Row : Type) where
  built : Bool
  rows : List Row
  cursor : ℕ

section
variable {σ Row : Type} (build : σ → Except Text (List Row) × σ)

def MetaGlobalState.ensure (gs : MetaGlobalState Row) (w : σ) : Except Text (MetaGlobalState Row) × σ :=
  if gs.built then (.ok gs, w)
  else ((build w).1.map fun rows => { gs with built := true, rows := gs.rows ++ rows }, (build w).2)

/-- `MetaFunction` called `n` times, and what was read back. -/
def metaCalls (columns : List (Column Row Value)) (v : ℕ) :
    ℕ → MetaGlobalState Row → σ → Except Text (Option (List (List (OutValue Value)))) × σ
  | 0, _, w => (.ok (some []), w)
  | n + 1, gs, w =>
    match gs.ensure build w with
    | (.error e, w') => (.error e, w')
    | (.ok gs', w') =>
      match emitChunk columns gs'.rows v gs'.cursor with
      | none => (.ok none, w')
      | some chunk =>
        let rest := metaCalls columns v n { gs' with cursor := gs'.cursor + chunk.cardinality } w'
        (rest.1.map fun later => chunk.read.bind fun out => later.map (out ++ ·), rest.2)

def metaStart : MetaGlobalState Row := ⟨false, [], 0⟩

theorem metaCalls_built (columns : List (Column Row Value)) (v n : ℕ) (rows : List Row) (cursor : ℕ)
    (w : σ) : metaCalls build columns v n ⟨true, rows, cursor⟩ w =
      (.ok (some ((batch rows cursor (n * v)).map (rowValues columns))), w) := by
  induction n generalizing cursor with
  | zero =>
    have hnone : batch rows cursor (0 * v) = [] := by rw [Nat.zero_mul]; exact List.take_zero
    rw [hnone]
    rfl
  | succ n ih =>
    obtain ⟨chunk, hchunk, hcount, hread⟩ := emitChunk_read columns rows v cursor
    have hrest := ih (cursor + chunk.cardinality)
    show (match emitChunk columns rows v cursor with
      | none => _
      | some chunk => _) = _
    rw [hchunk]
    dsimp only
    rw [hrest, hread, hcount, batch_succ, List.map_append]
    rfl

/-- The rows are built by the first call, once. -/
theorem metaCalls_rows (columns : List (Column Row Value)) (v n : ℕ) (w : σ) :
    metaCalls build columns v (n + 1) metaStart w =
      ((build w).1.map fun rows => some ((batch rows 0 ((n + 1) * v)).map (rowValues columns)),
        (build w).2) := by
  have hensure : (metaStart : MetaGlobalState Row).ensure build w =
      ((build w).1.map fun rows => ⟨true, rows, 0⟩, (build w).2) := rfl
  rw [metaCalls, hensure]
  cases hbuild : (build w).1 with
  | error e => rfl
  | ok rows =>
    have hbuilt := metaCalls_built build columns v (n + 1) rows 0 (build w).2
    rw [metaCalls] at hbuilt
    exact hbuilt

end

/-! ### Picklists and record types -/

/-- `CheckArgs`. -/
def checkArgs (inputs : List (Option Text)) (n : ℕ) (usage : Text) : Except Text Unit :=
  if inputs.length ≠ n then .error usage
  else
    match inputs.findIdx? Option.isNone with
    | some i => .error ("salesforce metadata: argument ".toList ++ natText (i + 1) ++
        " must not be NULL.".toList)
    | none => .ok ()

def trimArg (inputs : List (Option Text)) (i : ℕ) : Text := trim ((inputs[i]?).join.getD [])

structure PicklistBindData where
  catalog : Text
  object : Text
  field : Text

def picklistBind (inputs : List (Option Text)) : Except Text PicklistBindData :=
  (checkArgs inputs 3 "salesforce_picklist_values(catalog, object, field) takes 3 arguments.".toList).map
    fun _ => ⟨trimArg inputs 0, trimArg inputs 1, trimArg inputs 2⟩

structure RecordTypesBindData where
  catalog : Text
  object : Text

def recordTypesBind (inputs : List (Option Text)) : Except Text RecordTypesBindData :=
  (checkArgs inputs 2 "salesforce_record_types(catalog, object) takes 2 arguments.".toList).map
    fun _ => ⟨trimArg inputs 0, trimArg inputs 1⟩

def picklistColumns : List (Column PicklistRow Value) :=
  [.flat fun r => varcharCell r.value, .flat fun r => varcharCell r.label,
    .flat fun r => booleanCell r.active, .flat fun r => booleanCell r.isDefault]

def recordTypesColumns : List (Column RecordTypeRow Value) :=
  [.flat fun r => varcharCell r.developerName, .flat fun r => varcharCell r.label,
    .flat fun r => varcharCell r.recordTypeId, .flat fun r => booleanCell r.active,
    .flat fun r => booleanCell r.isDefault]

section
variable {σ : Type} (describeJson : Text → Text → σ → Except Text Text × σ)

def picklistBuild (bd : PicklistBindData) (w : σ) : Except Text (List PicklistRow) × σ :=
  let r := describeJson bd.catalog bd.object w
  (r.1.bind fun describe => picklistRows describe bd.object bd.field, r.2)

def recordTypesBuild (bd : RecordTypesBindData) (w : σ) : Except Text (List RecordTypeRow) × σ :=
  let r := describeJson bd.catalog bd.object w
  (r.1.map recordTypeRows, r.2)

/-- `salesforce_picklist_values`, called `n` times. -/
def picklistValues (inputs : List (Option Text)) (v n : ℕ) (w : σ) :
    Except Text (Option (List (List (OutValue Value)))) × σ :=
  match picklistBind inputs with
  | .error e => (.error e, w)
  | .ok bd => metaCalls (picklistBuild describeJson bd) picklistColumns v n metaStart w

/-- `salesforce_record_types`, called `n` times. -/
def recordTypes (inputs : List (Option Text)) (v n : ℕ) (w : σ) :
    Except Text (Option (List (List (OutValue Value)))) × σ :=
  match recordTypesBind inputs with
  | .error e => (.error e, w)
  | .ok bd => metaCalls (recordTypesBuild describeJson bd) recordTypesColumns v n metaStart w

end

/-! ### What DuckDB reads -/

/-- The rows that fit, and how many were emitted: no write failed, no position
was read that was not written, and no row has the list of another. -/
theorem bound_tables_emitted (typeText : LogicalType → Text) (t : BoundTable) (v n : ℕ) :
    t.calls typeText v n = some ((t.relation typeText).take (n * v),
      min (n * v) (t.relation typeText).length) := by
  have hcalls : ∀ {Row : Type} (columns : List (Column Row Value)) (rows : List Row),
      emitCalls columns rows v n 0 = some ((rows.map (rowValues columns)).take (n * v),
        min (n * v) (rows.map (rowValues columns)).length) := by
    intro Row columns rows
    rw [emitCalls_rows, batch_length, Nat.zero_add, Nat.sub_zero, List.length_map, ← List.map_take]
    rfl
  cases t with
  | metadataFields object rows => exact hcalls _ _
  | metadataObjects rows => exact hcalls _ _
  | queryExplain rows => exact hcalls _ _
  | relationshipGraph rows => exact hcalls _ _
  | describe fields => exact hcalls _ _
  | query records => exact hcalls _ _
  | report b => exact hcalls _ _
  | reportSoql b => exact hcalls _ _

/-- The cells of a report's row are those of `ReportFunction`. -/
theorem report_cells (b : ReportBindData) (vals : List Text) :
    rowValues (reportTableColumns b) vals =
      (reportOutput b vals).map fun c => if c.isNull then .null else .cell c := by
  unfold rowValues reportTableColumns reportOutput
  rw [List.map_append, List.map_append, List.map_map, List.map_map]
  congr 1
  cases b.hasAllData with
  | true | false => simp [Column.value, cellValue, booleanCell, varcharCell, Value.isNull]

/-- A row of `salesforce_metadata_fields` for a field of the document. -/
def MetaFieldOut (object : Text) (d : ObjectText) (row : List (OutValue Value)) : Prop :=
  ∃ f : DescribeField, FieldRead d f ∧ row =
    [.cell (.varchar object), .cell (.varchar f.name), .cell (.varchar f.sfType),
      .cell (.boolean f.filterable), .cell (.boolean f.sortable),
      if f.relationshipName = [] then .null else .cell (.varchar f.relationshipName),
      .items (f.referenceTo.map .varchar), .items (f.picklistValues.map .varchar)]

def PicklistOut (d : ObjectText) (row : List (OutValue Value)) : Prop :=
  ∃ r : PicklistRow, PicklistRead d r ∧ row =
    [.cell (.varchar r.value), .cell (.varchar r.label), .cell (.boolean r.active),
      .cell (.boolean r.isDefault)]

def RecordTypeOut (d : ObjectText) (row : List (OutValue Value)) : Prop :=
  ∃ r : RecordTypeRow, RecordTypeRead d r ∧ row =
    [.cell (.varchar r.developerName), .cell (.varchar r.label), .cell (.varchar r.recordTypeId),
      .cell (.boolean r.active), .cell (.boolean r.isDefault)]

/-- The rows of as many elements as fit. -/
theorem forall₂_emitted {α β γ : Type} {R : β → α → Prop} {Q : α → γ → Prop} {f : β → γ}
    (hrow : ∀ a b, R b a → Q a (f b)) (bs : List β) (as : List α)
    (h : List.Forall₂ (fun b a => R b a) bs as) (k : ℕ) :
    List.Forall₂ Q (as.take k) ((batch bs 0 k).map f) := by
  have hall : List.Forall₂ Q as (bs.map f) := by
    induction h with
    | nil => exact .nil
    | cons hR _ ih => exact .cons (hrow _ _ hR) ih
  have htaken := List.forall₂_take k hall
  rw [← List.map_take] at htaken
  exact htaken

def FieldRowRead (d : ObjectText) (row : MetaFieldRow) : Prop :=
  ∃ f, FieldRead d f ∧ metaFieldRow f = row

theorem metaFieldRow_out (object : Text) (d : ObjectText) (row : MetaFieldRow)
    (h : FieldRowRead d row) : MetaFieldOut object d (rowValues (metaFieldsColumns object) row) := by
  obtain ⟨f, hread, rfl⟩ := h
  refine ⟨f, hread, ?_⟩
  by_cases hname : f.relationshipName = []
  · simp [rowValues, metaFieldsColumns, metaFieldRow, Column.value, cellValue, varcharCell,
      booleanCell, emptyAsNull, varcharItems, hname]
  · simp [rowValues, metaFieldsColumns, metaFieldRow, Column.value, cellValue, varcharCell,
      booleanCell, emptyAsNull, varcharItems, hname]

section
variable {σ : Type} (describeJson : Text → Text → σ → Except Text Text × σ)

/-- The fields of the document, for which the service is asked once, or not at
all when the engine keeps them. -/
structure FieldsDelivered (o : ObjectText) (catalog object : Text) (kept : MetadataMap (List DescribeField))
    (w : σ) (v n : ℕ) : Prop where
  delivered : ∃ out, (metadataFields describeJson [some catalog, some object] v n (kept, w)).1 =
      .ok (some out) ∧
    List.Forall₂ (MetaFieldOut object)
      (((objectsOf o "fields".toList).filter fun d => hasText d "name".toList).take (n * v)) out
  asked : lower object ∉ kept →
    (metadataFields describeJson [some catalog, some object] v n (kept, w)).2 =
      (emplace kept (lower object) (describeFields o.text), (describeJson catalog object w).2)
  kept : lower object ∈ kept →
    (metadataFields describeJson [some catalog, some object] v n (kept, w)).2 = (kept, w)

/-- The engine keeps no other describe of the object. -/
def KeepsDocument (kept : MetadataMap (List DescribeField)) (o : ObjectText) (object : Text) : Prop :=
  ∀ fields, kept.lookup (lower object) = some fields → fields = describeFields o.text

/-- Over a describe document: the rows that `n + 1` calls of each function have
emitted are those of the elements of the document, and the describe was asked
for once. -/
structure MetadataDelivered (o : ObjectText) (catalog object : Text)
    (kept : MetadataMap (List DescribeField)) (w : σ) (v n : ℕ) : Prop where
  fields : FieldsDelivered describeJson o catalog object kept w v (n + 1)
  picklist : ∀ field before d after, objectsOf o "fields".toList = before ++ d :: after →
    (∀ e ∈ before, ¬ NameIs e (trim field)) → NameIs d (trim field) →
    ∃ out, picklistValues describeJson [some catalog, some object, some field] v (n + 1) w =
        (.ok (some out), (describeJson (trim catalog) (trim object) w).2) ∧
      List.Forall₂ PicklistOut ((objectsOf d "picklistValues".toList).take ((n + 1) * v)) out
  noField : ∀ field, (∀ d ∈ objectsOf o "fields".toList, ¬ NameIs d (trim field)) →
    picklistValues describeJson [some catalog, some object, some field] v (n + 1) w =
      (.error (picklistError (trim field) (trim object)),
        (describeJson (trim catalog) (trim object) w).2)
  recordTypes : ∃ out, recordTypes describeJson [some catalog, some object] v (n + 1) w =
      (.ok (some out), (describeJson (trim catalog) (trim object) w).2) ∧
    List.Forall₂ RecordTypeOut ((objectsOf o "recordTypeInfos".toList).take ((n + 1) * v)) out

theorem engineFields_answer (o : ObjectText) (catalog object : Text)
    (kept : MetadataMap (List DescribeField)) (w : σ) (hkept : KeepsDocument kept o object)
    (hserved : (describeJson catalog object w).1 = .ok o.text) :
    (engineFields describeJson catalog object (kept, w)).1 = .ok (describeFields o.text) ∧
      (lower object ∉ kept → (engineFields describeJson catalog object (kept, w)).2 =
        (emplace kept (lower object) (describeFields o.text), (describeJson catalog object w).2)) ∧
      (lower object ∈ kept → (engineFields describeJson catalog object (kept, w)).2 = (kept, w)) := by
  have hmem := AList.lookup_isSome (s := kept) (a := lower object)
  have hsplit : describeJson catalog object w = (.ok o.text, (describeJson catalog object w).2) :=
    Prod.ext hserved rfl
  unfold engineFields
  dsimp only
  cases hlookup : kept.lookup (lower object) with
  | some fields =>
    rw [hlookup] at hmem
    rw [hkept fields hlookup]
    exact ⟨rfl, fun hnot => absurd (hmem.mp rfl) hnot, fun _ => rfl⟩
  | none =>
    rw [hlookup] at hmem
    dsimp only
    rw [hsplit]
    exact ⟨rfl, fun _ => rfl, fun hin => absurd (hmem.mpr hin) Bool.false_ne_true⟩

theorem fields_delivered (o : ObjectText) (catalog object : Text)
    (kept : MetadataMap (List DescribeField)) (w : σ) (v n : ℕ) (hsafe : DescribeSafe o)
    (hkept : KeepsDocument kept o object) (hserved : (describeJson catalog object w).1 = .ok o.text) :
    FieldsDelivered describeJson o catalog object kept w v n := by
  obtain ⟨hanswer, hasked, hfound⟩ :=
    engineFields_answer describeJson o catalog object kept w hkept hserved
  have hread : List.Forall₂ (fun row d => FieldRowRead d row)
      ((describeFields o.text).map metaFieldRow)
      ((objectsOf o "fields".toList).filter fun d => hasText d "name".toList) :=
    List.forall₂_map_left_iff.mpr ((describeFields_read o hsafe).imp fun f d hf => ⟨f, hf, rfl⟩)
  refine ⟨⟨_, ?_, forall₂_emitted (metaFieldRow_out object) _ _ hread _⟩, hasked, hfound⟩
  show Except.map _ (Except.map _ (engineFields describeJson catalog object (kept, w)).1) = _
  rw [hanswer]
  show Except.ok ((emitCalls (metaFieldsColumns object) _ v n 0).map Prod.fst) = _
  rw [emitCalls_rows]
  rfl

theorem metadata_functions_deliver (o : ObjectText) (catalog object : Text)
    (kept : MetadataMap (List DescribeField)) (w : σ) (v n : ℕ) (hsafe : DescribeSafe o)
    (hserved : (describeJson (trim catalog) (trim object) w).1 = .ok o.text)
    (hfields : (describeJson catalog object w).1 = .ok o.text)
    (hkept : KeepsDocument kept o object) :
    MetadataDelivered describeJson o catalog object kept w v n := by
  refine ⟨fields_delivered describeJson o catalog object kept w v (n + 1) hsafe hkept hfields,
    ?_, ?_, ?_⟩
  · intro field before d after hsplit hbefore hd
    obtain ⟨rows, hrows, hread⟩ := (picklistRows_answered o (trim object) (trim field) hsafe).found
      before d after hsplit hbefore hd
    refine ⟨_, ?_, forall₂_emitted (fun d r h => ⟨r, h, rfl⟩) rows _ hread _⟩
    show metaCalls (picklistBuild describeJson ⟨trim catalog, trim object, trim field⟩) _ v (n + 1)
      metaStart w = _
    rw [metaCalls_rows, picklistBuild, hserved]
    show ((picklistRows o.text (trim object) (trim field)).map _, _) = _
    rw [hrows]
    rfl
  · intro field hnone
    have hmissing := (picklistRows_answered o (trim object) (trim field) hsafe).missing hnone
    show metaCalls (picklistBuild describeJson ⟨trim catalog, trim object, trim field⟩) _ v (n + 1)
      metaStart w = _
    rw [metaCalls_rows, picklistBuild, hserved]
    show ((picklistRows o.text (trim object) (trim field)).map _, _) = _
    rw [hmissing]
    rfl
  · refine ⟨_, ?_, forall₂_emitted (fun d r h => ⟨r, h, rfl⟩) _ _ (recordTypeRows_read o hsafe) _⟩
    show metaCalls (recordTypesBuild describeJson ⟨trim catalog, trim object⟩) _ v (n + 1)
      metaStart w = _
    rw [metaCalls_rows, recordTypesBuild, hserved]
    rfl

end

/-! ### An Account in chunks of one row -/

def describeAccount (_ _ : Text) (asked : ℕ) : Except Text Text × ℕ :=
  (.ok accountDocument.text, asked + 1)

/-- Asked for once, however many calls there are. -/
theorem account_metadata_delivered :
    MetadataDelivered describeAccount accountDocument " sf".toList "Account".toList ∅ 0 1 2 ∧
      picklistValues describeAccount [some " sf".toList, some "Account".toList, some "rating".toList]
          1 3 0 =
        (.ok (some [[.cell (.varchar "Hot".toList), .cell (.varchar "\"Hot\"".toList),
          .cell (.boolean true), .cell (.boolean true)]]), 1) := by
  refine ⟨metadata_functions_deliver describeAccount accountDocument " sf".toList "Account".toList ∅ 0
    1 2 accountDocument_safe rfl rfl ?_, by decide +kernel⟩
  intro fields hfields
  rw [AList.lookup_empty] at hfields
  cases hfields

end DuckdbSalesforce
