import DuckdbSalesforce.Json.StringArray
import DuckdbSalesforce.Library.Fallible
import DuckdbSalesforce.Library.FreshName
import DuckdbSalesforce.Library.Numeral
import DuckdbSalesforce.Soql.Translate

/-!
# The columns of a report (`ReportBind`, `salesforce_report.cpp`)

A tabular report gives one text column per detail column and four diagnostic
columns behind them. Labels repeat, so that names are made unique.
-/

namespace DuckdbSalesforce
open Fallible FreshName

/-! ### Names -/

structure ReportColumn where
  api : Text
  label : Text
  deriving DecidableEq, Repr

def reservedPrefix (n : Text) : Bool := "__sf_report_".toList.isPrefixOf n

/-- Label or API name, never with the prefix of the diagnostic columns. -/
def columnName (c : ReportColumn) : Text :=
  let name := if c.label = [] then c.api else c.label
  let name := if reservedPrefix name then c.api else name
  if name = [] ∨ reservedPrefix name then "col_".toList ++ c.api else name

/-- `base`, `base_2`, `base_3` and so on. -/
def nameForm (base : Text) : ℕ → Text
  | 0 => base
  | k + 1 => base ++ '_' :: natText (k + 2)

def columnForm (c : ReportColumn) : ℕ → Text := nameForm (columnName c)

/-- `used` is a set of exact texts. -/
def dataColumnNames (cols : List ReportColumn) : List Text := names columnForm [] cols

def reservedColumns : List Text :=
  ["__sf_report_truncated".toList, "__sf_report_all_data".toList, "__sf_report_max_rows".toList,
    "__sf_report_guidance".toList]

def reportColumnNames (cols : List ReportColumn) : List Text := dataColumnNames cols ++ reservedColumns

/-! ### Rows -/

/-- `vector::resize`: short rows are padded, cells over the count dropped. -/
def reportCells (dataCols : ℕ) (cells : List Text) : List Text :=
  cells.take dataCols ++ List.replicate (dataCols - cells.length) []

structure ReportBindData where
  names : List Text
  returnTypes : List LogicalType
  dataCols : ℕ
  rows : List (List Text)
  truncated : Bool
  allData : Bool
  hasAllData : Bool
  deriving DecidableEq, Repr

def reportColumns (body : Text) : List ReportColumn :=
  let metadata := extractObject body "reportMetadata".toList
  let ext := extractObject body "reportExtendedMetadata".toList
  let colInfo := extractObject ext "detailColumnInfo".toList
  (getStringArray metadata "detailColumns".toList).map fun api =>
    let info := extractObject colInfo api
    ⟨api, if info = [] then [] else getString info "label".toList⟩

/-- The report behind `body`; a report without `T!T` is not tabular. -/
def reportData (reportId body : Text) : Except BinderException ReportBindData :=
  let tt := extractObject (extractObject body "factMap".toList) "T!T".toList
  if tt = [] then
    .error ⟨("salesforce_report: only tabular reports are supported in this cut ".toList ++
      "(summary/matrix unsupported); report '".toList) ++ reportId ++ "'".toList⟩
  else
    let cols := reportColumns body
    let rows := (getObjectArray tt "rows".toList).map fun row =>
      reportCells cols.length
        ((getObjectArray row "dataCells".toList).map fun cell => getString cell "label".toList)
    let raw := getValue body "allData".toList
    let hasAllData := raw.found && !raw.isNull
    let allData := raw.out == "true".toList
    .ok ⟨reportColumnNames cols,
      cols.map (fun _ => .varchar) ++ [.boolean, .boolean, .bigint, .varchar], cols.length, rows,
      hasAllData && !allData, allData, hasAllData⟩

/-- `runReport` is the session's call. -/
def reportBind (runReport : Text → Text → Except BinderException Text) :
    List (Option Text) → Except BinderException ReportBindData
  | some catalog :: some reportId :: _ => (runReport catalog reportId).bind (reportData reportId)
  | _ :: _ :: _ => .error ⟨"salesforce_report: arguments must not be NULL.".toList⟩
  | _ => .error ⟨("salesforce_report(catalog, report_id) requires the attached catalog ".toList ++
      "alias and a report id, e.g. salesforce_report('sf', '00O...')".toList)⟩

def reportGuidance : Text :=
  "report result is a validation sample only (max 2000 rows, no pagination); ".toList ++
    "scale via sf.<Object> scans, not this function".toList

/-- One output row of `ReportFunction`. -/
def reportOutput (b : ReportBindData) (vals : List Text) : List Value :=
  (List.range b.dataCols).map (fun c => .varchar (vals.getD c [])) ++
    [.boolean b.truncated, if b.hasAllData then .boolean b.allData else .null .boolean,
      .scalar .bigint 2000 "2000".toList, .varchar reportGuidance]

/-! ### Forms of a name -/

theorem nameForm_injective (base : Text) : (nameForm base).Injective := by
  have hlonger : ∀ k, base ≠ base ++ '_' :: natText (k + 2) := by
    intro k h
    have hlen := congrArg List.length h
    rw [List.length_append, List.length_cons] at hlen
    omega
  intro j k h
  cases j with
  | zero =>
    cases k with
    | zero => rfl
    | succ k => exact absurd h (hlonger k)
  | succ j =>
    cases k with
    | zero => exact absurd h.symm (hlonger j)
    | succ k =>
      have hdigits : natText (j + 2) = natText (k + 2) :=
        (List.cons.inj (List.append_cancel_left h)).2
      have := natText_injective _ _ hdigits
      omega

theorem columnForm_injective (c : ReportColumn) : (columnForm c).Injective :=
  nameForm_injective (columnName c)

/-- Number and base can be told from a numbered form, whatever its case. -/
theorem suffix_split (a b : Text) (j k : ℕ)
    (h : lower (nameForm a (j + 1)) = lower (nameForm b (k + 1))) : j = k ∧ lower a = lower b := by
  have hshape : ∀ (t : Text) (n : ℕ), (lower (nameForm t (n + 1))).reverse =
      (natText (n + 2)).reverse ++ '_' :: (lower t).reverse := by
    intro t n
    have hdigits : lower (natText (n + 2)) = natText (n + 2) := by
      have hone : ∀ c ∈ natText (n + 2), c.toLower = id c := fun c hc =>
        toLower_digit c ((natText_digits (n + 2)).2 c hc)
      rw [lower, List.map_congr_left hone, List.map_id]
    have hunderscore : Char.toLower '_' = '_' := rfl
    rw [nameForm, lower, List.map_append, List.map_cons, hunderscore]
    show (lower t ++ '_' :: lower (natText (n + 2))).reverse = _
    rw [hdigits, List.reverse_append, List.reverse_cons, List.append_assoc, List.singleton_append]
  have hdigits : ∀ n, ∀ c ∈ (natText (n + 2)).reverse, c.isDigit = true := by
    intro n c hc
    exact (natText_digits (n + 2)).2 c (List.mem_reverse.mp hc)
  have hstop : ∀ t : Text, NumberScan.NoDigit ('_' :: t) := by
    intro t c hc
    rw [← Option.some.inj hc]
    rfl
  have hreverse := congrArg List.reverse h
  rw [hshape, hshape] at hreverse
  obtain ⟨hnumber, hrest⟩ := Numerals.digits_split _ _ _ _ (hdigits j) (hdigits k) (hstop _)
    (hstop _) hreverse
  refine ⟨?_, List.reverse_injective (List.cons.inj hrest).2⟩
  have hnat := natText_injective _ _ (List.reverse_injective hnumber)
  omega

theorem suffix_unreserved (base : Text) (k : ℕ) :
    lower (nameForm base (k + 1)) ∉ reservedColumns.map lower := by
  obtain ⟨hne, hdigits⟩ := natText_digits (k + 2)
  obtain ⟨d, hd⟩ := List.exists_mem_of_ne_nil _ hne
  have hin : d ∈ lower (nameForm base (k + 1)) := by
    rw [← toLower_digit d (hdigits d hd)]
    apply List.mem_map_of_mem
    exact List.mem_append_right _ (List.mem_cons_of_mem _ hd)
  have hnone : ∀ r ∈ reservedColumns, (lower r).any Char.isDigit = false := by
    intro r hr
    simp only [reservedColumns, List.mem_cons, List.not_mem_nil, or_false] at hr
    rcases hr with rfl | rfl | rfl | rfl <;> rfl
  intro hmem
  obtain ⟨r, hr, hsame⟩ := List.mem_map.mp hmem
  rw [← hsame] at hin
  exact List.any_eq_false.mp (hnone r hr) d hin (hdigits d hd)

theorem reserved_distinct : (reservedColumns.map lower).Nodup := by decide

/-- A data column has a reserved name, up to case, only where a column is called
so in the first place. -/
theorem data_unreserved (cols : List ReportColumn) :
    (∀ a ∈ dataColumnNames cols, lower a ∉ reservedColumns.map lower) ↔
      ∀ c ∈ cols, lower (columnName c) ∉ reservedColumns.map lower := by
  constructor
  · intro h c hc
    have hused := base_used columnForm columnForm_injective [] cols c hc
    rw [List.nil_append] at hused
    exact h _ hused
  · intro h a ha
    obtain ⟨c, hc, k, rfl⟩ := reached_form columnForm cols a
      ((mem_names_iff columnForm columnForm_injective cols a).mp ha)
    cases k with
    | zero => exact h c hc
    | succ k => exact suffix_unreserved (columnName c) k

/-! ### Output columns -/

/-- The columns of a report as DuckDB sees them: no two names differ in case
only, and everything stands at the position of its column. -/
structure ColumnsKept (cols : List ReportColumn) : Prop where
  distinct : ((reportColumnNames cols).map lower).Nodup
  unreserved : ∀ a ∈ (reportColumnNames cols).take cols.length, lower a ∉ reservedColumns.map lower
  positions : ∀ (i : ℕ) (c : ReportColumn), cols[i]? = some c →
    ∃ k, (reportColumnNames cols)[i]? = some (columnForm c k)
  cells : ∀ (cells : List Text) (i : ℕ), i < cols.length → (reportCells cols.length cells)[i]? = some (cells.getD i [])

theorem dataColumns_length (cols : List ReportColumn) :
    (dataColumnNames cols).length = cols.length := names_length columnForm [] cols

theorem take_data (cols : List ReportColumn) :
    (reportColumnNames cols).take cols.length = dataColumnNames cols := by
  rw [← dataColumns_length]
  exact List.take_left

theorem columns_names (cols : List ReportColumn) (i : ℕ) (c : ReportColumn)
    (h : cols[i]? = some c) : ∃ k, (reportColumnNames cols)[i]? = some (columnForm c k) := by
  obtain ⟨hlt, _⟩ := List.getElem?_eq_some_iff.mp h
  obtain ⟨k, hk⟩ := names_form columnForm columnForm_injective [] cols i c h
  refine ⟨k, ?_⟩
  unfold reportColumnNames
  rw [List.getElem?_append_left (by rwa [dataColumns_length])]
  exact hk

theorem reportCells_at (n : ℕ) (cells : List Text) (i : ℕ) (hi : i < n) :
    (reportCells n cells)[i]? = some (cells.getD i []) := by
  unfold reportCells
  rw [List.getD_eq_getElem?_getD]
  by_cases hlt : i < cells.length
  · rw [List.getElem?_append_left (by rw [List.length_take]; omega), List.getElem?_take_of_lt hi,
      List.getElem?_eq_getElem hlt]
    rfl
  · rw [List.getElem?_append_right (by rw [List.length_take]; omega), List.getElem?_replicate,
      if_pos (by rw [List.length_take]; omega), List.getElem?_eq_none (by omega)]
    rfl

/-- No column's base name is that of a diagnostic column in another case. And where
a base name is, up to case, a base name or a numbered form that the columns
reach, it is spelled like it. -/
structure SpelledApart (cols : List ReportColumn) : Prop where
  unreserved : ∀ c ∈ cols, lower (columnName c) ∉ reservedColumns.map lower
  spelled : ∀ c ∈ cols, ∀ a, Reached columnForm cols a → lower (columnName c) = lower a →
    columnName c = a

/-- The forms of all base names are apart, reached or not. -/
structure FormsApart (cols : List ReportColumn) : Prop where
  unreserved : ∀ c ∈ cols, lower (columnName c) ∉ reservedColumns.map lower
  spelled : ∀ c ∈ cols, ∀ d ∈ cols, ∀ k, lower (columnName c) = lower (columnForm d k) →
    columnName c = columnForm d k

theorem data_distinct_iff (cols : List ReportColumn) :
    ((dataColumnNames cols).map lower).Nodup ↔
      ∀ c ∈ cols, ∀ a, Reached columnForm cols a → lower (columnName c) = lower a →
        columnName c = a := by
  apply names_distinct_iff columnForm columnForm_injective lower cols
  · intro c d h
    exact congrArg nameForm h
  · intro c d j k h
    exact suffix_split (columnName c) (columnName d) j k h

theorem distinct_iff (cols : List ReportColumn) :
    ((reportColumnNames cols).map lower).Nodup ↔ SpelledApart cols := by
  have hdata := data_distinct_iff cols
  unfold reportColumnNames
  rw [List.map_append, List.nodup_append]
  have hdisjoint : (∀ a ∈ (dataColumnNames cols).map lower, ∀ b ∈ reservedColumns.map lower, a ≠ b) ↔
      ∀ a ∈ dataColumnNames cols, lower a ∉ reservedColumns.map lower := by
    rw [List.forall_mem_map]
    constructor
    · intro h a ha hmem
      exact h a ha _ hmem rfl
    · intro h a ha b hb heq
      subst heq
      exact h a ha hb
  rw [hdisjoint, data_unreserved]
  constructor
  · intro hgiven
    obtain ⟨hnames, _, hunreserved⟩ := hgiven
    exact ⟨hunreserved, hdata.mp hnames⟩
  · intro h
    exact ⟨hdata.mpr h.spelled, reserved_distinct, h.unreserved⟩

theorem columns_kept_iff (cols : List ReportColumn) : ColumnsKept cols ↔ SpelledApart cols := by
  rw [← distinct_iff]
  constructor
  · exact ColumnsKept.distinct
  · intro h
    refine ⟨h, ?_, columns_names cols, reportCells_at cols.length⟩
    rw [take_data, data_unreserved]
    exact ((distinct_iff cols).mp h).unreserved

theorem forms_spelled (cols : List ReportColumn) (h : FormsApart cols) : SpelledApart cols := by
  refine ⟨h.unreserved, ?_⟩
  intro c hc a ha hlower
  obtain ⟨d, hd, k, rfl⟩ := reached_form columnForm cols a ha
  exact h.spelled c hc d hd k hlower

/-- The columns are kept exactly when the base names are spelled apart, for which
it is enough that all their forms are. -/
theorem report_columns_iff (cols : List ReportColumn) :
    (ColumnsKept cols ↔ SpelledApart cols) ∧ (FormsApart cols → ColumnsKept cols) :=
  ⟨columns_kept_iff cols, fun h => (columns_kept_iff cols).mpr (forms_spelled cols h)⟩

/-- Two columns with one label: `Name` and `Name_2`. -/
def twoNames : List ReportColumn := [⟨"A".toList, "Name".toList⟩, ⟨"B".toList, "Name".toList⟩]

theorem twoNames_kept : ColumnsKept twoNames := by
  have hname : ∀ c ∈ twoNames, columnName c = "Name".toList := by decide
  refine (report_columns_iff twoNames).2 ⟨?_, ?_⟩
  · intro c hc
    rw [hname c hc]
    decide
  · intro c hc d hd k h
    cases k with
    | zero => exact (hname c hc).trans (hname d hd).symm
    | succ k =>
      have hlen := congrArg List.length h
      rw [columnForm, hname c hc, hname d hd, lower_length, lower_length, nameForm,
        List.length_append, List.length_cons] at hlen
      omega

/-- Two labels that differ in case only. -/
theorem same_name_twice : ¬ ColumnsKept [⟨"A".toList, "Name".toList⟩, ⟨"B".toList, "name".toList⟩] := by
  intro h
  exact absurd h.distinct (by decide)

end DuckdbSalesforce
