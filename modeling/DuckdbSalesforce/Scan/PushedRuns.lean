import Mathlib
import DuckdbSalesforce.Bulk.ParallelScan
import DuckdbSalesforce.Library.PageChain
import DuckdbSalesforce.Scan.PushedScan
import DuckdbSalesforce.Scan.RestScan

/-!
# Runs of a scan with pushed filters

The pages of a REST scan and the threads of a Bulk scan, over the statements of
a scan that filters were pushed into. However the service cuts its answers into
pages, and however the threads take turns, DuckDB ends up with the same rows.
-/

namespace DuckdbSalesforce
open PagedStream PageChain ThreeValued Fallible

/-! ### REST pages -/

def acmeLastPage (pg : SalesforceQueryPage) : Bool := pg.done || pg.nextPath.isEmpty

def namedPath (pg : SalesforceQueryPage) : Option Text := some pg.nextPath

/-- The service answers a path with these records in pages, not more of them
than `Query` follows and no path twice. -/
def InPages (fetchPage : FetchPage) (path : Text) (records : List Text) : Prop :=
  ∃ pgs, Chain (fun _ p => (fetchPage p).toOption) acmeLastPage namedPath 0 path pgs ∧
    Within namedPath (kMaxPages - 1) [] pgs ∧ pgs.flatMap SalesforceQueryPage.records = records

theorem toOption_ok {ε α : Type} (x : Except ε α) (a : α) (h : x.toOption = some a) : x = .ok a := by
  cases x with
  | error e => cases h
  | ok b => rw [Option.some.inj h]

theorem queryLoop_chain (fetchPage : FetchPage) (n : ℕ) (path : Text)
    (pgs : List SalesforceQueryPage)
    (hchain : Chain (fun _ p => (fetchPage p).toOption) acmeLastPage namedPath n path pgs)
    (seen : List Text) (result : SalesforceQueryResult)
    (hshort : pgs.length + result.pageCount ≤ kMaxPages)
    (honce : (followed namedPath pgs).Nodup) (hnew : ∀ q ∈ followed namedPath pgs, q ∉ seen) :
    queryLoop fetchPage path seen result =
      (.ok (), ⟨result.records ++ pgs.flatMap SalesforceQueryPage.records,
        result.pageCount + pgs.length⟩) := by
  induction hchain generalizing seen result with
  | last n p pg hget hdone =>
    have hlast : (pg.done || pg.nextPath.isEmpty) = true := hdone
    rw [queryLoop, toOption_ok _ _ hget]
    simp only
    rw [if_pos hlast, List.flatMap_singleton]
    rfl
  | more n p q pg pgs hget hdone hnext hrest ih =>
    have hlast : (pg.done || pg.nextPath.isEmpty) ≠ true := by
      rw [show (pg.done || pg.nextPath.isEmpty) = false from hdone]
      exact Bool.false_ne_true
    have hq : pg.nextPath = q := Option.some.inj hnext
    have hfollowed := followed_cons namedPath pg pgs q (PageChain.chain_ne _ _ _ hrest) hnext
    rw [hfollowed] at honce hnew
    obtain ⟨hfresh, honce⟩ := List.nodup_cons.mp honce
    have hlen := List.length_pos_of_ne_nil (PageChain.chain_ne _ _ _ hrest)
    rw [List.length_cons] at hshort
    have hlimit : ¬ kMaxPages ≤ result.pageCount + 1 := by omega
    rw [queryLoop, toOption_ok _ _ hget]
    simp only
    rw [if_neg hlast, dif_neg hlimit, hq, if_neg (hnew q List.mem_cons_self)]
    rw [ih (q :: seen) ⟨result.records ++ pg.records, result.pageCount + 1⟩
      (by show pgs.length + (result.pageCount + 1) ≤ kMaxPages; omega) honce ?_]
    · rw [List.flatMap_cons, List.append_assoc, List.length_cons, Nat.add_assoc,
        Nat.add_comm 1 pgs.length]
    · intro r hr hmem
      rcases List.mem_cons.mp hmem with rfl | hmem
      · exact hfresh hr
      · exact hnew r (List.mem_cons_of_mem _ hr) hmem

theorem query_inPages (fetchPage : FetchPage) (path : Text) (records : List Text)
    (h : InPages fetchPage path records) :
    (query fetchPage path).1 = .ok () ∧ (query fetchPage path).2.records = records := by
  obtain ⟨pgs, hchain, hwithin, rfl⟩ := h
  have hshort : pgs.length + 0 ≤ kMaxPages := by
    have hle := hwithin.short
    have hmax : kMaxPages = 1000000 := rfl
    omega
  rw [query, queryLoop_chain fetchPage 0 path pgs hchain [] ⟨[], 0⟩ hshort hwithin.once
    hwithin.new]
  exact ⟨rfl, rfl⟩

/-- Called until it is done, the lazy scan delivers the records of all pages. -/
theorem drain_inPages (fetchPage : FetchPage) (path : Text) (records : List Text) (v : ℕ)
    (hv : 0 < v) (h : InPages fetchPage path records) :
    ∃ N, ∀ n ≥ N, ∃ g, drain fetchPage v n (.start path) = some (.ok (), g) ∧
      delivered g.trace = records := by
  obtain ⟨hok, hrecords⟩ := query_inPages fetchPage path records h
  refine ⟨records.length + 1, fun n hn => ?_⟩
  have hbound : (query fetchPage path).2.records.length <
      (delivered (RestScanState.start path).trace).length + n := by
    rw [hrecords]
    show _ < 0 + n
    omega
  obtain ⟨⟨r, g⟩, hdrain, hagrees⟩ := drain_agrees v hv n _ invariant_start hbound
  have hr : r = .ok () := hagrees.succeeds.mpr hok
  subst hr
  exact ⟨g, hdrain, (hagrees.records rfl).trans hrecords⟩

/-! ### Bulk chunks -/

/-- Whatever job a chunk's statement starts, its pages hold the CSV rows of the
records selected. -/
def JobsServed (srv : BulkServer) (org : Org) (csv : SalesforceRecord → List Text) : Prop :=
  ∀ i (h : i < srv.chunkSoqls.length) rows, ChunkRows srv i rows →
    rows = (org.selected (srv.chunkSoqls.get ⟨i, h⟩)).map csv

theorem chunks_served (srv : BulkServer) (org : Org) (csv : SalesforceRecord → List Text)
    (h : JobsServed srv org csv)
    (hcomplete : ∀ c < srv.chunkSoqls.length, ChunkRows srv c (chunkRows srv c)) :
    (List.range srv.chunkSoqls.length).flatMap (chunkRows srv) =
      srv.chunkSoqls.flatMap fun soql => (org.selected soql).map csv := by
  have hall : ∀ i (hi : i < srv.chunkSoqls.length), chunkRows srv i =
      (org.selected (srv.chunkSoqls.get ⟨i, hi⟩)).map csv := fun i hi =>
    h i hi _ (hcomplete i hi)
  have hlist : (List.range srv.chunkSoqls.length).map (chunkRows srv) =
      srv.chunkSoqls.map fun soql => (org.selected soql).map csv := by
    apply List.ext_getElem
    · simp
    · intro i hi _
      have hlt : i < srv.chunkSoqls.length := by simpa using hi
      rw [List.getElem_map, List.getElem_range, List.getElem_map]
      exact hall i hlt
  rw [List.flatMap_def, List.flatMap_def, hlist]

section Runs
variable {casts : CastFunctions} {org : Org} {texts : SalesforceRecord → RecordText}
  {columnIds : List ℕ} {start : PushdownBindData} {a : SalesforceScanFunctionData}
  {duck : List ℕ → OrgRow org start.object → Expr → Truth}
  {duckRow : List DecodedCell → Expr → Truth} {s : HookSession (OrgRow org start.object)}

/-- A CSV row as `ScanFunction` decodes it, under the headers of the select
list. -/
def decodedCsv (casts : CastFunctions) (a : SalesforceScanFunctionData) (columnIds : List ℕ)
    (cells : List Text) : List DecodedCell :=
  (collect (csvCell casts (selectFields a.toSalesforceScanBindData columnIds) cells)
    (a.columns columnIds)).toOption.getD []

def decodedJson (casts : CastFunctions) (a : SalesforceScanFunctionData) (columnIds : List ℕ)
    (record : Text) : List DecodedCell :=
  (jsonRow casts (a.columns columnIds) record).toOption.getD []

theorem decodedCsv_row (t : RecordText) (hholds : t.Holds a.fields)
    (hdistinct : DistinctHeaders (selectFields a.toSalesforceScanBindData columnIds)) :
    decodedCsv casts a columnIds (csvCells a.fields (a.columns columnIds) t) =
      emittedRow casts (a.columns columnIds) t := by
  have hrow := csvRow_decodes casts a.toSalesforceScanBindData columnIds t (a.columns columnIds) rfl
    ⟨fun f hf => hholds.json f (columns_mem f hf), fun f hf => hholds.plain f (columns_mem f hf),
      fun f hf => hholds.csv f (columns_mem f hf)⟩
    hdistinct
  rw [decodedCsv, hrow, emittedRow]

theorem restRecords_kept (h : PushedScan casts org texts columnIds start a duck duckRow s) :
    (((org.selected (rowSoql a.toSalesforceScanBindData columnIds)).map fun r =>
        (texts r).object.text).map (decodedJson casts a columnIds)).filter
        (residualAccepts duckRow s.residual) =
      tableRows casts org texts (a.columns columnIds) start.object s.presented := by
  have hcombined : combinedWhere a.toSalesforceScanBindData = a.pushedWhere := by
    rw [combinedWhere, if_pos h.rawWhere]
  rw [← h.whereRows, rowSoql, hcombined, selected_build org a.object a.pushedWhere _
    h.scanNames.items h.scanNames.object h.wellFormed, List.map_map]
  rfl

theorem bulkRows_kept (h : PushedScan casts org texts columnIds start a duck duckRow s)
    (answer : Text → Option (Text × Text)) (chunks : ℤ)
    (hmm : MinMaxCorrect org answer a.object a.pushedWhere)
    (hholds : ∀ r ∈ org.records a.object, (texts r).Holds a.fields) :
    ((((bulkChunkSoqls a.toSalesforceScanBindData answer chunks columnIds).flatMap fun soql =>
        (org.selected soql).map fun r => csvCells a.fields (a.columns columnIds) (texts r)).map
        (decodedCsv casts a columnIds)).filter (residualAccepts duckRow s.residual)).Perm
      (tableRows casts org texts (a.columns columnIds) start.object s.presented) := by
  obtain ⟨hwheres, hparts⟩ := bulkWheres_parts org a.toSalesforceScanBindData answer chunks
    h.wellFormed hmm
  have hchunks : ((bulkChunkSoqls a.toSalesforceScanBindData answer chunks columnIds).flatMap
      fun soql => (org.selected soql).map fun r =>
        csvCells a.fields (a.columns columnIds) (texts r)).map (decodedCsv casts a columnIds) =
      (bulkWheres a.toSalesforceScanBindData answer chunks).flatMap
        (whereRows casts org texts a.toSalesforceScanBindData columnIds) := by
    rw [bulkChunkSoqls, List.flatMap_map, List.map_flatMap]
    refine List.flatMap_congr fun w hw => ?_
    rw [selected_build org a.object w _ h.scanNames.items h.scanNames.object (hwheres w hw),
      List.map_map]
    refine List.map_congr_left fun r hr => ?_
    exact decodedCsv_row (texts r) (hholds r (List.mem_filter.mp hr).1) h.scanNames.distinct
  have hrows := hparts.map fun r => emittedRow casts (a.columns columnIds) (texts r)
  rw [List.map_flatMap] at hrows
  rw [hchunks, ← h.whereRows]
  exact List.Perm.filter _ hrows

end Runs

/-! ### The accounts in two pages and in two result pages -/

def acmeJson (n : String) : Text := (acmeRecord n).object.text

def acmePages : FetchPage := fun p =>
  if p = "/query".toList then .ok ⟨[acmeJson "Acme"], false, "/query-2".toList⟩
  else .ok ⟨[acmeJson "ACME"], true, []⟩

def acmeSoql : Text := "SELECT Name FROM Account WHERE Name LIKE 'Ac%'".toList

def acmeJobs : BulkServer :=
  ⟨[acmeSoql], fun _ _ => .ok "/results".toList, fun path =>
    if path = "/results".toList then .ok ⟨["Name".toList], [["Acme".toList]], "L2".toList⟩
    else .ok ⟨["Name".toList], [["ACME".toList]], []⟩⟩

def acmeWorld : ScanWorld Bool :=
  match scheduled acmeJobs 2048 ([true, true, true, false, false] ++ List.replicate 10 true)
    .start with
  | .ok w => w
  | .error _ => .start

theorem acmeWorld_finished : acmeWorld.Finished := by
  refine ⟨⟨true, rfl, rfl⟩, ?_⟩
  intro t
  cases t with
  | true => exact Or.inl ⟨rfl, rfl⟩
  | false => exact Or.inl ⟨rfl, rfl⟩

theorem acmeJobs_rows : ChunkRows acmeJobs 0 [["Acme".toList], ["ACME".toList]] :=
  ⟨"/results".toList, rfl, .next _ ⟨_, [["Acme".toList]], "L2".toList⟩ _ rfl (by decide)
    (.last _ ⟨_, [["ACME".toList]], []⟩ rfl rfl)⟩

theorem acme_served_jobs : JobsServed acmeJobs namedOrg fun r =>
    csvCells nameFields [nameFields[0]?] (acmeRecord (recordName r)) := by
  intro i h rows hrows
  have hzero : i = 0 := Nat.lt_one_iff.mp h
  subst hzero
  rw [chunkRows_unique acmeJobs 0 rows _ hrows acmeJobs_rows]
  rfl

theorem acme_inPages : InPages acmePages "/query".toList [acmeJson "Acme", acmeJson "ACME"] := by
  refine ⟨[⟨[acmeJson "Acme"], false, "/query-2".toList⟩, ⟨[acmeJson "ACME"], true, []⟩], ?_, ?_,
    rfl⟩
  · exact .more 0 _ "/query-2".toList _ _ rfl rfl rfl (.last 1 _ _ rfl rfl)
  · exact ⟨by decide, by decide, by decide⟩

end DuckdbSalesforce
