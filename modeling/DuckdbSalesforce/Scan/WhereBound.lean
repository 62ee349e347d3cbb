import Mathlib
import DuckdbSalesforce.Json.Reader
import DuckdbSalesforce.Scan.PushdownCalls
import DuckdbSalesforce.Scan.Transports

/-!
# The length of the WHERE

`PushdownToSoql` bounds what one call of the hook pushes. The scan sends what
all calls pushed, with the raw filter or an Id range joined to it, and checks no
length again.
-/

namespace DuckdbSalesforce

/-! ### The raw filter (`salesforce_scan_user.cpp`) -/

def rejectUnsafeWhere (w : Text) : Except BinderException Unit :=
  if w.length > 4000 then
    .error ⟨"salesforce_scan: where is too long (max 4000 chars) - narrow it or ".toList ++
      "use a catalog table with plan pushdown.".toList⟩
  else if findText ";".toList w ≠ none then
    .error ⟨"salesforce_scan: where must not contain ';'.".toList⟩
  else if findText "SELECT".toList (upper w) ≠ none then
    .error ⟨"salesforce_scan: where must not contain a nested SELECT.".toList⟩
  else .ok ()

/-- A scan has no raw filter, or one that was let through. -/
def RawAdmitted (rawWhere : Text) : Prop := rawWhere = [] ∨ rejectUnsafeWhere rawWhere = .ok ()

/-! ### What the hook pushes -/

section Pushes
variable (fields : List SalesforceField) (projectionToField : List ℕ)

def pushedPart (filters : List Expr) : List Text :=
  if filters = [] then []
  else
    match pushdownToSoql fields projectionToField filters with
    | .error _ => []
    | .ok r => if r.outWhere = [] then [] else [r.outWhere]

theorem pushdown_bounded (filters : List Expr) (r : PushdownResult)
    (h : pushdownToSoql fields projectionToField filters = .ok r) :
    r.outWhere.length ≤ kMaxWhereChars := by
  obtain ⟨_, hr⟩ := pushdown_run fields projectionToField filters r h
  by_cases hlong : overlong fields projectionToField filters = true
  · rw [if_pos hlong] at hr
    rw [hr]
    exact Nat.zero_le _
  · rw [if_neg hlong] at hr
    rw [hr]
    exact Nat.not_lt.mp fun hgt => hlong (decide_eq_true hgt)

theorem pushedPart_mem (filters : List Expr) (t : Text)
    (h : t ∈ pushedPart fields projectionToField filters) :
    t ≠ [] ∧ t.length ≤ kMaxWhereChars := by
  unfold pushedPart at h
  split at h
  · cases h
  · split at h
    · cases h
    · rename_i r hr
      split at h
      · cases h
      · rename_i hne
        rw [List.mem_singleton.mp h]
        exact ⟨hne, pushdown_bounded fields projectionToField filters r hr⟩

end Pushes

/-- The bind data after some calls of the hook, and what each of them pushed. -/
inductive HookPushes (start : PushdownBindData) : PushdownBindData → List Text → Prop
  | start : HookPushes start start []
  | call (bind bind' : PushdownBindData) (parts : List Text) (projection : List ℕ)
      (filters rest : List Expr) (before : HookPushes start bind parts)
      (hook : scanPushdownComplexFilter projection bind filters = .ok (bind', rest)) :
      HookPushes start bind' (parts ++ pushedPart bind.fields projection filters)

theorem hook_pushes (projection : List ℕ) (bind bind' : PushdownBindData) (filters rest : List Expr)
    (parts : List Text) (hne : ∀ t ∈ parts, t ≠ [])
    (hparts : bind.pushedWhere = joinText " AND ".toList parts)
    (h : scanPushdownComplexFilter projection bind filters = .ok (bind', rest)) :
    bind'.pushedWhere =
        joinText " AND ".toList (parts ++ pushedPart bind.fields projection filters) ∧
      bind'.rawWhere = bind.rawWhere := by
  by_cases hempty : filters = []
  · rw [hempty, empty_call] at h
    cases h
    rw [pushedPart, if_pos hempty, List.append_nil]
    exact ⟨hparts, rfl⟩
  obtain ⟨r, hr, _, hwhere, _⟩ := pushdownCall_cases projection bind bind' filters rest hempty h
  have hraw : bind'.rawWhere = bind.rawWhere := by
    have hlen : ¬ filters.length = 0 := fun h0 => hempty (List.length_eq_zero_iff.mp h0)
    unfold scanPushdownComplexFilter at h
    rw [if_neg hlen, hr] at h
    cases h
    rfl
  refine ⟨?_, hraw⟩
  have hpart : pushedPart bind.fields projection filters =
      if r.outWhere = [] then [] else [r.outWhere] := by
    rw [pushedPart, if_neg hempty, hr]
  rw [hwhere, hpart]
  by_cases hout : r.outWhere = []
  · rw [if_pos hout, if_pos hout, List.append_nil]
    exact hparts
  rw [if_neg hout, if_neg hout]
  by_cases hp : parts = []
  · have hnone : bind.pushedWhere = [] := by rw [hparts, hp]; rfl
    rw [if_pos hnone, hp]
    rfl
  · have hsome : bind.pushedWhere ≠ [] := by
      rw [hparts]
      exact fun hnil => hp (joinText_eq_nil _ _ hne hnil)
    rw [if_neg hsome, hparts, joinText_append _ _ _ hp (List.cons_ne_nil _ _)]
    rfl

theorem pushes_where (start bind : PushdownBindData) (parts : List Text)
    (hstart : start.pushedWhere = []) (hrun : HookPushes start bind parts) :
    bind.pushedWhere = joinText " AND ".toList parts ∧ bind.rawWhere = start.rawWhere ∧
      ∀ t ∈ parts, t ≠ [] ∧ t.length ≤ kMaxWhereChars := by
  induction hrun with
  | start => exact ⟨hstart, rfl, List.forall_mem_nil _⟩
  | call bind bind' parts projection filters rest _ hook ih =>
    obtain ⟨hwhere, hraw, hparts⟩ := ih
    obtain ⟨hwhere', hraw'⟩ := hook_pushes projection bind bind' filters rest parts
      (fun t ht => (hparts t ht).1) hwhere hook
    refine ⟨hwhere', hraw'.trans hraw, ?_⟩
    intro t ht
    rcases List.mem_append.mp ht with hold | hnew
    · exact hparts t hold
    · exact pushedPart_mem bind.fields projection filters t hnew

/-! ### What the scan sends -/

inductive ScanQuery where
  | row
  | count
  | aggregate
  | bulk (answer : Text → Option (Text × Text)) (chunks : ℤ)

section Sent
variable (bind : SalesforceScanBindData) (columnIds : List ℕ)

def selectHead (items : List Text) : Text :=
  "SELECT ".toList ++ joinText ", ".toList items ++ " FROM ".toList ++ bind.object

def ScanQuery.head : ScanQuery → Text
  | .row => selectHead bind (selectFields bind columnIds)
  | .count => "SELECT COUNT() FROM ".toList ++ bind.object
  | .aggregate => selectHead bind (bind.pushedAggregates.map aggregateItem)
  | .bulk _ _ => selectHead bind (selectFields bind columnIds)

def ScanQuery.wheres : ScanQuery → List Text
  | .row => [combinedWhere bind]
  | .count => [combinedWhere bind]
  | .aggregate => [bind.pushedWhere]
  | .bulk answer chunks => bulkWheres bind answer chunks

def ScanQuery.soqls : ScanQuery → List Text
  | .row => [rowSoql bind columnIds]
  | .count => [countSoql bind]
  | .aggregate => [aggregateSoql bind]
  | .bulk answer chunks => bulkChunkSoqls bind answer chunks columnIds

theorem buildSelectSoql_where (object w : Text) (items : List Text) :
    buildSelectSoql object items w none =
      appendWhere ("SELECT ".toList ++ joinText ", ".toList items ++ " FROM ".toList ++ object) w :=
  (appendWhere_selectText _ object w).symm

/-- A statement is its head and its WHERE. -/
theorem soqls_eq (q : ScanQuery) :
    q.soqls bind columnIds = (q.wheres bind).map (appendWhere (q.head bind columnIds)) := by
  cases q with
  | row =>
    rw [ScanQuery.soqls, rowSoql, buildSelectSoql_where]
    rfl
  | count => rfl
  | aggregate => rfl
  | bulk answer chunks =>
    rw [ScanQuery.soqls, bulkChunkSoqls]
    refine List.map_congr_left fun w _ => ?_
    rw [buildSelectSoql_where]
    rfl

end Sent

/-! ### The bound -/

def joinedLength (parts : List Text) : ℕ := (parts.map List.length).sum + 5 * (parts.length - 1)

theorem joined_length (parts : List Text) :
    (joinText " AND ".toList parts).length = joinedLength parts := joinText_length _ parts

/-- The Id ranges a Bulk scan is cut into; none when it is one job. -/
def chunkRanges (object pushed : Text) (answer : Text → Option (Text × Text)) (chunks : ℤ) :
    List IdRange :=
  if chunkCount chunks > 1 then
    match tryMinMaxId answer object pushed with
    | some (mn, mx) => idRanges mn mx (chunkCount chunks)
    | none => []
  else []

/-- What is joined fits: the pushed parts and the raw filter, or the pushed
parts and each Id range with nine characters around them. -/
def ScanQuery.Fits (object rawWhere : Text) (parts : List Text) : ScanQuery → Prop
  | .row => joinedLength (parts ++ if rawWhere = [] then [] else [rawWhere]) ≤ kMaxWhereChars
  | .count => joinedLength (parts ++ if rawWhere = [] then [] else [rawWhere]) ≤ kMaxWhereChars
  | .aggregate => joinedLength parts ≤ kMaxWhereChars
  | .bulk answer chunks =>
    let ranges := chunkRanges object (joinText " AND ".toList parts) answer chunks
    if ranges = [] then joinedLength parts ≤ kMaxWhereChars
    else ∀ r ∈ ranges,
      (if parts = [] then 0 else joinedLength parts + 9) + r.text.length ≤ kMaxWhereChars

theorem combinedWhere_length (bind : SalesforceScanBindData) (parts : List Text)
    (hne : ∀ t ∈ parts, t ≠ []) (hparts : bind.pushedWhere = joinText " AND ".toList parts) :
    (combinedWhere bind).length =
      joinedLength (parts ++ if bind.rawWhere = [] then [] else [bind.rawWhere]) := by
  rw [← joined_length, combinedWhere]
  by_cases hraw : bind.rawWhere = []
  · rw [if_pos hraw, if_pos hraw, List.append_nil, hparts]
  rw [if_neg hraw, if_neg hraw]
  by_cases hp : parts = []
  · have hnone : bind.pushedWhere = [] := by rw [hparts, hp]; rfl
    rw [if_pos hnone, hp]
    rfl
  · have hsome : bind.pushedWhere ≠ [] := by
      rw [hparts]
      exact fun hnil => hp (joinText_eq_nil _ _ hne hnil)
    rw [if_neg hsome, hparts, joinText_append _ _ _ hp (List.cons_ne_nil _ _)]
    rfl

theorem bulkWheres_ranges (bind : SalesforceScanBindData) (answer : Text → Option (Text × Text))
    (chunks : ℤ) :
    bulkWheres bind answer chunks =
      if chunkRanges bind.object bind.pushedWhere answer chunks = [] then [bind.pushedWhere]
      else (chunkRanges bind.object bind.pushedWhere answer chunks).map
        fun r => combineRange bind.pushedWhere r.text := by
  unfold bulkWheres chunkRanges
  by_cases hmany : chunkCount chunks > 1
  · simp only [if_pos hmany]
    cases tryMinMaxId answer bind.object bind.pushedWhere with
    | none => rfl
    | some p =>
      obtain ⟨mn, mx⟩ := p
      simp only [buildIdRangeWheres, List.map_eq_nil_iff]
  · simp only [if_neg hmany, if_true]

theorem combineRange_length (parts : List Text) (hne : ∀ t ∈ parts, t ≠ []) (range : Text) :
    (combineRange (joinText " AND ".toList parts) range).length =
      (if parts = [] then 0 else joinedLength parts + 9) + range.length := by
  unfold combineRange
  by_cases hp : parts = []
  · have hnone : joinText " AND ".toList parts = [] := by rw [hp]; rfl
    rw [if_pos hnone, if_pos hp, Nat.zero_add]
  · have hsome : joinText " AND ".toList parts ≠ [] :=
      fun hnil => hp (joinText_eq_nil _ _ hne hnil)
    have hopen : "(".toList.length = 1 := rfl
    have hmid : ") AND (".toList.length = 7 := rfl
    have hclose : ")".toList.length = 1 := rfl
    rw [if_neg hsome, if_neg hp]
    simp only [List.length_append, joined_length, hopen, hmid, hclose]
    omega

theorem wheres_fit_iff (start bind : PushdownBindData) (parts : List Text) (q : ScanQuery)
    (hstart : start.pushedWhere = []) (hrun : HookPushes start bind parts) :
    (∀ w ∈ q.wheres bind.toSalesforceScanBindData, w.length ≤ kMaxWhereChars) ↔
      q.Fits bind.object start.rawWhere parts := by
  obtain ⟨hwhere, hraw, hparts⟩ := pushes_where start bind parts hstart hrun
  have hne : ∀ t ∈ parts, t ≠ [] := fun t ht => (hparts t ht).1
  have hcombined := combinedWhere_length bind.toSalesforceScanBindData parts hne hwhere
  rw [hraw] at hcombined
  cases q with
  | row => rw [ScanQuery.wheres, List.forall_mem_singleton, hcombined, ScanQuery.Fits]
  | count => rw [ScanQuery.wheres, List.forall_mem_singleton, hcombined, ScanQuery.Fits]
  | aggregate =>
    rw [ScanQuery.wheres, List.forall_mem_singleton, hwhere, joined_length, ScanQuery.Fits]
  | bulk answer chunks =>
    rw [ScanQuery.wheres, bulkWheres_ranges, hwhere, ScanQuery.Fits]
    by_cases hnone : chunkRanges bind.object (joinText " AND ".toList parts) answer chunks = []
    · rw [if_pos hnone, if_pos hnone, List.forall_mem_singleton, joined_length]
    · rw [if_neg hnone, if_neg hnone, List.forall_mem_map]
      simp only [combineRange_length parts hne]

/-- The WHERE of what a scan sends is within the bound exactly when all that the
calls of the hook pushed fits, with the raw filter or the Id range. -/
theorem where_bounded_iff (start bind : PushdownBindData) (parts : List Text) (q : ScanQuery)
    (columnIds : List ℕ) (hstart : start.pushedWhere = []) (hrun : HookPushes start bind parts) :
    q.soqls bind.toSalesforceScanBindData columnIds =
        (q.wheres bind.toSalesforceScanBindData).map
          (appendWhere (q.head bind.toSalesforceScanBindData columnIds)) ∧
      ((∀ w ∈ q.wheres bind.toSalesforceScanBindData, w.length ≤ kMaxWhereChars) ↔
        q.Fits bind.object start.rawWhere parts) :=
  ⟨soqls_eq _ columnIds q, wheres_fit_iff start bind parts q hstart hrun⟩

/-- Where one call has pushed, there is no raw filter and a Bulk scan is one job,
everything fits. -/
theorem one_push_fits (start bind : PushdownBindData) (parts : List Text) (q : ScanQuery)
    (hstart : start.pushedWhere = []) (hrun : HookPushes start bind parts)
    (hraw : start.rawWhere = []) (hone : parts.length ≤ 1)
    (hwhole : ∀ answer chunks, q = .bulk answer chunks →
      chunkRanges bind.object (joinText " AND ".toList parts) answer chunks = []) :
    ∀ w ∈ q.wheres bind.toSalesforceScanBindData, w.length ≤ kMaxWhereChars := by
  have hlength : joinedLength parts ≤ kMaxWhereChars := by
    obtain ⟨-, -, hparts⟩ := pushes_where start bind parts hstart hrun
    match parts, hone with
    | [], _ => exact Nat.zero_le _
    | [t], _ =>
      have ht := (hparts t List.mem_cons_self).2
      show t.length + 0 + 0 ≤ kMaxWhereChars
      exact ht
  refine (wheres_fit_iff start bind parts q hstart hrun).mpr ?_
  rw [hraw]
  cases q with
  | row =>
    rw [ScanQuery.Fits, if_pos rfl, List.append_nil]
    exact hlength
  | count =>
    rw [ScanQuery.Fits, if_pos rfl, List.append_nil]
    exact hlength
  | aggregate => exact hlength
  | bulk answer chunks =>
    rw [ScanQuery.Fits, if_pos (hwhole answer chunks rfl)]
    exact hlength

/-! ### A raw filter of the full length -/

theorem findText_none (c : Char) (needle t : Text) (h : c ∉ t) : findText (c :: needle) t = none := by
  cases hk : findText (c :: needle) t with
  | none => rfl
  | some k =>
    obtain ⟨⟨rest, hrest⟩, _⟩ := (findText_some _ t k (List.cons_ne_nil c needle)).mp hk
    have hmem : c ∈ t.drop k := by
      rw [← hrest]
      exact List.mem_cons_self
    exact absurd (List.mem_of_mem_drop hmem) h

/-- `Name != 'aa…a'` with `n` times the letter. -/
def paddedRaw (n : ℕ) : Text := "Name != '".toList ++ (List.replicate n 'a' ++ ['\''])

theorem paddedRaw_mem (n : ℕ) (c : Char) (h : c ∈ paddedRaw n) :
    c ∈ ['N', 'a', 'm', 'e', ' ', '!', '=', '\''] := by
  have hname : ∀ c ∈ "Name != '".toList, c ∈ ['N', 'a', 'm', 'e', ' ', '!', '=', '\''] := by simp
  rcases List.mem_append.mp h with h | h
  · exact hname c h
  rcases List.mem_append.mp h with h | h
  · rw [(List.mem_replicate.mp h).2]
    decide
  · rw [List.mem_singleton.mp h]
    decide

theorem padded_length (head : Text) (n : ℕ) :
    (head ++ (List.replicate n 'a' ++ ['\''])).length = head.length + (n + 1) := by
  rw [List.length_append, List.length_append, List.length_replicate, List.length_singleton]

theorem paddedRaw_length (n : ℕ) : (paddedRaw n).length = 9 + (n + 1) :=
  padded_length "Name != '".toList n

theorem paddedRaw_admitted (n : ℕ) (hn : n ≤ 3990) : RawAdmitted (paddedRaw n) := by
  have hlen : ¬ (paddedRaw n).length > 4000 := by
    rw [paddedRaw_length]
    omega
  have hsemi : findText ";".toList (paddedRaw n) = none := by
    apply findText_none ';' []
    intro hmem
    exact absurd (paddedRaw_mem n ';' hmem) (by decide)
  have hselect : findText "SELECT".toList (upper (paddedRaw n)) = none := by
    have hword : "SELECT".toList = 'S' :: "ELECT".toList := by decide
    have hupper : ∀ c ∈ ['N', 'a', 'm', 'e', ' ', '!', '=', '\''], c.toUpper ≠ 'S' := by simp
    rw [hword]
    apply findText_none
    intro hmem
    obtain ⟨c, hc, hup⟩ := List.mem_map.mp hmem
    exact hupper c (paddedRaw_mem n c hc) hup
  refine Or.inr ?_
  rw [rejectUnsafeWhere, if_neg hlen, if_neg (not_not.mpr hsemi), if_neg (not_not.mpr hselect)]

def rawStart (raw : Text) : PushdownBindData where
  toSalesforceScanBindData := ⟨"Account".toList, amountFields, [], raw, 0, []⟩
  pushedFilterCount := 0
  explainFilters := []
  explainCaptured := false

def rawPushed (raw : Text) : PushdownBindData :=
  { rawStart raw with
    pushedWhere := "Amount > 10.0".toList
    explainFilters := [⟨"filter".toList, "Amount".toList, true, true, false⟩]
    explainCaptured := true
    pushedFilterCount := 1 }

theorem raw_run (raw : Text) :
    HookPushes (rawStart raw) (rawPushed raw) ["Amount > 10.0".toList] :=
  .call (rawStart raw) (rawPushed raw) [] [0] (amountFilters.take 1) [] .start rfl

/-- With a short raw filter everything fits. -/
theorem short_raw_fits :
    (ScanQuery.wheres (rawPushed "Name != 'a'".toList).toSalesforceScanBindData .row).all
      (fun w => w.length ≤ kMaxWhereChars) := by
  have hfits : ScanQuery.Fits "Account".toList "Name != 'a'".toList ["Amount > 10.0".toList] .row := by
    have hsum : joinedLength ["Amount > 10.0".toList, "Name != 'a'".toList] = 29 := by decide
    have hraw : ¬ "Name != 'a'".toList = [] := by decide
    rw [ScanQuery.Fits, if_neg hraw, List.singleton_append, hsum]
    decide
  have hbound := (where_bounded_iff _ _ _ .row [0] rfl (raw_run "Name != 'a'".toList)).2.mpr hfits
  exact List.all_eq_true.mpr fun w hw => decide_eq_true (hbound w hw)

/-- One pushed comparison and an admitted raw filter are 4018 characters. -/
theorem where_over_bound :
    ¬ ∀ (start bind : PushdownBindData) (parts : List Text) (q : ScanQuery),
      start.pushedWhere = [] → RawAdmitted start.rawWhere → HookPushes start bind parts →
      ∀ w ∈ q.wheres bind.toSalesforceScanBindData, w.length ≤ kMaxWhereChars := by
  intro h
  have hle := h (rawStart (paddedRaw 3990)) (rawPushed (paddedRaw 3990)) _ .row rfl
    (paddedRaw_admitted 3990 (Nat.le_refl _)) (raw_run (paddedRaw 3990)) _
    (List.mem_singleton_self _)
  have hcombined : combinedWhere (rawPushed (paddedRaw 3990)).toSalesforceScanBindData =
      "Amount > 10.0".toList ++ " AND ".toList ++ paddedRaw 3990 := by
    have hne : paddedRaw 3990 ≠ [] := by
      intro hnil
      have hlen := paddedRaw_length 3990
      rw [hnil] at hlen
      cases hlen
    have hpushed : ¬ "Amount > 10.0".toList = [] := by decide
    rw [combinedWhere]
    exact (if_neg hne).trans (if_neg hpushed)
  have hp : "Amount > 10.0".toList.length = 13 := by decide
  have hand : " AND ".toList.length = 5 := by decide
  have hmax : kMaxWhereChars = 4000 := by rfl
  rw [hcombined, List.length_append, List.length_append, hp, hand, paddedRaw_length, hmax] at hle
  omega

end DuckdbSalesforce
