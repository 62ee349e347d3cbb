import Mathlib
import DuckdbSalesforce.Library.FirstSeen
import DuckdbSalesforce.Json.Arrays
import DuckdbSalesforce.Scan.AggregateScan
import DuckdbSalesforce.DeleteSync.Timestamps

/-!
# Deleted ids by getDeleted (`salesforce_delete_sync.cpp`)

`LoadViaGetDeleted` asks for a window slice by slice. `answer` is the server
behind `AuthorizedGet`: the body it returns to the request of this number and
path, or the text of what is thrown.
-/

namespace DuckdbSalesforce
open JsonText Calendar FirstSeen

/-! ### Bind -/

structure DeletedIdsBindData where
  object : Text
  since : Text
  until_ : Text
  source : Text
  deriving DecidableEq, Repr

/-- The arguments; a named one that is missing or NULL is `none`. -/
structure DeletedIdsInput where
  inputs : List (Option Text)
  since : Option Text
  until_ : Option Text
  source : Option Text

def deletedIdsError (what : Text) : BinderException := ⟨"salesforce_deleted_ids".toList ++ what⟩

def isSafeObject (object : Text) : Bool :=
  !object.isEmpty && object.all fun ch => isAlnum ch || ch == '_'

def timeArgument (p : Platform) (arg : Option Text) (label : Text) (dflt : ℤ) :
    Except BinderException ℤ :=
  match arg with
  | none => .ok dflt
  | some value => parseIsoUtc p value label

def sourceArgument : Option Text → Except BinderException Text
  | none => .ok "getDeleted".toList
  | some value =>
    if lower value ≠ "getdeleted".toList ∧ lower value ≠ "queryall".toList then
      .error (deletedIdsError (": source must be 'getDeleted' or 'queryAll' (got '".toList ++ value ++
        "').".toList))
    else .ok (if lower value = "queryall".toList then "queryAll".toList else "getDeleted".toList)

def deletedIdsBind (p : Platform) (now : ℤ) (input : DeletedIdsInput) :
    Except BinderException DeletedIdsBindData :=
  match input.inputs with
  | [some _, some name] =>
    let object := upper name
    if isSafeObject object = false then
      .error (deletedIdsError (": '".toList ++ object ++ "' is not a valid sObject name.".toList))
    else
      match timeArgument p input.since "since".toList (wrap64 (now - 900 * p.ticksPerSecond)) with
      | .error e => .error e
      | .ok since =>
        match timeArgument p input.until_ "until".toList now with
        | .error e => .error e
        | .ok until_ =>
          if since ≥ until_ then
            .error (deletedIdsError ": 'since' must be earlier than 'until'.".toList)
          else
            match sourceArgument input.source with
            | .error e => .error e
            | .ok source => .ok ⟨object, toIsoUtc p since, toIsoUtc p until_, source⟩
  | [_, _] => .error (deletedIdsError ": arguments must not be NULL.".toList)
  | _ => .error (deletedIdsError ("(catalog, object) takes exactly 2 arguments ".toList ++
      "(since/until/source are named parameters).".toList))

/-! ### The load -/

/-- The part of `DeletedIdsGlobalState` that a load fills. `fetched` are the
bodies received, each with the `since` of its request. -/
structure LoadState where
  rows : List (Text × Text)
  seen : List Text
  latestCovered : Text
  latestCoveredTp : ℤ
  fetched : List (ℤ × Text)
  deriving DecidableEq

def LoadState.start : LoadState := ⟨[], [], [], 0, []⟩

def kGetDeletedMaxLoops : ℕ := 10000

def normalizeDeletedDate (raw : Text) : Text := if raw.length < 19 then raw else raw.take 19

/-- The id and the date of a record. -/
def recordRow (rec : Text) : Text × Text :=
  (getString rec "id".toList, normalizeDeletedDate (getString rec "deletedDate".toList))

def addRecord (g : LoadState) (rec : Text) : LoadState :=
  if (recordRow rec).1 ∈ g.seen then g
  else { g with seen := (recordRow rec).1 :: g.seen, rows := g.rows ++ [recordRow rec] }

def addRecords (g : LoadState) (body : Text) : LoadState :=
  (getObjectArray body "deletedRecords".toList).foldl addRecord g

def noteCovered (g : LoadState) (covered : Text) (coveredTp : ℤ) : LoadState :=
  if coveredTp > g.latestCoveredTp then
    { g with latestCoveredTp := coveredTp, latestCovered := normalizeDeletedDate covered }
  else g

section Load
variable (p : Platform) (apiVersion : Text) (bind : DeletedIdsBindData)

def getDeletedPath (since until_ : ℤ) : Text :=
  "/services/data/".toList ++ apiVersion ++ "/sobjects/".toList ++ bind.object ++
    "/deleted/?start=".toList ++ toIsoUtc p since ++ "&end=".toList ++ toIsoUtc p until_

/-- A body received for a slice from `since`: the state, and where to resume
unless the loop is left. -/
def afterBody (since until_ : ℤ) (g : LoadState) (body : Text) :
    Except Text (LoadState × Option ℤ) :=
  let g := addRecords { g with fetched := g.fetched ++ [(since, body)] } body
  let covered := getString body "latestDateCovered".toList
  if covered = [] then .ok (g, none)
  else
    match parseIsoUtc p (normalizeDeletedDate covered ++ ['Z']) "latestDateCovered".toList with
    | .error e => .error e.message
    | .ok coveredTp =>
      let g := noteCovered g covered coveredTp
      if coveredTp ≤ since then .ok (g, none)
      else if coveredTp ≥ until_ then .ok (g, none)
      else .ok (g, some coveredTp)

/-- The loop with `fuel` rounds left. -/
def getDeletedLoop (answer : ℕ → Text → Except Text Text) (until_ : ℤ) :
    ℕ → ℤ → LoadState → Except Text LoadState
  | 0, _, g => .ok g
  | fuel + 1, since, g =>
    if since < until_ then
      match answer g.fetched.length (getDeletedPath p apiVersion bind since until_) with
      | .error e => .error e
      | .ok body =>
        match afterBody p since until_ g body with
        | .error e => .error e
        | .ok (g, none) => .ok g
        | .ok (g, some next) => getDeletedLoop answer until_ fuel next g
    else .ok g

def loadViaGetDeleted (answer : ℕ → Text → Except Text Text) : Except Text LoadState :=
  match parseIsoUtc p bind.since "since".toList with
  | .error e => .error e.message
  | .ok since =>
    match parseIsoUtc p bind.until_ "until".toList with
    | .error e => .error e.message
    | .ok until_ =>
      getDeletedLoop p apiVersion bind answer until_ kGetDeletedMaxLoops since LoadState.start

end Load

/-! ### The rows -/

structure DeletedIdsRow where
  id : Text
  deletedDate : Option Text
  source : Text
  latestDateCovered : Option Text
  deriving DecidableEq, Repr

/-- NULL for an empty text. -/
def nullIfEmpty (t : Text) : Option Text := if t = [] then none else some t

def outputRow (source latestCovered : Text) (row : Text × Text) : DeletedIdsRow :=
  ⟨row.1, nullIfEmpty row.2, source, nullIfEmpty latestCovered⟩

structure DeletedIdsGlobalState where
  load : LoadState
  source : Text
  loaded : Bool
  cursor : ℕ

def DeletedIdsGlobalState.start (bind : DeletedIdsBindData) : DeletedIdsGlobalState :=
  ⟨LoadState.start, bind.source, false, 0⟩

def failedError (bind : DeletedIdsBindData) (error : Text) : Text :=
  "salesforce_deleted_ids failed for '".toList ++ bind.object ++ "' (".toList ++ bind.source ++
    " ".toList ++ bind.since ++ " -> ".toList ++ bind.until_ ++ "): ".toList ++ error

def emitRows (g : DeletedIdsGlobalState) : DeletedIdsGlobalState × List DeletedIdsRow :=
  let chunk := (g.load.rows.drop g.cursor).take standardVectorSize
  ({ g with cursor := g.cursor + chunk.length }, chunk.map (outputRow g.source g.load.latestCovered))

/-- One call; `load` is the loader of the source. -/
def deletedIdsFunction (load : Except Text LoadState) (bind : DeletedIdsBindData)
    (g : DeletedIdsGlobalState) : Except Text (DeletedIdsGlobalState × List DeletedIdsRow) :=
  if g.loaded then .ok (emitRows g)
  else
    match load with
    | .error e => .error (failedError bind e)
    | .ok l => .ok (emitRows { g with load := l, source := bind.source, loaded := true })

/-- The calls up to the first that returns nothing; `none` when it is not among
the first `calls`. -/
def deletedIdsCalls (load : Except Text LoadState) (bind : DeletedIdsBindData) :
    ℕ → DeletedIdsGlobalState → Except Text (Option (List DeletedIdsRow))
  | 0, _ => .ok none
  | calls + 1, g =>
    match deletedIdsFunction load bind g with
    | .error e => .error e
    | .ok (g, out) =>
      if out = [] then .ok (some [])
      else
        match deletedIdsCalls load bind calls g with
        | .error e => .error e
        | .ok rest => .ok (rest.map (out ++ ·))

/-- `salesforce_deleted_ids` ends normally with these rows. -/
def EndsWith (load : Except Text LoadState) (bind : DeletedIdsBindData)
    (out : List DeletedIdsRow) : Prop :=
  ∃ calls, deletedIdsCalls load bind calls (DeletedIdsGlobalState.start bind) = .ok (some out)

/-! ### All rows come out -/

theorem emitRows_rest (g : DeletedIdsGlobalState) :
    g.load.rows.drop g.cursor = (g.load.rows.drop g.cursor).take standardVectorSize ++
      g.load.rows.drop (emitRows g).1.cursor := by
  have hprefix := List.take_prefix standardVectorSize (g.load.rows.drop g.cursor)
  have hsplit := List.prefix_iff_eq_append.mp hprefix
  rw [List.drop_drop] at hsplit
  exact hsplit.symm

theorem emitRows_empty (g : DeletedIdsGlobalState) (h : (emitRows g).2 = []) :
    g.load.rows.drop g.cursor = [] := by
  have hchunk : (g.load.rows.drop g.cursor).take standardVectorSize = [] := List.map_eq_nil_iff.mp h
  rcases List.take_eq_nil_iff.mp hchunk with hsize | hrest
  · cases hsize
  · exact hrest

/-- What is left to emit. -/
def restRows (g : DeletedIdsGlobalState) : List DeletedIdsRow :=
  (g.load.rows.drop g.cursor).map (outputRow g.source g.load.latestCovered)

theorem restRows_emit (g : DeletedIdsGlobalState) :
    restRows g = (emitRows g).2 ++ restRows (emitRows g).1 := by
  have hrest := emitRows_rest g
  unfold restRows
  rw [hrest, List.map_append]
  rfl

theorem function_loaded (load : Except Text LoadState) (bind : DeletedIdsBindData)
    (g : DeletedIdsGlobalState) (h : g.loaded = true) :
    deletedIdsFunction load bind g = .ok (emitRows g) := by
  unfold deletedIdsFunction
  exact if_pos h

theorem calls_loaded (load : Except Text LoadState) (bind : DeletedIdsBindData) (calls : ℕ)
    (g : DeletedIdsGlobalState) (out : List DeletedIdsRow) (hloaded : g.loaded = true)
    (h : deletedIdsCalls load bind calls g = .ok (some out)) : out = restRows g := by
  induction calls generalizing g out with
  | zero => cases h
  | succ calls ih =>
    rw [deletedIdsCalls, function_loaded load bind g hloaded] at h
    simp only at h
    by_cases hempty : (emitRows g).2 = []
    · rw [if_pos hempty] at h
      cases h
      rw [restRows, emitRows_empty g hempty]
      rfl
    · rw [if_neg hempty] at h
      cases hrest : deletedIdsCalls load bind calls (emitRows g).1 with
      | error e =>
        rw [hrest] at h
        cases h
      | ok rest =>
        rw [hrest] at h
        cases rest with
        | none => cases h
        | some rest =>
          cases h
          rw [restRows_emit, ih (emitRows g).1 rest hloaded hrest]

theorem calls_enough (load : Except Text LoadState) (bind : DeletedIdsBindData) (calls : ℕ)
    (g : DeletedIdsGlobalState) (hloaded : g.loaded = true) (hcalls : (restRows g).length < calls) :
    deletedIdsCalls load bind calls g = .ok (some (restRows g)) := by
  induction calls generalizing g with
  | zero => exact absurd hcalls (Nat.not_lt_zero _)
  | succ calls ih =>
    rw [deletedIdsCalls, function_loaded load bind g hloaded]
    simp only
    by_cases hempty : (emitRows g).2 = []
    · rw [if_pos hempty, restRows, emitRows_empty g hempty]
      rfl
    · have hlen : 0 < (emitRows g).2.length := List.length_pos_iff.mpr hempty
      have hsplit := congrArg List.length (restRows_emit g)
      rw [List.length_append] at hsplit
      rw [if_neg hempty, ih (emitRows g).1 hloaded (by omega), restRows_emit g]
      rfl

/-- A run ends normally exactly when the load does, with a row for each it
collected. -/
theorem endsWith_iff (load : Except Text LoadState) (bind : DeletedIdsBindData)
    (out : List DeletedIdsRow) :
    EndsWith load bind out ↔
      ∃ l, load = .ok l ∧ out = l.rows.map (outputRow bind.source l.latestCovered) := by
  have hfirst : ∀ l : LoadState, load = .ok l → ∀ calls,
      deletedIdsCalls load bind (calls + 1) (DeletedIdsGlobalState.start bind) =
        deletedIdsCalls load bind (calls + 1) ⟨l, bind.source, true, 0⟩ := by
    intro l hl calls
    rw [deletedIdsCalls, deletedIdsCalls, hl]
    rfl
  refine ⟨?_, ?_⟩
  · intro h
    obtain ⟨calls, hcalls⟩ := h
    cases calls with
    | zero => cases hcalls
    | succ calls =>
      cases hload : load with
      | error e =>
        rw [deletedIdsCalls, hload] at hcalls
        cases hcalls
      | ok l =>
        rw [hfirst l hload] at hcalls
        exact ⟨l, rfl, calls_loaded load bind _ _ out rfl hcalls⟩
  · intro h
    obtain ⟨l, hload, rfl⟩ := h
    refine ⟨l.rows.length + 1, ?_⟩
    rw [hfirst l hload]
    apply calls_enough load bind _ _ rfl
    rw [restRows, List.length_map]
    exact Nat.lt_succ_self _

/-! ### The loop -/

section Loop
variable (p : Platform) (apiVersion : Text) (bind : DeletedIdsBindData)
  (answer : ℕ → Text → Except Text Text)

/-- A round that is entered. -/
theorem loop_round (until_ : ℤ) (fuel : ℕ) (since : ℤ) (g g' : LoadState) (hlt : since < until_)
    (h : getDeletedLoop p apiVersion bind answer until_ (fuel + 1) since g = .ok g') :
    ∃ body g₁ next,
      answer g.fetched.length (getDeletedPath p apiVersion bind since until_) = .ok body ∧
      afterBody p since until_ g body = .ok (g₁, next) ∧
      match next with
      | none => g' = g₁
      | some t => getDeletedLoop p apiVersion bind answer until_ fuel t g₁ = .ok g' := by
  rw [getDeletedLoop, if_pos hlt] at h
  cases hbody : answer g.fetched.length (getDeletedPath p apiVersion bind since until_) with
  | error e =>
    rw [hbody] at h
    cases h
  | ok body =>
    rw [hbody] at h
    simp only at h
    cases hafter : afterBody p since until_ g body with
    | error e =>
      rw [hafter] at h
      cases h
    | ok r =>
      obtain ⟨g₁, next⟩ := r
      rw [hafter] at h
      refine ⟨body, g₁, next, rfl, hafter, ?_⟩
      cases next with
      | none => exact (Except.ok.inj h).symm
      | some t => exact h

/-- What each round keeps while it goes on, and gives when it leaves, holds in
the end. -/
theorem loop_rule (until_ : ℤ) (I : ℤ → LoadState → Prop) (Q : LoadState → Prop)
    (hleave : ∀ since g, I since g → Q g)
    (hround : ∀ since g body g' next, I since g → since < until_ →
      answer g.fetched.length (getDeletedPath p apiVersion bind since until_) = .ok body →
      afterBody p since until_ g body = .ok (g', next) →
      match next with
      | none => Q g'
      | some t => I t g')
    (fuel : ℕ) (since : ℤ) (g g' : LoadState) (hI : I since g)
    (h : getDeletedLoop p apiVersion bind answer until_ fuel since g = .ok g') : Q g' := by
  induction fuel generalizing since g with
  | zero =>
    cases h
    exact hleave since _ hI
  | succ fuel ih =>
    by_cases hlt : since < until_
    · obtain ⟨body, g₁, next, hbody, hafter, hrest⟩ :=
        loop_round p apiVersion bind answer until_ fuel since g g' hlt h
      have hnext := hround since g body g₁ next hI hlt hbody hafter
      cases next with
      | none =>
        rw [hrest]
        exact hnext
      | some t => exact ih t g₁ hnext hrest
    · rw [getDeletedLoop, if_neg hlt] at h
      cases h
      exact hleave since _ hI

theorem load_cases (g : LoadState) (h : loadViaGetDeleted p apiVersion bind answer = .ok g) :
    ∃ since until_, parseIsoUtc p bind.since "since".toList = .ok since ∧
      parseIsoUtc p bind.until_ "until".toList = .ok until_ ∧
      getDeletedLoop p apiVersion bind answer until_ kGetDeletedMaxLoops since LoadState.start =
        .ok g := by
  unfold loadViaGetDeleted at h
  cases hsince : parseIsoUtc p bind.since "since".toList with
  | error e =>
    rw [hsince] at h
    cases h
  | ok since =>
    rw [hsince] at h
    simp only at h
    cases huntil : parseIsoUtc p bind.until_ "until".toList with
    | error e =>
      rw [huntil] at h
      cases h
    | ok until_ =>
      rw [huntil] at h
      exact ⟨since, until_, rfl, rfl, h⟩

/-! ### One body -/

/-- The rows of a body as they are read. -/
def bodyRows (body : Text) : List (Text × Text) :=
  (getObjectArray body "deletedRecords".toList).map recordRow

def fetchedRows (g : LoadState) : List (Text × Text) := g.fetched.flatMap fun f => bodyRows f.2

/-- The rows are the first appearances in what was fetched, and `seen` their
ids. -/
structure Collected (g : LoadState) : Prop where
  seen : ∀ id, id ∈ g.seen ↔ id ∈ g.rows.map Prod.fst
  rows : FirstAppearances Prod.fst (fetchedRows g) g.rows

theorem addRecord_keep (g : LoadState) (rec : Text)
    (hseen : ∀ id, id ∈ g.seen ↔ id ∈ g.rows.map Prod.fst) :
    (addRecord g rec).rows = keep Prod.fst g.rows (recordRow rec) ∧
      (∀ id, id ∈ (addRecord g rec).seen ↔ id ∈ (addRecord g rec).rows.map Prod.fst) ∧
      (addRecord g rec).fetched = g.fetched := by
  unfold addRecord keep
  by_cases hmem : (recordRow rec).1 ∈ g.seen
  · rw [if_pos hmem, if_pos ((hseen _).mp hmem)]
    exact ⟨rfl, hseen, rfl⟩
  · rw [if_neg hmem, if_neg fun hrow => hmem ((hseen _).mpr hrow)]
    refine ⟨rfl, ?_, rfl⟩
    intro id
    rw [List.map_append, List.mem_append, List.mem_cons, hseen id, List.map_singleton,
      List.mem_singleton]
    exact Or.comm

theorem addRecord_foldl (recs : List Text) (g : LoadState)
    (hseen : ∀ id, id ∈ g.seen ↔ id ∈ g.rows.map Prod.fst) :
    (recs.foldl addRecord g).rows = (recs.map recordRow).foldl (keep Prod.fst) g.rows ∧
      (∀ id, id ∈ (recs.foldl addRecord g).seen ↔
        id ∈ (recs.foldl addRecord g).rows.map Prod.fst) ∧
      (recs.foldl addRecord g).fetched = g.fetched := by
  induction recs generalizing g with
  | nil => exact ⟨rfl, hseen, rfl⟩
  | cons rec recs ih =>
    obtain ⟨hrows, hseen', hfetched⟩ := addRecord_keep g rec hseen
    obtain ⟨ihrows, ihseen, ihfetched⟩ := ih (addRecord g rec) hseen'
    rw [hrows] at ihrows
    exact ⟨ihrows, ihseen, ihfetched.trans hfetched⟩

/-- All that a round does. -/
theorem afterBody_cases (since until_ : ℤ) (g g' : LoadState) (body : Text) (next : Option ℤ)
    (h : afterBody p since until_ g body = .ok (g', next)) :
    ∃ g₁, g₁ = addRecords { g with fetched := g.fetched ++ [(since, body)] } body ∧
      ((getString body "latestDateCovered".toList = [] ∧ g' = g₁ ∧ next = none) ∨
      ∃ tp, getString body "latestDateCovered".toList ≠ [] ∧
        parseIsoUtc p (normalizeDeletedDate (getString body "latestDateCovered".toList) ++ ['Z'])
          "latestDateCovered".toList = .ok tp ∧
        g' = noteCovered g₁ (getString body "latestDateCovered".toList) tp ∧
        next = if tp ≤ since ∨ tp ≥ until_ then none else some tp) := by
  refine ⟨_, rfl, ?_⟩
  unfold afterBody at h
  simp only at h
  by_cases hmissing : getString body "latestDateCovered".toList = []
  · rw [if_pos hmissing] at h
    cases h
    exact Or.inl ⟨hmissing, rfl, rfl⟩
  · rw [if_neg hmissing] at h
    refine Or.inr ?_
    cases hparse : parseIsoUtc p
        (normalizeDeletedDate (getString body "latestDateCovered".toList) ++ ['Z'])
        "latestDateCovered".toList with
    | error e =>
      rw [hparse] at h
      cases h
    | ok tp =>
      rw [hparse] at h
      simp only at h
      refine ⟨tp, hmissing, rfl, ?_⟩
      by_cases hback : tp ≤ since
      · rw [if_pos hback] at h
        cases h
        exact ⟨rfl, (if_pos (Or.inl hback)).symm⟩
      · rw [if_neg hback] at h
        by_cases hdone : tp ≥ until_
        · rw [if_pos hdone] at h
          cases h
          exact ⟨rfl, (if_pos (Or.inr hdone)).symm⟩
        · rw [if_neg hdone] at h
          cases h
          refine ⟨rfl, (if_neg ?_).symm⟩
          intro hor
          rcases hor with hor | hor
          · exact hback hor
          · exact hdone hor

theorem noteCovered_frame (g : LoadState) (covered : Text) (tp : ℤ) :
    (noteCovered g covered tp).rows = g.rows ∧ (noteCovered g covered tp).seen = g.seen ∧
      (noteCovered g covered tp).fetched = g.fetched := by
  unfold noteCovered
  split
  · exact ⟨rfl, rfl, rfl⟩
  · exact ⟨rfl, rfl, rfl⟩

theorem afterBody_frame (since until_ : ℤ) (g g' : LoadState) (body : Text) (next : Option ℤ)
    (h : afterBody p since until_ g body = .ok (g', next)) (hg : Collected g) :
    Collected g' ∧ g'.fetched = g.fetched ++ [(since, body)] := by
  obtain ⟨g₁, hg₁, hcase⟩ := afterBody_cases p since until_ g g' body next h
  obtain ⟨hrows, hseen, hfetched⟩ := addRecord_foldl
    (getObjectArray body "deletedRecords".toList) { g with fetched := g.fetched ++ [(since, body)] }
    hg.seen
  rw [addRecords] at hg₁
  rw [← hg₁] at hrows hseen hfetched
  have hcollected : Collected g₁ := by
    refine ⟨hseen, ?_⟩
    have hmore := appearances_foldl Prod.fst (fetchedRows g) (bodyRows body) g.rows hg.rows
    have hone : [(since, body)].flatMap (fun f => bodyRows f.2) = bodyRows body :=
      List.flatMap_singleton _ _
    rw [fetchedRows, hfetched, hrows, List.flatMap_append, hone]
    exact hmore
  rcases hcase with ⟨_, hg', _⟩ | ⟨tp, _, _, hg', _⟩
  · rw [hg']
    exact ⟨hcollected, hfetched⟩
  · obtain ⟨hr, hs, hf⟩ := noteCovered_frame g₁ (getString body "latestDateCovered".toList) tp
    rw [hg']
    refine ⟨⟨?_, ?_⟩, hf.trans hfetched⟩
    · rw [hs, hr]
      exact hseen
    · rw [fetchedRows, hf, hr]
      exact hcollected.rows

/-- The loop goes on only to a later start. -/
theorem afterBody_later (since until_ : ℤ) (g g' : LoadState) (body : Text) (next : ℤ)
    (h : afterBody p since until_ g body = .ok (g', some next)) : since < next := by
  obtain ⟨_, _, ⟨_, _, hnext⟩ | ⟨tp, _, _, _, hnext⟩⟩ :=
    afterBody_cases p since until_ g g' body (some next) h
  · cases hnext
  · split at hnext
    · cases hnext
    · cases hnext
      omega

end Loop

end DuckdbSalesforce
