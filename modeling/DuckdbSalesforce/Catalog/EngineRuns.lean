import DuckdbSalesforce.Catalog.DescribeCache
import DuckdbSalesforce.Catalog.MetadataEngine
import DuckdbSalesforce.Library.Fallible
import DuckdbSalesforce.Library.Memo
import DuckdbSalesforce.Session.SessionCalls

/-!
# The metadata engine over its runs (`salesforce_metadata_engine.cpp`)

The engine asks the org for what it does not keep, over one session until the
next refresh, while the org and the settings change. Between two refreshes it
answers as one fixed engine.
-/

namespace DuckdbSalesforce
open Runs Memo Fallible

/-! ### The engine -/

/-- The client is part of the session. -/
structure EngineCache (σ : Type) where
  session : Option (Session σ)
  globalLoaded : Bool
  globalInfos : List SalesforceObjectInfo
  globalObjects : List Text
  describes : MetadataMap ObjectDescribe

def EngineCache.empty {σ : Type} : EngineCache σ := ⟨none, false, [], [], ∅⟩

inductive MetadataAnswer where
  | infos (infos : List SalesforceObjectInfo)
  | describe (describe : ObjectDescribe)

/-- The global list is kept under `none`. -/
abbrev EngineFetch := Event (Option Text) MetadataAnswer Text

/-- What the callers of the engine ask it. -/
inductive MetadataOp where
  | globalObjects
  | globalObjectInfos
  | objectDescribe (object : Text)
  | isQueryable (object : Text)
  | resolveField (object token : Text)
  | resolveRelationship (object relationshipName : Text)

inductive MetadataReply where
  | names (names : List Text)
  | infos (infos : List SalesforceObjectInfo)
  | describe (describe : ObjectDescribe)
  | queryable (queryable : Bool)
  | field (resolved : Option (Text × Bool))
  | relationship (resolved : Option (Text × Text))

/-- The engine in its world, with the record of what it fetched and what it
replied, newest first. -/
structure EngineWorld (σ : Type) where
  cache : EngineCache σ
  world : σ
  history : List EngineFetch
  replies : List (MetadataOp × Except Text MetadataReply)

def EngineWorld.attached {σ : Type} (world : σ) : EngineWorld σ := ⟨.empty, world, [], []⟩

section
variable {σ α β : Type} (connect : σ → Session σ)

/-- `Session`: a new one is connected under the settings of the moment. -/
def EngineWorld.openSession (w : EngineWorld σ) : Session σ :=
  match w.cache.session with
  | some s => { s with world := w.world }
  | none => connect w.world

def EngineWorld.asked (w : EngineWorld σ) (s : Session σ) (e : EngineFetch) : EngineWorld σ :=
  { w with cache := { w.cache with session := some s }, world := s.world, history := e :: w.history }

/-- An error leaves the call. -/
def onOk (r : Except Text α × EngineWorld σ)
    (f : α → EngineWorld σ → Except Text β × EngineWorld σ) : Except Text β × EngineWorld σ :=
  match r.1 with
  | .error e => (.error e, r.2)
  | .ok a => f a r.2

def queryableNames (infos : List SalesforceObjectInfo) : List Text :=
  (infos.filter SalesforceObjectInfo.queryable).map SalesforceObjectInfo.name

def EngineWorld.ensureGlobalLoaded (w : EngineWorld σ) : Except Text Unit × EngineWorld σ :=
  if w.cache.globalLoaded then (.ok (), w)
  else
    let s := openSession connect w
    let r := runCall (SessionCall.globalDescribeInfos s.apiVersion) s
    onOk (r.1, w.asked r.2 (.fetch none (r.1.map .infos))) fun infos w' =>
      (.ok (), { w' with cache := { w'.cache with
        globalInfos := infos
        globalObjects := queryableNames infos
        globalLoaded := true } })

def EngineWorld.getGlobalObjects (w : EngineWorld σ) : Except Text (List Text) × EngineWorld σ :=
  onOk (ensureGlobalLoaded connect w) fun _ w' => (.ok w'.cache.globalObjects, w')

def EngineWorld.getGlobalObjectInfos (w : EngineWorld σ) :
    Except Text (List SalesforceObjectInfo) × EngineWorld σ :=
  onOk (ensureGlobalLoaded connect w) fun _ w' => (.ok w'.cache.globalInfos, w')

def EngineWorld.getObjectDescribe (object : Text) (w : EngineWorld σ) :
    Except Text ObjectDescribe × EngineWorld σ :=
  match w.cache.describes.lookup (lower object) with
  | some d => (.ok d, w)
  | none =>
    let s := openSession connect w
    let r := runCall (SessionCall.describe s.apiVersion object) s
    onOk (r.1, w.asked r.2 (.fetch (some (lower object)) (r.1.map .describe))) fun d w' =>
      (.ok d, { w' with cache := { w'.cache with
        describes := emplace w'.cache.describes (lower object) d } })

def EngineWorld.isQueryable (object : Text) (w : EngineWorld σ) : Except Text Bool × EngineWorld σ :=
  onOk (getGlobalObjects connect w) fun names w' => (.ok (names.any fun n => ciEquals n object), w')

def EngineWorld.resolveField (object token : Text) (w : EngineWorld σ) :
    Except Text (Option (Text × Bool)) × EngineWorld σ :=
  onOk (getObjectDescribe connect object w) fun desc w' =>
    (.ok ((MetadataEngine.matchField desc.fields (MetadataEngine.fieldCandidates token)).map
      fun f => (f.name, f.filterable)), w')

def EngineWorld.resolveRelationship (object relationshipName : Text) (w : EngineWorld σ) :
    Except Text (Option (Text × Text)) × EngineWorld σ :=
  onOk (getObjectDescribe connect object w) fun desc w' =>
    match desc.fields.find? fun f =>
      f.relationshipName != [] && ciEquals f.relationshipName relationshipName with
    | none => (.ok none, w')
    | some f =>
      match f.referenceTo with
      | [target] => onOk (isQueryable connect target w') fun queryable w'' =>
          (.ok (if queryable then some (target, f.relationshipName) else none), w'')
      | _ => (.ok none, w')

def MetadataOp.call (op : MetadataOp) (w : EngineWorld σ) :
    Except Text MetadataReply × EngineWorld σ :=
  match op with
  | .globalObjects => onOk (EngineWorld.getGlobalObjects connect w) fun l w' => (.ok (.names l), w')
  | .globalObjectInfos => onOk (EngineWorld.getGlobalObjectInfos connect w) fun l w' => (.ok (.infos l), w')
  | .objectDescribe object =>
    onOk (EngineWorld.getObjectDescribe connect object w) fun d w' => (.ok (.describe d), w')
  | .isQueryable object => onOk (EngineWorld.isQueryable connect object w) fun q w' => (.ok (.queryable q), w')
  | .resolveField object token =>
    onOk (EngineWorld.resolveField connect object token w) fun f w' => (.ok (.field f), w')
  | .resolveRelationship object name =>
    onOk (EngineWorld.resolveRelationship connect object name w) fun r w' => (.ok (.relationship r), w')

/-! ### Refreshes and runs -/

def EngineCache.refresh (object : Text) (c : EngineCache σ) : EngineCache σ :=
  { c with session := none, describes := c.describes.erase (lower object) }

def EngineCache.refreshAll (_ : EngineCache σ) : EngineCache σ := .empty

/-- What `RefreshMetadata` does to the engine. -/
def EngineCache.refreshMetadata (object : Text) (c : EngineCache σ) : EngineCache σ :=
  if object = [] then c.refreshAll else c.refresh object

def refreshCovers (object : Text) (key : Option Text) : Prop :=
  object = [] ∨ key = some (lower object)

inductive MetadataEvent (σ : Type) where
  | call (op : MetadataOp)
  | refresh (object : Text)
  | changes (world : σ)

def engineStep (w : EngineWorld σ) : MetadataEvent σ → Option (EngineWorld σ)
  | .call op =>
    let r := op.call connect w
    some { r.2 with replies := (op, r.1) :: r.2.replies }
  | .refresh object =>
    some { w with
      cache := w.cache.refreshMetadata object
      history := .drop (refreshCovers object) :: w.history }
  | .changes world => some { w with world := world }

end

/-! ### What a fixed engine replies -/

def MetadataOp.reply (eng : MetadataEngine) : MetadataOp → Except Text MetadataReply
  | .globalObjects => eng.globalObjects.map .names
  | .globalObjectInfos => eng.globalInfos.map .infos
  | .objectDescribe object => (eng.getObjectDescribe object).map .describe
  | .isQueryable object => (eng.isQueryable object).map .queryable
  | .resolveField object token => (eng.resolveField object token).map .field
  | .resolveRelationship object name => (eng.resolveRelationship object name).map .relationship

/-- `eng'` answers all that `eng` does. -/
structure MetadataEngine.Extends (eng eng' : MetadataEngine) : Prop where
  describe : ∀ key d, eng.describe key = .ok d → eng'.describe key = .ok d
  globalInfos : ∀ l, eng.globalInfos = .ok l → eng'.globalInfos = .ok l

section
variable {α β : Type}

/-- What is found out stays so for every engine that knows more. -/
def Keeps (ask : MetadataEngine → Except Text α) : Prop :=
  ∀ eng eng' a, eng.Extends eng' → ask eng = .ok a → ask eng' = .ok a

theorem Keeps.bind {ask : MetadataEngine → Except Text α}
    {next : α → MetadataEngine → Except Text β} (h : Keeps ask) (hnext : ∀ a, Keeps (next a)) :
    Keeps fun eng => (ask eng).bind fun a => next a eng := by
  intro eng eng' b hext hok
  obtain ⟨a, hask, hrest⟩ := bind_ok hok
  have hask' := h eng eng' a hext hask
  show (ask eng').bind _ = _
  rw [hask']
  exact hnext a eng eng' b hext hrest

theorem Keeps.map {ask : MetadataEngine → Except Text α} (h : Keeps ask) (f : α → β) :
    Keeps fun eng => (ask eng).map f := by
  intro eng eng' b hext hok
  obtain ⟨a, hask, hf⟩ := map_ok hok
  show (ask eng').map f = _
  rw [h eng eng' a hext hask, ← hf]
  rfl

theorem keeps_ok (a : α) : Keeps fun _ => .ok a := fun _ _ _ _ h => h

theorem keeps_describe (object : Text) : Keeps fun eng => eng.getObjectDescribe object :=
  fun _ _ d hext h => hext.describe (lower object) d h

theorem keeps_globalInfos : Keeps MetadataEngine.globalInfos :=
  fun _ _ l hext h => hext.globalInfos l h

theorem keeps_isQueryable (object : Text) : Keeps fun eng => eng.isQueryable object :=
  (keeps_globalInfos.map _).map _

/-- What `ResolveRelationship` does with a describe. -/
def relationshipOf (relationshipName : Text) (desc : ObjectDescribe) (eng : MetadataEngine) :
    Except Text (Option (Text × Text)) :=
  match desc.fields.find? fun f =>
    f.relationshipName != [] && ciEquals f.relationshipName relationshipName with
  | none => .ok none
  | some f =>
    match f.referenceTo with
    | [target] => (eng.isQueryable target).map fun queryable =>
        if queryable then some (target, f.relationshipName) else none
    | _ => .ok none

theorem keeps_relationshipOf (name : Text) (desc : ObjectDescribe) :
    Keeps (relationshipOf name desc) := by
  unfold relationshipOf
  cases desc.fields.find? fun f => f.relationshipName != [] && ciEquals f.relationshipName name with
  | none => exact keeps_ok none
  | some f =>
    dsimp only
    split
    · exact (keeps_isQueryable _).map _
    · exact keeps_ok none

theorem keeps_reply (op : MetadataOp) : Keeps fun eng => op.reply eng := by
  cases op with
  | globalObjects => exact (keeps_globalInfos.map _).map _
  | globalObjectInfos => exact keeps_globalInfos.map _
  | objectDescribe object => exact (keeps_describe object).map _
  | isQueryable object => exact (keeps_isQueryable object).map _
  | resolveField object token => exact ((keeps_describe object).map _).map _
  | resolveRelationship object name =>
    exact ((keeps_describe object).bind (keeps_relationshipOf name)).map _

end

/-! ### What is kept -/

section
variable {σ α β : Type}

/-- The engine that answers what is kept. -/
def EngineCache.snapshot (c : EngineCache σ) : MetadataEngine where
  describe key :=
    match c.describes.lookup key with
    | none => .error []
    | some d => .ok d
  globalInfos := if c.globalLoaded then .ok c.globalInfos else .error []

theorem snapshot_describe (c : EngineCache σ) (key : Text) (d : ObjectDescribe) :
    c.snapshot.describe key = .ok d ↔ c.describes.lookup key = some d := by
  unfold EngineCache.snapshot
  cases hfound : c.describes.lookup key with
  | none => simp [hfound]
  | some d' => simp [hfound]

theorem snapshot_globalInfos (c : EngineCache σ) (l : List SalesforceObjectInfo) :
    c.snapshot.globalInfos = .ok l ↔ c.globalLoaded = true ∧ c.globalInfos = l := by
  unfold EngineCache.snapshot
  cases hloaded : c.globalLoaded with
  | false => simp
  | true => simp

/-- An event of the history is what some session makes of a describe of the key
or of a listing, or it is a refresh. -/
def Sent (σ : Type) : EngineFetch → Prop
  | .fetch none answer => ∃ s : Session σ,
      answer = (runCall (SessionCall.globalDescribeInfos s.apiVersion) s).1.map .infos
  | .fetch (some key) answer => ∃ (s : Session σ) (object : Text), lower object = key ∧
      answer = (runCall (SessionCall.describe s.apiVersion object) s).1.map .describe
  | .drop covers => ∃ object, covers = refreshCovers object

/-- What is kept is what the history says. -/
structure EngineTracks (w : EngineWorld σ) : Prop where
  describes : ∀ key d, w.cache.describes.lookup key = some d ↔
    Holds (some key) (.describe d) w.history
  infos : ∀ l, (w.cache.globalLoaded = true ∧ w.cache.globalInfos = l) ↔
    Holds none (.infos l) w.history
  objects : w.cache.globalLoaded = true →
    w.cache.globalObjects = queryableNames w.cache.globalInfos
  asked : Asked w.history
  sent : ∀ e ∈ w.history, Sent σ e

theorem fetched_of_holds (h : List EngineFetch) (hsent : ∀ e ∈ h, Sent σ e) (key : Option Text)
    (a : MetadataAnswer) (hholds : Holds key a h) : Sent σ (.fetch key (.ok a)) := by
  obtain ⟨newer, older, hsplit, -⟩ := holds_split key a h hholds
  apply hsent
  rw [hsplit]
  exact List.mem_append_right _ List.mem_cons_self

theorem holds_describe (h : List EngineFetch) (hsent : ∀ e ∈ h, Sent σ e) (key : Text)
    (a : MetadataAnswer) (hholds : Holds (some key) a h) : ∃ d, a = .describe d := by
  obtain ⟨s, object, -, hanswer⟩ := fetched_of_holds h hsent _ a hholds
  obtain ⟨d, -, hd⟩ := map_ok hanswer.symm
  exact ⟨d, hd.symm⟩

theorem holds_infos (h : List EngineFetch) (hsent : ∀ e ∈ h, Sent σ e) (a : MetadataAnswer)
    (hholds : Holds none a h) : ∃ l, a = .infos l := by
  obtain ⟨s, hanswer⟩ := fetched_of_holds h hsent _ a hholds
  obtain ⟨l, -, hl⟩ := map_ok hanswer.symm
  exact ⟨l, hl.symm⟩

/-- The org answered as `eng` does. A describe keeps the spelling it was asked by,
so that each object is fetched in one spelling. -/
def FetchedFrom (eng : MetadataEngine) : EngineFetch → Prop
  | .fetch none answer => answer = eng.globalInfos.map .infos
  | .fetch (some key) answer => answer = (eng.describe key).map .describe
  | .drop _ => True

theorem map_inj (f : α → β) (hf : Function.Injective f) (x y : Except Text α)
    (h : x.map f = y.map f) : x = y := by
  cases x with
  | error e =>
    cases y with
    | error e' => exact congrArg Except.error (Except.error.inj h)
    | ok b => cases h
  | ok a =>
    cases y with
    | error e' => cases h
    | ok b => exact congrArg Except.ok (hf (Except.ok.inj h))

theorem fetchedFrom_describe (eng : MetadataEngine) (key : Text) (answer : Except Text ObjectDescribe)
    (h : FetchedFrom eng (.fetch (some key) (answer.map .describe))) : answer = eng.describe key :=
  map_inj _ (fun _ _ => MetadataAnswer.describe.inj) _ _ h

theorem fetchedFrom_infos (eng : MetadataEngine)
    (answer : Except Text (List SalesforceObjectInfo))
    (h : FetchedFrom eng (.fetch none (answer.map .infos))) : answer = eng.globalInfos :=
  map_inj _ (fun _ _ => MetadataAnswer.infos.inj) _ _ h

/-- What is kept of an org that answers as `eng` does is what `eng` answers. -/
theorem snapshot_from (w : EngineWorld σ) (h : EngineTracks w) (eng : MetadataEngine)
    (hfrom : ∀ e ∈ w.history, FetchedFrom eng e) : w.cache.snapshot.Extends eng := by
  have hfetched : ∀ key a, Holds key a w.history → FetchedFrom eng (.fetch key (.ok a)) := by
    intro key a hholds
    obtain ⟨newer, older, hsplit, -⟩ := holds_split key a w.history hholds
    apply hfrom
    rw [hsplit]
    exact List.mem_append_right _ List.mem_cons_self
  refine ⟨?_, ?_⟩
  · intro key d hd
    rw [snapshot_describe, h.describes] at hd
    exact (fetchedFrom_describe eng key (.ok d) (hfetched _ _ hd)).symm
  · intro l hl
    rw [snapshot_globalInfos, h.infos] at hl
    exact (fetchedFrom_infos eng (.ok l) (hfetched _ _ hl)).symm

theorem tracks_attached (world : σ) : EngineTracks (.attached world : EngineWorld σ) := by
  refine ⟨?_, ?_, ?_, trivial, List.forall_mem_nil _⟩
  · intro key d
    refine ⟨?_, ?_⟩
    · intro h
      cases h
    · intro h
      cases h
  · intro l
    refine ⟨?_, ?_⟩
    · intro h
      cases h.1
    · intro h
      cases h
  · intro h
    cases h

/-! ### Fetches -/

theorem lookup_emplace (m : MetadataMap α) (key key' : Text) (a : α)
    (hmiss : m.lookup key = none) :
    (emplace m key a).lookup key' = if key' = key then some a else m.lookup key' := by
  have habsent : key ∉ m := AList.lookup_eq_none.mp hmiss
  unfold emplace
  rw [if_neg habsent]
  by_cases hkey : key' = key
  · rw [if_pos hkey, hkey]
    exact AList.lookup_insert m
  · rw [if_neg hkey]
    exact AList.lookup_insert_ne hkey

/-- A fetch that failed changes nothing that is kept. -/
theorem tracks_failed (w : EngineWorld σ) (h : EngineTracks w) (s : Session σ) (key : Option Text)
    (e : Text) (hmiss : ∀ v, ¬ Holds key v w.history) (hsent : Sent σ (.fetch key (.error e))) :
    EngineTracks (w.asked s (.fetch key (.error e))) := by
  refine ⟨?_, ?_, h.objects, ⟨hmiss, h.asked⟩, List.forall_mem_cons.mpr ⟨hsent, h.sent⟩⟩
  · intro key' d
    exact (h.describes key' d).trans (holds_failed _ _ _ _ _).symm
  · intro l
    exact (h.infos l).trans (holds_failed _ _ _ _ _).symm

theorem tracks_described (w : EngineWorld σ) (h : EngineTracks w) (s : Session σ) (key : Text)
    (d : ObjectDescribe) (hmiss : w.cache.describes.lookup key = none)
    (hsent : Sent σ (.fetch (some key) (.ok (.describe d)))) :
    EngineTracks { w.asked s (.fetch (some key) (.ok (.describe d))) with
      cache := { (w.asked s (.fetch (some key) (.ok (.describe d)))).cache with
        describes := emplace w.cache.describes key d } } := by
  have habsent : ∀ v, ¬ Holds (some key) v w.history := by
    intro v hv
    obtain ⟨d', rfl⟩ := holds_describe w.history h.sent key v hv
    have hfound := (h.describes key d').mpr hv
    rw [hmiss] at hfound
    cases hfound
  refine ⟨?_, ?_, h.objects, ⟨habsent, h.asked⟩, List.forall_mem_cons.mpr ⟨hsent, h.sent⟩⟩
  · intro key' d'
    show (emplace w.cache.describes key d).lookup key' = some d' ↔
      Holds (some key') (.describe d') (.fetch (some key) (.ok (.describe d)) :: w.history)
    rw [lookup_emplace _ _ _ _ hmiss, holds_fetch]
    by_cases hkey : key' = key
    · rw [if_pos hkey, hkey]
      simp
    · rw [if_neg hkey, h.describes key' d']
      simp [Ne.symm hkey]
  · intro l
    refine (h.infos l).trans ((holds_fetch _ _ _ _ _).trans ?_).symm
    simp

theorem tracks_loaded (w : EngineWorld σ) (h : EngineTracks w) (s : Session σ)
    (infos : List SalesforceObjectInfo) (hmiss : w.cache.globalLoaded = false)
    (hsent : Sent σ (.fetch none (.ok (.infos infos)))) :
    EngineTracks { w.asked s (.fetch none (.ok (.infos infos))) with
      cache := { (w.asked s (.fetch none (.ok (.infos infos)))).cache with
        globalInfos := infos
        globalObjects := queryableNames infos
        globalLoaded := true } } := by
  have habsent : ∀ v, ¬ Holds none v w.history := by
    intro v hv
    obtain ⟨l, rfl⟩ := holds_infos w.history h.sent v hv
    have hloaded := ((h.infos l).mpr hv).1
    rw [hmiss] at hloaded
    cases hloaded
  refine ⟨?_, ?_, fun _ => rfl, ⟨habsent, h.asked⟩, List.forall_mem_cons.mpr ⟨hsent, h.sent⟩⟩
  · intro key d
    refine (h.describes key d).trans ((holds_fetch _ _ _ _ _).trans ?_).symm
    simp
  · intro l
    show (true = true ∧ infos = l) ↔
      Holds none (.infos l) (.fetch none (.ok (.infos infos)) :: w.history)
    rw [holds_fetch]
    simp

theorem tracks_refresh (w : EngineWorld σ) (h : EngineTracks w) (object : Text) :
    EngineTracks { w with
      cache := w.cache.refreshMetadata object
      history := .drop (refreshCovers object) :: w.history } := by
  have hsent : ∀ e ∈ Event.drop (refreshCovers object) :: w.history, Sent σ e :=
    List.forall_mem_cons.mpr ⟨⟨object, rfl⟩, h.sent⟩
  by_cases hall : object = []
  · have hcovers : ∀ key, refreshCovers object key := fun _ => Or.inl hall
    have hcache : w.cache.refreshMetadata object = .empty := if_pos hall
    refine ⟨?_, ?_, ?_, h.asked, hsent⟩
    · intro key d
      rw [hcache, holds_drop]
      refine ⟨?_, fun hheld => absurd (hcovers _) hheld.1⟩
      intro hfound
      cases hfound
    · intro l
      rw [hcache, holds_drop]
      refine ⟨?_, fun hheld => absurd (hcovers _) hheld.1⟩
      intro hloaded
      cases hloaded.1
    · intro hloaded
      rw [hcache] at hloaded
      cases hloaded
  · have hcache : w.cache.refreshMetadata object = w.cache.refresh object := if_neg hall
    rw [hcache]
    refine ⟨?_, ?_, h.objects, h.asked, hsent⟩
    · intro key d
      show (w.cache.describes.erase (lower object)).lookup key = some d ↔
        Holds (some key) (.describe d) (.drop (refreshCovers object) :: w.history)
      rw [holds_drop, ← h.describes key d]
      by_cases hkey : key = lower object
      · rw [hkey, AList.lookup_erase]
        simp [refreshCovers]
      · rw [AList.lookup_erase_ne hkey]
        simp [refreshCovers, hall, hkey]
    · intro l
      refine (h.infos l).trans ?_
      rw [holds_drop]
      simp [refreshCovers, hall]

end

/-! ### Calls -/

section
variable {σ α β : Type} (connect : σ → Session σ)

def OnlyFetched (events : List EngineFetch) : Prop := ∀ e ∈ events, ∀ key, ¬ e.drops key

theorem snapshot_extends (w w' : EngineWorld σ) (h : EngineTracks w) (h' : EngineTracks w')
    (fetched : List EngineFetch) (hgrown : w'.history = fetched ++ w.history)
    (honly : OnlyFetched fetched) : w.cache.snapshot.Extends w'.cache.snapshot := by
  have hasked := h'.asked
  rw [hgrown] at hasked
  refine ⟨?_, ?_⟩
  · intro key d hd
    rw [snapshot_describe, h.describes] at hd
    rw [snapshot_describe, h'.describes, hgrown]
    exact holds_grows _ _ fetched w.history hasked (fun e he => honly e he _) hd
  · intro l hl
    rw [snapshot_globalInfos, h.infos] at hl
    rw [snapshot_globalInfos, h'.infos, hgrown]
    exact holds_grows _ _ fetched w.history hasked (fun e he => honly e he _) hl

/-- A call answers what `ask` does of all that is kept after it, or fails as a
fetch of its own did; over an org that answers as `eng` does it is `ask eng`. -/
structure Answers (ask : MetadataEngine → Except Text α) (w : EngineWorld σ)
    (r : Except Text α × EngineWorld σ) : Prop where
  tracks : EngineTracks r.2
  replies : r.2.replies = w.replies
  grown : ∃ fetched, r.2.history = fetched ++ w.history ∧ OnlyFetched fetched ∧
    ∀ e, r.1 = .error e → ∃ key, .fetch key (.error e) ∈ fetched
  agrees : ∀ a, r.1 = .ok a → ask r.2.cache.snapshot = .ok a
  steady : ∀ eng, (∀ e ∈ r.2.history, FetchedFrom eng e) → ask eng = r.1

theorem answers_kept {ask : MetadataEngine → Except Text α} {w : EngineWorld σ}
    (h : EngineTracks w) (hkeeps : Keeps ask) (a : α) (hask : ask w.cache.snapshot = .ok a) :
    Answers ask w (.ok a, w) := by
  refine ⟨h, rfl, ⟨[], rfl, List.forall_mem_nil _, ?_⟩, ?_, ?_⟩
  · intro e he
    cases he
  · intro b hb
    rw [hask]
    exact hb
  · intro eng hfrom
    exact hkeeps _ eng a (snapshot_from w h eng hfrom) hask

/-- The result is read off what is kept. -/
theorem Answers.read {ask : MetadataEngine → Except Text α} {ask' : MetadataEngine → Except Text β}
    {w : EngineWorld σ} {r : Except Text α × EngineWorld σ} (h : Answers ask w r)
    (hkeeps : Keeps ask') (g : α → EngineWorld σ → β)
    (hread : ∀ a, r.1 = .ok a → ask' r.2.cache.snapshot = .ok (g a r.2))
    (hfails : ∀ eng e, ask eng = .error e → ask' eng = .error e) :
    Answers ask' w (onOk r fun a w' => (.ok (g a w'), w')) := by
  obtain ⟨answer, w'⟩ := r
  obtain ⟨fetched, hhistory, honly, hfailed⟩ := h.grown
  cases answer with
  | error e =>
    refine ⟨h.tracks, h.replies, ⟨fetched, hhistory, honly, ?_⟩, ?_, ?_⟩
    · intro e' he'
      exact hfailed e' (congrArg Except.error (Except.error.inj he'))
    · intro b hb
      cases hb
    · intro eng hfrom
      exact hfails eng e (h.steady eng hfrom)
  | ok a =>
    refine ⟨h.tracks, h.replies, ⟨fetched, hhistory, honly, ?_⟩, ?_, ?_⟩
    · intro e he
      cases he
    · intro b hb
      have hb : g a w' = b := Except.ok.inj hb
      rw [← hb]
      exact hread a rfl
    · intro eng hfrom
      exact hkeeps _ eng _ (snapshot_from w' h.tracks eng hfrom) (hread a rfl)

theorem Answers.map {ask : MetadataEngine → Except Text α} {w : EngineWorld σ}
    {r : Except Text α × EngineWorld σ} (h : Answers ask w r) (hkeeps : Keeps ask) (f : α → β) :
    Answers (fun eng => (ask eng).map f) w (onOk r fun a w' => (.ok (f a), w')) := by
  refine h.read (hkeeps.map f) (fun a _ => f a) ?_ ?_
  · intro a ha
    rw [h.agrees a ha]
    rfl
  · intro eng e he
    rw [he]
    rfl

theorem Answers.next {ask : MetadataEngine → Except Text α}
    {next : α → MetadataEngine → Except Text β} {w : EngineWorld σ}
    {r : Except Text α × EngineWorld σ} {f : α → EngineWorld σ → Except Text β × EngineWorld σ}
    (hkeeps : Keeps ask) (h : Answers ask w r)
    (hnext : ∀ a, r.1 = .ok a → Answers (next a) r.2 (f a r.2)) :
    Answers (fun eng => (ask eng).bind fun a => next a eng) w (onOk r f) := by
  obtain ⟨answer, w'⟩ := r
  obtain ⟨fetched, hhistory, honly, hfailed⟩ := h.grown
  cases answer with
  | error e =>
    refine ⟨h.tracks, h.replies, ⟨fetched, hhistory, honly, ?_⟩, ?_, ?_⟩
    · intro e' he'
      exact hfailed e' (congrArg Except.error (Except.error.inj he'))
    · intro b hb
      cases hb
    · intro eng hfrom
      rw [h.steady eng hfrom]
      rfl
  | ok a =>
    have hrest := hnext a rfl
    obtain ⟨fetched', hhistory', honly', hfailed'⟩ := hrest.grown
    refine ⟨hrest.tracks, hrest.replies.trans h.replies, ⟨fetched' ++ fetched, ?_, ?_, ?_⟩, ?_, ?_⟩
    · show (f a w').2.history = _
      rw [hhistory', hhistory, List.append_assoc]
    · exact List.forall_mem_append.mpr ⟨honly', honly⟩
    · intro e he
      obtain ⟨key, hkey⟩ := hfailed' e he
      exact ⟨key, List.mem_append_left _ hkey⟩
    · intro b hb
      have hext := snapshot_extends w' (f a w').2 h.tracks hrest.tracks fetched' hhistory' honly'
      have hask := hkeeps _ _ a hext (h.agrees a rfl)
      show (ask (f a w').2.cache.snapshot).bind _ = _
      rw [hask]
      exact hrest.agrees b hb
    · intro eng hfrom
      have hearlier : ∀ e ∈ w'.history, FetchedFrom eng e := by
        intro e he
        apply hfrom
        show e ∈ (f a w').2.history
        rw [hhistory']
        exact List.mem_append_right fetched' he
      rw [h.steady eng hearlier]
      exact hrest.steady eng hfrom

/-! ### One call of the org -/

/-- The call asks the org once, keeps the answer under the key, and goes on. -/
theorem answers_fetch {ask : MetadataEngine → Except Text β} (w : EngineWorld σ)
    (h : EngineTracks w) (s : Session σ) (key : Option Text) (answer : Except Text α)
    (kept : α → MetadataAnswer) (hmiss : ∀ v, ¬ Holds key v w.history)
    (hsent : Sent σ (.fetch key (answer.map kept)))
    (f : α → EngineWorld σ → Except Text β × EngineWorld σ)
    (hfails : ∀ e eng, FetchedFrom eng (.fetch key (.error e)) → ask eng = .error e)
    (hkept : ∀ a, answer = .ok a → ∃ b w',
      f a (w.asked s (.fetch key (.ok (kept a)))) = (.ok b, w') ∧ EngineTracks w' ∧
      w'.replies = w.replies ∧ w'.history = .fetch key (.ok (kept a)) :: w.history ∧
      ask w'.cache.snapshot = .ok b ∧
      ∀ eng, FetchedFrom eng (.fetch key (.ok (kept a))) → ask eng = .ok b) :
    Answers ask w (onOk (answer, w.asked s (.fetch key (answer.map kept))) f) := by
  cases answer with
  | error e =>
    refine ⟨tracks_failed w h s key e hmiss hsent, rfl, ⟨[.fetch key (.error e)], rfl, ?_, ?_⟩,
      ?_, ?_⟩
    · exact List.forall_mem_singleton.mpr fun _ => id
    · intro e' he'
      rw [← Except.error.inj he']
      exact ⟨key, List.mem_singleton_self _⟩
    · intro b hb
      cases hb
    · intro eng hfrom
      exact hfails e eng (hfrom _ List.mem_cons_self)
  | ok a =>
    obtain ⟨b, w', hf, htracks, hreplies, hhistory, hask, hsteady⟩ := hkept a rfl
    have hresult : onOk (.ok a, w.asked s (.fetch key (Except.map kept (.ok a)))) f = (.ok b, w') := hf
    rw [hresult]
    refine ⟨htracks, hreplies, ⟨[.fetch key (.ok (kept a))], hhistory, ?_, ?_⟩, ?_, ?_⟩
    · exact List.forall_mem_singleton.mpr fun _ => id
    · intro e he
      cases he
    · intro b' hb'
      rw [← Except.ok.inj hb']
      exact hask
    · intro eng hfrom
      apply hsteady
      apply hfrom
      show _ ∈ w'.history
      rw [hhistory]
      exact List.mem_cons_self

theorem getObjectDescribe_answers (object : Text) (w : EngineWorld σ) (h : EngineTracks w) :
    Answers (fun eng => eng.getObjectDescribe object) w (EngineWorld.getObjectDescribe connect object w) := by
  unfold EngineWorld.getObjectDescribe
  cases hfound : w.cache.describes.lookup (lower object) with
  | some d => exact answers_kept h (keeps_describe object) d ((snapshot_describe _ _ _).mpr hfound)
  | none =>
    dsimp only
    generalize hs : EngineWorld.openSession connect w = s
    have hsent : Sent σ (.fetch (some (lower object))
        ((runCall (SessionCall.describe s.apiVersion object) s).1.map .describe)) :=
      ⟨s, object, rfl, rfl⟩
    have hmiss : ∀ v, ¬ Holds (some (lower object)) v w.history := by
      intro v hv
      obtain ⟨d, rfl⟩ := holds_describe w.history h.sent _ v hv
      have hkept := (h.describes (lower object) d).mpr hv
      rw [hfound] at hkept
      cases hkept
    refine answers_fetch w h _ _ _ .describe hmiss hsent _ ?_ ?_
    · intro e eng hfrom
      exact (fetchedFrom_describe eng _ (.error e) hfrom).symm
    · intro d hd
      rw [hd] at hsent
      refine ⟨d, _, rfl, tracks_described w h _ _ d hfound hsent, rfl, rfl, ?_, ?_⟩
      · refine (snapshot_describe _ _ _).mpr ?_
        exact (lookup_emplace _ _ _ d hfound).trans (if_pos rfl)
      · intro eng hfrom
        exact (fetchedFrom_describe eng _ (.ok d) hfrom).symm

theorem ensureGlobalLoaded_answers (w : EngineWorld σ) (h : EngineTracks w) :
    Answers (fun eng => eng.globalInfos.map fun _ => ()) w (EngineWorld.ensureGlobalLoaded connect w) := by
  unfold EngineWorld.ensureGlobalLoaded
  cases hloaded : w.cache.globalLoaded with
  | true =>
    refine answers_kept h (keeps_globalInfos.map _) () ?_
    show (w.cache.snapshot.globalInfos).map _ = _
    rw [(snapshot_globalInfos _ w.cache.globalInfos).mpr ⟨hloaded, rfl⟩]
    rfl
  | false =>
    dsimp only
    rw [if_neg Bool.false_ne_true]
    generalize EngineWorld.openSession connect w = s
    have hsent : Sent σ (.fetch none
        ((runCall (SessionCall.globalDescribeInfos s.apiVersion) s).1.map .infos)) := ⟨s, rfl⟩
    have hmiss : ∀ v, ¬ Holds none v w.history := by
      intro v hv
      obtain ⟨l, rfl⟩ := holds_infos w.history h.sent v hv
      have hkept := ((h.infos l).mpr hv).1
      rw [hloaded] at hkept
      cases hkept
    refine answers_fetch w h _ _ _ .infos hmiss hsent _ ?_ ?_
    · intro e eng hfrom
      rw [← fetchedFrom_infos eng (.error e) hfrom]
      rfl
    · intro infos hinfos
      rw [hinfos] at hsent
      refine ⟨(), _, rfl, tracks_loaded w h _ infos hloaded hsent, rfl, rfl, ?_, ?_⟩
      · exact congrArg (Except.map fun _ => ()) ((snapshot_globalInfos _ infos).mpr ⟨rfl, rfl⟩)
      · intro eng hfrom
        rw [← fetchedFrom_infos eng (.ok infos) hfrom]
        rfl

/-- Once the list is loaded. -/
theorem loaded_infos (w : EngineWorld σ)
    (h : (w.cache.snapshot.globalInfos.map fun _ => ()) = .ok ()) :
    w.cache.globalLoaded = true ∧ w.cache.snapshot.globalInfos = .ok w.cache.globalInfos := by
  obtain ⟨l, hl, -⟩ := map_ok h
  obtain ⟨hloaded, hinfos⟩ := (snapshot_globalInfos _ l).mp hl
  exact ⟨hloaded, by rw [hl, hinfos]⟩

theorem not_loaded (eng : MetadataEngine) (e : Text)
    (h : (eng.globalInfos.map fun _ => ()) = .error e) : eng.globalInfos = .error e := by
  cases hinfos : eng.globalInfos with
  | error e' =>
    rw [hinfos] at h
    exact congrArg Except.error (Except.error.inj h)
  | ok l =>
    rw [hinfos] at h
    cases h

theorem getGlobalObjects_answers (w : EngineWorld σ) (h : EngineTracks w) :
    Answers (fun eng => eng.globalObjects) w (EngineWorld.getGlobalObjects connect w) := by
  have hloads := ensureGlobalLoaded_answers connect w h
  refine hloads.read (keeps_globalInfos.map _) (fun _ w' => w'.cache.globalObjects) ?_ ?_
  · intro _ hok
    obtain ⟨hloaded, hinfos⟩ := loaded_infos _ (hloads.agrees () hok)
    show Except.map _ _ = _
    rw [hinfos, hloads.tracks.objects hloaded]
    rfl
  · intro eng e he
    show Except.map _ _ = _
    rw [not_loaded eng e he]
    rfl

theorem getGlobalObjectInfos_answers (w : EngineWorld σ) (h : EngineTracks w) :
    Answers (fun eng => eng.globalInfos) w (EngineWorld.getGlobalObjectInfos connect w) := by
  have hloads := ensureGlobalLoaded_answers connect w h
  refine hloads.read keeps_globalInfos (fun _ w' => w'.cache.globalInfos) ?_ not_loaded
  intro _ hok
  exact (loaded_infos _ (hloads.agrees () hok)).2

theorem isQueryable_answers (object : Text) (w : EngineWorld σ) (h : EngineTracks w) :
    Answers (fun eng => eng.isQueryable object) w (EngineWorld.isQueryable connect object w) :=
  (getGlobalObjects_answers connect w h).map (keeps_globalInfos.map _) _

theorem resolveField_answers (object token : Text) (w : EngineWorld σ) (h : EngineTracks w) :
    Answers (fun eng => eng.resolveField object token) w (EngineWorld.resolveField connect object token w) :=
  (getObjectDescribe_answers connect object w h).map (keeps_describe object) _

theorem resolveRelationship_answers (object name : Text) (w : EngineWorld σ) (h : EngineTracks w) :
    Answers (fun eng => eng.resolveRelationship object name) w
      (EngineWorld.resolveRelationship connect object name w) := by
  refine Answers.next (keeps_describe object) (getObjectDescribe_answers connect object w h) ?_
  intro desc hdesc
  have hafter := (getObjectDescribe_answers connect object w h).tracks
  generalize (EngineWorld.getObjectDescribe connect object w).2 = w' at hafter ⊢
  cases hfind : desc.fields.find? fun f =>
      f.relationshipName != [] && ciEquals f.relationshipName name with
  | none => exact answers_kept hafter (keeps_ok none) none rfl
  | some f =>
    dsimp only
    cases f.referenceTo with
    | nil => exact answers_kept hafter (keeps_ok none) none rfl
    | cons target others =>
      cases others with
      | nil => exact (isQueryable_answers connect target w' hafter).map (keeps_isQueryable target) _
      | cons second others => exact answers_kept hafter (keeps_ok none) none rfl

theorem call_answers (op : MetadataOp) (w : EngineWorld σ) (h : EngineTracks w) :
    Answers (fun eng => op.reply eng) w (op.call connect w) := by
  cases op with
  | globalObjects => exact (getGlobalObjects_answers connect w h).map (keeps_globalInfos.map _) _
  | globalObjectInfos => exact (getGlobalObjectInfos_answers connect w h).map keeps_globalInfos _
  | objectDescribe object =>
    exact (getObjectDescribe_answers connect object w h).map (keeps_describe object) _
  | isQueryable object =>
    exact (isQueryable_answers connect object w h).map (keeps_isQueryable object) _
  | resolveField object token =>
    exact (resolveField_answers connect object token w h).map ((keeps_describe object).map _) _
  | resolveRelationship object name =>
    exact (resolveRelationship_answers connect object name w h).map
      ((keeps_describe object).bind (keeps_relationshipOf name)) _

/-! ### Runs -/

/-- Every reply is what `eng` replies, or the error of a fetch. -/
structure RepliesOf (eng : MetadataEngine) (fetched : List EngineFetch)
    (replies : List (MetadataOp × Except Text MetadataReply)) : Prop where
  ok : ∀ op a, (op, .ok a) ∈ replies → op.reply eng = .ok a
  failed : ∀ op e, (op, .error e) ∈ replies → ∃ key, .fetch key (.error e) ∈ fetched

/-- From `w` to `w'` the org was asked, and nothing dropped. -/
structure Stretch (w w' : EngineWorld σ) (fetched : List EngineFetch)
    (replies : List (MetadataOp × Except Text MetadataReply)) : Prop where
  tracks : EngineTracks w'
  history : w'.history = fetched ++ w.history
  onlyFetched : OnlyFetched fetched
  logged : w'.replies = replies ++ w.replies
  replied : RepliesOf w'.cache.snapshot fetched replies

theorem stretch_none (w : EngineWorld σ) (h : EngineTracks w) (v : σ) :
    Stretch w { w with world := v } [] [] := by
  refine ⟨⟨h.describes, h.infos, h.objects, h.asked, h.sent⟩, rfl, List.forall_mem_nil _, rfl, ?_⟩
  refine ⟨?_, ?_⟩
  · intro op a hmem
    cases hmem
  · intro op e hmem
    cases hmem

theorem stretch_call (w : EngineWorld σ) (h : EngineTracks w) (op : MetadataOp) :
    ∃ fetched, Stretch w
      { (op.call connect w).2 with replies := (op, (op.call connect w).1) :: (op.call connect w).2.replies }
      fetched [(op, (op.call connect w).1)] := by
  have hcall := call_answers connect op w h
  generalize op.call connect w = r at hcall ⊢
  obtain ⟨fetched, hhistory, honly, hfailed⟩ := hcall.grown
  have htracks := hcall.tracks
  refine ⟨fetched, ⟨htracks.describes, htracks.infos, htracks.objects, htracks.asked, htracks.sent⟩,
    hhistory, honly, congrArg ((op, r.1) :: ·) hcall.replies, ?_, ?_⟩
  · intro op' a hmem
    obtain ⟨rfl, ha⟩ := Prod.mk.inj (List.mem_singleton.mp hmem)
    exact hcall.agrees a ha.symm
  · intro op' e hmem
    obtain ⟨rfl, he⟩ := Prod.mk.inj (List.mem_singleton.mp hmem)
    exact hfailed e he.symm

/-- What was replied before stays what is replied of all that is kept after. -/
theorem Stretch.trans {u v w : EngineWorld σ} {fetched fetched' : List EngineFetch}
    {replies replies' : List (MetadataOp × Except Text MetadataReply)}
    (h : Stretch u v fetched replies) (h' : Stretch v w fetched' replies') :
    Stretch u w (fetched' ++ fetched) (replies' ++ replies) := by
  have hext := snapshot_extends v w h.tracks h'.tracks fetched' h'.history h'.onlyFetched
  refine ⟨h'.tracks, ?_, List.forall_mem_append.mpr ⟨h'.onlyFetched, h.onlyFetched⟩, ?_, ?_, ?_⟩
  · rw [h'.history, h.history, List.append_assoc]
  · rw [h'.logged, h.logged, List.append_assoc]
  · intro op a hmem
    rcases List.mem_append.mp hmem with hnew | hold
    · exact h'.replied.ok op a hnew
    · exact keeps_reply op _ _ a hext (h.replied.ok op a hold)
  · intro op e hmem
    rcases List.mem_append.mp hmem with hnew | hold
    · obtain ⟨key, hkey⟩ := h'.replied.failed op e hnew
      exact ⟨key, List.mem_append_left _ hkey⟩
    · obtain ⟨key, hkey⟩ := h.replied.failed op e hold
      exact ⟨key, List.mem_append_right _ hkey⟩

theorem stretch_step (w w' : EngineWorld σ) (e : MetadataEvent σ) (h : EngineTracks w)
    (hrefresh : ∀ object, e ≠ .refresh object) (hstep : engineStep connect w e = some w') :
    ∃ fetched replies, Stretch w w' fetched replies := by
  cases e with
  | call op =>
    obtain ⟨fetched, hstretch⟩ := stretch_call connect w h op
    rw [← Option.some.inj hstep]
    exact ⟨fetched, _, hstretch⟩
  | refresh object => exact absurd rfl (hrefresh object)
  | changes v =>
    rw [← Option.some.inj hstep]
    exact ⟨[], [], stretch_none w h v⟩

theorem stretch_run (es : List (MetadataEvent σ)) (w w' : EngineWorld σ) (h : EngineTracks w)
    (hrefresh : ∀ object, .refresh object ∉ es) (hrun : runEvents (engineStep connect) es w = some w') :
    ∃ fetched replies, Stretch w w' fetched replies := by
  induction es generalizing w with
  | nil =>
    rw [← Option.some.inj hrun]
    exact ⟨[], [], stretch_none w h w.world⟩
  | cons e es ih =>
    obtain ⟨m, hstep, hrest⟩ := Option.bind_eq_some_iff.mp hrun
    obtain ⟨fetched, replies, hfirst⟩ := stretch_step connect w m e h
      (fun object heq => hrefresh object (by rw [heq]; exact List.mem_cons_self)) hstep
    obtain ⟨fetched', replies', hlater⟩ := ih m hfirst.tracks
      (fun object hmem => hrefresh object (List.mem_cons_of_mem e hmem)) hrest
    exact ⟨_, _, hfirst.trans hlater⟩

theorem engineTracks_step (w w' : EngineWorld σ) (e : MetadataEvent σ) (h : EngineTracks w)
    (hstep : engineStep connect w e = some w') : EngineTracks w' := by
  cases e with
  | call op =>
    obtain ⟨_, _, hstretch⟩ := stretch_step connect w w' (.call op) h (fun _ => nofun) hstep
    exact hstretch.tracks
  | refresh object =>
    rw [← Option.some.inj hstep]
    exact tracks_refresh w h object
  | changes v =>
    obtain ⟨_, _, hstretch⟩ := stretch_step connect w w' (.changes v) h (fun _ => nofun) hstep
    exact hstretch.tracks

theorem tracks_reached (v : σ) (w : EngineWorld σ)
    (h : Reaches (engineStep connect) anyStep (.attached v) w) : EngineTracks w :=
  reaches_invariant EngineTracks (tracks_attached v)
    (fun s s' e hs _ hstep => engineTracks_step connect s s' e hs hstep) w h

/-- All replies between `w` and `w'` are those of one engine, each of whose
answers is the last of the org and younger than the refreshes that cover it. No
key is asked again that the org answered, until a refresh covers it. -/
structure AnswersAsOne (w w' : EngineWorld σ) : Prop where
  one : ∃ eng fetched replies,
    w'.history = fetched ++ w.history ∧ w'.replies = replies ++ w.replies ∧
    RepliesOf eng fetched replies ∧
    (∀ key d, eng.describe key = .ok d → Holds (some key) (.describe d) w'.history) ∧
    ∀ l, eng.globalInfos = .ok l → Holds none (.infos l) w'.history
  sent : ∀ e ∈ w'.history, Sent σ e
  spaced : ∀ key a answer newest between oldest,
    w'.history = newest ++ .fetch key answer :: (between ++ .fetch key (.ok a) :: oldest) →
    ∃ e ∈ between, e.drops key

/-- From any state reached and until the next refresh, whatever the org and the
settings become. -/
theorem engine_runs (v : σ) (w w' : EngineWorld σ) (es : List (MetadataEvent σ))
    (hreached : Reaches (engineStep connect) anyStep (.attached v) w)
    (hrun : runEvents (engineStep connect) es w = some w')
    (hrefresh : ∀ object, .refresh object ∉ es) : AnswersAsOne w w' := by
  have htracks := tracks_reached connect v w hreached
  obtain ⟨fetched, replies, hstretch⟩ := stretch_run connect es w w' htracks hrefresh hrun
  have hafter := hstretch.tracks
  refine ⟨⟨w'.cache.snapshot, fetched, replies, hstretch.history, hstretch.logged,
    hstretch.replied, ?_, ?_⟩, hafter.sent, ?_⟩
  · intro key d hd
    rw [snapshot_describe] at hd
    exact (hafter.describes key d).mp hd
  · intro l hl
    rw [snapshot_globalInfos] at hl
    exact (hafter.infos l).mp hl
  · intro key a answer newest between oldest hsplit
    have hasked := hafter.asked
    rw [hsplit] at hasked
    exact asked_spaced key a answer newest between oldest hasked

/-! ### A steady org -/

theorem history_step (w w' : EngineWorld σ) (e : MetadataEvent σ) (h : EngineTracks w)
    (hstep : engineStep connect w e = some w') : ∃ newer, w'.history = newer ++ w.history := by
  cases e with
  | call op =>
    obtain ⟨fetched, _, hstretch⟩ := stretch_step connect w w' (.call op) h (fun _ => nofun) hstep
    exact ⟨fetched, hstretch.history⟩
  | refresh object =>
    rw [← Option.some.inj hstep]
    exact ⟨[.drop (refreshCovers object)], rfl⟩
  | changes v =>
    obtain ⟨fetched, _, hstretch⟩ := stretch_step connect w w' (.changes v) h (fun _ => nofun) hstep
    exact ⟨fetched, hstretch.history⟩

structure SteadyReplies (eng : MetadataEngine) (w : EngineWorld σ) : Prop where
  tracks : EngineTracks w
  replies : (∀ e ∈ w.history, FetchedFrom eng e) → ∀ p ∈ w.replies, p.1.reply eng = p.2

theorem steady_step (eng : MetadataEngine) (w w' : EngineWorld σ) (e : MetadataEvent σ)
    (h : SteadyReplies eng w) (hstep : engineStep connect w e = some w') : SteadyReplies eng w' := by
  refine ⟨engineTracks_step connect w w' e h.tracks hstep, ?_⟩
  intro hfrom p hp
  obtain ⟨newer, hhistory⟩ := history_step connect w w' e h.tracks hstep
  have hearlier : ∀ d ∈ w.history, FetchedFrom eng d := by
    intro d hd
    apply hfrom
    rw [hhistory]
    exact List.mem_append_right newer hd
  cases e with
  | call op =>
    have hcall := call_answers connect op w h.tracks
    rw [← Option.some.inj hstep] at hp hfrom
    rcases List.mem_cons.mp hp with hnew | hold
    · rw [hnew]
      exact hcall.steady eng hfrom
    · rw [hcall.replies] at hold
      exact h.replies hearlier p hold
  | refresh object =>
    rw [← Option.some.inj hstep] at hp
    exact h.replies hearlier p hp
  | changes v =>
    rw [← Option.some.inj hstep] at hp
    exact h.replies hearlier p hp

/-- Over an org that answers every describe and every listing as `eng` does,
errors included, every reply of every run is that of `eng`, whatever is asked,
refreshed and reconnected in between. -/
theorem engine_refines_fixed (eng : MetadataEngine) (v : σ) (w : EngineWorld σ)
    (hreached : Reaches (engineStep connect) anyStep (.attached v) w)
    (hfrom : ∀ e ∈ w.history, FetchedFrom eng e) (op : MetadataOp) (reply : Except Text MetadataReply)
    (hreply : (op, reply) ∈ w.replies) : op.reply eng = reply := by
  have hstart : SteadyReplies eng (.attached v : EngineWorld σ) := by
    refine ⟨tracks_attached v, ?_⟩
    intro _ p hp
    cases hp
  have hsteady := reaches_invariant (SteadyReplies eng) hstart
    (fun s s' e hs _ hstep => steady_step connect eng s s' e hs hstep) w hreached
  exact hsteady.replies hfrom _ hreply

end

/-! ### An org that changes its Account -/

def accountVersion (n : ℕ) : Text :=
  "\x7b\"name\":\"Account".toList ++ (toString n).toList ++ "\"\x7d".toList

def versionedSession (n : ℕ) : Session ℕ where
  apiVersion := "v60.0".toList
  loginUrl := "https://login".toList
  tokenBody := fun _ => .error []
  client := ⟨fun _ w => (.error [], w), fun _ w => (.ok ⟨200, accountVersion w, []⟩, w)⟩
  token := ⟨"t".toList, "https://org".toList⟩
  world := n

/-- The field is resolved in the describe that came before the change. -/
theorem changed_account_runs : ∃ w', runEvents (engineStep versionedSession)
      [.call (.objectDescribe "account".toList), .changes 1,
        .call (.resolveField "ACCOUNT".toList "NAME".toList)] (.attached 0) = some w' ∧
    AnswersAsOne (.attached 0) w' :=
  ⟨_, rfl, engine_runs versionedSession 0 _ _
    [.call (.objectDescribe "account".toList), .changes 1,
      .call (.resolveField "ACCOUNT".toList "NAME".toList)] .start rfl (by simp)⟩

def steadyEngine : MetadataEngine where
  describe key := .ok (describeFrom (accountVersion 0) key)
  globalInfos := .ok (readObjectInfos (accountVersion 0))

def refreshedEvents : List (MetadataEvent ℕ) :=
  [.call (.objectDescribe "account".toList), .refresh "Account".toList,
    .call (.resolveField "account".toList "NAME".toList)]

def accountFetch : EngineFetch :=
  .fetch (some (lower "account".toList)) ((steadyEngine.describe "account".toList).map .describe)

theorem accountFetch_steady : FetchedFrom steadyEngine accountFetch := by
  have hlower : lower "account".toList = "account".toList := by decide
  show (steadyEngine.describe "account".toList).map MetadataAnswer.describe =
    (steadyEngine.describe (lower "account".toList)).map .describe
  rw [hlower]

theorem refreshed_history : ∃ w,
    runEvents (engineStep versionedSession) refreshedEvents (.attached 0) = some w ∧
    w.history = [accountFetch, .drop (refreshCovers "Account".toList), accountFetch] :=
  ⟨_, rfl, rfl⟩

theorem refreshed_account_steady : ∃ w,
    runEvents (engineStep versionedSession) refreshedEvents (.attached 0) = some w ∧
    ∀ op reply, (op, reply) ∈ w.replies → op.reply steadyEngine = reply := by
  obtain ⟨w, hrun, hhistory⟩ := refreshed_history
  refine ⟨w, hrun, ?_⟩
  refine engine_refines_fixed versionedSession steadyEngine 0 w
    (reaches_events refreshedEvents _ w .start hrun) ?_
  intro e he
  rw [hhistory] at he
  rcases List.mem_cons.mp he with rfl | he
  · exact accountFetch_steady
  rcases List.mem_cons.mp he with rfl | he
  · trivial
  · rw [List.mem_singleton.mp he]
    exact accountFetch_steady
end DuckdbSalesforce
