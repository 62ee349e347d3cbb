import DuckdbSalesforce.Catalog.MetadataEngine
import DuckdbSalesforce.Library.Fallible
import DuckdbSalesforce.Library.PathWalk
import DuckdbSalesforce.Soql.Translate

/-!
# The relationship graph (`salesforce_metadata_engine.cpp`)

`salesforce_relationship_graph` lists the relationships of an object and of the
objects they lead to, depth first, by the references of an object to its parents
and by its child relationships.
-/

namespace DuckdbSalesforce
open Fallible PathWalk

/-! ### Rows -/

inductive RelStatus where
  | polymorphic
  | selfReference
  | cyclic
  | notQueryable
  | notDescribable
  | resolved
  | unnamedChild
  deriving DecidableEq, Repr

/-- A NULL target or caveat is `none`. -/
structure RelEdgeRow where
  sourceObject : Text
  relationshipName : Text
  path : Text
  depthLevel : ℤ
  targetObject : Option Text
  referenceTo : List Text
  direction : Text
  relationshipType : Text
  status : RelStatus
  caveat : Option Text
  deriving DecidableEq, Repr

def relPath (pathPrefix name : Text) : Text :=
  if pathPrefix = [] then name else pathPrefix ++ ['.'] ++ name

/-- `target` is on the relationship path. -/
def onPath (visited : List Text) (target : Text) : Bool := visited.any fun a => ciEquals a target

/-! ### Hops

A hop gives its row and, if the walk goes on there, its target. -/

section Hops
variable (eng : MetadataEngine) (maxDepth : ℤ) (current pathPrefix : Text) (depth : ℤ)
  (visited : List Text)

/-- The row of a queryable target; only below `maxDepth` is it described. -/
def queryableHop (row : RelStatus → Option Text → RelEdgeRow) (target caveat : Text) :
    RelEdgeRow × Option Text :=
  if depth < maxDepth then
    match eng.getObjectDescribe target with
    | .error _ => (row .notDescribable (some caveat), none)
    | .ok _ => (row .resolved none, some target)
  else (row .resolved none, none)

/-- One field of `RelGraphWalk`. -/
def parentHop (f : ObjectField) : Except Text (Option (RelEdgeRow × Option Text)) :=
  let row := fun (target : Option Text) (status : RelStatus) (caveat : Option Text) =>
    (⟨current, f.relationshipName, relPath pathPrefix f.relationshipName, depth, target,
      f.referenceTo, "parent".toList, "reference".toList, status, caveat⟩ : RelEdgeRow)
  if f.relationshipName = [] then .ok none
  else
    match f.referenceTo with
    | [target] =>
      if ciEquals target current then .ok (some (row (some target) .selfReference none, none))
      else if onPath visited target then
        .ok (some (row (some target) .cyclic
          (some "target already on the relationship path".toList), none))
      else (eng.isQueryable target).map fun queryable =>
        if queryable then
          some (queryableHop eng maxDepth depth (row (some target)) target
            "target Describe failed or unavailable".toList)
        else
          some (row none .notQueryable (some "target not queryable in Describe Global".toList), none)
    | _ =>
      .ok (some (row none .polymorphic
        (some "multiple referenceTo targets; not traversed".toList), none))

/-- One child relationship of `RelGraphChildWalk`. -/
def childHop (cr : SalesforceChildRelationship) : Except Text (Option (RelEdgeRow × Option Text)) :=
  let row := fun (name path : Text) (status : RelStatus) (caveat : Option Text) =>
    (⟨current, name, path, depth, some cr.childObject, if cr.field = [] then [] else [cr.field],
      "child".toList, "childRelationship".toList, status, caveat⟩ : RelEdgeRow)
  if cr.relationshipName = [] then
    .ok (some (row [] (relPath pathPrefix ("child:".toList ++ cr.childObject)) .unnamedChild
      (some ("child relationship has no relationshipName; ".toList ++
        "not SOQL-subquery-addressable".toList)), none))
  else
    let named := row cr.relationshipName (relPath pathPrefix cr.relationshipName)
    (eng.isQueryable cr.childObject).map fun queryable =>
      if queryable = false then
        some (named .notQueryable (some "child object not queryable in Describe Global".toList), none)
      else if onPath visited cr.childObject then
        some (named .cyclic (some "target already on the relationship path".toList), none)
      else
        some (queryableHop eng maxDepth depth named cr.childObject
          "child Describe failed or unavailable".toList)

end Hops

/-! ### Walks -/

structure WalkState where
  visited : List Text
  rows : List RelEdgeRow

section Walk
variable {E : Type} (items : Text → List E)
  (hop : Text → Text → ℤ → List Text → E → Except Text (Option (RelEdgeRow × Option Text)))

/-- One round of a walk: the row is pushed, the target put on the path while the
walk goes on there. -/
def walkHop (current pathPrefix : Text) (depth : ℤ)
    (descend : Text → Text → WalkState → Except Text WalkState) (s : WalkState) (e : E) :
    Except Text WalkState :=
  (hop current pathPrefix depth s.visited e).bind fun
    | none => .ok s
    | some (row, none) => .ok ⟨s.visited, s.rows ++ [row]⟩
    | some (row, some target) =>
      (descend target row.path ⟨s.visited ++ [target], s.rows ++ [row]⟩).map fun t =>
        ⟨t.visited.dropLast, t.rows⟩

/-- A walk with `levels` levels below; on the last no hop has a target to go on
with. -/
def walkLevels : ℕ → Text → Text → ℤ → WalkState → Except Text WalkState
  | 0, current, pathPrefix, depth, s =>
    run (walkHop hop current pathPrefix depth fun _ _ t => .ok t) s (items current)
  | levels + 1, current, pathPrefix, depth, s =>
    run (walkHop hop current pathPrefix depth fun target path =>
      walkLevels levels target path (depth + 1)) s (items current)

end Walk

/-- The fields of an object, none if it cannot be described. -/
def describedFields (eng : MetadataEngine) (object : Text) : List ObjectField :=
  match eng.getObjectDescribe object with
  | .error _ => []
  | .ok desc => desc.fields

def describedChildren (eng : MetadataEngine) (object : Text) : List SalesforceChildRelationship :=
  match eng.getObjectDescribe object with
  | .error _ => []
  | .ok desc => desc.childRelationships

def relGraphWalk (eng : MetadataEngine) (current pathPrefix : Text) (depth maxDepth : ℤ)
    (s : WalkState) : Except Text WalkState :=
  walkLevels (describedFields eng) (parentHop eng maxDepth) (maxDepth - depth).toNat current
    pathPrefix depth s

def relGraphChildWalk (eng : MetadataEngine) (current pathPrefix : Text) (depth maxDepth : ℤ)
    (s : WalkState) : Except Text WalkState :=
  walkLevels (describedChildren eng) (childHop eng maxDepth) (maxDepth - depth).toNat current
    pathPrefix depth s

/-! ### RelGraphBind -/

def relGraphError (message : Text) : BinderException :=
  ⟨"salesforce_relationship_graph".toList ++ message⟩

def relGraphDepth (maxDepth : Option ℤ) : Except BinderException ℤ :=
  let d := maxDepth.getD 1
  if d < 1 then .error (relGraphError ": max_depth must be >= 1".toList)
  else .ok (if d > 4 then 4 else d)

def relGraphDirection (includeChildren : Option Bool) (direction : Option Text) :
    Except BinderException Text :=
  match direction with
  | none => .ok (if includeChildren.getD false then "both".toList else "parent".toList)
  | some d =>
    if lower d ∈ ["parent".toList, "child".toList, "both".toList] then .ok (lower d)
    else .error (relGraphError ": direction must be 'parent', 'child', or 'both'".toList)

def rootWalk (wanted : Bool) (walk : WalkState → Except Text WalkState) (object : Text)
    (rows : List RelEdgeRow) : Except BinderException (List RelEdgeRow) :=
  if wanted then
    ((walk ⟨[object], rows⟩).mapError BinderException.mk).map WalkState.rows
  else .ok rows

def relGraphBind (eng : MetadataEngine) (inputs : List (Option Text)) (maxDepth : Option ℤ)
    (includeChildren : Option Bool) (direction : Option Text) :
    Except BinderException (List RelEdgeRow) :=
  match inputs with
  | some _ :: some object :: _ =>
    (relGraphDepth maxDepth).bind fun depth =>
      match eng.getObjectDescribe object with
      | .error _ =>
        .error (relGraphError (": object '".toList ++ object ++ "' could not be described".toList))
      | .ok _ =>
        (relGraphDirection includeChildren direction).bind fun d =>
          (rootWalk (d ≠ "child".toList) (relGraphWalk eng object [] 1 depth) object []).bind
            (rootWalk (d ≠ "parent".toList) (relGraphChildWalk eng object [] 1 depth) object)
  | _ => .error (relGraphError ("(catalog, object [, max_depth]) ".toList ++
      "requires a non-NULL catalog alias and object name".toList))

/-! ### The rows of a walk -/

theorem relPath_join (trail : List Text) (name : Text) (hne : ∀ t ∈ trail, t ≠ []) :
    relPath (joinText ['.'] trail) name = joinText ['.'] (trail ++ [name]) := by
  unfold relPath
  by_cases hnil : trail = []
  · subst hnil
    exact if_pos rfl
  · rw [if_neg fun h => hnil (joinText_eq_nil _ trail hne h),
      joinText_append _ trail [name] hnil (List.cons_ne_nil _ _)]
    rfl

section Rows
variable {E : Type} (items : Text → List E)
  (hop : Text → Text → ℤ → List Text → E → Except Text (Option (RelEdgeRow × Option Text)))
  (shown : E → Bool) (next : List Text → Text → E → Option Text) (label : E → Text)
  (maxDepth : ℤ)

/-- The hops of an object that get a row, each with its position. -/
def hopsOf (o : Text) : List (E × ℕ) := (items o).zipIdx.filter fun h => shown h.1

/-- What a hop is supposed to give: `Tells` is what is told of its row. -/
structure HopReads (Tells : List Text → Text → E → RelEdgeRow → Prop) : Prop where
  skipped : ∀ current path depth visited e, shown e = false →
    hop current path depth visited e = .ok none
  gives : ∀ current path depth visited e r, shown e = true → current ∈ visited →
    hop current path depth visited e = .ok r → ∃ row : RelEdgeRow,
      r = some (row, if depth < maxDepth then next visited current e else none) ∧
      row.sourceObject = current ∧ row.path = relPath path (label e) ∧ row.depthLevel = depth ∧
      Tells visited current e row
  label : ∀ e, shown e = true → label e ≠ []

structure RowAt (Tells : List Text → Text → E → RelEdgeRow → Prop) (v : Place Text (E × ℕ) × E × ℕ)
    (row : RelEdgeRow) : Prop where
  source : row.sourceObject = v.1.node
  path : row.path = joinText ['.'] (v.1.trail.map (fun h => label h.1) ++ [label v.2.1])
  depth : row.depthLevel = v.1.trail.length + 1
  tells : Tells v.1.visited v.1.node v.2.1 row

/-- The rows are those of the stops, in their order. -/
structure Adds (R : Place Text (E × ℕ) × E × ℕ → RelEdgeRow → Prop)
    (stops : List (Place Text (E × ℕ) × E × ℕ)) (s s' : WalkState) : Prop where
  visited : s'.visited = s.visited
  rows : ∃ new, s'.rows = s.rows ++ new ∧ List.Forall₂ R stops new

variable {R : Place Text (E × ℕ) × E × ℕ → RelEdgeRow → Prop}

theorem adds_none (s : WalkState) : Adds R [] s s :=
  ⟨rfl, [], (List.append_nil _).symm, .nil⟩

theorem adds_append {s t u : WalkState} {as bs : List (Place Text (E × ℕ) × E × ℕ)}
    (h : Adds R as s t) (h' : Adds R bs t u) : Adds R (as ++ bs) s u := by
  obtain ⟨new, hnew, hr⟩ := h.rows
  obtain ⟨new', hnew', hr'⟩ := h'.rows
  refine ⟨h'.visited.trans h.visited, new ++ new', ?_, List.rel_append hr hr'⟩
  rw [hnew', hnew, List.append_assoc]

theorem adds_run (step : WalkState → E → Except Text WalkState) (visited : List Text)
    (stops : E × ℕ → List (Place Text (E × ℕ) × E × ℕ)) (es : List (E × ℕ))
    (hskip : ∀ s s' h, h ∈ es → shown h.1 = false → step s h.1 = .ok s' → s' = s)
    (hstep : ∀ s s' h, h ∈ es → shown h.1 = true → s.visited = visited →
      step s h.1 = .ok s' → Adds R (stops h) s s')
    (s s' : WalkState) (hs : s.visited = visited)
    (h : run step s (es.map Prod.fst) = .ok s') :
    Adds R ((es.filter fun h => shown h.1).flatMap stops) s s' := by
  induction es generalizing s with
  | nil =>
    rw [← Except.ok.inj h]
    exact adds_none s
  | cons e es ih =>
    rw [List.map_cons] at h
    obtain ⟨t, hround, hrest⟩ := run_cons h
    have hbelow := ih (fun s s' h hh => hskip s s' h (List.mem_cons_of_mem _ hh))
      (fun s s' h hh => hstep s s' h (List.mem_cons_of_mem _ hh))
    cases hshown : shown e.1 with
    | false =>
      rw [hskip s t e List.mem_cons_self hshown hround] at hrest
      rw [List.filter_cons, if_neg (by rw [hshown]; exact Bool.false_ne_true)]
      exact hbelow s hs hrest
    | true =>
      have hfirst := hstep s t e List.mem_cons_self hshown hs hround
      rw [List.filter_cons, if_pos hshown, List.flatMap_cons]
      exact adds_append hfirst (hbelow t (hfirst.visited.trans hs) hrest)

variable {Tells : List Text → Text → E → RelEdgeRow → Prop}
  (hreads : HopReads hop shown next label maxDepth Tells)
include hreads

theorem walkHop_adds (p : Place Text (E × ℕ)) (hnode : p.node ∈ p.visited)
    (htrail : ∀ h ∈ p.trail, label h.1 ≠ []) (depth : ℤ) (hdepth : depth = p.trail.length + 1)
    (descend : Text → Text → WalkState → Except Text WalkState)
    (below : List (Place Text (E × ℕ) × E × ℕ)) (e : E) (i : ℕ) (hshown : shown e = true)
    (hbelow : ∀ m, depth < maxDepth → next p.visited p.node e = some m → ∀ s s',
      s.visited = p.visited ++ [m] →
      descend m (joinText ['.'] (p.trail.map (fun h => label h.1) ++ [label e])) s = .ok s' →
      Adds (RowAt label Tells) below s s')
    (hend : (if depth < maxDepth then next p.visited p.node e else none) = none → below = [])
    (s s' : WalkState) (hs : s.visited = p.visited)
    (h : walkHop hop p.node (joinText ['.'] (p.trail.map fun h => label h.1)) depth descend s e =
      .ok s') : Adds (RowAt label Tells) ((p, e, i) :: below) s s' := by
  obtain ⟨r, hhop, hround⟩ := bind_ok h
  rw [hs] at hhop
  obtain ⟨row, rfl, hsource, hpath, hlevel, htells⟩ :=
    hreads.gives _ _ _ _ e r hshown hnode hhop
  rw [relPath_join _ _ (List.forall_mem_map.mpr htrail)] at hpath
  have hrow : RowAt label Tells (p, e, i) row := ⟨hsource, hpath, hlevel.trans hdepth, htells⟩
  have hone : Adds (RowAt label Tells) [(p, e, i)] s ⟨s.visited, s.rows ++ [row]⟩ :=
    ⟨rfl, [row], rfl, .cons hrow .nil⟩
  cases htarget : if depth < maxDepth then next p.visited p.node e else none with
  | none =>
    rw [htarget] at hround
    rw [hend htarget]
    cases hround
    exact hone
  | some m =>
    rw [htarget] at hround
    have hlt : depth < maxDepth := by
      by_contra hge
      rw [if_neg hge] at htarget
      cases htarget
    rw [if_pos hlt] at htarget
    obtain ⟨t, hdescend, rfl⟩ := map_ok hround
    rw [hpath] at hdescend
    have hunder := hbelow m hlt htarget _ t (by rw [hs]) hdescend
    have hback : Adds (RowAt label Tells) below ⟨s.visited, s.rows ++ [row]⟩
        ⟨t.visited.dropLast, t.rows⟩ := by
      refine ⟨?_, hunder.rows⟩
      show t.visited.dropLast = s.visited
      rw [hunder.visited, List.dropLast_concat]
    exact adds_append hone hback

theorem walkHop_skipped (current path : Text) (depth : ℤ)
    (descend : Text → Text → WalkState → Except Text WalkState) (s s' : WalkState) (e : E)
    (hshown : shown e = false) (h : walkHop hop current path depth descend s e = .ok s') :
    s' = s := by
  unfold walkHop at h
  rw [hreads.skipped _ _ _ _ e hshown] at h
  exact (Except.ok.inj h).symm

/-- A walk from a place stops where the abstract walk does and leaves the list of
visited objects as it was. -/
theorem walkLevels_adds (levels : ℕ) (p : Place Text (E × ℕ)) (hnode : p.node ∈ p.visited)
    (htrail : ∀ h ∈ p.trail, label h.1 ≠ []) (depth : ℤ) (hdepth : depth = p.trail.length + 1)
    (hlevels : levels = (maxDepth - depth).toNat) (s s' : WalkState) (hs : s.visited = p.visited)
    (h : walkLevels items hop levels p.node (joinText ['.'] (p.trail.map fun h => label h.1)) depth s =
      .ok s') :
    Adds (RowAt label Tells)
      (visits (hopsOf items shown) (fun visited n e => next visited n e.1) levels p) s s' := by
  have hitems : items p.node = ((items p.node).zipIdx).map Prod.fst := by
    rw [List.zipIdx_map_fst]
  induction levels generalizing p depth s s' with
  | zero =>
    rw [walkLevels, hitems] at h
    have hrun : Adds (RowAt label Tells) ((hopsOf items shown p.node).flatMap fun e => [(p, e)]) s s' := by
      refine adds_run shown _ p.visited _ _ ?_ ?_ s s' hs h
      · intro s s' e _ hshown hround
        exact walkHop_skipped hop shown next label maxDepth hreads _ _ _ _ s s' e.1 hshown hround
      · intro s s' e _ hshown hs hround
        refine walkHop_adds hop shown next label maxDepth hreads p hnode htrail depth hdepth _ [] e.1
          e.2 hshown ?_ (fun _ => rfl) s s' hs hround
        intro m hlt
        omega
    rw [visits, List.map_eq_flatMap]
    exact hrun
  | succ levels ih =>
    rw [walkLevels, hitems] at h
    rw [visits]
    refine adds_run shown _ p.visited _ _ ?_ ?_ s s' hs h
    · intro s s' e _ hshown hround
      exact walkHop_skipped hop shown next label maxDepth hreads _ _ _ _ s s' e.1 hshown hround
    · intro s s' e _ hshown hs hround
      have hlt : depth < maxDepth := by omega
      refine walkHop_adds hop shown next label maxDepth hreads p hnode htrail depth hdepth _ _ e.1 e.2
        hshown ?_ ?_ s s' hs hround
      · intro m _ hm t t' ht hdescend
        rw [hm]
        refine ih (p.step e m) ?_ ?_ (depth + 1) ?_ (by omega) t t' ht ?_ ?_
        · exact List.mem_append_right _ (List.mem_singleton_self m)
        · intro h hh
          rcases List.mem_append.mp hh with hin | hlast
          · exact htrail h hin
          · rw [List.mem_singleton.mp hlast]
            exact hreads.label e.1 hshown
        · simp only [Place.step, List.length_append, List.length_singleton]
          omega
        · rw [Place.step, List.map_append]
          exact hdescend
        · rw [List.zipIdx_map_fst]
      · intro hnone
        rw [if_pos hlt] at hnone
        rw [hnone]

end Rows

section Total
variable {E : Type} (items : Text → List E)
  (hop : Text → Text → ℤ → List Text → E → Except Text (Option (RelEdgeRow × Option Text)))

theorem walkLevels_total (hhop : ∀ current path depth visited e, ∃ r,
      hop current path depth visited e = .ok r)
    (levels : ℕ) (current path : Text) (depth : ℤ) (s : WalkState) :
    ∃ s', walkLevels items hop levels current path depth s = .ok s' := by
  have hround : ∀ current path depth descend,
      (∀ target path' t, ∃ t', descend target path' t = .ok t') →
      ∀ s e, ∃ s', walkHop hop current path depth descend s e = .ok s' := by
    intro current path depth descend hdescend s e
    obtain ⟨r, hr⟩ := hhop current path depth s.visited e
    unfold walkHop
    rw [hr]
    match r with
    | none => exact ⟨s, rfl⟩
    | some (row, none) => exact ⟨_, rfl⟩
    | some (row, some target) =>
      obtain ⟨t, ht⟩ := hdescend target row.path ⟨s.visited ++ [target], s.rows ++ [row]⟩
      exact ⟨⟨t.visited.dropLast, t.rows⟩, congrArg (Except.map _) ht⟩
  induction levels generalizing current path depth s with
  | zero =>
    rw [walkLevels]
    exact run_total _ (hround current path depth _ fun _ _ t => ⟨t, rfl⟩) s _
  | succ levels ih =>
    rw [walkLevels]
    exact run_total _ (hround current path depth _ fun target path' t => ih target path' _ t) s _

end Total

/-! ### What the rows stand for -/

section Enumerates
variable {E : Type}

/-- The rows stand, one for one, for the chains of fewer than `maxDepth` resolved
hops from the root, each with one hop of the object it ends in. -/
def EnumeratesHops (edges : Text → List (E × ℕ)) (next : List Text → Text → E → Option Text)
    (root : Text) (maxDepth : ℤ) (R : Place Text (E × ℕ) × E × ℕ → RelEdgeRow → Prop)
    (rows : List RelEdgeRow) : Prop :=
  ∃ stops : List (Place Text (E × ℕ) × E × ℕ), (stops.map stopName).Nodup ∧
    (∀ p h, (p, h) ∈ stops ↔ Path edges (fun visited n e => next visited n e.1) ⟨[root], root, []⟩ p ∧
      p.trail.length < maxDepth ∧ h ∈ edges p.node) ∧
    List.Forall₂ R stops rows

theorem hopsOf_nodup (items : Text → List E) (shown : E → Bool) (o : Text) :
    (hopsOf items shown o).Nodup := by
  refine List.Nodup.filter _ (List.Nodup.of_map Prod.snd ?_)
  rw [List.zipIdx_map_snd]
  exact List.nodup_range'

variable (items : Text → List E)
  (hop : Text → Text → ℤ → List Text → E → Except Text (Option (RelEdgeRow × Option Text)))
  (shown : E → Bool) (next : List Text → Text → E → Option Text) (label : E → Text)
  (maxDepth : ℤ) {Tells : List Text → Text → E → RelEdgeRow → Prop}

theorem walk_enumerates (hreads : HopReads hop shown next label maxDepth Tells)
    (hdepth : 1 ≤ maxDepth) (root : Text) (rows : List RelEdgeRow) (s' : WalkState)
    (h : walkLevels items hop (maxDepth - 1).toNat root [] 1 ⟨[root], rows⟩ = .ok s') :
    s'.visited = [root] ∧ ∃ new, s'.rows = rows ++ new ∧
      EnumeratesHops (hopsOf items shown) next root maxDepth (RowAt label Tells) new := by
  have hadds := walkLevels_adds items hop shown next label maxDepth hreads (maxDepth - 1).toNat
    ⟨[root], root, []⟩ (List.mem_singleton_self root) (List.forall_mem_nil _) 1 rfl rfl
    ⟨[root], rows⟩ s' rfl h
  obtain ⟨new, hnew, hrows⟩ := hadds.rows
  refine ⟨hadds.visited, new, hnew, _, visits_nodup _ _ (hopsOf_nodup items shown) _ _, ?_, hrows⟩
  intro p e
  rw [mem_visits]
  simp only [List.length_nil, Nat.zero_add]
  constructor
  · intro hgiven
    obtain ⟨hpath, hlen, he⟩ := hgiven
    exact ⟨hpath, by omega, he⟩
  · intro hgiven
    obtain ⟨hpath, hlen, he⟩ := hgiven
    exact ⟨hpath, by omega, he⟩

end Enumerates

section Directions
variable (eng : MetadataEngine)

def queryable (o : Text) : Bool :=
  match eng.isQueryable o with
  | .ok q => q
  | .error _ => false

def describable (o : Text) : Bool :=
  match eng.getObjectDescribe o with
  | .ok _ => true
  | .error _ => false

def resolves (visited : List Text) (target : Text) : Bool :=
  !onPath visited target && queryable eng target && describable eng target

theorem queryableHop_eq (maxDepth depth : ℤ) (row : RelStatus → Option Text → RelEdgeRow)
    (target caveat : Text) : ∃ status text,
      queryableHop eng maxDepth depth row target caveat =
        (row status text, if depth < maxDepth then
          if describable eng target then some target else none else none) ∧
      (status = .resolved ∨ status = .notDescribable) ∧
      (describable eng target = true → status = .resolved) := by
  unfold queryableHop describable
  by_cases hlt : depth < maxDepth
  · rw [if_pos hlt, if_pos hlt]
    cases eng.getObjectDescribe target with
    | error e =>
      refine ⟨.notDescribable, some caveat, rfl, Or.inr rfl, ?_⟩
      intro h
      cases h
    | ok d => exact ⟨.resolved, none, rfl, Or.inl rfl, fun _ => rfl⟩
  · rw [if_neg hlt, if_neg hlt]
    exact ⟨.resolved, none, rfl, Or.inl rfl, fun _ => rfl⟩

/-! ### Parents -/

def isNamed (f : ObjectField) : Bool := f.relationshipName != []

def parentTarget (visited : List Text) (_ : Text) (f : ObjectField) : Option Text :=
  match f.referenceTo with
  | [target] => if resolves eng visited target then some target else none
  | _ => none

structure ParentTells (visited : List Text) (current : Text) (f : ObjectField) (row : RelEdgeRow) :
    Prop where
  name : row.relationshipName = f.relationshipName
  referenceTo : row.referenceTo = f.referenceTo
  marked : (row.status = .cyclic ∨ row.status = .selfReference) ↔
    ∃ t, f.referenceTo = [t] ∧ onPath visited t = true
  self : row.status = .selfReference ↔ ∃ t, f.referenceTo = [t] ∧ ciEquals t current = true
  resolved : ∀ t, parentTarget eng visited current f = some t →
    row.status = .resolved ∧ row.targetObject = some t

theorem ciEquals_comm (a b : Text) : ciEquals a b = ciEquals b a := Bool.beq_comm

theorem onPath_current (visited : List Text) (current target : Text) (h : current ∈ visited)
    (hsame : ciEquals target current = true) : onPath visited target = true :=
  List.any_eq_true.mpr ⟨current, h, (ciEquals_comm current target).trans hsame⟩

theorem isQueryable_eq (o : Text) (q : Bool) (h : eng.isQueryable o = .ok q) :
    queryable eng o = q := by
  unfold queryable
  rw [h]

theorem parentTells_single (visited : List Text) (current target : Text) (f : ObjectField)
    (row : RelEdgeRow) (htarget : f.referenceTo = [target])
    (hname : row.relationshipName = f.relationshipName) (href : row.referenceTo = f.referenceTo)
    (hmarked : (row.status = .cyclic ∨ row.status = .selfReference) ↔ onPath visited target = true)
    (hself : row.status = .selfReference ↔ ciEquals target current = true)
    (hresolved : resolves eng visited target = true →
      row.status = .resolved ∧ row.targetObject = some target) :
    ParentTells eng visited current f row := by
  have hone : ∀ (P : Text → Prop), (∃ t, f.referenceTo = [t] ∧ P t) ↔ P target := by
    intro P
    rw [htarget]
    constructor
    · intro h
      obtain ⟨t, ht, hp⟩ := h
      rwa [(List.cons.inj ht).1]
    · intro hp
      exact ⟨target, rfl, hp⟩
  refine ⟨hname, href, hmarked.trans (hone fun t => onPath visited t = true).symm,
    hself.trans (hone fun t => ciEquals t current = true).symm, ?_⟩
  intro t ht
  unfold parentTarget at ht
  rw [htarget] at ht
  simp only at ht
  split at ht
  · rename_i hres
    rw [← Option.some.inj ht]
    exact hresolved hres
  · cases ht

theorem resolves_onPath (visited : List Text) (target : Text) (h : onPath visited target = true) :
    resolves eng visited target = false := by
  rw [resolves, h]
  rfl

theorem parentTells_unresolved (visited : List Text) (current target : Text) (f : ObjectField)
    (row : RelEdgeRow) (htarget : f.referenceTo = [target])
    (hname : row.relationshipName = f.relationshipName) (href : row.referenceTo = f.referenceTo)
    (hmarked : (row.status = .cyclic ∨ row.status = .selfReference) ↔ onPath visited target = true)
    (hself : row.status = .selfReference ↔ ciEquals target current = true)
    (hno : resolves eng visited target = false) : ParentTells eng visited current f row := by
  refine parentTells_single eng visited current target f row htarget hname href hmarked hself ?_
  intro hres
  rw [hno] at hres
  cases hres

theorem parentTarget_many (visited : List Text) (current : Text) (f : ObjectField)
    (hmany : ∀ t, f.referenceTo ≠ [t]) : parentTarget eng visited current f = none := by
  unfold parentTarget
  split
  · rename_i t ht
    exact absurd ht (hmany t)
  · rfl

theorem parentTells_many (visited : List Text) (current : Text) (f : ObjectField)
    (row : RelEdgeRow) (hmany : ∀ t, f.referenceTo ≠ [t])
    (hname : row.relationshipName = f.relationshipName) (href : row.referenceTo = f.referenceTo)
    (hstatus : row.status = .polymorphic) : ParentTells eng visited current f row := by
  refine ⟨hname, href, ?_, ?_, ?_⟩
  · exact iff_of_false (by simp [hstatus]) fun ⟨t, ht, _⟩ => hmany t ht
  · exact iff_of_false (by simp [hstatus]) fun ⟨t, ht, _⟩ => hmany t ht
  · intro t ht
    rw [parentTarget_many eng visited current f hmany] at ht
    cases ht

theorem parentHop_reads (maxDepth : ℤ) :
    HopReads (parentHop eng maxDepth) isNamed (parentTarget eng)
      (fun f => f.relationshipName) maxDepth (ParentTells eng) := by
  constructor
  · intro current path depth visited f hshown
    exact if_pos (by simpa [isNamed] using hshown)
  · intro current path depth visited f r hshown hcurrent hhop
    have hname : f.relationshipName ≠ [] := by simpa [isNamed] using hshown
    unfold parentHop at hhop
    simp only [if_neg hname] at hhop
    split at hhop
    · rename_i target htarget
      have hnext : parentTarget eng visited current f =
          if resolves eng visited target then some target else none := by
        unfold parentTarget
        rw [htarget]
      rw [hnext]
      by_cases hself : ciEquals target current = true
      · have hon := onPath_current visited current target hcurrent hself
        have hno := resolves_onPath eng visited target hon
        rw [if_pos hself] at hhop
        rw [hno, if_neg Bool.false_ne_true, ite_self]
        exact ⟨_, (Except.ok.inj hhop).symm, rfl, rfl, rfl,
          parentTells_unresolved eng visited current target f _ htarget rfl rfl
            (iff_of_true (Or.inr rfl) hon) (iff_of_true rfl hself) hno⟩
      rw [if_neg hself] at hhop
      by_cases hon : onPath visited target = true
      · have hno := resolves_onPath eng visited target hon
        rw [if_pos hon] at hhop
        rw [hno, if_neg Bool.false_ne_true, ite_self]
        exact ⟨_, (Except.ok.inj hhop).symm, rfl, rfl, rfl,
          parentTells_unresolved eng visited current target f _ htarget rfl rfl
            (iff_of_true (Or.inl rfl) hon) (iff_of_false (by simp) hself) hno⟩
      rw [if_neg hon] at hhop
      obtain ⟨q, hq, rfl⟩ := map_ok hhop
      have hquery := isQueryable_eq eng target q hq
      have hres : resolves eng visited target = (q && describable eng target) := by
        rw [resolves, hquery, Bool.eq_false_iff.mpr hon]
        rfl
      cases q with
      | false =>
        have hno : resolves eng visited target = false := hres
        rw [hno, if_neg Bool.false_ne_true, if_neg Bool.false_ne_true, ite_self]
        exact ⟨_, rfl, rfl, rfl, rfl,
          parentTells_unresolved eng visited current target f _ htarget rfl rfl
            (iff_of_false (by simp) hon) (iff_of_false (by simp) hself) hno⟩
      | true =>
        rw [if_pos rfl]
        obtain ⟨status, text, hrow, hstatus, hdescribed⟩ := queryableHop_eq eng maxDepth depth
          (fun status caveat => (⟨current, f.relationshipName, relPath path f.relationshipName, depth,
            some target, f.referenceTo, "parent".toList, "reference".toList, status, caveat⟩ :
            RelEdgeRow)) target "target Describe failed or unavailable".toList
        rw [hrow, hres, Bool.true_and]
        have hplain : status ≠ .cyclic ∧ status ≠ .selfReference := by
          rcases hstatus with rfl | rfl <;> exact ⟨by simp, by simp⟩
        refine ⟨_, rfl, rfl, rfl, rfl, ?_⟩
        refine parentTells_single eng visited current target f _ htarget rfl rfl
          (iff_of_false (by simpa using hplain) hon) (iff_of_false hplain.2 hself) ?_
        intro htrue
        rw [hres, Bool.true_and] at htrue
        exact ⟨hdescribed htrue, rfl⟩
    · rename_i hmany
      rw [parentTarget_many eng visited current f hmany, ite_self]
      exact ⟨_, (Except.ok.inj hhop).symm, rfl, rfl, rfl,
        parentTells_many eng visited current f _ hmany rfl rfl rfl⟩
  · intro f hshown
    simpa [isNamed] using hshown

theorem parentHop_total (infos : List SalesforceObjectInfo) (h : eng.globalInfos = .ok infos)
    (maxDepth : ℤ) (current path : Text) (depth : ℤ) (visited : List Text) (f : ObjectField) :
    ∃ r, parentHop eng maxDepth current path depth visited f = .ok r := by
  have hquery : ∀ o, ∃ q, eng.isQueryable o = .ok q := by
    intro o
    unfold MetadataEngine.isQueryable MetadataEngine.globalObjects
    rw [h]
    exact ⟨_, rfl⟩
  unfold parentHop
  split
  · exact ⟨_, rfl⟩
  split
  · rename_i target _
    obtain ⟨q, hq⟩ := hquery target
    rw [hq]
    split
    · exact ⟨_, rfl⟩
    split
    · exact ⟨_, rfl⟩
    · exact ⟨_, rfl⟩
  · exact ⟨_, rfl⟩

/-! ### Children -/

def childTarget (visited : List Text) (_ : Text) (cr : SalesforceChildRelationship) : Option Text :=
  if cr.relationshipName ≠ [] ∧ resolves eng visited cr.childObject = true then some cr.childObject
  else none

def childLabel (cr : SalesforceChildRelationship) : Text :=
  if cr.relationshipName = [] then "child:".toList ++ cr.childObject else cr.relationshipName

structure ChildTells (visited : List Text) (current : Text) (cr : SalesforceChildRelationship)
    (row : RelEdgeRow) : Prop where
  name : row.relationshipName = cr.relationshipName
  target : row.targetObject = some cr.childObject
  /-- Only a named and queryable child on the chain is marked. -/
  marked : row.status = .cyclic ↔ cr.relationshipName ≠ [] ∧ queryable eng cr.childObject = true ∧
    onPath visited cr.childObject = true
  resolved : childTarget eng visited current cr ≠ none → row.status = .resolved

theorem childHop_reads (maxDepth : ℤ) :
    HopReads (childHop eng maxDepth) (fun _ => true) (childTarget eng) childLabel maxDepth
      (ChildTells eng) := by
  constructor
  · intro current path depth visited cr hshown
    cases hshown
  · intro current path depth visited cr r _ _ hhop
    unfold childHop at hhop
    by_cases hname : cr.relationshipName = []
    · simp only [if_pos hname] at hhop
      have hnone : childTarget eng visited current cr = none := if_neg fun h => h.1 hname
      rw [hnone, ite_self]
      refine ⟨_, (Except.ok.inj hhop).symm, rfl, ?_, rfl, hname.symm, rfl, ?_, ?_⟩
      · rw [childLabel, if_pos hname]
      · exact iff_of_false (by simp) fun h => h.1 hname
      · intro h
        exact absurd hnone h
    simp only [if_neg hname] at hhop
    have hlabel : childLabel cr = cr.relationshipName := if_neg hname
    have hnext : childTarget eng visited current cr =
        if resolves eng visited cr.childObject then some cr.childObject else none := by
      unfold childTarget
      simp only [hname, ne_eq, not_false_eq_true, true_and]
    obtain ⟨q, hq, rfl⟩ := map_ok hhop
    have hquery := isQueryable_eq eng cr.childObject q hq
    rw [hnext]
    cases q with
    | false =>
      have hno : resolves eng visited cr.childObject = false := by
        rw [resolves, hquery, Bool.and_false, Bool.false_and]
      rw [if_pos rfl, hno, if_neg Bool.false_ne_true, ite_self]
      refine ⟨_, rfl, rfl, by rw [hlabel], rfl, rfl, rfl, ?_, ?_⟩
      · refine iff_of_false (by simp) fun h => ?_
        rw [hquery] at h
        exact Bool.false_ne_true h.2.1
      · intro h
        rw [hnext, hno] at h
        exact absurd rfl h
    | true =>
      rw [if_neg (Bool.noConfusion : ¬ true = false)]
      by_cases hon : onPath visited cr.childObject = true
      · have hno := resolves_onPath eng visited cr.childObject hon
        rw [if_pos hon, hno, if_neg Bool.false_ne_true, ite_self]
        refine ⟨_, rfl, rfl, by rw [hlabel], rfl, rfl, rfl, ?_, ?_⟩
        · exact iff_of_true rfl ⟨hname, hquery, hon⟩
        · intro h
          rw [hnext, hno] at h
          exact absurd rfl h
      · rw [if_neg hon]
        have hres : resolves eng visited cr.childObject = describable eng cr.childObject := by
          rw [resolves, hquery, Bool.eq_false_iff.mpr hon]
          rfl
        obtain ⟨status, text, hrow, hstatus, hdescribed⟩ := queryableHop_eq eng maxDepth depth
          (fun status caveat => (⟨current, cr.relationshipName, relPath path cr.relationshipName,
            depth, some cr.childObject, if cr.field = [] then [] else [cr.field], "child".toList,
            "childRelationship".toList, status, caveat⟩ : RelEdgeRow)) cr.childObject
          "child Describe failed or unavailable".toList
        rw [hrow, hres]
        refine ⟨_, rfl, rfl, by rw [hlabel], rfl, rfl, rfl, ?_, ?_⟩
        · refine iff_of_false ?_ fun h => hon h.2.2
          rcases hstatus with rfl | rfl <;> simp
        · intro h
          apply hdescribed
          by_contra hno
          rw [hnext, hres, if_neg hno] at h
          exact h rfl
  · intro cr _
    unfold childLabel
    split
    · exact List.cons_ne_nil _ _
    · assumption

theorem childHop_total (infos : List SalesforceObjectInfo) (h : eng.globalInfos = .ok infos)
    (maxDepth : ℤ) (current path : Text) (depth : ℤ) (visited : List Text)
    (cr : SalesforceChildRelationship) :
    ∃ r, childHop eng maxDepth current path depth visited cr = .ok r := by
  have hquery : ∃ q, eng.isQueryable cr.childObject = .ok q := by
    unfold MetadataEngine.isQueryable MetadataEngine.globalObjects
    rw [h]
    exact ⟨_, rfl⟩
  obtain ⟨q, hq⟩ := hquery
  unfold childHop
  rw [hq]
  by_cases hname : cr.relationshipName = []
  · exact ⟨_, if_pos hname⟩
  · exact ⟨_, if_neg hname⟩

/-! ### Both walks -/

def ParentsEnumerated (root : Text) (maxDepth : ℤ) (rows : List RelEdgeRow) : Prop :=
  EnumeratesHops (hopsOf (describedFields eng) isNamed) (parentTarget eng) root maxDepth
    (RowAt (fun f => f.relationshipName) (ParentTells eng)) rows

def ChildrenEnumerated (root : Text) (maxDepth : ℤ) (rows : List RelEdgeRow) : Prop :=
  EnumeratesHops (hopsOf (describedChildren eng) fun _ => true) (childTarget eng) root maxDepth
    (RowAt childLabel (ChildTells eng)) rows

/-- A walk keeps the rows there are and the list of visited objects, and returns
wherever Describe Global answers. -/
structure WalkMeets (walk : WalkState → Except Text WalkState) (root : Text)
    (Enumerated : List RelEdgeRow → Prop) : Prop where
  rows : ∀ rows s', walk ⟨[root], rows⟩ = .ok s' →
    s'.visited = [root] ∧ ∃ new, s'.rows = rows ++ new ∧ Enumerated new
  returns : ∀ infos rows, eng.globalInfos = .ok infos → ∃ s', walk ⟨[root], rows⟩ = .ok s'

theorem relGraphWalk_meets (root : Text) (maxDepth : ℤ) (hdepth : 1 ≤ maxDepth) :
    WalkMeets eng (relGraphWalk eng root [] 1 maxDepth) root (ParentsEnumerated eng root maxDepth) := by
  constructor
  · intro rows s' h
    exact walk_enumerates _ _ _ _ _ maxDepth (parentHop_reads eng maxDepth) hdepth root rows s' h
  · intro infos rows hglobal
    exact walkLevels_total _ _ (parentHop_total eng infos hglobal maxDepth) _ root [] 1 _

theorem relGraphChildWalk_meets (root : Text) (maxDepth : ℤ) (hdepth : 1 ≤ maxDepth) :
    WalkMeets eng (relGraphChildWalk eng root [] 1 maxDepth) root
      (ChildrenEnumerated eng root maxDepth) := by
  constructor
  · intro rows s' h
    exact walk_enumerates _ _ _ _ _ maxDepth (childHop_reads eng maxDepth) hdepth root rows s' h
  · intro infos rows hglobal
    exact walkLevels_total _ _ (childHop_total eng infos hglobal maxDepth) _ root [] 1 _

theorem relationship_walks (root : Text) (maxDepth : ℤ) (hdepth : 1 ≤ maxDepth) :
    WalkMeets eng (relGraphWalk eng root [] 1 maxDepth) root (ParentsEnumerated eng root maxDepth) ∧
    WalkMeets eng (relGraphChildWalk eng root [] 1 maxDepth) root
      (ChildrenEnumerated eng root maxDepth) :=
  ⟨relGraphWalk_meets eng root maxDepth hdepth, relGraphChildWalk_meets eng root maxDepth hdepth⟩

/-! ### The table function -/

theorem relGraphDepth_range (maxDepth : Option ℤ) (d : ℤ) (h : relGraphDepth maxDepth = .ok d) :
    1 ≤ d ∧ d ≤ 4 := by
  simp only [relGraphDepth] at h
  split at h
  · cases h
  · rename_i hlow
    rw [← Except.ok.inj h]
    split <;> omega

theorem rootWalk_meets (wanted : Bool) (walk : WalkState → Except Text WalkState) (root : Text)
    (Enumerated : List RelEdgeRow → Prop) (hwalk : WalkMeets eng walk root Enumerated)
    (rows out : List RelEdgeRow) (h : rootWalk wanted walk root rows = .ok out) :
    ∃ new, out = rows ++ new ∧ if wanted then Enumerated new else new = [] := by
  unfold rootWalk at h
  cases wanted with
  | false => exact ⟨[], by rw [List.append_nil, Except.ok.inj h], rfl⟩
  | true =>
    rw [if_pos rfl] at h
    obtain ⟨s, hs, hrows⟩ := Fallible.map_ok h
    cases hrun : walk ⟨[root], rows⟩ with
    | error e =>
      rw [hrun] at hs
      cases hs
    | ok s' =>
      rw [hrun] at hs
      obtain rfl := Except.ok.inj hs
      obtain ⟨_, new, hnew, henumerated⟩ := hwalk.rows rows s' hrun
      exact ⟨new, hrows.symm.trans hnew, henumerated⟩

/-- The rows of the parent direction, and those of the child direction behind
them, up to a depth of at most four. -/
theorem relGraphBind_rows (inputs : List (Option Text)) (maxDepth : Option ℤ)
    (includeChildren : Option Bool) (direction : Option Text) (rows : List RelEdgeRow)
    (h : relGraphBind eng inputs maxDepth includeChildren direction = .ok rows) :
    ∃ (object d : Text) (depth : ℤ) (parents children : List RelEdgeRow),
      inputs[1]? = some (some object) ∧ (1 ≤ depth ∧ depth ≤ 4) ∧
      relGraphDirection includeChildren direction = .ok d ∧ rows = parents ++ children ∧
      (if d ≠ "child".toList then ParentsEnumerated eng object depth parents else parents = []) ∧
      if d ≠ "parent".toList then ChildrenEnumerated eng object depth children else children = [] := by
  unfold relGraphBind at h
  split at h
  · rename_i _ object _
    obtain ⟨depth, hdepth, h⟩ := Fallible.bind_ok h
    have hrange := relGraphDepth_range maxDepth depth hdepth
    split at h
    · cases h
    · obtain ⟨d, hd, h⟩ := Fallible.bind_ok h
      obtain ⟨up, hup, hdown⟩ := Fallible.bind_ok h
      obtain ⟨parents, hnew, hparents⟩ := rootWalk_meets eng _ _ object _
        (relGraphWalk_meets eng object depth hrange.1) [] up hup
      rw [List.nil_append] at hnew
      obtain ⟨children, hrows, hchildren⟩ := rootWalk_meets eng _ _ object _
        (relGraphChildWalk_meets eng object depth hrange.1) _ rows hdown
      rw [hnew] at hrows
      refine ⟨object, d, depth, parents, children, rfl, hrange, hd, hrows, ?_, ?_⟩
      · simpa only [decide_eq_true_eq] using hparents
      · simpa only [decide_eq_true_eq] using hchildren
  · cases h

end Directions

/-! ### A contact under its account -/

def oneHopDescribe (name parent parentName child childName : String) : ObjectDescribe :=
  ⟨name.toList,
    [{ name := parentName.toList ++ "Id".toList, sfType := "reference".toList, duckdbType := .varchar,
       filterable := true, sortable := true, relationshipName := parentName.toList,
       isRelationship := false, children := [], unknownType := false, nillable := true,
       referenceTo := [parent.toList] }],
    [⟨child.toList, (name ++ "Id").toList, childName.toList⟩]⟩

/-- Accounts have a parent account; contacts have an account. The relationship of
an account to its child accounts has no name. -/
def accountEngine : MetadataEngine where
  describe o :=
    if o = "account".toList then .ok (oneHopDescribe "Account" "Account" "Parent" "Account" "")
    else if o = "contact".toList then .ok (oneHopDescribe "Contact" "Account" "Account" "Case" "Cases")
    else .error "not found".toList
  globalInfos := .ok [⟨"Account".toList, true⟩, ⟨"Contact".toList, true⟩]

theorem contact_walks :
    WalkMeets accountEngine (relGraphWalk accountEngine "Contact".toList [] 1 2) "Contact".toList
      (ParentsEnumerated accountEngine "Contact".toList 2) ∧
    WalkMeets accountEngine (relGraphChildWalk accountEngine "Contact".toList [] 1 2)
      "Contact".toList (ChildrenEnumerated accountEngine "Contact".toList 2) :=
  relationship_walks accountEngine "Contact".toList 2 (by decide)

/-- An unnamed child relationship to the object itself is not marked as a cycle. -/
theorem unnamed_child_unmarked :
    ¬ ∀ (eng : MetadataEngine) (root : Text) (maxDepth : ℤ) (s' : WalkState), 1 ≤ maxDepth →
      relGraphChildWalk eng root [] 1 maxDepth ⟨[root], []⟩ = .ok s' →
      EnumeratesHops (hopsOf (describedChildren eng) fun _ => true) (childTarget eng) root maxDepth
        (RowAt childLabel fun visited _ cr row =>
          (row.status = .cyclic ↔ onPath visited cr.childObject = true)) s'.rows := by
  intro h
  obtain ⟨stops, _, hstops, hrows⟩ := h accountEngine "Account".toList 1
    ⟨["Account".toList], _⟩ (by decide) rfl
  cases hrows with
  | cons hrow _ =>
    rename_i v _ _ _
    obtain ⟨hpath, hlen, hhop⟩ := (hstops v.1 v.2).mp List.mem_cons_self
    have hroot := path_same _ _ hpath (by simp only [List.length_nil]; omega)
    have hmarked := hrow.tells
    rw [hroot] at hhop hmarked
    have hchild : v.2 ∈ [((⟨"Account".toList, "AccountId".toList, []⟩ : SalesforceChildRelationship), 0)] :=
      hhop
    rw [List.mem_singleton.mp hchild] at hmarked
    exact absurd (hmarked.mpr rfl) (by decide)

end DuckdbSalesforce
