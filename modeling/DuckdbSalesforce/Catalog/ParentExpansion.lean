import DuckdbSalesforce.Catalog.ObjectDescribe

/-!
# Parent relationships as STRUCT columns (`salesforce_storage.cpp`)

With relationship expansion on, each reference with one target gives a STRUCT
column with the fields of the target and, one level deeper, its own parents.
-/

namespace DuckdbSalesforce

/-! ### Schema fields -/

/-- A DuckDB type with the children of its STRUCTs. -/
inductive ColumnType where
  | scalar (t : LogicalType)
  | struct (children : List (Text × ColumnType))

/-- A `SalesforceField` of a table; `children` are those of a synthesised STRUCT. -/
structure SchemaField where
  field : ObjectField
  type : ColumnType
  children : List SchemaField

namespace SchemaField

def name (f : SchemaField) : Text := f.field.name
def isRelationship (f : SchemaField) : Bool := f.field.isRelationship

/-- A described field; a copied one is no relationship. -/
def scalar (f : ObjectField) : SchemaField :=
  ⟨{ f with isRelationship := false, children := [] }, .scalar f.duckdbType, []⟩

/-- The STRUCT synthesised for the reference `f`. -/
def relationship (f : ObjectField) (type : ColumnType) (children : List SchemaField) : SchemaField :=
  ⟨{ name := f.relationshipName, sfType := [], duckdbType := .struct, filterable := false,
     sortable := false, relationshipName := f.relationshipName, isRelationship := true,
     children := [], unknownType := false, nillable := true, referenceTo := f.referenceTo },
    type, children⟩

end SchemaField

/-! ### Diagnostics -/

inductive SkipReason where
  | noRelationshipName
  | polymorphic
  | selfReference
  | cycle
  | nameCollision
  | parentNotDescribable
  | noFields
  deriving DecidableEq, Repr

inductive RelDecisionStatus where
  | expanded (fieldCount : ℕ)
  | skipped (reason : SkipReason)
  deriving DecidableEq, Repr

structure RelDecision where
  relationshipName : Text
  parentObject : Text
  depthLevel : ℤ
  status : RelDecisionStatus
  deriving DecidableEq, Repr

/-! ### BuildRelationshipFields -/

/-- The fields of the objects that can be described, by lower-case name: what the
session answers and the cache of parent describes keeps. -/
abbrev ParentDescribes := Text → Option (List ObjectField)

/-- A describe has the name it was asked for. -/
def getParentDescribe (org : ParentDescribes) (object : Text) : Option ObjectDescribe :=
  (org (lower object)).map fun fields => ⟨object, fields, []⟩

structure BuildState where
  rels : List SchemaField
  visited : Finset Text
  log : List RelDecision

def BuildState.record (s : BuildState) (name parent : Text) (level : ℤ)
    (status : RelDecisionStatus) : BuildState :=
  { s with log := s.log ++ [⟨name, parent, level, status⟩] }

/-- `struct_children` and `rel.children`, filled side by side. -/
structure StructChildren where
  types : List (Text × ColumnType)
  fields : List SchemaField

def StructChildren.add (c : StructChildren) (f : SchemaField) : StructChildren :=
  ⟨c.types ++ [(f.name, f.type)], c.fields ++ [f]⟩

def addParentField (c : StructChildren) (pf : ObjectField) : StructChildren :=
  if SchemaEntry.isQueryableField pf.toDescribedField then c.add (.scalar pf) else c

/-- A nested STRUCT does not shadow a child of its name. -/
def addNested (c : StructChildren) (n : SchemaField) : StructChildren :=
  if c.fields.any fun d => ciEquals d.name n.name then c else c.add n

/-- One field of `desc`; `below` builds the relationships of a parent. -/
def buildReference (org : ParentDescribes) (desc : ObjectDescribe) (level : ℤ)
    (below : ObjectDescribe → Finset Text → BuildState) (s : BuildState) (f : ObjectField) :
    BuildState :=
  if lower f.sfType ≠ "reference".toList then s
  else if f.relationshipName = [] then s.record f.name [] level (.skipped .noRelationshipName)
  else
    match f.referenceTo with
    | [parent] =>
      let plow := lower parent
      let skip := fun reason => s.record f.relationshipName parent level (.skipped reason)
      if ciEquals parent desc.objectName then skip .selfReference
      else if plow ∈ s.visited then skip .cycle
      else if desc.fields.any fun g => ciEquals g.name f.relationshipName then skip .nameCollision
      else
        match getParentDescribe org parent with
        | none => skip .parentNotDescribable
        | some pd =>
          let scalars := pd.fields.foldl addParentField ⟨[], []⟩
          let nested := below pd (insert plow s.visited)
          let children := nested.rels.foldl addNested scalars
          let t : BuildState := ⟨s.rels, nested.visited.erase plow, s.log ++ nested.log⟩
          if children.fields = [] then
            t.record f.relationshipName parent level (.skipped .noFields)
          else
            let t := t.record f.relationshipName parent level (.expanded children.fields.length)
            { t with rels := t.rels ++ [.relationship f (.struct children.types) children.fields] }
    | _ => s.record f.relationshipName [] level (.skipped .polymorphic)

def buildRelationshipFields (org : ParentDescribes) : ℕ → ObjectDescribe → Finset Text → ℤ → BuildState
  | 0, _, visited, _ => ⟨[], visited, []⟩
  | depth + 1, desc, visited, level =>
    desc.fields.foldl
      (buildReference org desc level fun pd v => buildRelationshipFields org depth pd v (level + 1))
      ⟨[], visited, []⟩

/-- The fields of the table entry with the relationships behind them, and what was
recorded. -/
def expandParentRelationships (org : ParentDescribes) (describe : ObjectDescribe) (depth : ℤ) :
    List SchemaField × List RelDecision :=
  let built := buildRelationshipFields org depth.toNat describe {lower describe.objectName} 1
  (describe.fields.map SchemaField.scalar ++ built.rels, built.log)

/-- The columns `BuildAndCacheEntry` makes. -/
def tableFields (fields : List SchemaField) : List SchemaField :=
  fields.filter fun f => SchemaEntry.isQueryableField f.field.toDescribedField

/-! ### The schema that is meant -/

section Meant
variable (org : ParentDescribes)

/-- Within an object neither two fields nor two relationships have one name. -/
structure NamesApart (fs : List ObjectField) : Prop where
  fields : (fs.map fun f => lower f.name).Nodup
  relationships :
    ((fs.filter fun f => f.relationshipName != []).map fun f => lower f.relationshipName).Nodup

/-- The named reference `f` of `desc` leads to the describable object `parent`, which
is not on the path, and its name is not that of a field. -/
structure LeadsTo (path : Finset Text) (desc : ObjectDescribe) (f : ObjectField) (parent : Text)
    (pd : ObjectDescribe) : Prop where
  reference : lower f.sfType = "reference".toList
  named : f.relationshipName ≠ []
  target : f.referenceTo = [parent]
  off : lower parent ∉ path
  apart : ∀ g ∈ desc.fields, ciEquals g.name f.relationshipName = false
  described : getParentDescribe org parent = some pd

def queryableScalars (desc : ObjectDescribe) : List SchemaField :=
  (desc.fields.filter fun f => SchemaEntry.isQueryableField f.toDescribedField).map .scalar

def structType (children : List SchemaField) : ColumnType :=
  .struct (children.map fun c => (c.name, c.type))

/-- Every reference that leads to an object with a field has its STRUCT. -/
def AllExpanded (path : Finset Text) (desc : ObjectDescribe) (rels : List SchemaField) : Prop :=
  ∀ f ∈ desc.fields, ∀ parent pd, LeadsTo org path desc f parent pd →
    queryableScalars pd ≠ [] → ∃ r ∈ rels, r.name = f.relationshipName ∧
      r.field.referenceTo = f.referenceTo

/-- A STRUCT for a reference of `desc`, at most `depth` levels of them in each
other, `path` being the objects above. -/
inductive StructMeets : ℕ → Finset Text → ObjectDescribe → SchemaField → Prop
  | mk (depth : ℕ) (path : Finset Text) (desc : ObjectDescribe) (f : ObjectField) (parent : Text)
      (pd : ObjectDescribe) (nested children : List SchemaField) (hf : f ∈ desc.fields)
      (hleads : LeadsTo org path desc f parent pd)
      (hchildren : children = queryableScalars pd ++ nested) (hne : children ≠ [])
      (hdistinct : (children.map fun c => lower c.name).Nodup)
      (hnested : ∀ n ∈ nested, StructMeets depth (insert (lower parent) path) pd n)
      (hall : depth ≠ 0 → AllExpanded org (insert (lower parent) path) pd nested) :
    StructMeets (depth + 1) path desc (.relationship f (structType children) children)

end Meant

namespace SchemaField

mutual
def nesting : SchemaField → ℕ
  | ⟨field, _, children⟩ => if field.isRelationship then nestingAll children + 1 else 0

def nestingAll : List SchemaField → ℕ
  | [] => 0
  | f :: fs => max (nesting f) (nestingAll fs)
end

mutual
/-- The decisions that stand for the STRUCTs of a field, inner ones first. -/
def structDecisions (level : ℤ) : SchemaField → List RelDecision
  | ⟨field, _, children⟩ =>
    if field.isRelationship then
      structDecisionsAll (level + 1) children ++
        [⟨field.relationshipName, field.referenceTo.headD [], level, .expanded children.length⟩]
    else []

def structDecisionsAll (level : ℤ) : List SchemaField → List RelDecision
  | [] => []
  | f :: fs => structDecisions level f ++ structDecisionsAll level fs
end

theorem structDecisionsAll_append (level : ℤ) (fs gs : List SchemaField) :
    structDecisionsAll level (fs ++ gs) =
      structDecisionsAll level fs ++ structDecisionsAll level gs := by
  induction fs with
  | nil => rfl
  | cons f fs ih => rw [List.cons_append, structDecisionsAll, ih, structDecisionsAll, List.append_assoc]

theorem structDecisionsAll_scalars (level : ℤ) (fs : List ObjectField) :
    structDecisionsAll level (fs.map scalar) = [] := by
  induction fs with
  | nil => rfl
  | cons f fs ih => rw [List.map_cons, structDecisionsAll, ih, List.append_nil]; rfl

theorem nestingAll_le (n : ℕ) (fs : List SchemaField) (h : ∀ f ∈ fs, f.nesting ≤ n) :
    nestingAll fs ≤ n := by
  induction fs with
  | nil => exact Nat.zero_le n
  | cons f fs ih =>
    rw [nestingAll]
    exact Nat.max_le.mpr ⟨h f List.mem_cons_self, ih fun g hg => h g (List.mem_cons_of_mem _ hg)⟩

end SchemaField

theorem nesting_le (org : ParentDescribes) (depth : ℕ) (path : Finset Text) (desc : ObjectDescribe)
    (f : SchemaField) (h : StructMeets org depth path desc f) : f.nesting ≤ depth := by
  induction h with
  | mk depth path desc f parent pd nested children _ _ hchildren _ _ _ _ ih =>
    show SchemaField.nestingAll children + 1 ≤ depth + 1
    apply Nat.succ_le_succ
    apply SchemaField.nestingAll_le
    intro c hc
    rw [hchildren] at hc
    rcases List.mem_append.mp hc with hscalar | hin
    · obtain ⟨g, _, rfl⟩ := List.mem_map.mp hscalar
      exact Nat.zero_le depth
    · exact ih c hin

/-! ### The children of one STRUCT -/

theorem addParentFields_eq (fs : List ObjectField) (c : StructChildren) :
    fs.foldl addParentField c =
      ⟨c.types ++ ((fs.filter fun f => SchemaEntry.isQueryableField f.toDescribedField).map
        fun f => (f.name, .scalar f.duckdbType)),
       c.fields ++ (fs.filter fun f => SchemaEntry.isQueryableField f.toDescribedField).map .scalar⟩ := by
  induction fs generalizing c with
  | nil => simp
  | cons f fs ih =>
    rw [List.foldl_cons, ih, List.filter_cons, addParentField]
    split
    · simp only [StructChildren.add, List.map_cons, List.append_assoc, List.singleton_append]
      rfl
    · rfl

theorem addNested_all (ns : List SchemaField) (c : StructChildren)
    (h : ((c.fields ++ ns).map fun d => lower d.name).Nodup) :
    ns.foldl addNested c = ⟨c.types ++ ns.map fun n => (n.name, n.type), c.fields ++ ns⟩ := by
  induction ns generalizing c with
  | nil => simp
  | cons n ns ih =>
    have hfresh : (c.fields.any fun d => ciEquals d.name n.name) = false := by
      rw [List.map_append, List.map_cons, List.nodup_append] at h
      rw [List.any_eq_false]
      intro d hd hsame
      have heq : lower d.name = lower n.name := by simpa [ciEquals] using hsame
      exact h.2.2 _ (List.mem_map_of_mem hd) _ List.mem_cons_self heq
    rw [List.foldl_cons, addNested, if_neg (by rw [hfresh]; exact Bool.false_ne_true), ih]
    · simp [StructChildren.add]
    · rw [StructChildren.add, List.append_assoc]
      exact h

/-- The children of a STRUCT are those of both loops where no names are equal. -/
theorem structChildren_eq (pd : ObjectDescribe) (ns : List SchemaField)
    (h : ((queryableScalars pd ++ ns).map fun d => lower d.name).Nodup) :
    ns.foldl addNested (pd.fields.foldl addParentField ⟨[], []⟩) =
      ⟨(queryableScalars pd ++ ns).map fun c => (c.name, c.type), queryableScalars pd ++ ns⟩ := by
  rw [addParentFields_eq, addNested_all]
  · rw [List.nil_append, List.nil_append, List.map_append, queryableScalars, List.map_map]
    rfl
  · exact h

/-! ### Building -/

def RelDecision.isExpanded (d : RelDecision) : Bool :=
  match d.status with
  | .expanded _ => true
  | .skipped _ => false

def expandedOf (log : List RelDecision) : List RelDecision := log.filter RelDecision.isExpanded

theorem expandedOf_append (as bs : List RelDecision) :
    expandedOf (as ++ bs) = expandedOf as ++ expandedOf bs :=
  List.filter_append as bs

structure BuiltRight (org : ParentDescribes) (depth : ℕ) (desc : ObjectDescribe)
    (path : Finset Text) (level : ℤ) (b : BuildState) : Prop where
  visited : b.visited = path
  meets : ∀ r ∈ b.rels, StructMeets org depth path desc r
  all : depth ≠ 0 → AllExpanded org path desc b.rels
  names : (b.rels.map fun r => lower r.name).Nodup
  log : expandedOf b.log = SchemaField.structDecisionsAll level b.rels

theorem meets_apart (org : ParentDescribes) (depth : ℕ) (path : Finset Text) (desc : ObjectDescribe)
    (r : SchemaField) (h : StructMeets org depth path desc r) (g : ObjectField)
    (hg : g ∈ desc.fields) : lower g.name ≠ lower r.name := by
  cases h with
  | mk _ _ _ f _ _ _ _ _ hleads =>
    intro hsame
    have happart := hleads.apart g hg
    unfold ciEquals at happart
    rw [beq_eq_false_iff_ne] at happart
    exact happart hsame

theorem scalars_sublist (desc : ObjectDescribe) :
    ((queryableScalars desc).map fun d => lower d.name).Sublist
      (desc.fields.map fun f => lower f.name) := by
  rw [queryableScalars, List.map_map]
  exact List.filter_sublist.map _

theorem columns_distinct (org : ParentDescribes) (depth : ℕ) (path : Finset Text)
    (desc : ObjectDescribe) (rels : List SchemaField) (hdesc : NamesApart desc.fields)
    (hmeets : ∀ r ∈ rels, StructMeets org depth path desc r)
    (hnames : (rels.map fun r => lower r.name).Nodup) :
    ((queryableScalars desc ++ rels).map fun d => lower d.name).Nodup := by
  rw [List.map_append, List.nodup_append]
  refine ⟨hdesc.fields.sublist (scalars_sublist desc), hnames, ?_⟩
  intro a ha b hb
  obtain ⟨g, hg, rfl⟩ := List.mem_map.mp ((scalars_sublist desc).subset ha)
  obtain ⟨r, hr, rfl⟩ := List.mem_map.mp hb
  exact meets_apart org depth path desc r (hmeets r hr) g hg

inductive Contributes (org : ParentDescribes) (depth : ℕ) (desc : ObjectDescribe)
    (path : Finset Text) (level : ℤ) (f : ObjectField) (s s' : BuildState) : Prop
  | none (hvisited : s'.visited = path) (hrels : s'.rels = s.rels)
      (hlog : expandedOf s'.log = expandedOf s.log)
      (hnot : ∀ parent pd, LeadsTo org path desc f parent pd → queryableScalars pd = [])
  | struct (r : SchemaField) (hvisited : s'.visited = path) (hrels : s'.rels = s.rels ++ [r])
      (hmeets : StructMeets org (depth + 1) path desc r) (hname : r.name = f.relationshipName)
      (htarget : r.field.referenceTo = f.referenceTo) (hnamed : f.relationshipName ≠ [])
      (hlog : expandedOf s'.log = expandedOf s.log ++ r.structDecisions level)

theorem contributes_skip (org : ParentDescribes) (depth : ℕ) (desc : ObjectDescribe)
    (path : Finset Text) (level : ℤ) (f : ObjectField) (s : BuildState) (name parent : Text)
    (reason : SkipReason) (hs : s.visited = path)
    (hnot : ∀ parent pd, ¬ LeadsTo org path desc f parent pd) :
    Contributes org depth desc path level f s (s.record name parent level (.skipped reason)) := by
  refine .none hs rfl ?_ fun parent pd h => absurd h (hnot parent pd)
  show expandedOf (s.log ++ [_]) = _
  rw [expandedOf_append]
  exact List.append_nil _

theorem structDecisions_relationship (level : ℤ) (f : ObjectField) (parent : Text)
    (type : ColumnType) (children : List SchemaField) (h : f.referenceTo = [parent]) :
    (SchemaField.relationship f type children).structDecisions level =
      SchemaField.structDecisionsAll (level + 1) children ++
        [⟨f.relationshipName, parent, level, .expanded children.length⟩] := by
  rw [SchemaField.relationship, SchemaField.structDecisions, if_pos rfl, h]
  rfl

theorem leadsTo_unique {org : ParentDescribes} {path : Finset Text} {desc : ObjectDescribe}
    {f : ObjectField} {p q : Text} {pd qd : ObjectDescribe} (hp : LeadsTo org path desc f p pd)
    (hq : LeadsTo org path desc f q qd) : qd = pd := by
  have htarget := (List.cons.inj (hq.target.symm.trans hp.target)).1
  have hsame := hq.described
  rw [htarget, hp.described] at hsame
  exact (Option.some.inj hsame).symm

section Nested
variable {org : ParentDescribes} {depth : ℕ} {desc : ObjectDescribe} {path : Finset Text}
  {level : ℤ} {f : ObjectField} {parent : Text} {pd : ObjectDescribe} {nested : BuildState}
  (s : BuildState) (hleads : LeadsTo org path desc f parent pd)
  (hright : BuiltRight org depth pd (insert (lower parent) path) (level + 1) nested)
include hleads hright

theorem nested_empty (hempty : queryableScalars pd ++ nested.rels = []) :
    Contributes org depth desc path level f s
      (BuildState.record ⟨s.rels, path, s.log ++ nested.log⟩ f.relationshipName parent level
        (.skipped .noFields)) := by
  obtain ⟨hscalars, hrels⟩ := List.append_eq_nil_iff.mp hempty
  refine .none rfl rfl ?_ ?_
  · have hlog := hright.log
    rw [hrels] at hlog
    show expandedOf ((s.log ++ nested.log) ++ [_]) = _
    rw [expandedOf_append, expandedOf_append, hlog]
    simp [SchemaField.structDecisionsAll, expandedOf, RelDecision.isExpanded]
  · intro q qd h
    rw [leadsTo_unique hleads h]
    exact hscalars

theorem nested_struct (hf : f ∈ desc.fields)
    (hdistinct : ((queryableScalars pd ++ nested.rels).map fun d => lower d.name).Nodup)
    (hne : queryableScalars pd ++ nested.rels ≠ []) :
    Contributes org depth desc path level f s
      ⟨s.rels ++ [.relationship f (structType (queryableScalars pd ++ nested.rels))
          (queryableScalars pd ++ nested.rels)], path,
        (s.log ++ nested.log) ++ [⟨f.relationshipName, parent, level,
          .expanded (queryableScalars pd ++ nested.rels).length⟩]⟩ := by
  refine .struct (.relationship f (structType (queryableScalars pd ++ nested.rels))
    (queryableScalars pd ++ nested.rels)) rfl rfl ?_ rfl rfl hleads.named ?_
  · exact .mk depth path desc f parent pd nested.rels _ hf hleads rfl hne hdistinct hright.meets
      hright.all
  · have hscalars : SchemaField.structDecisionsAll (level + 1) (queryableScalars pd) = [] :=
      SchemaField.structDecisionsAll_scalars (level + 1) _
    rw [structDecisions_relationship level f parent _ _ hleads.target,
      SchemaField.structDecisionsAll_append, hscalars, List.nil_append, ← hright.log,
      expandedOf_append, expandedOf_append, List.append_assoc]
    rfl

end Nested

theorem buildReference_step (org : ParentDescribes) (depth : ℕ) (desc : ObjectDescribe)
    (path : Finset Text) (level : ℤ) (below : ObjectDescribe → Finset Text → BuildState)
    (hself : lower desc.objectName ∈ path)
    (hbelow : ∀ parent pd, getParentDescribe org parent = some pd →
      BuiltRight org depth pd (insert (lower parent) path) (level + 1)
        (below pd (insert (lower parent) path)))
    (hparents : ∀ parent pd, getParentDescribe org parent = some pd → NamesApart pd.fields)
    (f : ObjectField) (hf : f ∈ desc.fields) (s : BuildState) (hs : s.visited = path) :
    Contributes org depth desc path level f s (buildReference org desc level below s f) := by
  unfold buildReference
  split
  · rename_i hkind
    exact .none hs rfl rfl fun parent pd h => absurd h.reference hkind
  rename_i hkind
  have hreference : lower f.sfType = "reference".toList := not_not.mp hkind
  split
  · rename_i hunnamed
    exact contributes_skip org depth desc path level f s _ _ _ hs fun parent pd h => h.named hunnamed
  rename_i hnamed
  split
  case h_2 _ hmany =>
    exact contributes_skip org depth desc path level f s _ _ _ hs fun parent pd h =>
      hmany parent h.target
  case h_1 _ parent htarget =>
    have hparent : ∀ q pd, LeadsTo org path desc f q pd → q = parent := by
      intro q pd h
      have htwo := h.target.symm.trans htarget
      exact (List.cons.inj htwo).1
    simp only
    split
    · rename_i hsame
      refine contributes_skip org depth desc path level f s _ _ _ hs fun q pd h => ?_
      have hon : lower parent = lower desc.objectName := by simpa [ciEquals] using hsame
      apply h.off
      rw [hparent q pd h, hon]
      exact hself
    split
    · rename_i hseen
      refine contributes_skip org depth desc path level f s _ _ _ hs fun q pd h => ?_
      apply h.off
      rw [hparent q pd h, ← hs]
      exact hseen
    rename_i hoff
    rw [hs] at hoff
    split
    · rename_i hcollide
      refine contributes_skip org depth desc path level f s _ _ _ hs fun q pd h => ?_
      obtain ⟨g, hg, hname⟩ := List.any_eq_true.mp hcollide
      rw [h.apart g hg] at hname
      cases hname
    rename_i hclear
    split
    · rename_i hnone
      refine contributes_skip org depth desc path level f s _ _ _ hs fun q pd h => ?_
      have hsome := h.described
      rw [hparent q pd h, hnone] at hsome
      cases hsome
    rename_i pd hpd
    have hleads : LeadsTo org path desc f parent pd :=
      ⟨hreference, hnamed, htarget, hoff, fun g hg => by
        simpa using List.any_eq_false.mp (Bool.eq_false_iff.mpr hclear) g hg, hpd⟩
    have hright := hbelow parent pd hpd
    rw [hs]
    generalize hnested : below pd (insert (lower parent) path) = nested at hright ⊢
    have hdistinct := columns_distinct org depth _ pd nested.rels (hparents parent pd hpd)
      hright.meets hright.names
    rw [structChildren_eq pd nested.rels hdistinct]
    have hrestored : nested.visited.erase (lower parent) = path := by
      rw [hright.visited, Finset.erase_insert hoff]
    simp only [hrestored]
    split
    · rename_i hempty
      exact nested_empty s hleads hright hempty
    · rename_i hne
      exact nested_struct s hleads hright hf hdistinct hne

structure BuiltSoFar (org : ParentDescribes) (depth : ℕ) (desc : ObjectDescribe)
    (path : Finset Text) (level : ℤ) (done : List ObjectField) (s : BuildState) : Prop where
  visited : s.visited = path
  meets : ∀ r ∈ s.rels, StructMeets org (depth + 1) path desc r
  all : ∀ f ∈ done, ∀ parent pd, LeadsTo org path desc f parent pd → queryableScalars pd ≠ [] →
    ∃ r ∈ s.rels, r.name = f.relationshipName ∧ r.field.referenceTo = f.referenceTo
  names : (s.rels.map fun r => lower r.name).Sublist
    ((done.filter fun f => f.relationshipName != []).map fun f => lower f.relationshipName)
  log : expandedOf s.log = SchemaField.structDecisionsAll level s.rels

section Build
variable {org : ParentDescribes} {depth : ℕ} {desc : ObjectDescribe} {path : Finset Text} {level : ℤ}

theorem builtSoFar_step (done : List ObjectField) (f : ObjectField) (s s' : BuildState)
    (h : BuiltSoFar org depth desc path level done s)
    (hstep : Contributes org depth desc path level f s s') :
    BuiltSoFar org depth desc path level (done ++ [f]) s' := by
  have hkeep : ((done.filter fun f => f.relationshipName != []).map
      fun f => lower f.relationshipName).Sublist
      (((done ++ [f]).filter fun f => f.relationshipName != []).map
        fun f => lower f.relationshipName) := by
    rw [List.filter_append]
    exact (List.sublist_append_left _ _).map _
  cases hstep with
  | none hvisited hrels hlog hnot =>
    constructor
    · exact hvisited
    · rw [hrels]
      exact h.meets
    · intro g hg parent pd hleads hne
      rcases List.mem_append.mp hg with hdone | hlast
      · rw [hrels]
        exact h.all g hdone parent pd hleads hne
      · rw [List.mem_singleton.mp hlast] at hleads
        exact absurd (hnot parent pd hleads) hne
    · rw [hrels]
      exact h.names.trans hkeep
    · rw [hlog, hrels]
      exact h.log
  | struct r hvisited hrels hmeets hname htarget hnamed hlog =>
    constructor
    · exact hvisited
    · intro q hq
      rw [hrels] at hq
      rcases List.mem_append.mp hq with hold | hnew
      · exact h.meets q hold
      · rw [List.mem_singleton.mp hnew]
        exact hmeets
    · intro g hg parent pd hleads hne
      rw [hrels]
      rcases List.mem_append.mp hg with hdone | hlast
      · obtain ⟨q, hq, hboth⟩ := h.all g hdone parent pd hleads hne
        exact ⟨q, List.mem_append_left _ hq, hboth⟩
      · rw [List.mem_singleton.mp hlast]
        exact ⟨r, List.mem_append_right _ (List.mem_singleton_self r), hname, htarget⟩
    · have hone : [f].filter (fun f => f.relationshipName != []) = [f] :=
        List.filter_eq_self.mpr (by simpa using hnamed)
      rw [hrels, List.map_append, List.filter_append, List.map_append, hone]
      refine h.names.append ?_
      rw [List.map_singleton, List.map_singleton, hname]
    · rw [hlog, hrels, h.log, SchemaField.structDecisionsAll_append, SchemaField.structDecisionsAll,
        SchemaField.structDecisionsAll, List.append_nil]

theorem builtSoFar_run (step : BuildState → ObjectField → BuildState)
    (hstep : ∀ f ∈ desc.fields, ∀ s, s.visited = path →
      Contributes org depth desc path level f s (step s f))
    (fs done : List ObjectField) (hfs : ∀ f ∈ fs, f ∈ desc.fields) (s : BuildState)
    (h : BuiltSoFar org depth desc path level done s) :
    BuiltSoFar org depth desc path level (done ++ fs) (fs.foldl step s) := by
  induction fs generalizing done s with
  | nil =>
    rw [List.append_nil]
    exact h
  | cons f fs ih =>
    have hnext := builtSoFar_step done f s _ h (hstep f (hfs f List.mem_cons_self) s h.visited)
    have hrest := ih (done ++ [f]) (fun g hg => hfs g (List.mem_cons_of_mem _ hg)) _ hnext
    rwa [List.append_assoc, List.singleton_append] at hrest

def OrgApart (org : ParentDescribes) : Prop := ∀ object fs, org object = some fs → NamesApart fs

theorem parent_apart (horg : OrgApart org) (parent : Text) (pd : ObjectDescribe)
    (h : getParentDescribe org parent = some pd) : NamesApart pd.fields ∧ pd.objectName = parent := by
  obtain ⟨fs, hfs, rfl⟩ := Option.map_eq_some_iff.mp h
  exact ⟨horg _ fs hfs, rfl⟩

theorem build_right (horg : OrgApart org) (depth : ℕ) (desc : ObjectDescribe) (path : Finset Text)
    (level : ℤ) (hdesc : NamesApart desc.fields) (hself : lower desc.objectName ∈ path) :
    BuiltRight org depth desc path level (buildRelationshipFields org depth desc path level) := by
  induction depth generalizing desc path level with
  | zero => exact ⟨rfl, List.forall_mem_nil _, fun h => absurd rfl h, List.nodup_nil, rfl⟩
  | succ depth ih =>
    have hbelow : ∀ parent pd, getParentDescribe org parent = some pd →
        BuiltRight org depth pd (insert (lower parent) path) (level + 1)
          (buildRelationshipFields org depth pd (insert (lower parent) path) (level + 1)) := by
      intro parent pd hpd
      obtain ⟨hnames, hname⟩ := parent_apart horg parent pd hpd
      apply ih pd _ _ hnames
      rw [hname]
      exact Finset.mem_insert_self _ _
    have hstart : BuiltSoFar org depth desc path level [] ⟨[], path, []⟩ :=
      ⟨rfl, List.forall_mem_nil _, List.forall_mem_nil _, List.Sublist.refl _, rfl⟩
    have hstep := buildReference_step org depth desc path level
      (fun pd v => buildRelationshipFields org depth pd v (level + 1)) hself hbelow
      fun parent pd hpd => (parent_apart horg parent pd hpd).1
    have hend := builtSoFar_run _ hstep desc.fields [] (fun f hf => hf) _ hstart
    exact ⟨hend.visited, hend.meets, fun _ => hend.all, hdesc.relationships.sublist hend.names,
      hend.log⟩

end Build

/-! ### The expanded table -/

theorem tableFields_eq (org : ParentDescribes) (depth : ℕ) (path : Finset Text)
    (desc : ObjectDescribe) (rels : List SchemaField)
    (h : ∀ r ∈ rels, StructMeets org depth path desc r) :
    tableFields (desc.fields.map SchemaField.scalar ++ rels) = queryableScalars desc ++ rels := by
  have hrels : rels.filter (fun f => SchemaEntry.isQueryableField f.field.toDescribedField) = rels := by
    apply List.filter_eq_self.mpr
    intro r hr
    cases h r hr with
    | mk => rfl
  unfold tableFields queryableScalars
  rw [List.filter_append, hrels, List.filter_map]
  rfl

/-- The table has the described columns and the STRUCTs of its references, in well
formed types, and the decisions recorded as expanded are those of the STRUCTs. -/
structure ExpansionMeets (org : ParentDescribes) (describe : ObjectDescribe) (depth : ℤ)
    (fields : List SchemaField) (log : List RelDecision) : Prop where
  columns : ((tableFields fields).map fun f => lower f.name).Nodup
  structs : ∃ rels, tableFields fields = queryableScalars describe ++ rels ∧
    ∀ r ∈ rels, StructMeets org depth.toNat {lower describe.objectName} describe r
  nesting : ∀ f ∈ tableFields fields, (f.nesting : ℤ) ≤ max 0 depth
  all : 1 ≤ depth → AllExpanded org {lower describe.objectName} describe (tableFields fields)
  decisions : expandedOf log = SchemaField.structDecisionsAll 1 (tableFields fields)

theorem parent_expansion (org : ParentDescribes) (describe : ObjectDescribe) (depth : ℤ)
    (horg : OrgApart org) (hdescribe : NamesApart describe.fields) :
    ExpansionMeets org describe depth (expandParentRelationships org describe depth).1
      (expandParentRelationships org describe depth).2 := by
  have hright := build_right horg depth.toNat describe {lower describe.objectName} 1 hdescribe
    (Finset.mem_singleton_self _)
  unfold expandParentRelationships
  generalize buildRelationshipFields org depth.toNat describe {lower describe.objectName} 1 = built
    at hright ⊢
  have htable := tableFields_eq org _ _ describe built.rels hright.meets
  constructor
  · rw [htable]
    exact columns_distinct org _ _ describe built.rels hdescribe hright.meets hright.names
  · exact ⟨built.rels, htable, hright.meets⟩
  · intro f hf
    rw [htable] at hf
    rcases List.mem_append.mp hf with hscalar | hrel
    · obtain ⟨g, _, rfl⟩ := List.mem_map.mp hscalar
      exact le_max_left 0 depth
    · have hle := nesting_le org _ _ describe f (hright.meets f hrel)
      omega
  · intro hdepth f hf parent pd hleads hne
    obtain ⟨r, hr, hboth⟩ := hright.all (by omega) f hf parent pd hleads hne
    refine ⟨r, ?_, hboth⟩
    rw [htable]
    exact List.mem_append_right _ hr
  · rw [htable, SchemaField.structDecisionsAll_append, queryableScalars,
      SchemaField.structDecisionsAll_scalars]
    exact hright.log

/-! ### Contacts and their account -/

def idField : ObjectField :=
  { name := "Id".toList, sfType := "id".toList, duckdbType := .varchar, filterable := true,
    sortable := true, relationshipName := [], isRelationship := false, children := [],
    unknownType := false, nillable := false, referenceTo := [] }

def accountReference (relationshipName : String) : ObjectField :=
  { idField with
    name := "AccountId".toList, sfType := "reference".toList, nillable := true,
    relationshipName := relationshipName.toList, referenceTo := ["Account".toList] }

def contactDescribe (relationshipName : String) : ObjectDescribe :=
  ⟨"Contact".toList, [idField, accountReference relationshipName], []⟩

def accountOrg : ParentDescribes := fun o => if o = "account".toList then some [idField] else none

theorem accountOrg_apart : OrgApart accountOrg := by
  intro object fs h
  unfold accountOrg at h
  split at h
  · rw [← Option.some.inj h]
    exact ⟨by decide, by decide⟩
  · cases h

def referenceField (name relationshipName target : String) : ObjectField :=
  { accountReference relationshipName with name := name.toList, referenceTo := [target.toList] }

/-- An account leads to its owner and back to a contact. -/
def ownedOrg : ParentDescribes := fun o =>
  if o = "account".toList then
    some [idField, referenceField "OwnerId" "Owner" "User",
      referenceField "MainContactId" "MainContact" "contact"]
  else if o = "user".toList then some [idField, referenceField "ManagerId" "Manager" "User"]
  else none

theorem ownedOrg_apart : OrgApart ownedOrg := by
  intro object fs h
  unfold ownedOrg at h
  split at h
  · rw [← Option.some.inj h]
    exact ⟨by decide, by decide⟩
  · split at h
    · rw [← Option.some.inj h]
      exact ⟨by decide, by decide⟩
    · cases h

/-- Two levels, and a cycle at the second. -/
theorem contact_expansion :
    ExpansionMeets ownedOrg (contactDescribe "Account") 2
      (expandParentRelationships ownedOrg (contactDescribe "Account") 2).1
      (expandParentRelationships ownedOrg (contactDescribe "Account") 2).2 ∧
    (expandParentRelationships ownedOrg (contactDescribe "Account") 2).2 =
      [⟨"Owner".toList, "User".toList, 2, .expanded 2⟩,
        ⟨"MainContact".toList, "contact".toList, 2, .skipped .cycle⟩,
        ⟨"Account".toList, "Account".toList, 1, .expanded 4⟩] :=
  ⟨parent_expansion ownedOrg (contactDescribe "Account") 2 ownedOrg_apart ⟨by decide, by decide⟩,
    by decide +kernel⟩

/-- A reference without a relationship name has no STRUCT. -/
theorem unnamed_reference_skipped :
    ¬ ∀ (org : ParentDescribes) (describe : ObjectDescribe) (depth : ℤ), OrgApart org →
      NamesApart describe.fields → 1 ≤ depth → ∀ f ∈ describe.fields, ∀ parent pd,
      lower f.sfType = "reference".toList → f.referenceTo = [parent] →
      lower parent ≠ lower describe.objectName →
      (∀ g ∈ describe.fields, ciEquals g.name f.relationshipName = false) →
      getParentDescribe org parent = some pd → queryableScalars pd ≠ [] →
      ∃ r ∈ tableFields (expandParentRelationships org describe depth).1,
        r.isRelationship = true ∧ r.field.referenceTo = f.referenceTo := by
  intro h
  obtain ⟨r, hr, hrel, _⟩ := h accountOrg (contactDescribe "") 1 accountOrg_apart
    ⟨by decide, by decide⟩ (by decide) (accountReference "")
    (List.mem_cons_of_mem _ List.mem_cons_self) "Account".toList
    ⟨"Account".toList, [idField], []⟩ (by decide) rfl (by decide) (by decide) rfl (List.cons_ne_nil _ _)
  have hscalars : r ∈ [SchemaField.scalar idField, SchemaField.scalar (accountReference "")] := hr
  simp only [List.mem_cons, List.not_mem_nil, or_false] at hscalars
  rcases hscalars with rfl | rfl <;> cases hrel

end DuckdbSalesforce
