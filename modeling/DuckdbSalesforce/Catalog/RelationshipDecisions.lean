import DuckdbSalesforce.Catalog.MetadataTables
import DuckdbSalesforce.Catalog.ParentExpansion
import DuckdbSalesforce.Library.Runs

/-!
# What `salesforce_relationships` reports (`salesforce_reldiag.cpp`, `salesforce_storage.cpp`)

The table of the last resolution: a row for the settings, and one for every
reference that the expansion came upon, at every level, with the reason if it has
no STRUCT. A lookup resolves when nothing is kept of the table, the Tooling
batch does not serve it and its describe is answered.
-/

namespace DuckdbSalesforce
open TableChunks Runs

/-! ### The snapshot -/

structure RelSnapshot where
  object : Text
  mode : Text
  depth : ℤ
  decisions : List RelDecision

def RelSnapshot.initial : RelSnapshot := ⟨[], "off".toList, 1, []⟩

def relDiagBegin (object mode : Text) (depth : ℤ) : RelSnapshot := ⟨object, mode, depth, []⟩

def relDiagRecord (s : RelSnapshot) (d : RelDecision) : RelSnapshot :=
  { s with decisions := s.decisions ++ [d] }

/-- A described object under the settings of the moment; the fields of its
parents are what the session answers. -/
structure Resolution where
  org : ParentDescribes
  describe : ObjectDescribe
  relationships : Option Text
  relationshipDepth : Option ℤ

def Resolution.mode (r : Resolution) : Text := lower (r.relationships.getD "off".toList)

/-- Clamped to one or two levels. -/
def Resolution.depth (r : Resolution) : ℤ :=
  match r.relationshipDepth with
  | none => 1
  | some d => if d < 1 then 1 else if d > 2 then 2 else d

def Resolution.expands (r : Resolution) : Bool := r.mode == "parent".toList

def Resolution.log (r : Resolution) : List RelDecision :=
  if r.expands then (expandParentRelationships r.org r.describe r.depth).2 else []

/-- What the lookup of a table leaves behind. -/
def resolve (_ : RelSnapshot) (r : Resolution) : RelSnapshot :=
  r.log.foldl relDiagRecord (relDiagBegin r.describe.objectName r.mode r.depth)

theorem resolve_eq (s : RelSnapshot) (r : Resolution) :
    resolve s r = ⟨r.describe.objectName, r.mode, r.depth, r.log⟩ := by
  have hrecord : ∀ (log : List RelDecision) (t : RelSnapshot),
      log.foldl relDiagRecord t = { t with decisions := t.decisions ++ log } := by
    intro log
    induction log with
    | nil =>
      intro t
      rw [List.foldl_nil, List.append_nil]
    | cons d log ih =>
      intro t
      rw [List.foldl_cons, ih, relDiagRecord, List.append_assoc]
      rfl
  unfold resolve
  rw [hrecord]
  rfl

/-! ### The table -/

def SkipReason.text : SkipReason → Text
  | .noRelationshipName => "no_relationship_name".toList
  | .polymorphic => "polymorphic".toList
  | .selfReference => "self_reference".toList
  | .cycle => "cycle".toList
  | .nameCollision => "name_collision".toList
  | .parentNotDescribable => "parent_not_describable".toList
  | .noFields => "no_fields".toList

def RelDecisionStatus.text : RelDecisionStatus → Text
  | .expanded _ => "expanded".toList
  | .skipped _ => "skipped".toList

def RelDecisionStatus.reason : RelDecisionStatus → Option Text
  | .expanded _ => none
  | .skipped reason => some reason.text

def RelDecisionStatus.fieldCount : RelDecisionStatus → Option ℕ
  | .expanded count => some count
  | .skipped _ => none

def overfetchNote : Text :=
  "parent fetched as a full STRUCT (all queryable parent fields); nested ".toList ++
    ("projection is not pushed into SOQL — selecting one subfield still fetches ".toList ++
      "the whole parent".toList)

def RelDecisionStatus.note : RelDecisionStatus → Option Text
  | .expanded _ => some overfetchNote
  | .skipped _ => none

inductive RelTableRow where
  | config (snap : RelSnapshot) (expanded skipped : ℕ)
  | relationship (object : Text) (decision : RelDecision)

def buildConfigNote (s : RelSnapshot) (expanded skipped : ℕ) : Text :=
  if s.mode ≠ "parent".toList then
    "relationship expansion disabled (SET sf_relationships='parent' to enable)".toList
  else if expanded = 0 ∧ skipped = 0 then
    "relationship expansion on, but this object has no usable parent references".toList
  else
    "expanded ".toList ++ natText expanded ++ ", skipped ".toList ++ natText skipped ++
      " parent relationship(s) up to depth ".toList ++ intText s.depth

section Cells

/-- A cell of the config row. -/
def ofConfig (cell : RelSnapshot → ℕ → ℕ → Option Value) : Column RelTableRow Value :=
  .flat fun
    | .config s expanded skipped => cell s expanded skipped
    | .relationship _ _ => none

/-- A cell of a relationship row. -/
def ofDecision (cell : RelDecision → Option Value) : Column RelTableRow Value :=
  .flat fun
    | .config _ _ _ => none
    | .relationship _ d => cell d

def relationshipsColumns : List (Column RelTableRow Value) :=
  [.flat fun
      | .config _ _ _ => varcharCell "config".toList
      | .relationship _ _ => varcharCell "relationship".toList,
    .flat fun
      | .config s _ _ => varcharCell s.object
      | .relationship object _ => varcharCell object,
    ofConfig fun s _ _ => varcharCell s.mode, ofConfig fun s _ _ => bigintValue s.depth,
    ofDecision fun d => varcharCell d.relationshipName, ofDecision fun d => emptyAsNull d.parentObject,
    ofDecision fun d => bigintValue d.depthLevel, ofDecision fun d => varcharCell d.status.text,
    ofDecision fun d => varcharOrNull d.status.reason,
    ofDecision fun d => d.status.fieldCount.bind fun count => bigintValue count,
    ofConfig fun _ expanded _ => bigintValue expanded, ofConfig fun _ _ skipped => bigintValue skipped,
    .flat fun
      | .config s expanded skipped => varcharCell (buildConfigNote s expanded skipped)
      | .relationship _ d => varcharOrNull d.status.note]

end Cells

def relationshipsRows (s : RelSnapshot) : List RelTableRow :=
  .config s (s.decisions.filter RelDecision.isExpanded).length
      (s.decisions.filter fun d => !d.isExpanded).length ::
    s.decisions.map (.relationship s.object)

/-! ### What a decision says -/

section Decides
variable (org : ParentDescribes)

/-- Why a reference has no STRUCT, its parent not having been looked into. -/
inductive SkippedFor (path : Finset Text) (desc : ObjectDescribe) (f : ObjectField) :
    Text → Text → SkipReason → Prop
  | noRelationshipName (unnamed : f.relationshipName = []) :
    SkippedFor path desc f f.name [] .noRelationshipName
  | polymorphic (named : f.relationshipName ≠ []) (many : f.referenceTo.length ≠ 1) :
    SkippedFor path desc f f.relationshipName [] .polymorphic
  | selfReference (parent : Text) (named : f.relationshipName ≠ []) (one : f.referenceTo = [parent])
      (same : lower parent = lower desc.objectName) :
    SkippedFor path desc f f.relationshipName parent .selfReference
  | cycle (parent : Text) (named : f.relationshipName ≠ []) (one : f.referenceTo = [parent])
      (above : lower parent ∈ path) : SkippedFor path desc f f.relationshipName parent .cycle
  | nameCollision (parent : Text) (named : f.relationshipName ≠ []) (one : f.referenceTo = [parent])
      (taken : ∃ g ∈ desc.fields, lower g.name = lower f.relationshipName) :
    SkippedFor path desc f f.relationshipName parent .nameCollision
  | parentNotDescribable (parent : Text) (named : f.relationshipName ≠ [])
      (one : f.referenceTo = [parent]) (unknown : getParentDescribe org parent = none) :
    SkippedFor path desc f f.relationshipName parent .parentNotDescribable

/-- A STRUCT needs a field of the parent or a STRUCT of its own. -/
inductive LookedInto (pd : ObjectDescribe) (inner : List RelDecision) : RelDecisionStatus → Prop
  | expanded (count : ℕ) (some : queryableScalars pd ≠ [] ∨ expandedOf inner ≠ []) (pos : 0 < count) :
    LookedInto pd inner (.expanded count)
  | noFields (scalars : queryableScalars pd = []) (structs : expandedOf inner = []) :
    LookedInto pd inner (.skipped .noFields)

/-- The decisions about these fields of `desc`, `path` being the objects above:
one for each reference, behind those about the references of its parent. -/
inductive Decides : ℕ → Finset Text → ObjectDescribe → ℤ → List ObjectField → List RelDecision → Prop
  | beyond (path : Finset Text) (desc : ObjectDescribe) (level : ℤ) (fs : List ObjectField) :
    Decides 0 path desc level fs []
  | nil (depth : ℕ) (path : Finset Text) (desc : ObjectDescribe) (level : ℤ) :
    Decides depth path desc level [] []
  | other (depth : ℕ) (path : Finset Text) (desc : ObjectDescribe) (level : ℤ) (fs : List ObjectField)
      (f : ObjectField) (log : List RelDecision) (kind : lower f.sfType ≠ "reference".toList)
      (before : Decides (depth + 1) path desc level fs log) :
    Decides (depth + 1) path desc level (fs ++ [f]) log
  | skipped (depth : ℕ) (path : Finset Text) (desc : ObjectDescribe) (level : ℤ)
      (fs : List ObjectField) (f : ObjectField) (log : List RelDecision) (name parent : Text)
      (reason : SkipReason) (kind : lower f.sfType = "reference".toList)
      (why : SkippedFor org path desc f name parent reason)
      (before : Decides (depth + 1) path desc level fs log) :
    Decides (depth + 1) path desc level (fs ++ [f]) (log ++ [⟨name, parent, level, .skipped reason⟩])
  | entered (depth : ℕ) (path : Finset Text) (desc : ObjectDescribe) (level : ℤ)
      (fs : List ObjectField) (f : ObjectField) (log inner : List RelDecision) (parent : Text)
      (pd : ObjectDescribe) (status : RelDecisionStatus) (leads : LeadsTo org path desc f parent pd)
      (below : Decides depth (insert (lower parent) path) pd (level + 1) pd.fields inner)
      (decided : LookedInto pd inner status)
      (before : Decides (depth + 1) path desc level fs log) :
    Decides (depth + 1) path desc level (fs ++ [f])
      (log ++ inner ++ [⟨f.relationshipName, parent, level, status⟩])

end Decides

/-! ### The expansion decides -/

theorem addNested_empty (ns : List SchemaField) (c : StructChildren) :
    (ns.foldl addNested c).fields = [] ↔ c.fields = [] ∧ ns = [] := by
  induction ns generalizing c with
  | nil => simp
  | cons n ns ih =>
    rw [List.foldl_cons, ih]
    refine ⟨?_, fun h => absurd h.2 (List.cons_ne_nil n ns)⟩
    intro h
    have hadded := h.1
    unfold addNested at hadded
    split at hadded
    · rename_i hany
      rw [hadded] at hany
      cases hany
    · exact absurd hadded (List.append_ne_nil_of_right_ne_nil _ (List.cons_ne_nil n []))

theorem scalars_of_parent (pd : ObjectDescribe) :
    (pd.fields.foldl addParentField ⟨[], []⟩).fields = queryableScalars pd := by
  rw [addParentFields_eq]
  rfl

theorem expandedOf_skip (log : List RelDecision) (name parent : Text) (level : ℤ)
    (reason : SkipReason) :
    expandedOf (log ++ [⟨name, parent, level, .skipped reason⟩]) = expandedOf log := by
  rw [expandedOf_append]
  exact List.append_nil _

theorem expandedOf_expanded (log : List RelDecision) (name parent : Text) (level : ℤ) (count : ℕ) :
    expandedOf (log ++ [⟨name, parent, level, .expanded count⟩]) ≠ [] := by
  rw [expandedOf_append]
  exact List.append_ne_nil_of_right_ne_nil _ (List.cons_ne_nil _ [])

/-- What a walk over the fields leaves; the path is as it was. -/
structure Decided (org : ParentDescribes) (depth : ℕ) (path : Finset Text) (desc : ObjectDescribe)
    (level : ℤ) (fs : List ObjectField) (b : BuildState) : Prop where
  visited : b.visited = path
  decides : Decides org depth path desc level fs b.log
  structs : b.rels = [] ↔ expandedOf b.log = []

section Step
variable {org : ParentDescribes} {depth : ℕ} {path : Finset Text} {desc : ObjectDescribe} {level : ℤ}
  {done : List ObjectField} {s : BuildState}

theorem decided_skip (h : Decided org (depth + 1) path desc level done s) (f : ObjectField)
    (name parent : Text) (reason : SkipReason) (hkind : lower f.sfType = "reference".toList)
    (hwhy : SkippedFor org path desc f name parent reason) :
    Decided org (depth + 1) path desc level (done ++ [f])
      (s.record name parent level (.skipped reason)) := by
  refine ⟨h.visited, .skipped _ _ _ _ _ _ _ _ _ _ hkind hwhy h.decides, ?_⟩
  show s.rels = [] ↔ expandedOf (s.log ++ [_]) = []
  rw [expandedOf_skip]
  exact h.structs

/-- A parent that was looked into, with the walk over its references. -/
theorem decided_entered (h : Decided org (depth + 1) path desc level done s) (f : ObjectField)
    (parent : Text) (pd : ObjectDescribe) (hleads : LeadsTo org path desc f parent pd)
    (nested : BuildState)
    (hnested : Decided org depth (insert (lower parent) path) pd (level + 1) pd.fields nested)
    (children : StructChildren)
    (hchildren : children = nested.rels.foldl addNested (pd.fields.foldl addParentField ⟨[], []⟩)) :
    Decided org (depth + 1) path desc level (done ++ [f])
      (if children.fields = [] then
        BuildState.record ⟨s.rels, nested.visited.erase (lower parent), s.log ++ nested.log⟩
          f.relationshipName parent level (.skipped .noFields)
      else
        ⟨s.rels ++ [.relationship f (.struct children.types) children.fields],
          nested.visited.erase (lower parent), s.log ++ nested.log ++
            [⟨f.relationshipName, parent, level, .expanded children.fields.length⟩]⟩) := by
  have hrestored : nested.visited.erase (lower parent) = path := by
    rw [hnested.visited, Finset.erase_insert hleads.off]
  have hempty := addNested_empty nested.rels (pd.fields.foldl addParentField ⟨[], []⟩)
  rw [← hchildren, scalars_of_parent, hnested.structs] at hempty
  rw [hrestored]
  by_cases hnone : children.fields = []
  · rw [if_pos hnone]
    obtain ⟨hscalars, hstructs⟩ := hempty.mp hnone
    refine ⟨rfl, .entered _ _ _ _ _ _ _ _ _ _ _ hleads hnested.decides (.noFields hscalars hstructs)
      h.decides, ?_⟩
    show s.rels = [] ↔ expandedOf (s.log ++ nested.log ++ [_]) = []
    rw [expandedOf_skip, expandedOf_append, hstructs, List.append_nil]
    exact h.structs
  · rw [if_neg hnone]
    have hsome : queryableScalars pd ≠ [] ∨ expandedOf nested.log ≠ [] := by
      by_contra hboth
      rw [not_or, not_not, not_not] at hboth
      exact hnone (hempty.mpr hboth)
    refine ⟨rfl, .entered _ _ _ _ _ _ _ _ _ _ _ hleads hnested.decides
      (.expanded _ hsome (List.length_pos_of_ne_nil hnone)) h.decides, ?_⟩
    refine ⟨fun hrels => ?_, fun hlog => absurd hlog (expandedOf_expanded _ _ _ _ _)⟩
    exact absurd hrels (List.append_ne_nil_of_right_ne_nil _ (List.cons_ne_nil _ []))

theorem decided_step (below : ObjectDescribe → Finset Text → BuildState)
    (hbelow : ∀ pd v, Decided org depth v pd (level + 1) pd.fields (below pd v)) (f : ObjectField)
    (h : Decided org (depth + 1) path desc level done s) :
    Decided org (depth + 1) path desc level (done ++ [f])
      (buildReference org desc level below s f) := by
  unfold buildReference
  split
  · rename_i hkind
    exact ⟨h.visited, .other _ _ _ _ _ _ _ hkind h.decides, h.structs⟩
  rename_i hkind
  have hreference : lower f.sfType = "reference".toList := not_not.mp hkind
  split
  · rename_i hunnamed
    exact decided_skip h f _ _ _ hreference (.noRelationshipName hunnamed)
  rename_i hnamed
  split
  case h_2 _ hmany =>
    refine decided_skip h f _ _ _ hreference (.polymorphic hnamed ?_)
    intro hone
    obtain ⟨parent, hparent⟩ := List.length_eq_one_iff.mp hone
    exact hmany parent hparent
  case h_1 _ parent htarget =>
    simp only
    split
    · rename_i hsame
      exact decided_skip h f _ _ _ hreference
        (.selfReference parent hnamed htarget (by simpa [ciEquals] using hsame))
    split
    · rename_i hseen
      rw [h.visited] at hseen
      exact decided_skip h f _ _ _ hreference (.cycle parent hnamed htarget hseen)
    rename_i hoff
    rw [h.visited] at hoff
    split
    · rename_i hcollide
      obtain ⟨g, hg, hname⟩ := List.any_eq_true.mp hcollide
      exact decided_skip h f _ _ _ hreference
        (.nameCollision parent hnamed htarget ⟨g, hg, by simpa [ciEquals] using hname⟩)
    rename_i hclear
    split
    · rename_i hnone
      exact decided_skip h f _ _ _ hreference (.parentNotDescribable parent hnamed htarget hnone)
    rename_i pd hpd
    have hleads : LeadsTo org path desc f parent pd :=
      ⟨hreference, hnamed, htarget, hoff, fun g hg => by
        simpa using List.any_eq_false.mp (Bool.eq_false_iff.mpr hclear) g hg, hpd⟩
    have hnested := hbelow pd (insert (lower parent) s.visited)
    rw [h.visited] at hnested ⊢
    exact decided_entered h f parent pd hleads _ hnested _ rfl

theorem decided_run (below : ObjectDescribe → Finset Text → BuildState)
    (hbelow : ∀ pd v, Decided org depth v pd (level + 1) pd.fields (below pd v))
    (fs : List ObjectField) (h : Decided org (depth + 1) path desc level done s) :
    Decided org (depth + 1) path desc level (done ++ fs)
      (fs.foldl (buildReference org desc level below) s) := by
  induction fs generalizing done s with
  | nil =>
    rw [List.append_nil]
    exact h
  | cons f fs ih =>
    have hrest := ih (decided_step below hbelow f h)
    rwa [List.append_assoc, List.singleton_append] at hrest

end Step

theorem build_decided (org : ParentDescribes) (depth : ℕ) (desc : ObjectDescribe)
    (path : Finset Text) (level : ℤ) :
    Decided org depth path desc level desc.fields
      (buildRelationshipFields org depth desc path level) := by
  induction depth generalizing desc path level with
  | zero => exact ⟨rfl, .beyond _ _ _ _, fun _ => rfl, fun _ => rfl⟩
  | succ depth ih =>
    have hstart : Decided org (depth + 1) path desc level [] ⟨[], path, []⟩ :=
      ⟨rfl, .nil _ _ _ _, fun _ => rfl, fun _ => rfl⟩
    exact decided_run _ (fun pd v => ih pd v (level + 1)) desc.fields hstart

/-! ### Rows and levels -/

def isReference (f : ObjectField) : Bool := lower f.sfType == "reference".toList

section Levels
variable {org : ParentDescribes} {depth : ℕ} {path : Finset Text} {desc : ObjectDescribe} {level : ℤ}
  {fs : List ObjectField} {log : List RelDecision}

theorem decides_levels (h : Decides org depth path desc level fs log) :
    ∀ d ∈ log, level ≤ d.depthLevel ∧ d.depthLevel < level + depth := by
  induction h with
  | beyond => exact List.forall_mem_nil _
  | nil => exact List.forall_mem_nil _
  | other _ _ _ _ _ _ _ _ _ ih => exact ih
  | skipped depth _ _ level _ _ _ _ _ _ _ _ _ ih =>
    intro d hd
    obtain hd | hd := List.mem_append.mp hd
    · exact ih d hd
    · rw [List.mem_singleton.mp hd]
      refine ⟨le_rfl, ?_⟩
      show level < level + ((depth + 1 : ℕ) : ℤ)
      omega
  | entered depth _ _ level _ _ _ _ _ _ _ _ _ _ _ ihbelow ihbefore =>
    intro d hd
    obtain hd | hd := List.mem_append.mp hd
    · obtain hd | hd := List.mem_append.mp hd
      · exact ihbefore d hd
      · have hinner := ihbelow d hd
        omega
    · rw [List.mem_singleton.mp hd]
      refine ⟨le_rfl, ?_⟩
      show level < level + ((depth + 1 : ℕ) : ℤ)
      omega

/-- Every reference has one row of its level. -/
theorem decides_every (h : Decides org depth path desc level fs log) (hdepth : depth ≠ 0) :
    (log.filter fun d => d.depthLevel == level).length = (fs.filter isReference).length := by
  induction h with
  | beyond => exact absurd rfl hdepth
  | nil => rfl
  | other _ _ _ _ _ f _ hkind _ ih =>
    have hno : isReference f = false := by
      unfold isReference
      exact beq_eq_false_iff_ne.mpr hkind
    rw [List.filter_append, List.length_append, ih (Nat.succ_ne_zero _), List.filter_singleton, hno]
    rfl
  | skipped _ _ _ level _ f _ _ _ _ hkind _ _ ih =>
    have hyes : isReference f = true := by
      unfold isReference
      exact beq_iff_eq.mpr hkind
    rw [List.filter_append, List.length_append, ih (Nat.succ_ne_zero _), List.filter_append,
      List.length_append, List.filter_singleton, List.filter_singleton, hyes]
    simp
  | entered depth _ _ level _ f _ inner _ _ _ hleads hbelow _ _ _ ih =>
    have hyes : isReference f = true := by
      unfold isReference
      exact beq_iff_eq.mpr hleads.reference
    have hinner : (inner.filter fun d => d.depthLevel == level) = [] := by
      apply List.filter_eq_nil_iff.mpr
      intro d hd hlevel
      have hdeeper := decides_levels hbelow d hd
      have hsame := beq_iff_eq.mp hlevel
      omega
    rw [List.filter_append, List.filter_append, hinner, List.append_nil, List.length_append,
      ih (Nat.succ_ne_zero _), List.filter_append, List.length_append, List.filter_singleton,
      List.filter_singleton, hyes]
    simp

end Levels

/-! ### The table of a run -/

theorem depth_clamped (r : Resolution) : 1 ≤ r.depth ∧ r.depth ≤ 2 := by
  unfold Resolution.depth
  split
  · omega
  · split
    · omega
    · split <;> omega

/-- What the snapshot says of the last table that was looked up. -/
structure Reports (r : Resolution) (s : RelSnapshot) : Prop where
  settings : s.object = r.describe.objectName ∧ s.mode = r.mode ∧ s.depth = r.depth
  off : r.expands = false → s.decisions = []
  decides : r.expands = true →
    Decides r.org r.depth.toNat {lower r.describe.objectName} r.describe 1 r.describe.fields s.decisions
  levels : ∀ d ∈ s.decisions, 1 ≤ d.depthLevel ∧ d.depthLevel ≤ r.depth
  every : r.expands = true → (s.decisions.filter fun d => d.depthLevel == 1).length =
    (r.describe.fields.filter isReference).length
  structs : r.expands = true → OrgApart r.org → NamesApart r.describe.fields →
    expandedOf s.decisions = SchemaField.structDecisionsAll 1
      (tableFields (expandParentRelationships r.org r.describe r.depth).1)

theorem expanded_structs (r : Resolution) (horg : OrgApart r.org)
    (hdescribe : NamesApart r.describe.fields) :
    expandedOf (expandParentRelationships r.org r.describe r.depth).2 =
      SchemaField.structDecisionsAll 1
        (tableFields (expandParentRelationships r.org r.describe r.depth).1) := by
  have hright := build_right horg r.depth.toNat r.describe {lower r.describe.objectName} 1 hdescribe
    (Finset.mem_singleton_self _)
  unfold expandParentRelationships
  dsimp only
  rw [hright.log, tableFields_eq _ _ _ _ _ hright.meets, SchemaField.structDecisionsAll_append,
    queryableScalars, SchemaField.structDecisionsAll_scalars, List.nil_append]

theorem resolve_reports (s : RelSnapshot) (r : Resolution) : Reports r (resolve s r) := by
  have hdepth := depth_clamped r
  rw [resolve_eq]
  cases hmode : r.expands with
  | false =>
    have hlog : r.log = [] := by
      unfold Resolution.log
      rw [hmode]
      rfl
    rw [hlog]
    have hoff : r.expands ≠ true := Bool.eq_false_iff.mp hmode
    exact ⟨⟨rfl, rfl, rfl⟩, fun _ => rfl, fun h => absurd h hoff, List.forall_mem_nil _,
      fun h => absurd h hoff, fun h => absurd h hoff⟩
  | true =>
    have hlog : r.log = (expandParentRelationships r.org r.describe r.depth).2 := by
      unfold Resolution.log
      rw [hmode]
      rfl
    have hdecides := (build_decided r.org r.depth.toNat r.describe {lower r.describe.objectName} 1).decides
    rw [hlog]
    refine ⟨⟨rfl, rfl, rfl⟩, fun h => absurd hmode (Bool.eq_false_iff.mp h), fun _ => hdecides, ?_, ?_,
      fun _ => expanded_structs r⟩
    · intro d hd
      have hlevels := decides_levels hdecides d hd
      omega
    · intro _
      exact decides_every hdecides (by omega)

/-! ### Lookups -/

/-- A lookup of a table: what its session is answered, and the describe with the
references that the schema entry does not keep. -/
structure TableLookup where
  object : Text
  context : MetadataContext
  org : ParentDescribes
  described : Except Text ObjectDescribe
  same : context.describe object = described.map ObjectDescribe.toDescribe

def TableLookup.resolution (l : TableLookup) (d : ObjectDescribe) : Resolution :=
  ⟨l.org, d, l.context.relationships, l.context.relationshipDepth⟩

/-- The snapshot, with the resolutions that wrote it, newest first. -/
structure RelDiag where
  snapshot : RelSnapshot
  resolutions : List Resolution

def RelDiag.start : RelDiag := ⟨.initial, []⟩

def RelDiag.resolve (w : RelDiag) (r : Resolution) : RelDiag :=
  ⟨DuckdbSalesforce.resolve w.snapshot r, r :: w.resolutions⟩

section
variable {Body : Type}

/-- `LookupEntry`, with `RelDiagBegin` behind the describe. -/
def lookupRecorded (l : TableLookup) (s : SchemaEntry Body) (w : RelDiag) :
    Except Text (Option SalesforceTableEntry) × SchemaEntry Body × RelDiag :=
  match s.tables.lookup (lower l.object) with
  | some entry => (.ok (some entry), s, w)
  | none =>
    match SchemaEntry.warmTooling l.context l.object s with
    | (.error e, warmed) => (.error e, warmed, w)
    | (.ok (some entry), warmed) => (.ok (some entry), warmed, w)
    | (.ok none, warmed) =>
      let found := SchemaEntry.describeObject l.context l.object warmed
      match l.described with
      | .error _ => (found.1, found.2, w)
      | .ok d => (found.1, found.2, w.resolve (l.resolution d))

theorem lookupRecorded_entry (l : TableLookup) (s : SchemaEntry Body) (w : RelDiag) :
    ((lookupRecorded l s w).1, (lookupRecorded l s w).2.1) =
      SchemaEntry.lookupEntry .tableEntry (some l.context) l.object s := by
  unfold lookupRecorded SchemaEntry.lookupEntry
  dsimp only
  cases s.tables.lookup (lower l.object) with
  | some entry => rfl
  | none =>
    dsimp only
    generalize SchemaEntry.warmTooling l.context l.object s = warmed
    obtain ⟨answer, warmed⟩ := warmed
    cases answer with
    | error e => rfl
    | ok served =>
      cases served with
      | some entry => rfl
      | none =>
        dsimp only
        cases l.described with
        | error e => rfl
        | ok d => rfl

/-- How a lookup ends. -/
inductive LookupEnds (l : TableLookup) (s : SchemaEntry Body) (w : RelDiag) :
    Except Text (Option SalesforceTableEntry) → RelDiag → Prop where
  | kept (entry : SalesforceTableEntry) (found : s.tables.lookup (lower l.object) = some entry) :
    LookupEnds l s w (.ok (some entry)) w
  | toolingFails (e : Text) (unknown : lower l.object ∉ s.tables)
      (answer : (SchemaEntry.warmTooling l.context l.object s).1 = .error e) :
    LookupEnds l s w (.error e) w
  | toolingServes (entry : SalesforceTableEntry) (unknown : lower l.object ∉ s.tables)
      (answer : (SchemaEntry.warmTooling l.context l.object s).1 = .ok (some entry)) :
    LookupEnds l s w (.ok (some entry)) w
  | describeFails (e : Text) (unknown : lower l.object ∉ s.tables)
      (unserved : (SchemaEntry.warmTooling l.context l.object s).1 = .ok none)
      (answer : l.described = .error e) : LookupEnds l s w (.error e) w
  | resolves (d : ObjectDescribe) (entry : SalesforceTableEntry) (unknown : lower l.object ∉ s.tables)
      (unserved : (SchemaEntry.warmTooling l.context l.object s).1 = .ok none)
      (answer : l.described = .ok d) :
    LookupEnds l s w (.ok (some entry)) (w.resolve (l.resolution d))

theorem describeObject_described (l : TableLookup) (s : SchemaEntry Body) :
    (∀ e, l.described = .error e →
        (SchemaEntry.describeObject l.context l.object s).1 = .error e) ∧
      ∀ d, l.described = .ok d →
        ∃ entry, (SchemaEntry.describeObject l.context l.object s).1 = .ok (some entry) := by
  have hsame := l.same
  unfold SchemaEntry.describeObject
  refine ⟨fun e he => ?_, fun d hd => ?_⟩
  · rw [he] at hsame
    rw [hsame]
    rfl
  · rw [hd] at hsame
    rw [hsame]
    dsimp only [Except.map]
    split
    · exact ⟨_, rfl⟩
    · exact ⟨_, rfl⟩

theorem lookupRecorded_ends (l : TableLookup) (s : SchemaEntry Body) (w : RelDiag) :
    LookupEnds l s w (lookupRecorded l s w).1 (lookupRecorded l s w).2.2 := by
  unfold lookupRecorded
  cases hkept : s.tables.lookup (lower l.object) with
  | some entry => exact .kept entry hkept
  | none =>
    have hunknown : lower l.object ∉ s.tables := AList.lookup_eq_none.mp hkept
    dsimp only
    generalize hwarm : SchemaEntry.warmTooling l.context l.object s = answer
    have hanswer := congrArg Prod.fst hwarm
    obtain ⟨answer, warmed⟩ := answer
    obtain ⟨hfails, hfound⟩ := describeObject_described l warmed
    cases answer with
    | error e => exact .toolingFails e hunknown hanswer
    | ok served =>
      cases served with
      | some entry => exact .toolingServes entry hunknown hanswer
      | none =>
        dsimp only
        cases hdescribed : l.described with
        | error e =>
          dsimp only
          rw [hfails e hdescribed]
          exact .describeFails e hunknown hanswer hdescribed
        | ok d =>
          obtain ⟨entry, hentry⟩ := hfound d hdescribed
          dsimp only
          rw [hentry]
          exact .resolves d entry hunknown hanswer hdescribed

/-! ### Runs of all catalogs -/

/-- The schemas of the attached catalogs, and the snapshot of the process. -/
structure CatalogsWorld (Body : Type) where
  schemas : Text → SchemaEntry Body
  diag : RelDiag

def CatalogsWorld.attached : CatalogsWorld Body := ⟨fun _ => .empty, .start⟩

inductive CatalogCall where
  | lookup (l : TableLookup)
  | scan (context : MetadataContext)
  | refresh (object : Text)

/-- A call to one of them. -/
def catalogsStep (w : CatalogsWorld Body) : Text × CatalogCall → Option (CatalogsWorld Body)
  | (catalog, .lookup l) =>
    let r := lookupRecorded l (w.schemas catalog) w.diag
    some ⟨Function.update w.schemas catalog r.2.1, r.2.2⟩
  | (catalog, .scan context) =>
    some ⟨Function.update w.schemas catalog
      (SchemaEntry.scan .tableEntry (some context) (w.schemas catalog)).2, w.diag⟩
  | (catalog, .refresh object) =>
    some ⟨Function.update w.schemas catalog
      (SchemaEntry.refreshMetadata object (w.schemas catalog)), w.diag⟩

/-- The snapshot is of the last resolution. -/
structure OfLast (w : RelDiag) : Prop where
  none : w.resolutions = [] → w.snapshot = .initial
  last : ∀ r before, w.resolutions = r :: before → Reports r w.snapshot

theorem ofLast_resolve (w : RelDiag) (r : Resolution) : OfLast (w.resolve r) := by
  refine ⟨fun h => absurd h (List.cons_ne_nil r _), fun r' before h => ?_⟩
  obtain ⟨rfl, -⟩ := List.cons.inj h
  exact resolve_reports w.snapshot r

theorem ofLast_ends {l : TableLookup} {s : SchemaEntry Body} {w w' : RelDiag}
    {answer : Except Text (Option SalesforceTableEntry)} (hw : OfLast w)
    (h : LookupEnds l s w answer w') : OfLast w' := by
  cases h with
  | kept | toolingFails | toolingServes | describeFails => exact hw
  | resolves d => exact ofLast_resolve w _

theorem ofLast_step (w w' : CatalogsWorld Body) (e : Text × CatalogCall) (hw : OfLast w.diag)
    (h : catalogsStep w e = some w') : OfLast w'.diag := by
  obtain ⟨catalog, call⟩ := e
  cases call with
  | lookup l =>
    rw [← Option.some.inj h]
    exact ofLast_ends hw (lookupRecorded_ends l (w.schemas catalog) w.diag)
  | scan context | refresh object =>
    rw [← Option.some.inj h]
    exact hw

end

/-! ### Contacts twice, and an object that cannot be described -/

def parentsOf (answer : Except Text ObjectDescribe) : MetadataContext where
  schemaSource := none
  relationships := some "Parent".toList
  relationshipDepth := some 3
  sobjects := .ok []
  toolingDescribe _ := .ok none
  describeFields _ := answer.map fun d => d.fields.map ObjectField.toDescribedField
  expandParents _ depth cache :=
    ((answer.toOption.elim [] fun d => (buildRelationshipFields ownedOrg depth d {lower d.objectName} 1).rels).map
      fun r => r.field.toDescribedField, cache)

def contactLookup : TableLookup :=
  ⟨"Contact".toList, parentsOf (.ok (contactDescribe "Account")), ownedOrg,
    .ok (contactDescribe "Account"), rfl⟩

def failedLookup : TableLookup :=
  ⟨"Acount".toList, parentsOf (.error "not found".toList), ownedOrg, .error "not found".toList, rfl⟩

def contactCalls : List (Text × CatalogCall) :=
  [("sf".toList, .lookup contactLookup), ("sf".toList, .lookup contactLookup),
    ("other".toList, .lookup failedLookup)]

end DuckdbSalesforce
