import Mathlib
import DuckdbSalesforce.Describe

/-!
# The schema entry (`salesforce_storage.cpp`)

The metadata caches of an attached catalog and the operations on them. A session
is what the org answers at that moment; a map is an association list without
repeated keys, so that its order stands for any order of `unordered_map`. The
cached describe body is of any type, the operations only pass it on.
-/

namespace DuckdbSalesforce

structure DescribedField extends SalesforceField where
  unknownType : Bool

structure SalesforceDescribe where
  objectName : Text
  fields : List DescribedField

structure SalesforceTableEntry where
  name : Text
  fields : List DescribedField

structure SalesforceObjectInfo where
  name : Text
  queryable : Bool

abbrev MetadataMap (α : Type) := AList fun _ : Text => α

def emplace {α : Type} (m : MetadataMap α) (key : Text) (a : α) : MetadataMap α :=
  if key ∈ m then m else m.insert key a

/-- The settings of a context and what a session opened from it is answered.
`expandParents` gives the relationship columns and the parent describes. -/
structure MetadataContext where
  schemaSource : Option Text
  relationships : Option Text
  relationshipDepth : Option ℤ
  sobjects : Except Text (List SalesforceObjectInfo)
  toolingDescribe : List Text → Except Text (Option (MetadataMap SalesforceDescribe))
  describeFields : Text → Except Text (List DescribedField)
  expandParents : SalesforceDescribe → ℕ → MetadataMap SalesforceDescribe →
    List DescribedField × MetadataMap SalesforceDescribe

namespace MetadataContext
variable (ctx : MetadataContext)

/-- The described object is the one asked for, whatever the body calls it. -/
def describe (object : Text) : Except Text SalesforceDescribe :=
  (ctx.describeFields object).map fun fields => ⟨object, fields⟩

/-- The names of the queryable objects. -/
def globalDescribe : Except Text (List Text) :=
  ctx.sobjects.map fun objs =>
    (objs.filter fun o => o.queryable && o.name ≠ []).map SalesforceObjectInfo.name

def usesTooling : Bool := lower (ctx.schemaSource.getD "describe".toList) == "tooling".toList

def expandsParents : Bool := lower (ctx.relationships.getD "off".toList) == "parent".toList

def depth : ℕ :=
  match ctx.relationshipDepth with
  | none => 1
  | some d => if d < 1 then 1 else if d > 2 then 2 else d.toNat

end MetadataContext

inductive CatalogType where
  | tableEntry
  | otherEntry
  deriving DecidableEq, Repr

structure SchemaEntry (Body : Type) where
  objectListLoaded : Bool
  listing : MetadataMap SalesforceTableEntry
  tables : MetadataMap SalesforceTableEntry
  parentDescribeCache : MetadataMap SalesforceDescribe
  describeJsonCache : MetadataMap Body

namespace SchemaEntry
variable {Body : Type}

def empty : SchemaEntry Body := ⟨false, ∅, ∅, ∅, ∅⟩

/-! ### Resolving an object -/

/-- Compound fields are dropped. -/
def isQueryableField (f : DescribedField) : Bool :=
  lower f.sfType != "address".toList && lower f.sfType != "location".toList

def buildEntry (describe : SalesforceDescribe) : SalesforceTableEntry :=
  ⟨describe.objectName, describe.fields.filter isQueryableField⟩

def buildAndCacheEntry (describe : SalesforceDescribe) (s : SchemaEntry Body) : SchemaEntry Body :=
  { s with tables := emplace s.tables (lower describe.objectName) (buildEntry describe) }

/-- The requested object, and the listed ones not described yet. -/
def toolingBatch (object : Text) (s : SchemaEntry Body) : List Text :=
  object :: (s.listing.entries.filter fun kv => kv.1 ∉ s.tables ∧ kv.1 ≠ lower object).map
    fun kv => kv.2.name

/-- A described object of the batch; an ambiguous type leaves it for REST. -/
def warmEntry (s : SchemaEntry Body) (key : Text) (describe : SalesforceDescribe) :
    SchemaEntry Body :=
  if key ∈ s.tables ∨ describe.fields.length = 0 then s
  else if describe.fields.any DescribedField.unknownType then s
  else buildAndCacheEntry describe s

/-- The batch warm of the tooling source: the requested object, if it is served. -/
def warmTooling (ctx : MetadataContext) (object : Text) (s : SchemaEntry Body) :
    Except Text (Option SalesforceTableEntry) × SchemaEntry Body :=
  if ctx.usesTooling then
    match ctx.toolingDescribe (toolingBatch object s) with
    | .error e => (.error e, s)
    | .ok none => (.ok none, s)
    | .ok (some got) =>
      let warmed := got.foldl warmEntry s
      (.ok (warmed.tables.lookup (lower object)), warmed)
  else (.ok none, s)

/-- The REST describe, with the parent columns when they are on. -/
def describeObject (ctx : MetadataContext) (object : Text) (s : SchemaEntry Body) :
    Except Text (Option SalesforceTableEntry) × SchemaEntry Body :=
  match ctx.describe object with
  | .error e => (.error e, s)
  | .ok d =>
    if ctx.expandsParents then
      let expanded := ctx.expandParents d ctx.depth s.parentDescribeCache
      let d' : SalesforceDescribe := ⟨d.objectName, d.fields ++ expanded.1⟩
      (.ok (some (buildEntry d')),
        buildAndCacheEntry d' { s with parentDescribeCache := expanded.2 })
    else (.ok (some (buildEntry d)), buildAndCacheEntry d s)

/-- `LookupEntry`; `none` is the null pointer. -/
def lookupEntry (type : CatalogType) (context : Option MetadataContext) (object : Text)
    (s : SchemaEntry Body) : Except Text (Option SalesforceTableEntry) × SchemaEntry Body :=
  match type, context with
  | .otherEntry, _ => (.ok none, s)
  | .tableEntry, none => (.ok none, s)
  | .tableEntry, some ctx =>
    match s.tables.lookup (lower object) with
    | some entry => (.ok (some entry), s)
    | none =>
      match warmTooling ctx object s with
      | (.error e, warmed) => (.error e, warmed)
      | (.ok (some entry), warmed) => (.ok (some entry), warmed)
      | (.ok none, warmed) => describeObject ctx object warmed

/-! ### Listing -/

/-- A discovered object gets a name-only entry, unless it is known. -/
def listObject (tables listing : MetadataMap SalesforceTableEntry) (obj : Text) :
    MetadataMap SalesforceTableEntry :=
  if lower obj ∈ tables ∨ lower obj ∈ listing then listing
  else emplace listing (lower obj) ⟨obj, []⟩

def loadListing (names : List Text) (s : SchemaEntry Body) : SchemaEntry Body :=
  { s with
    listing := names.foldl (listObject s.tables) s.listing
    objectListLoaded := true }

def ensureObjectListLoaded (ctx : MetadataContext) (s : SchemaEntry Body) :
    Except Text Unit × SchemaEntry Body :=
  if s.objectListLoaded then (.ok (), s)
  else
    match ctx.globalDescribe with
    | .error e => (.error e, s)
    | .ok names => (.ok (), loadListing names s)

/-- The resolved objects, then the listed ones that are not resolved. -/
def emitResolved (type : CatalogType) (s : SchemaEntry Body) : List SalesforceTableEntry :=
  match type with
  | .otherEntry => []
  | .tableEntry =>
    s.tables.entries.map (fun kv => kv.2) ++
      (s.listing.entries.filter fun kv => kv.1 ∉ s.tables).map fun kv => kv.2

/-- `Scan`, with a context or without one. -/
def scan (type : CatalogType) (context : Option MetadataContext) (s : SchemaEntry Body) :
    Except Text (List SalesforceTableEntry) × SchemaEntry Body :=
  match type, context with
  | .tableEntry, some ctx =>
    match ensureObjectListLoaded ctx s with
    | (.error e, loaded) => (.error e, loaded)
    | (.ok (), loaded) => (.ok (emitResolved .tableEntry loaded), loaded)
  | type, _ => (.ok (emitResolved type s), s)

/-! ### Refresh, and the raw describe body -/

def refreshMetadata (object : Text) (s : SchemaEntry Body) : SchemaEntry Body :=
  if object = [] then empty
  else
    { s with
      tables := s.tables.erase (lower object)
      parentDescribeCache := s.parentDescribeCache.erase (lower object)
      describeJsonCache := s.describeJsonCache.erase (lower object) }

/-- The check of `DescribeJsonCached`, under the lock. -/
def findDescribeJson (object : Text) (s : SchemaEntry Body) : Option Body :=
  s.describeJsonCache.lookup (lower object)

/-- The store of `DescribeJsonCached`, under the lock again. -/
def storeDescribeJson (object : Text) (body : Body) (s : SchemaEntry Body) : SchemaEntry Body :=
  { s with describeJsonCache := s.describeJsonCache.insert (lower object) body }

end SchemaEntry

end DuckdbSalesforce
