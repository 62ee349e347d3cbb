import DuckdbSalesforce.Catalog.ObjectDescribe
import DuckdbSalesforce.Json.ArraySplit
import DuckdbSalesforce.Json.MemberArrays

/-!
# Describe documents (`salesforce_describe.cpp`, `salesforce_metadata.cpp`)

A describe as the document it is, and all that `ParseDescribe`, `PicklistBuild`
and `RecordTypesBuild` read of it: fields with their types and targets, child
relationships, picklist entries and record types, each once and in its order.
-/

namespace DuckdbSalesforce
open JsonText

/-! ### All of a described field -/

structure DescribeField extends ObjectField where
  length : ℤ
  precision : ℤ
  scale : ℤ
  picklistValues : List Text

/-- An entry without a value is skipped. -/
def parsePicklistValues (obj : Text) : List Text :=
  ((getObjectArray obj "picklistValues".toList).map fun pv => getString pv "value".toList).filter
    fun val => val ≠ []

def parseDescribeField (obj : Text) : Option DescribeField :=
  (parseField obj).map fun f =>
    { f with
      length := getInt obj "length".toList 0
      precision := getInt obj "precision".toList 0
      scale := getInt obj "scale".toList 0
      picklistValues := parsePicklistValues obj }

def describeFields (json : Text) : List DescribeField :=
  (getObjectArray json "fields".toList).filterMap parseDescribeField

theorem describeFields_parsed (json object : Text) :
    (describeFields json).map DescribeField.toObjectField = (describeFrom json object).fields := by
  show _ = (getObjectArray json "fields".toList).filterMap parseField
  unfold describeFields
  rw [List.map_filterMap]
  apply List.filterMap_congr
  intro obj _
  unfold parseDescribeField
  rw [Option.map_map]
  exact Option.map_id'

/-! ### The metadata functions -/

structure PicklistRow where
  value : Text
  label : Text
  active : Bool
  isDefault : Bool
  deriving DecidableEq, Repr

def picklistRow (pv : Text) : PicklistRow :=
  ⟨getString pv "value".toList, getString pv "label".toList, getBool pv "active".toList true,
    getBool pv "defaultValue".toList false⟩

def picklistError (field object : Text) : Text :=
  "salesforce_picklist_values: field '".toList ++ field ++ "' not found on object '".toList ++
    object ++ "'.".toList

/-- `PicklistBuild` over the describe it got. -/
def picklistRows (describe object field : Text) : Except Text (List PicklistRow) :=
  match (getObjectArray describe "fields".toList).find? fun f =>
      ciEquals (getString f "name".toList) field with
  | none => .error (picklistError field object)
  | some f => .ok ((getObjectArray f "picklistValues".toList).map picklistRow)

structure RecordTypeRow where
  developerName : Text
  label : Text
  recordTypeId : Text
  active : Bool
  isDefault : Bool
  deriving DecidableEq, Repr

def recordTypeRow (rt : Text) : RecordTypeRow :=
  ⟨getString rt "developerName".toList, getString rt "name".toList, getString rt "recordTypeId".toList,
    getBool rt "active".toList true, getBool rt "defaultRecordTypeMapping".toList false⟩

/-- `RecordTypesBuild` over the describe it got. -/
def recordTypeRows (describe : Text) : List RecordTypeRow :=
  (getObjectArray describe "recordTypeInfos".toList).map recordTypeRow

/-! ### What the document says -/

def unitsAt (o : ObjectText) (key : Text) : List ℕ := stringUnits (valueOf o key)

structure FieldRead (o : ObjectText) (f : DescribeField) : Prop where
  name : SaysText f.name (unitsAt o "name".toList)
  sfType : SaysText f.sfType (unitsAt o "type".toList)
  nillable : f.nillable = boolOr true (valueOf o "nillable".toList)
  length : IntRead 0 f.length (valueOf o "length".toList)
  precision : IntRead 0 f.precision (valueOf o "precision".toList)
  scale : IntRead 0 f.scale (valueOf o "scale".toList)
  filterable : f.filterable = boolOr false (valueOf o "filterable".toList)
  sortable : f.sortable = boolOr false (valueOf o "sortable".toList)
  type : (f.duckdbType, f.unknownType) = mapSalesforceType f.sfType f.precision f.scale
  relationshipName : SaysText f.relationshipName (unitsAt o "relationshipName".toList)
  referenceTo : List.Forall₂ SaysText f.referenceTo (stringsOf o "referenceTo".toList)
  picklistValues : List.Forall₂ SaysText f.picklistValues
    (((objectsOf o "picklistValues".toList).map fun pv => unitsAt pv "value".toList).filter
      fun units => units ≠ [])
  flat : f.isRelationship = false ∧ f.children = []

structure ChildRead (o : ObjectText) (c : SalesforceChildRelationship) : Prop where
  childObject : SaysText c.childObject (unitsAt o "childSObject".toList)
  field : SaysText c.field (unitsAt o "field".toList)
  relationshipName : SaysText c.relationshipName (unitsAt o "relationshipName".toList)

structure PicklistRead (o : ObjectText) (row : PicklistRow) : Prop where
  value : SaysText row.value (unitsAt o "value".toList)
  label : SaysText row.label (unitsAt o "label".toList)
  active : row.active = boolOr true (valueOf o "active".toList)
  isDefault : row.isDefault = boolOr false (valueOf o "defaultValue".toList)

structure RecordTypeRead (o : ObjectText) (row : RecordTypeRow) : Prop where
  developerName : SaysText row.developerName (unitsAt o "developerName".toList)
  label : SaysText row.label (unitsAt o "name".toList)
  recordTypeId : SaysText row.recordTypeId (unitsAt o "recordTypeId".toList)
  active : row.active = boolOr true (valueOf o "active".toList)
  isDefault : row.isDefault = boolOr false (valueOf o "defaultRecordTypeMapping".toList)

def hasText (o : ObjectText) (key : Text) : Bool := decide (unitsAt o key ≠ [])

/-- The document calls the object by the name, in any case. -/
def NameIs (o : ObjectText) (name : Text) : Prop :=
  ∃ t, SaysText t (unitsAt o "name".toList) ∧ ciEquals t name = true

/-! ### Documents that are read -/

def fieldKeys : List Text :=
  ["name".toList, "type".toList, "nillable".toList, "length".toList, "precision".toList,
    "scale".toList, "filterable".toList, "sortable".toList, "relationshipName".toList]

def picklistKeys : List Text :=
  ["value".toList, "label".toList, "active".toList, "defaultValue".toList]

def childKeys : List Text := ["childSObject".toList, "field".toList, "relationshipName".toList]

def recordTypeKeys : List Text :=
  ["developerName".toList, "name".toList, "recordTypeId".toList, "active".toList,
    "defaultRecordTypeMapping".toList]

def KeysSafe (o : ObjectText) (keys : List Text) : Prop := ∀ key ∈ keys, LookupSafe o key

structure FieldSafe (o : ObjectText) : Prop where
  keys : KeysSafe o fieldKeys
  targets : ArraySafe o "referenceTo".toList PlainStrings
  picklist : ArraySafe o "picklistValues".toList AllObjects
  entries : ∀ pv ∈ objectsOf o "picklistValues".toList, KeysSafe pv picklistKeys

/-- Every lookup finds the member of its own object. -/
structure DescribeSafe (o : ObjectText) : Prop where
  fields : ArraySafe o "fields".toList AllObjects
  field : ∀ f ∈ objectsOf o "fields".toList, FieldSafe f
  children : ArraySafe o "childRelationships".toList AllObjects
  child : ∀ c ∈ objectsOf o "childRelationships".toList, KeysSafe c childKeys
  recordTypes : ArraySafe o "recordTypeInfos".toList AllObjects
  recordType : ∀ r ∈ objectsOf o "recordTypeInfos".toList, KeysSafe r recordTypeKeys

theorem getString_safe (o : ObjectText) (key : Text) (h : LookupSafe o key) :
    SaysText (getString o.text key) (unitsAt o key) := ((lookup_right_iff o key).mpr h).string

theorem getBool_safe (o : ObjectText) (key : Text) (dflt : Bool) (h : LookupSafe o key) :
    getBool o.text key dflt = boolOr dflt (valueOf o key) := ((lookup_right_iff o key).mpr h).bool dflt

theorem getInt_safe (o : ObjectText) (key : Text) (dflt : ℤ) (h : LookupSafe o key) :
    IntRead dflt (getInt o.text key dflt) (valueOf o key) := ((lookup_right_iff o key).mpr h).int dflt

theorem says_empty (t : Text) (units : List ℕ) (h : SaysText t units) : t = [] ↔ units = [] := by
  refine ⟨?_, ?_⟩
  · intro ht
    rw [← h, ht]
    rfl
  · intro hu
    exact codeUnits_eq_nil t (h.trans hu)

/-! ### Deciding it -/

def readable : Json → Bool
  | .string items => items.all plainlyEscaped
  | .number n => decide (WholeNumber n)
  | .array _ _ => false
  | .object _ _ => false
  | _ => true

theorem readable_iff (v : Json) : readable v = true ↔ Readable v := by
  constructor
  · intro h
    cases v with
    | string items =>
      refine ⟨rfl, ?_, nofun⟩
      intro _ hitems
      injection hitems with hitems
      rw [← hitems]
      exact List.all_eq_true.mp h
    | number n =>
      refine ⟨rfl, nofun, ?_⟩
      intro _ hn
      injection hn with hn
      rw [← hn]
      exact of_decide_eq_true h
    | null | bool _ => exact ⟨rfl, nofun, nofun⟩
    | array _ _ | object _ _ => cases h
  · intro h
    cases v with
    | string items => exact List.all_eq_true.mpr (h.plain items rfl)
    | number n => exact decide_eq_true (h.whole n rfl)
    | null | bool _ => rfl
    | array _ _ | object _ _ => exact absurd h.scalar (by simp [Json.isCompound])

instance decidableReadable (v : Json) : Decidable (Readable v) := decidable_of_iff _ (readable_iff v)

def allObjects : Elements → Bool
  | .nil => true
  | .cons _ (.object _ _) _ rest => allObjects rest
  | .cons _ _ _ _ => false

theorem allObjects_iff (elements : Elements) : allObjects elements = true ↔ AllObjects elements := by
  fun_induction allObjects elements with
  | case1 => exact ⟨fun _ => trivial, fun _ => rfl⟩
  | case2 _ _ _ _ rest ih => simp [AllObjects, ih]
  | case3 _ value _ _ hobject =>
    cases value with
    | object lead members => exact absurd rfl (hobject lead members)
    | null | bool _ | number _ | string _ | array _ _ => simp [AllObjects]

instance decidableAllObjects : DecidablePred AllObjects := fun elements =>
  decidable_of_iff _ (allObjects_iff elements)

def plainStrings : Elements → Bool
  | .nil => true
  | .cons _ (.string items) _ rest => items.all plainlyEscaped && plainStrings rest
  | .cons _ _ _ _ => false

theorem plainStrings_iff (elements : Elements) :
    plainStrings elements = true ↔ PlainStrings elements := by
  fun_induction plainStrings elements with
  | case1 => exact ⟨fun _ => trivial, fun _ => rfl⟩
  | case2 _ items _ rest ih => simp [PlainStrings, ih]
  | case3 _ value _ _ hstring =>
    cases value with
    | string items => exact absurd rfl (hstring items)
    | null | bool _ | number _ | array _ _ | object _ _ => simp [PlainStrings]

instance decidablePlainStrings : DecidablePred PlainStrings := fun elements =>
  decidable_of_iff _ (plainStrings_iff elements)

/-- The lookup lands where the member is. -/
def Lands (o : ObjectText) (key : Text) : Prop :=
  findValue o.text key = (o.find key).map fun f => f.head.length

theorem lands_iff (o : ObjectText) (key : Text) :
    Lands o key ↔ (∀ f, o.find key = some f → SpelledFirst key f) ∧
      (o.find key = none → NoFalseHit key o.text) := by
  unfold Lands
  cases hfind : o.find key with
  | none =>
    refine ⟨fun h => ⟨nofun, fun _ => (findValue_none_iff _ _).mp h⟩, ?_⟩
    intro h
    exact (findValue_none_iff _ _).mpr (h.2 rfl)
  | some f =>
    obtain ⟨htext, hname, -⟩ := o.find_spec key f hfind
    have hiff := findValue_found_iff f key hname
    rw [htext] at hiff
    refine ⟨fun h => ⟨?_, nofun⟩, fun h => hiff.mpr (h.1 f rfl)⟩
    intro g hg
    rw [← Option.some.inj hg]
    exact hiff.mp h

instance decidableLands (o : ObjectText) (key : Text) : Decidable (Lands o key) :=
  inferInstanceAs (Decidable (_ = _))

theorem lookupSafe_iff (o : ObjectText) (key : Text) :
    (Lands o key ∧ ∀ v ∈ valueOf o key, Readable v) ↔ LookupSafe o key := by
  rw [lands_iff]
  unfold LookupSafe valueOf
  cases o.find key with
  | none => simp
  | some f => simp

instance decidableLookupSafe (o : ObjectText) (key : Text) : Decidable (LookupSafe o key) :=
  decidable_of_iff _ (lookupSafe_iff o key)

def WantedArray (Wanted : Elements → Prop) : Json → Prop
  | .array _ elements => Wanted elements
  | _ => True

instance decidableWantedArray (Wanted : Elements → Prop) [DecidablePred Wanted] (v : Json) :
    Decidable (WantedArray Wanted v) :=
  match v with
  | .array _ elements => inferInstanceAs (Decidable (Wanted elements))
  | .null | .bool _ | .number _ | .string _ | .object _ _ => isTrue trivial

theorem wantedArray_iff (Wanted : Elements → Prop) (v : Json) :
    WantedArray Wanted v ↔ ∀ lead elements, v = .array lead elements → Wanted elements := by
  cases v with
  | array lead elements => simp [WantedArray]
  | null | bool _ | number _ | string _ | object _ _ => simp [WantedArray]

theorem arraySafe_iff (o : ObjectText) (key : Text) (Wanted : Elements → Prop) :
    (Lands o key ∧ ∀ v ∈ valueOf o key, WantedArray Wanted v) ↔ ArraySafe o key Wanted := by
  rw [lands_iff]
  unfold ArraySafe valueOf
  cases o.find key with
  | none => simp
  | some f => simp [wantedArray_iff]

instance decidableArraySafe (o : ObjectText) (key : Text) (Wanted : Elements → Prop)
    [DecidablePred Wanted] : Decidable (ArraySafe o key Wanted) :=
  decidable_of_iff _ (arraySafe_iff o key Wanted)

instance decidableKeysSafe (o : ObjectText) (keys : List Text) : Decidable (KeysSafe o keys) :=
  inferInstanceAs (Decidable (∀ key ∈ keys, LookupSafe o key))

theorem fieldSafe_iff (o : ObjectText) :
    (KeysSafe o fieldKeys ∧ ArraySafe o "referenceTo".toList PlainStrings ∧
      ArraySafe o "picklistValues".toList AllObjects ∧
      ∀ pv ∈ objectsOf o "picklistValues".toList, KeysSafe pv picklistKeys) ↔ FieldSafe o :=
  ⟨fun h => ⟨h.1, h.2.1, h.2.2.1, h.2.2.2⟩, fun h => ⟨h.keys, h.targets, h.picklist, h.entries⟩⟩

instance decidableFieldSafe (o : ObjectText) : Decidable (FieldSafe o) :=
  decidable_of_iff _ (fieldSafe_iff o)

theorem describeSafe_iff (o : ObjectText) :
    (ArraySafe o "fields".toList AllObjects ∧ (∀ f ∈ objectsOf o "fields".toList, FieldSafe f) ∧
      ArraySafe o "childRelationships".toList AllObjects ∧
      (∀ c ∈ objectsOf o "childRelationships".toList, KeysSafe c childKeys) ∧
      ArraySafe o "recordTypeInfos".toList AllObjects ∧
      ∀ r ∈ objectsOf o "recordTypeInfos".toList, KeysSafe r recordTypeKeys) ↔ DescribeSafe o :=
  ⟨fun h => ⟨h.1, h.2.1, h.2.2.1, h.2.2.2.1, h.2.2.2.2.1, h.2.2.2.2.2⟩,
    fun h => ⟨h.fields, h.field, h.children, h.child, h.recordTypes, h.recordType⟩⟩

instance decidableDescribeSafe (o : ObjectText) : Decidable (DescribeSafe o) :=
  decidable_of_iff _ (describeSafe_iff o)

/-! ### Element by element -/

section
variable {α β : Type}

theorem forall₂_map (R : β → α → Prop) (f : α → β) (l : List α) (h : ∀ a ∈ l, R (f a) a) :
    List.Forall₂ R (l.map f) l := by
  induction l with
  | nil => exact .nil
  | cons a l ih => exact .cons (h a List.mem_cons_self) (ih fun b hb => h b (List.mem_cons_of_mem a hb))

/-- What is kept is read of those that are to be kept. -/
theorem forall₂_filterMap (R : β → α → Prop) (f : α → Option β) (keep : α → Bool) (l : List α)
    (hkept : ∀ a ∈ l, keep a = true → ∃ b, f a = some b ∧ R b a)
    (hskipped : ∀ a ∈ l, keep a = false → f a = none) :
    List.Forall₂ R (l.filterMap f) (l.filter keep) := by
  induction l with
  | nil => exact .nil
  | cons a l ih =>
    have hrest := ih (fun b hb => hkept b (List.mem_cons_of_mem a hb))
      (fun b hb => hskipped b (List.mem_cons_of_mem a hb))
    cases hkeep : keep a with
    | true =>
      obtain ⟨b, hb, hR⟩ := hkept a List.mem_cons_self hkeep
      rw [List.filterMap_cons_some hb, List.filter_cons_of_pos hkeep]
      exact .cons hR hrest
    | false =>
      rw [List.filterMap_cons_none (hskipped a List.mem_cons_self hkeep),
        List.filter_cons_of_neg (by rw [hkeep]; exact Bool.false_ne_true)]
      exact hrest

end

theorem parsePicklistValues_read (o : ObjectText) (h : FieldSafe o) :
    List.Forall₂ SaysText (parsePicklistValues o.text)
      (((objectsOf o "picklistValues".toList).map fun pv => unitsAt pv "value".toList).filter
        fun units => units ≠ []) := by
  have hentries := h.entries
  unfold parsePicklistValues
  rw [getObjectArray_safe h.picklist]
  generalize objectsOf o "picklistValues".toList = entries at hentries
  induction entries with
  | nil => exact .nil
  | cons pv entries ih =>
    have hrest := ih fun q hq => hentries q (List.mem_cons_of_mem pv hq)
    have hvalue := getString_safe pv "value".toList
      (hentries pv List.mem_cons_self _ List.mem_cons_self)
    have hempty := says_empty _ _ hvalue
    simp only [List.map_cons]
    by_cases hnone : unitsAt pv "value".toList = []
    · rw [List.filter_cons_of_neg (by simpa using hempty.mpr hnone),
        List.filter_cons_of_neg (by simpa using hnone)]
      exact hrest
    · rw [List.filter_cons_of_pos (by simpa using fun ht => hnone (hempty.mp ht)),
        List.filter_cons_of_pos (by simpa using hnone)]
      exact .cons hvalue hrest

theorem parseDescribeField_read (o : ObjectText) (h : FieldSafe o) (hname : hasText o "name".toList = true) :
    ∃ f, parseDescribeField o.text = some f ∧ FieldRead o f := by
  have hsafe : ∀ key ∈ fieldKeys, LookupSafe o key := h.keys
  have hstring : SaysText (getString o.text "name".toList) (unitsAt o "name".toList) :=
    getString_safe o _ (hsafe _ (by simp [fieldKeys]))
  have hsome : getString o.text "name".toList ≠ [] := by
    intro hnil
    exact of_decide_eq_true hname ((says_empty _ _ hstring).mp hnil)
  unfold parseDescribeField parseField
  simp only
  rw [if_neg hsome]
  exact ⟨_, rfl,
      { name := hstring
        sfType := getString_safe o _ (hsafe _ (by simp [fieldKeys]))
        nillable := getBool_safe o _ true (hsafe _ (by simp [fieldKeys]))
        length := getInt_safe o _ 0 (hsafe _ (by simp [fieldKeys]))
        precision := getInt_safe o _ 0 (hsafe _ (by simp [fieldKeys]))
        scale := getInt_safe o _ 0 (hsafe _ (by simp [fieldKeys]))
        filterable := getBool_safe o _ false (hsafe _ (by simp [fieldKeys]))
        sortable := getBool_safe o _ false (hsafe _ (by simp [fieldKeys]))
        type := rfl
        relationshipName := getString_safe o _ (hsafe _ (by simp [fieldKeys]))
        referenceTo := getStringArray_safe h.targets
        picklistValues := parsePicklistValues_read o h
        flat := ⟨rfl, rfl⟩ }⟩

theorem parseDescribeField_skips (o : ObjectText) (h : FieldSafe o)
    (hname : hasText o "name".toList = false) : parseDescribeField o.text = none := by
  have hstring := getString_safe o "name".toList (h.keys _ (by simp [fieldKeys]))
  have hnone : unitsAt o "name".toList = [] := not_not.mp (of_decide_eq_false hname)
  have hnil := (says_empty _ _ hstring).mpr hnone
  unfold parseDescribeField parseField
  simp only
  rw [if_pos hnil]
  rfl

theorem parseChild_read (o : ObjectText) (h : KeysSafe o childKeys) :
    (hasText o "childSObject".toList = true →
        ∃ c, parseChildRelationship o.text = some c ∧ ChildRead o c) ∧
      (hasText o "childSObject".toList = false → parseChildRelationship o.text = none) := by
  have hchild := getString_safe o "childSObject".toList (h _ (by simp [childKeys]))
  have hempty := says_empty _ _ hchild
  unfold parseChildRelationship
  simp only
  refine ⟨?_, ?_⟩
  · intro hnamed
    rw [if_neg fun hnil => of_decide_eq_true hnamed (hempty.mp hnil)]
    exact ⟨_, rfl, hchild, getString_safe o _ (h _ (by simp [childKeys])),
      getString_safe o _ (h _ (by simp [childKeys]))⟩
  · intro hnamed
    have hnone : unitsAt o "childSObject".toList = [] := not_not.mp (of_decide_eq_false hnamed)
    exact if_pos (hempty.mpr hnone)

theorem picklistRow_read (o : ObjectText) (h : KeysSafe o picklistKeys) :
    PicklistRead o (picklistRow o.text) where
  value := getString_safe o _ (h _ (by simp [picklistKeys]))
  label := getString_safe o _ (h _ (by simp [picklistKeys]))
  active := getBool_safe o _ true (h _ (by simp [picklistKeys]))
  isDefault := getBool_safe o _ false (h _ (by simp [picklistKeys]))

theorem recordTypeRow_read (o : ObjectText) (h : KeysSafe o recordTypeKeys) :
    RecordTypeRead o (recordTypeRow o.text) where
  developerName := getString_safe o _ (h _ (by simp [recordTypeKeys]))
  label := getString_safe o _ (h _ (by simp [recordTypeKeys]))
  recordTypeId := getString_safe o _ (h _ (by simp [recordTypeKeys]))
  active := getBool_safe o _ true (h _ (by simp [recordTypeKeys]))
  isDefault := getBool_safe o _ false (h _ (by simp [recordTypeKeys]))

/-! ### The whole document -/

theorem describeFields_read (o : ObjectText) (h : DescribeSafe o) :
    List.Forall₂ (fun f d => FieldRead d f) (describeFields o.text)
      ((objectsOf o "fields".toList).filter fun d => hasText d "name".toList) := by
  unfold describeFields
  rw [getObjectArray_safe h.fields, List.filterMap_map]
  apply forall₂_filterMap
  · intro d hd hnamed
    exact parseDescribeField_read d (h.field d hd) hnamed
  · intro d hd hnamed
    exact parseDescribeField_skips d (h.field d hd) hnamed

theorem children_read (o : ObjectText) (object : Text) (h : DescribeSafe o) :
    List.Forall₂ (fun c d => ChildRead d c) (describeFrom o.text object).childRelationships
      ((objectsOf o "childRelationships".toList).filter fun d => hasText d "childSObject".toList) := by
  show List.Forall₂ _ ((getObjectArray o.text "childRelationships".toList).filterMap
    parseChildRelationship) _
  rw [getObjectArray_safe h.children, List.filterMap_map]
  apply forall₂_filterMap
  · intro d hd hnamed
    exact (parseChild_read d (h.child d hd)).1 hnamed
  · intro d hd hnamed
    exact (parseChild_read d (h.child d hd)).2 hnamed

theorem recordTypeRows_read (o : ObjectText) (h : DescribeSafe o) :
    List.Forall₂ (fun row d => RecordTypeRead d row) (recordTypeRows o.text)
      (objectsOf o "recordTypeInfos".toList) := by
  unfold recordTypeRows
  rw [getObjectArray_safe h.recordTypes, List.map_map]
  exact forall₂_map _ _ _ fun d hd => recordTypeRow_read d (h.recordType d hd)

theorem name_decides (d : ObjectText) (field : Text) (h : FieldSafe d) :
    NameIs d field ↔ ciEquals (getString d.text "name".toList) field = true := by
  have hstring := getString_safe d "name".toList (h.keys _ (by simp [fieldKeys]))
  refine ⟨?_, fun heq => ⟨_, hstring, heq⟩⟩
  intro hname
  obtain ⟨t, ht, heq⟩ := hname
  rw [codeUnits_injective _ _ (hstring.trans ht.symm)]
  exact heq

/-- The first field of the name has the rows, in the order of its entries; a
document without such a field has the error. -/
structure PicklistAnswered (o : ObjectText) (object field : Text)
    (answer : Except Text (List PicklistRow)) : Prop where
  found : ∀ before d after, objectsOf o "fields".toList = before ++ d :: after →
    (∀ e ∈ before, ¬ NameIs e field) → NameIs d field →
    ∃ rows, answer = .ok rows ∧
      List.Forall₂ (fun row pv => PicklistRead pv row) rows (objectsOf d "picklistValues".toList)
  missing : (∀ d ∈ objectsOf o "fields".toList, ¬ NameIs d field) →
    answer = .error (picklistError field object)

theorem picklistRows_answered (o : ObjectText) (object field : Text) (h : DescribeSafe o) :
    PicklistAnswered o object field (picklistRows o.text object field) := by
  have hfind : (getObjectArray o.text "fields".toList).find? (fun f =>
        ciEquals (getString f "name".toList) field) =
      ((objectsOf o "fields".toList).find? fun d =>
        ciEquals (getString d.text "name".toList) field).map ObjectText.text := by
    rw [getObjectArray_safe h.fields, List.find?_map]
    rfl
  refine ⟨?_, ?_⟩
  · intro before d after hsplit hbefore hd
    have hsafe : ∀ e ∈ before ++ d :: after, FieldSafe e := fun e he => h.field e (hsplit ▸ he)
    have hmem : d ∈ before ++ d :: after := List.mem_append_right _ List.mem_cons_self
    have hfirst : (before ++ d :: after).find? (fun e =>
        ciEquals (getString e.text "name".toList) field) = some d := by
      have hpos := (name_decides d field (hsafe d hmem)).mp hd
      rw [List.find?_append, List.find?_eq_none.mpr ?_, Option.none_or, List.find?_cons, hpos]
      intro e he heq
      exact hbefore e he
        ((name_decides e field (hsafe e (List.mem_append_left _ he))).mpr heq)
    have hpicklist := (hsafe d hmem).picklist
    refine ⟨(objectsOf d "picklistValues".toList).map fun pv => picklistRow pv.text, ?_, ?_⟩
    · unfold picklistRows
      rw [hfind, hsplit, hfirst]
      dsimp only [Option.map_some]
      rw [getObjectArray_safe hpicklist, List.map_map]
      rfl
    · exact forall₂_map _ _ _ fun pv hpv => picklistRow_read pv ((hsafe d hmem).entries pv hpv)
  · intro hnone
    have hmissing : (objectsOf o "fields".toList).find? (fun d =>
        ciEquals (getString d.text "name".toList) field) = none := by
      rw [List.find?_eq_none]
      intro d hd heq
      exact hnone d hd ((name_decides d field (h.field d hd)).mpr heq)
    unfold picklistRows
    rw [hfind, hmissing]
    rfl

/-- All that is read of a describe is what the document says. -/
structure DescribeRead (o : ObjectText) (object : Text) : Prop where
  objectName : (describeFrom o.text object).objectName = object
  fields : ∃ fields : List DescribeField,
    (describeFrom o.text object).fields = fields.map DescribeField.toObjectField ∧
    List.Forall₂ (fun f d => FieldRead d f) fields
      ((objectsOf o "fields".toList).filter fun d => hasText d "name".toList)
  children : List.Forall₂ (fun c d => ChildRead d c) (describeFrom o.text object).childRelationships
    ((objectsOf o "childRelationships".toList).filter fun d => hasText d "childSObject".toList)
  recordTypes : List.Forall₂ (fun row d => RecordTypeRead d row) (recordTypeRows o.text)
    (objectsOf o "recordTypeInfos".toList)
  picklists : ∀ field, PicklistAnswered o object field (picklistRows o.text object field)

def textMember (name value : String) (rest : Members) : Members := memberOf name (textOf value) rest

/-- `{"value":"Hot","label":"\"Hot\"","defaultValue":true}`. -/
def hotEntry : Json :=
  objectOf (textMember "value" "Hot" (memberOf "label"
    (.string (.escape .quote :: spell "Hot".toList ++ [.escape .quote]))
    (memberOf "defaultValue" (.bool true) .nil)))

/-- `{"name":"Rating","type":"picklist","referenceTo":["Group"],"picklistValues":[..]}`. -/
def ratingField : Json :=
  objectOf (textMember "name" "Rating" (textMember "type" "picklist" (memberOf "referenceTo"
    (.array .none (.cons .none (textOf "Group") .none .nil)) (memberOf "picklistValues"
      (.array .none (.cons ⟨" ".toList, space_blank⟩ hotEntry .none .nil)) .nil))))

/-- The picklist entries have a `label`, and the record type has a `name`, like
the objects around them. -/
def accountDocument : ObjectText :=
  ⟨.none, .none, memberOf "fields" (.array .none (.cons .none (objectOf (textMember "type" "id" .nil))
      .none (.cons .none ratingField .none .nil)))
    (memberOf "recordTypeInfos" (.array .none (.cons .none (objectOf (textMember "name" "Master"
      (memberOf "active" (.bool false) .nil))) .none .nil)) .nil), .none⟩

theorem accountDocument_safe : DescribeSafe accountDocument := by decide +kernel

end DuckdbSalesforce
