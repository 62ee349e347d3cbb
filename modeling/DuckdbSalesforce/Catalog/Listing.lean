import DuckdbSalesforce.Library.Runs
import DuckdbSalesforce.Catalog.SchemaEntry

/-!
# Completeness of the object listing

`tables` and `listing` represent the listing together: loading it skips the
objects that are resolved already, and a named refresh erases from `tables`
only. An object that was resolved before the listing was loaded is therefore in
neither map after it has been refreshed by name.
-/

namespace DuckdbSalesforce
open Runs SchemaEntry

/-- Every entry sits under its own name in lower case. -/
def Keyed (m : MetadataMap SalesforceTableEntry) : Prop :=
  ∀ kv ∈ m.entries, lower kv.2.name = kv.1

theorem mem_emplace {α : Type} (m : MetadataMap α) (key k : Text) (a : α) :
    k ∈ emplace m key a ↔ k = key ∨ k ∈ m := by
  unfold emplace
  by_cases hkey : key ∈ m
  · rw [if_pos hkey]
    refine ⟨Or.inr, ?_⟩
    intro h
    rcases h with h | h
    · rw [h]
      exact hkey
    · exact h
  · rw [if_neg hkey]
    exact AList.mem_insert m

theorem keyed_empty : Keyed ∅ := by
  intro kv hkv
  cases hkv

theorem keyed_emplace (m : MetadataMap SalesforceTableEntry) (e : SalesforceTableEntry)
    (h : Keyed m) : Keyed (emplace m (lower e.name) e) := by
  unfold emplace
  by_cases hkey : lower e.name ∈ m
  · rw [if_pos hkey]
    exact h
  · rw [if_neg hkey]
    intro kv hkv
    rw [AList.entries_insert_of_notMem hkey] at hkv
    rcases List.mem_cons.mp hkv with hkv | hkv
    · rw [hkv]
    · exact h kv hkv

theorem keyed_erase (m : MetadataMap SalesforceTableEntry) (key : Text) (h : Keyed m) :
    Keyed (m.erase key) :=
  fun kv hkv => h kv ((List.kerase_sublist key m.entries).subset hkv)

/-! ### What a lookup changes -/

section
variable {Body : Type}

/-- A lookup only adds resolved objects. -/
structure Resolves (s s' : SchemaEntry Body) : Prop where
  loaded : s'.objectListLoaded = s.objectListLoaded
  listing : s'.listing = s.listing
  grows : ∀ k ∈ s.tables, k ∈ s'.tables
  keyed : Keyed s.tables → Keyed s'.tables

theorem resolves_refl (s : SchemaEntry Body) : Resolves s s := ⟨rfl, rfl, fun _ hk => hk, id⟩

theorem resolves_trans (s t u : SchemaEntry Body) (h : Resolves s t) (h' : Resolves t u) :
    Resolves s u :=
  ⟨h'.loaded.trans h.loaded, h'.listing.trans h.listing, fun k hk => h'.grows k (h.grows k hk),
    fun hk => h'.keyed (h.keyed hk)⟩

theorem buildAndCacheEntry_resolves (d : SalesforceDescribe) (s : SchemaEntry Body) :
    Resolves s (buildAndCacheEntry d s) :=
  ⟨rfl, rfl, fun k hk => (mem_emplace s.tables _ k _).mpr (Or.inr hk),
    keyed_emplace s.tables (buildEntry d)⟩

theorem warmEntry_resolves (s : SchemaEntry Body) (key : Text) (d : SalesforceDescribe) :
    Resolves s (warmEntry s key d) := by
  unfold warmEntry
  by_cases hskip : key ∈ s.tables ∨ d.fields.length = 0
  · rw [if_pos hskip]
    exact resolves_refl s
  rw [if_neg hskip]
  by_cases hunknown : d.fields.any DescribedField.unknownType = true
  · rw [if_pos hunknown]
    exact resolves_refl s
  · rw [if_neg hunknown]
    exact buildAndCacheEntry_resolves d s

theorem warm_resolves (entries : List (Sigma fun _ : Text => SalesforceDescribe))
    (s : SchemaEntry Body) :
    Resolves s (entries.foldl (fun s kv => warmEntry s kv.1 kv.2) s) := by
  induction entries generalizing s with
  | nil => exact resolves_refl s
  | cons kv entries ih =>
    exact resolves_trans _ _ _ (warmEntry_resolves s kv.1 kv.2) (ih (warmEntry s kv.1 kv.2))

theorem warmTooling_resolves (ctx : MetadataContext) (object : Text) (s : SchemaEntry Body) :
    Resolves s (warmTooling ctx object s).2 := by
  unfold warmTooling
  by_cases htooling : ctx.usesTooling = true
  · rw [if_pos htooling]
    cases ctx.toolingDescribe (toolingBatch object s) with
    | error e => exact resolves_refl s
    | ok got =>
      cases got with
      | none => exact resolves_refl s
      | some got => exact warm_resolves got.entries s
  · rw [if_neg htooling]
    exact resolves_refl s

theorem describeObject_resolves (ctx : MetadataContext) (object : Text) (s : SchemaEntry Body) :
    Resolves s (describeObject ctx object s).2 := by
  unfold describeObject
  cases ctx.describe object with
  | error e => exact resolves_refl s
  | ok d =>
    simp only
    by_cases hexpand : ctx.expandsParents = true
    · rw [if_pos hexpand]
      have hsame : Resolves s { s with
          parentDescribeCache := (ctx.expandParents d ctx.depth s.parentDescribeCache).2 } :=
        ⟨rfl, rfl, fun _ hk => hk, id⟩
      exact resolves_trans _ _ _ hsame (buildAndCacheEntry_resolves _ _)
    · rw [if_neg hexpand]
      exact buildAndCacheEntry_resolves d s

theorem lookupEntry_resolves (type : CatalogType) (context : Option MetadataContext)
    (object : Text) (s : SchemaEntry Body) :
    Resolves s (lookupEntry type context object s).2 := by
  cases type with
  | otherEntry => exact resolves_refl s
  | tableEntry =>
    cases context with
    | none => exact resolves_refl s
    | some ctx =>
      cases hl : s.tables.lookup (lower object) with
      | some entry =>
        simp only [lookupEntry, hl]
        exact resolves_refl s
      | none =>
        have hwarm := warmTooling_resolves ctx object s
        cases hr : warmTooling ctx object s with
        | mk r warmed =>
          rw [hr] at hwarm
          cases r with
          | error e =>
            simp only [lookupEntry, hl, hr]
            exact hwarm
          | ok found =>
            cases found with
            | some entry =>
              simp only [lookupEntry, hl, hr]
              exact hwarm
            | none =>
              simp only [lookupEntry, hl, hr]
              exact resolves_trans _ _ _ hwarm (describeObject_resolves ctx object warmed)

/-! ### What loading the listing adds -/

theorem mem_listObjects (tables : MetadataMap SalesforceTableEntry) (names : List Text)
    (listing : MetadataMap SalesforceTableEntry) (k : Text) :
    (k ∈ tables ∨ k ∈ names.foldl (listObject tables) listing) ↔
      k ∈ tables ∨ k ∈ listing ∨ k ∈ names.map lower := by
  induction names generalizing listing with
  | nil => simp
  | cons x names ih =>
    rw [List.foldl_cons, ih, List.map_cons, List.mem_cons]
    unfold listObject
    by_cases hknown : lower x ∈ tables ∨ lower x ∈ listing
    · rw [if_pos hknown]
      grind
    · rw [if_neg hknown, mem_emplace]
      grind

theorem keyed_listObjects (tables : MetadataMap SalesforceTableEntry) (names : List Text)
    (listing : MetadataMap SalesforceTableEntry) (h : Keyed listing) :
    Keyed (names.foldl (listObject tables) listing) := by
  induction names generalizing listing with
  | nil => exact h
  | cons x names ih =>
    rw [List.foldl_cons]
    refine ih _ ?_
    unfold listObject
    by_cases hknown : lower x ∈ tables ∨ lower x ∈ listing
    · rw [if_pos hknown]
      exact h
    · rw [if_neg hknown]
      exact keyed_emplace listing ⟨x, []⟩ h

/-! ### Emission -/

theorem emitted_keys (s : SchemaEntry Body) (htables : Keyed s.tables)
    (hlisting : Keyed s.listing) :
    (emitResolved .tableEntry s).map (fun e => lower e.name) =
      s.tables.keys ++ s.listing.keys.filter fun k => k ∉ s.tables := by
  have hresolved : (s.tables.entries.map fun kv => kv.2).map (fun e => lower e.name) =
      s.tables.keys := by
    rw [List.map_map]
    exact List.map_congr_left htables
  have hlisted : ((s.listing.entries.filter fun kv => kv.1 ∉ s.tables).map fun kv => kv.2).map
      (fun e => lower e.name) = s.listing.keys.filter fun k => k ∉ s.tables := by
    rw [List.map_map, AList.keys, List.keys, List.filter_map]
    refine List.map_congr_left ?_
    intro kv hkv
    exact hlisting kv (List.mem_filter.mp hkv).1
  rw [emitResolved, List.map_append, hresolved, hlisted]

theorem emitted_nodup (s : SchemaEntry Body) :
    (s.tables.keys ++ s.listing.keys.filter fun k => k ∉ s.tables).Nodup := by
  refine List.nodup_append.mpr ⟨s.tables.keys_nodup, s.listing.keys_nodup.filter _, ?_⟩
  intro k hk k' hk' heq
  have hout := (List.mem_filter.mp hk').2
  rw [← heq] at hout
  exact of_decide_eq_true hout (AList.mem_keys.mpr hk)

theorem mem_emitted (s : SchemaEntry Body) (k : Text) :
    k ∈ s.tables.keys ++ s.listing.keys.filter (fun k => k ∉ s.tables) ↔
      k ∈ s.tables ∨ k ∈ s.listing := by
  rw [List.mem_append, List.mem_filter, decide_eq_true_eq]
  by_cases hk : k ∈ s.tables
  · exact ⟨fun _ => Or.inl hk, fun _ => Or.inl (AList.mem_keys.mp hk)⟩
  · refine ⟨?_, ?_⟩
    · intro h
      rcases h with h | h
      · exact Or.inl (AList.mem_keys.mpr h)
      · exact Or.inr (AList.mem_keys.mpr h.1)
    · intro h
      rcases h with h | h
      · exact absurd h hk
      · exact Or.inr ⟨AList.mem_keys.mp h, hk⟩

/-- Each described object is emitted exactly once, whatever the case of its name. -/
def ListsEachOnce (described : List Text) (emitted : List SalesforceTableEntry) : Prop :=
  ∀ x ∈ described, (emitted.map fun e => lower e.name).count (lower x) = 1

theorem listsEachOnce_iff (s : SchemaEntry Body) (described : List Text)
    (htables : Keyed s.tables) (hlisting : Keyed s.listing) :
    ListsEachOnce described (emitResolved .tableEntry s) ↔
      ∀ x ∈ described, lower x ∈ s.tables ∨ lower x ∈ s.listing := by
  unfold ListsEachOnce
  rw [emitted_keys s htables hlisting]
  refine forall₂_congr fun x _ => ?_
  rw [← mem_emitted]
  refine ⟨?_, List.count_eq_one_of_mem (emitted_nodup s)⟩
  intro hone
  exact List.count_pos_iff.mp (by omega)

/-! ### Runs -/

inductive CatalogOp where
  | lookup (type : CatalogType) (context : Option MetadataContext) (object : Text)
  | scan (type : CatalogType) (context : Option MetadataContext)
  | refresh (object : Text)

/-- The caches, and the objects of the describe that populated the listing. -/
structure ListedSchema (Body : Type) where
  schema : SchemaEntry Body
  described : List Text

def ListedSchema.attached : ListedSchema Body := ⟨.empty, []⟩

/-- The describe behind the listing once a scan with this context is done. -/
def populatedBy (ctx : MetadataContext) (w : ListedSchema Body) : List Text :=
  if w.schema.objectListLoaded then w.described
  else
    match ctx.globalDescribe with
    | .error _ => w.described
    | .ok names => names

def catalogStep (w : ListedSchema Body) : CatalogOp → Option (ListedSchema Body)
  | .lookup type context object => some ⟨(lookupEntry type context object w.schema).2, w.described⟩
  | .scan .tableEntry (some ctx) =>
    some ⟨(scan .tableEntry (some ctx) w.schema).2, populatedBy ctx w⟩
  | .scan type context => some ⟨(scan type context w.schema).2, w.described⟩
  | .refresh object => some ⟨refreshMetadata object w.schema, w.described⟩

/-- Every scan with a context that completes now emits what its listing was
populated with. -/
def ScansComplete (w : ListedSchema Body) : Prop :=
  ∀ ctx emitted schema', scan .tableEntry (some ctx) w.schema = (.ok emitted, schema') →
    ListsEachOnce (populatedBy ctx w) emitted

/-- A named refresh while the listing is loaded is not about a described object
that the loading skipped, because it was resolved already. -/
def KeepsListing (w : ListedSchema Body) : CatalogOp → Prop
  | .refresh object => object ≠ [] → w.schema.objectListLoaded = true →
      lower object ∈ w.described.map lower → lower object ∈ w.schema.listing
  | _ => True

structure ListingInvariant (w : ListedSchema Body) : Prop where
  tables : Keyed w.schema.tables
  listing : Keyed w.schema.listing
  known : w.schema.objectListLoaded = true →
    ∀ x ∈ w.described, lower x ∈ w.schema.tables ∨ lower x ∈ w.schema.listing

theorem invariant_empty (described : List Text) :
    ListingInvariant (⟨.empty, described⟩ : ListedSchema Body) :=
  ⟨keyed_empty, keyed_empty, fun h => absurd h Bool.false_ne_true⟩

theorem invariant_lookup (w : ListedSchema Body) (s' : SchemaEntry Body) (h : ListingInvariant w)
    (hs : Resolves w.schema s') : ListingInvariant ⟨s', w.described⟩ := by
  refine ⟨hs.keyed h.tables, ?_, ?_⟩
  · show Keyed s'.listing
    rw [hs.listing]
    exact h.listing
  · intro hloaded x hx
    show lower x ∈ s'.tables ∨ lower x ∈ s'.listing
    rw [hs.listing]
    rcases h.known (hs.loaded.symm.trans hloaded) x hx with hk | hk
    · exact Or.inl (hs.grows _ hk)
    · exact Or.inr hk

theorem scan_cases (ctx : MetadataContext) (s : SchemaEntry Body) :
    (s.objectListLoaded = true ∧
      scan .tableEntry (some ctx) s = (.ok (emitResolved .tableEntry s), s)) ∨
    (s.objectListLoaded = false ∧
      ((∃ e, ctx.globalDescribe = .error e ∧ scan .tableEntry (some ctx) s = (.error e, s)) ∨
        ∃ names, ctx.globalDescribe = .ok names ∧ scan .tableEntry (some ctx) s =
          (.ok (emitResolved .tableEntry (loadListing names s)), loadListing names s))) := by
  cases hloaded : s.objectListLoaded with
  | true =>
    refine Or.inl ⟨rfl, ?_⟩
    simp only [scan, ensureObjectListLoaded, hloaded, if_true]
  | false =>
    refine Or.inr ⟨rfl, ?_⟩
    cases hnames : ctx.globalDescribe with
    | error e =>
      refine Or.inl ⟨e, rfl, ?_⟩
      simp only [scan, ensureObjectListLoaded, hloaded, hnames, if_neg Bool.false_ne_true]
    | ok names =>
      refine Or.inr ⟨names, rfl, ?_⟩
      simp only [scan, ensureObjectListLoaded, hloaded, hnames, if_neg Bool.false_ne_true]

theorem invariant_load (w : ListedSchema Body) (names : List Text) (h : ListingInvariant w) :
    ListingInvariant ⟨loadListing names w.schema, names⟩ := by
  refine ⟨h.tables, keyed_listObjects _ names _ h.listing, ?_⟩
  intro _ x hx
  exact (mem_listObjects w.schema.tables names w.schema.listing (lower x)).mpr
    (Or.inr (Or.inr (List.mem_map_of_mem hx)))

theorem invariant_scan (w : ListedSchema Body) (ctx : MetadataContext) (h : ListingInvariant w) :
    ListingInvariant ⟨(scan .tableEntry (some ctx) w.schema).2, populatedBy ctx w⟩ := by
  unfold populatedBy
  rcases scan_cases ctx w.schema with ⟨hloaded, hscan⟩ | ⟨hloaded, hscan⟩
  · rw [hscan, hloaded, if_pos rfl]
    exact h
  · rw [hloaded, if_neg Bool.false_ne_true]
    rcases hscan with ⟨e, hnames, hscan⟩ | ⟨names, hnames, hscan⟩
    · rw [hscan, hnames]
      exact h
    · rw [hscan, hnames]
      exact invariant_load w names h

theorem refreshMetadata_named (object : Text) (hnamed : object ≠ []) (s : SchemaEntry Body) :
    (refreshMetadata object s).objectListLoaded = s.objectListLoaded ∧
      (refreshMetadata object s).listing = s.listing ∧
      (refreshMetadata object s).tables = s.tables.erase (lower object) := by
  unfold refreshMetadata
  rw [if_neg hnamed]
  exact ⟨rfl, rfl, rfl⟩

theorem invariant_refresh (w : ListedSchema Body) (object : Text) (h : ListingInvariant w)
    (hkeeps : KeepsListing w (.refresh object)) :
    ListingInvariant ⟨refreshMetadata object w.schema, w.described⟩ := by
  by_cases hglobal : object = []
  · rw [refreshMetadata, if_pos hglobal]
    exact invariant_empty w.described
  · obtain ⟨hflag, hlisting, htables⟩ := refreshMetadata_named object hglobal w.schema
    refine ⟨htables ▸ keyed_erase _ _ h.tables, hlisting ▸ h.listing, ?_⟩
    intro hrefreshed x hx
    have hloaded : w.schema.objectListLoaded = true := hflag.symm.trans hrefreshed
    show lower x ∈ (refreshMetadata object w.schema).tables ∨
      lower x ∈ (refreshMetadata object w.schema).listing
    rw [htables, hlisting, AList.mem_erase]
    by_cases hsame : lower x = lower object
    · refine Or.inr ?_
      rw [hsame]
      exact hkeeps hglobal hloaded (List.mem_map.mpr ⟨x, hx, hsame⟩)
    · rcases h.known hloaded x hx with hk | hk
      · exact Or.inl ⟨hsame, hk⟩
      · exact Or.inr hk

theorem invariant_step (w w' : ListedSchema Body) (op : CatalogOp) (h : ListingInvariant w)
    (hkeeps : KeepsListing w op) (hstep : catalogStep w op = some w') : ListingInvariant w' := by
  cases op with
  | lookup type context object =>
    rw [← Option.some.inj hstep]
    exact invariant_lookup w _ h (lookupEntry_resolves type context object w.schema)
  | scan type context =>
    cases type with
    | otherEntry =>
      rw [← Option.some.inj hstep]
      exact h
    | tableEntry =>
      cases context with
      | none =>
        rw [← Option.some.inj hstep]
        exact h
      | some ctx =>
        rw [← Option.some.inj hstep]
        exact invariant_scan w ctx h
  | refresh object =>
    rw [← Option.some.inj hstep]
    exact invariant_refresh w object h hkeeps

theorem invariant_complete (w : ListedSchema Body) (h : ListingInvariant w) :
    ScansComplete w := by
  intro ctx emitted schema' hscan
  have hnext := invariant_scan w ctx h
  rw [hscan] at hnext
  have hloaded : schema'.objectListLoaded = true ∧ emitted = emitResolved .tableEntry schema' := by
    rcases scan_cases ctx w.schema with ⟨hloaded, hs⟩ | ⟨_, ⟨e, _, hs⟩ | ⟨names, _, hs⟩⟩
    · rw [hs] at hscan
      cases hscan
      exact ⟨hloaded, rfl⟩
    · rw [hs] at hscan
      cases hscan
    · rw [hs] at hscan
      cases hscan
      exact ⟨rfl, rfl⟩
  rw [hloaded.2, listsEachOnce_iff schema' _ hnext.tables hnext.listing]
  exact hnext.known hloaded.1

/-! ### Where the condition fails -/

/-- A context whose org answers nothing, enough for a listing that is loaded. -/
def offline : MetadataContext :=
  ⟨none, none, none, .error [], fun _ => .error [], fun _ => .error [], fun _ _ m => ([], m)⟩

theorem complete_emitted (w : ListedSchema Body) (hloaded : w.schema.objectListLoaded = true)
    (h : ScansComplete w) :
    ListsEachOnce w.described (emitResolved .tableEntry w.schema) := by
  rcases scan_cases offline w.schema with ⟨_, hscan⟩ | ⟨hnot, _⟩
  · have hlist := h offline _ _ hscan
    rw [populatedBy, if_pos hloaded] at hlist
    exact hlist
  · rw [hloaded] at hnot
    cases hnot

/-- An object refreshed in spite of the condition is gone from the listing. -/
theorem refresh_loses_object (w : ListedSchema Body) (object : Text) (h : ListingInvariant w)
    (hcomplete : ScansComplete ⟨refreshMetadata object w.schema, w.described⟩) :
    KeepsListing w (.refresh object) := by
  intro hnamed hloaded hdescribed
  obtain ⟨hflag, hlisting, htables⟩ := refreshMetadata_named object hnamed w.schema
  obtain ⟨x, hx, hsame⟩ := List.mem_map.mp hdescribed
  have hemit := complete_emitted ⟨refreshMetadata object w.schema, w.described⟩
    (hflag.trans hloaded) hcomplete
  have hknown := (listsEachOnce_iff _ _ (htables ▸ keyed_erase _ _ h.tables)
    (hlisting ▸ h.listing)).mp hemit x hx
  rw [htables, hlisting, hsame, AList.mem_erase] at hknown
  rcases hknown with hk | hk
  · exact absurd rfl hk.1
  · exact hk

/-- In every run whose steps keep the listing, all scans are complete, and the
first step that does not keep it makes the next scan incomplete. -/
theorem listing_complete_iff (w : ListedSchema Body)
    (hrun : Reaches catalogStep KeepsListing .attached w) :
    ScansComplete w ∧
      ∀ op w', catalogStep w op = some w' → (ScansComplete w' ↔ KeepsListing w op) := by
  have h : ListingInvariant w :=
    reaches_invariant ListingInvariant (invariant_empty []) invariant_step w hrun
  refine ⟨invariant_complete w h, ?_⟩
  intro op w' hstep
  refine ⟨?_, fun hkeeps => invariant_complete w' (invariant_step w w' op h hkeeps hstep)⟩
  intro hcomplete
  cases op with
  | lookup type context object => trivial
  | scan type context => trivial
  | refresh object =>
    rw [← Option.some.inj hstep] at hcomplete
    exact refresh_loses_object w object h hcomplete

end

/-! ### Two objects, one of them resolved before the first scan -/

def salesOrg : MetadataContext :=
  { offline with
    sobjects := .ok [⟨"Account".toList, true⟩, ⟨"Contact".toList, true⟩, ⟨"Feed".toList, false⟩]
    describeFields := fun _ => .ok [⟨.flat "Id".toList "id".toList .varchar true true, false⟩] }

def resolvedFirst : List CatalogOp :=
  [.lookup .tableEntry (some salesOrg) "Account".toList, .scan .tableEntry (some salesOrg)]

theorem contact_refresh_complete :
    ∃ w : ListedSchema Text, runEvents catalogStep (resolvedFirst ++ [.refresh "CONTACT".toList])
      .attached = some w ∧ w.described = ["Account".toList, "Contact".toList] ∧ ScansComplete w := by
  have hstart : Reaches catalogStep KeepsListing .attached (.attached : ListedSchema Text) := .start
  have hlookup := Reaches.step _ _ (CatalogOp.lookup .tableEntry (some salesOrg) "Account".toList)
    hstart trivial rfl
  have hscan := Reaches.step _ _ (CatalogOp.scan .tableEntry (some salesOrg)) hlookup trivial rfl
  have hrefresh := Reaches.step _ _ (CatalogOp.refresh "CONTACT".toList) hscan
    (fun _ _ _ => by decide) rfl
  exact ⟨_, rfl, rfl, (listing_complete_iff _ hrefresh).1⟩

theorem account_refresh_loses :
    ¬ ∀ w : ListedSchema Text, Reaches catalogStep anyStep .attached w → ScansComplete w := by
  intro h
  have hrun := @reaches_events _ _ catalogStep _ (resolvedFirst ++ [.refresh "Account".toList])
    (.attached : ListedSchema Text) _ .start rfl
  have hlist := h _ hrun salesOrg _ _ rfl "Account".toList (List.mem_cons_self ..)
  exact absurd hlist (by decide)

end DuckdbSalesforce
