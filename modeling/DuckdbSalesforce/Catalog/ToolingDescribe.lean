import DuckdbSalesforce.Bulk.ResultPages
import DuckdbSalesforce.Catalog.ToolingRecords
import DuckdbSalesforce.DeleteSync.QueryAll
import DuckdbSalesforce.Library.Fallible
import DuckdbSalesforce.Library.PageChain

/-!
# The tooling schema source (`ToolingDescribe`, `salesforce_session.cpp`)

The fields of many objects are read with few queries on FieldDefinition, each
answered in pages.
-/

namespace DuckdbSalesforce
open Fallible PageChain

/-! ### Queries -/

def kToolingChunk : ℕ := 100
def kToolingMaxPages : ℕ := 100000

def toolingChunks (objects : List Text) : List (List Text) :=
  (List.range ((objects.length + kToolingChunk - 1) / kToolingChunk)).map fun i =>
    (objects.drop (kToolingChunk * i)).take kToolingChunk

def quoteObject (name : Text) : Text :=
  '\'' :: name.flatMap (fun c => if c = '\\' ∨ c = '\'' then ['\\', c] else [c]) ++ ['\'']

def toolingPath (apiVersion : Text) (chunk : List Text) : Text :=
  "/services/data/".toList ++ apiVersion ++ "/tooling/query?q=".toList ++
    urlEncode ("SELECT EntityDefinition.QualifiedApiName, QualifiedApiName, DataType, ".toList ++
      "IsCompound, IsFilterable FROM FieldDefinition WHERE ".toList ++
      "EntityDefinition.QualifiedApiName IN (".toList ++
      joinText [','] (chunk.map quoteObject) ++ [')'])

/-- What a chunk, or a call, has come to: the paths requested and the describes. -/
structure ToolingResult (Requests : Type) where
  ok : Bool
  requests : Requests
  out : MetadataMap SalesforceDescribe

/-- The answer to the `n`-th request; `send` may throw. -/
abbrev ToolingService := ℕ → Text → Except Text HttpResponse

section Queries
variable (send : ToolingService)

/-- The pages of one chunk from the `n`-th request on. The guard ends the loop
like the last page does. -/
def toolingPages : ℕ → List Text → ℕ → Text → MetadataMap SalesforceDescribe →
    Except Text (ToolingResult (List Text))
  | left, seen, n, path, out =>
    (send n path).bind fun resp =>
      if resp.status ≠ 200 then .ok ⟨false, [path], out⟩
      else
        let out := ((getObjectArray resp.body "records".toList).map readFieldDefinition).foldl
          addDefinition out
        let next := getString resp.body "nextRecordsUrl".toList
        if getBool resp.body "done".toList true || next == [] then .ok ⟨true, [path], out⟩
        else
          match left with
          | 0 => .ok ⟨true, [path], out⟩
          | left + 1 =>
            if next ∈ seen then .ok ⟨true, [path], out⟩
            else (toolingPages left (seen ++ [next]) (n + 1) next out).map fun r =>
              { r with requests := path :: r.requests }

def toolingLoop : ℕ → List Text → MetadataMap SalesforceDescribe →
    Except Text (ToolingResult (List (List Text)))
  | _, [], out => .ok ⟨true, [], out⟩
  | n, path :: paths, out =>
    (toolingPages send kToolingMaxPages [] n path out).bind fun r =>
      if r.ok then
        (toolingLoop (n + r.requests.length) paths r.out).map fun rest =>
          { rest with requests := r.requests :: rest.requests }
      else .ok ⟨false, [r.requests], r.out⟩

def toolingDescribe (apiVersion : Text) (objects : List Text) :
    Except Text (ToolingResult (List (List Text))) :=
  toolingLoop send 0 ((toolingChunks objects).map (toolingPath apiVersion)) ∅

end Queries

/-! ### Pages -/

/-- A record of an answer, with the definition it spells out. -/
structure ToolingRecord where
  object : JsonText.ObjectText
  definition : FieldDefinition
  spelled : SpellsOut object definition

structure ToolingPage where
  records : List ToolingRecord
  isDone : Bool
  next : Option Text

def ToolingPage.texts (page : ToolingPage) : List Text := page.records.map fun r => r.object.text

/-- The body is a JSON object that says this, and its members are found. -/
structure PageText (body : Text) (page : ToolingPage) : Prop where
  object : ∃ o : JsonText.ObjectText, body = o.text ∧
    (∃ lead elements, HasMember o "records".toList (.array lead elements) ∧ AllObjects elements ∧
      elementTexts elements = page.texts) ∧
    HasMember o "done".toList (.bool page.isDone) ∧
    match page.next with
    | some t => t ≠ [] ∧ HasText o "nextRecordsUrl".toList t
    | none => LacksMember o "nextRecordsUrl".toList ∨ HasMember o "nextRecordsUrl".toList .null ∨
        HasText o "nextRecordsUrl".toList []

theorem page_read (body : Text) (page : ToolingPage) (h : PageText body page) :
    getObjectArray body "records".toList = page.texts ∧
      getBool body "done".toList true = page.isDone ∧
      getString body "nextRecordsUrl".toList = page.next.getD [] := by
  obtain ⟨o, rfl, ⟨lead, elements, hrecords, hobjects, htexts⟩, hdone, hnext⟩ := h.object
  refine ⟨?_, getBool_member o _ _ true hdone, ?_⟩
  · rw [getObjectArray_member o _ lead elements hobjects hrecords, htexts]
  · cases hpage : page.next with
    | some t =>
      rw [hpage] at hnext
      exact getString_text o _ t hnext.2
    | none =>
      rw [hpage] at hnext
      rcases hnext with hlacks | hnull | hempty
      · exact getString_lacking o _ hlacks
      · obtain ⟨_, _, _, _, hread⟩ := member_found o _ _ hnull
        exact hread
      · exact getString_text o _ [] hempty

/-- The pages the service answers with, where it answers with status 200. -/
def Serves (send : ToolingService) (pages : ℕ → Text → Option ToolingPage) : Prop :=
  ∀ n path, match send n path with
    | .error _ => pages n path = none
    | .ok resp =>
      if resp.status = 200 then ∃ page, pages n path = some page ∧ PageText resp.body page
      else pages n path = none

/-- The definitions of the pages, as they are read. -/
def readOf (pgs : List ToolingPage) : List FieldDefinition :=
  pgs.flatMap fun pg => pg.texts.map readFieldDefinition

/-- The definitions of the pages, as their records spell them out. -/
def definitionsOf (pgs : List ToolingPage) : List FieldDefinition :=
  pgs.flatMap fun pg => pg.records.map ToolingRecord.definition

theorem readOf_append (as bs : List ToolingPage) : readOf (as ++ bs) = readOf as ++ readOf bs :=
  List.flatMap_append

abbrev readPages (pages : ℕ → Text → Option ToolingPage) :=
  PageChain.read pages ToolingPage.isDone ToolingPage.next

abbrev requestedPaths := requested ToolingPage.next

section Run
variable (send : ToolingService) (pages : ℕ → Text → Option ToolingPage) (hserves : Serves send pages)
include hserves

theorem serves_cases (n : ℕ) (path : Text) :
    (pages n path = none ∧ ((∃ e, send n path = .error e) ∨
      ∃ resp, send n path = .ok resp ∧ resp.status ≠ 200)) ∨
    ∃ resp page, send n path = .ok resp ∧ resp.status = 200 ∧ pages n path = some page ∧
      PageText resp.body page := by
  have h := hserves n path
  cases hsend : send n path with
  | error e =>
    rw [hsend] at h
    exact Or.inl ⟨h, Or.inl ⟨e, rfl⟩⟩
  | ok resp =>
    rw [hsend] at h
    simp only at h
    split at h
    · rename_i hstatus
      obtain ⟨page, hpage, htext⟩ := h
      exact Or.inr ⟨resp, page, rfl, hstatus, hpage, htext⟩
    · rename_i hstatus
      exact Or.inl ⟨h, Or.inr ⟨resp, rfl, hstatus⟩⟩

omit hserves in
theorem toolingPages_stop (left : ℕ) (seen : List Text) (n : ℕ) (path : Text)
    (out : MetadataMap SalesforceDescribe) (resp : HttpResponse) (page : ToolingPage)
    (hsend : send n path = .ok resp) (hstatus : resp.status = 200) (htext : PageText resp.body page)
    (hstop : page.isDone = true ∨ GivesUp ToolingPage.next left seen page) :
    toolingPages send left seen n path out =
      .ok ⟨true, [path], (readOf [page]).foldl addDefinition out⟩ := by
  obtain ⟨hrecords, hdone, hnext⟩ := page_read resp.body page htext
  have hdefs : readOf [page] = page.texts.map readFieldDefinition := List.append_nil _
  unfold toolingPages
  rw [hsend, Except.bind]
  simp only [hstatus, ne_eq, not_true_eq_false, if_false, hrecords, hdone, hnext, ← hdefs]
  split
  · rfl
  rename_i hmore
  simp only [Bool.or_eq_true, not_or, Bool.not_eq_true, beq_eq_false_iff_ne] at hmore
  obtain ⟨hundone, hne⟩ := hmore
  rcases hstop with htrue | hup
  · rw [hundone] at htrue
    cases htrue
  · cases hq : page.next with
    | none =>
      rw [hq] at hne
      exact absurd rfl hne
    | some q =>
      rcases hup q hq with rfl | hseen
      · rfl
      · cases left with
        | zero => rfl
        | succ left => exact if_pos hseen

omit hserves in
theorem toolingPages_more (left : ℕ) (seen : List Text) (n : ℕ) (path q : Text)
    (out : MetadataMap SalesforceDescribe) (resp : HttpResponse) (page : ToolingPage)
    (hsend : send n path = .ok resp) (hstatus : resp.status = 200) (htext : PageText resp.body page)
    (hundone : page.isDone = false) (hq : page.next = some q) (hnew : q ∉ seen) :
    toolingPages send (left + 1) seen n path out =
      (toolingPages send left (seen ++ [q]) (n + 1) q
        ((readOf [page]).foldl addDefinition out)).map
          fun r => { r with requests := path :: r.requests } := by
  obtain ⟨hrecords, hdone, hnext⟩ := page_read resp.body page htext
  have hdefs : readOf [page] = page.texts.map readFieldDefinition := List.append_nil _
  have hne : q ≠ [] := by
    obtain ⟨_, _, _, _, hmatch⟩ := htext.object
    rw [hq] at hmatch
    exact hmatch.1
  conv_lhs => unfold toolingPages
  rw [hsend, Except.bind]
  have hgo : (page.isDone || page.next.getD [] == []) = false := by
    rw [hundone, hq]
    simpa using hne
  simp only [hstatus, ne_eq, not_true_eq_false, if_false, hrecords, hdone, hnext, ← hdefs, hgo,
    Bool.false_eq_true]
  rw [hq, Option.getD_some, if_neg hnew]

/-- The loop reads what the reader of chains reads. -/
theorem toolingPages_read (left : ℕ) (seen : List Text) (n : ℕ) (path : Text)
    (out : MetadataMap SalesforceDescribe) :
    ((readPages pages left seen n path).2 = .failed →
      ∀ r, toolingPages send left seen n path out = .ok r → r.ok = false) ∧
    ((readPages pages left seen n path).2 ≠ .failed →
      toolingPages send left seen n path out =
        .ok ⟨true, requestedPaths path (readPages pages left seen n path).1,
          (readOf (readPages pages left seen n path).1).foldl addDefinition out⟩) := by
  unfold readPages
  induction left using Nat.strongRecOn generalizing seen n path out with
  | ind left ih =>
    rcases serves_cases send pages hserves n path with
      ⟨hnone, hrefused⟩ | ⟨resp, page, hsend, hstatus, hpage, htext⟩
    · rw [read_refused pages _ _ left seen n path hnone]
      refine ⟨fun _ r hr => ?_, fun h => absurd rfl h⟩
      unfold toolingPages at hr
      rcases hrefused with ⟨e, he⟩ | ⟨resp, hsend, hstatus⟩
      · rw [he] at hr
        cases hr
      · rw [hsend] at hr
        simp only [Except.bind, if_pos hstatus] at hr
        rw [← Except.ok.inj hr]
    · cases hdone : page.isDone with
      | true =>
        rw [read_last pages _ _ left seen n path page hpage hdone,
          toolingPages_stop send left seen n path out resp page hsend hstatus htext (Or.inl hdone)]
        exact ⟨fun h => (by cases h), fun _ => rfl⟩
      | false =>
        rcases givesUp_or ToolingPage.next left seen page with hup | ⟨q, m, hq, rfl, hnew⟩
        · rw [read_cut pages _ _ left seen n path page hpage hdone hup,
            toolingPages_stop send left seen n path out resp page hsend hstatus htext (Or.inr hup)]
          exact ⟨fun h => (by cases h), fun _ => rfl⟩
        · rw [read_more pages _ _ m seen n path q page hpage hdone hq hnew,
            toolingPages_more send m seen n path q out resp page hsend hstatus htext hdone hq hnew]
          obtain ⟨hfailed, hread⟩ := ih m (Nat.lt_succ_self m) (seen ++ [q]) (n + 1) q
            ((readOf [page]).foldl addDefinition out)
          constructor
          · intro hstop r hr
            obtain ⟨r', hr', rfl⟩ := map_ok hr
            exact hfailed hstop r' hr'
          · intro hstop
            have hlen := read_length pages ToolingPage.isDone ToolingPage.next m (seen ++ [q]) (n + 1) q
              hstop
            have hne : (PageChain.read pages ToolingPage.isDone ToolingPage.next m (seen ++ [q])
                (n + 1) q).1 ≠ [] := by
              intro hnil
              rw [hnil] at hlen
              cases hlen
            have hdefs := readOf_append [page] (PageChain.read pages ToolingPage.isDone
              ToolingPage.next m (seen ++ [q]) (n + 1) q).1
            rw [List.singleton_append] at hdefs
            have hrequests := followed_cons ToolingPage.next page _ q hne hq
            unfold requestedPaths requested at hread ⊢
            rw [hread hstop, hdefs, List.foldl_append, hrequests]
            rfl

theorem toolingLoop_read (paths : List Text) (n : ℕ) (out : MetadataMap SalesforceDescribe) :
    ((∃ r ∈ readAll pages ToolingPage.isDone ToolingPage.next kToolingMaxPages n paths,
        r.2 = .failed) → ∀ r, toolingLoop send n paths out = .ok r → r.ok = false) ∧
    ((∀ r ∈ readAll pages ToolingPage.isDone ToolingPage.next kToolingMaxPages n paths,
        r.2 ≠ .failed) → toolingLoop send n paths out = .ok ⟨true,
      List.zipWith requestedPaths paths ((readAll pages ToolingPage.isDone ToolingPage.next
        kToolingMaxPages n paths).map Prod.fst),
      (readOf ((readAll pages ToolingPage.isDone ToolingPage.next kToolingMaxPages n
        paths).map Prod.fst).flatten).foldl addDefinition out⟩) := by
  induction paths generalizing n out with
  | nil =>
    refine ⟨?_, fun _ => rfl⟩
    intro hgiven
    obtain ⟨r, hr, _⟩ := hgiven
    cases hr
  | cons path paths ih =>
    obtain ⟨hfailed, hread⟩ := toolingPages_read send pages hserves kToolingMaxPages [] n path out
    unfold readPages at hfailed hread
    rw [readAll, toolingLoop]
    by_cases hstop : (PageChain.read pages ToolingPage.isDone ToolingPage.next kToolingMaxPages []
        n path).2 = .failed
    · simp only [if_pos hstop]
      refine ⟨fun _ r hr => ?_, fun h => absurd hstop (h _ (List.mem_singleton_self _))⟩
      obtain ⟨r', hr', hround⟩ := bind_ok hr
      rw [hfailed hstop r' hr'] at hround
      rw [← Except.ok.inj hround]
    · simp only [if_neg hstop]
      have hlen := read_length pages ToolingPage.isDone ToolingPage.next kToolingMaxPages [] n path hstop
      obtain ⟨ihfailed, ihread⟩ := ih (n + (PageChain.read pages ToolingPage.isDone ToolingPage.next
        kToolingMaxPages [] n path).1.length) ((readOf (PageChain.read pages
          ToolingPage.isDone ToolingPage.next kToolingMaxPages [] n path).1).foldl addDefinition out)
      rw [hread hstop, Except.bind]
      have hrequests : (requestedPaths path (PageChain.read pages ToolingPage.isDone ToolingPage.next
          kToolingMaxPages [] n path).1).length = (PageChain.read pages ToolingPage.isDone
          ToolingPage.next kToolingMaxPages [] n path).1.length := hlen
      simp only [if_true, hrequests]
      constructor
      · intro hgiven res hres
        obtain ⟨r, hr, hbad⟩ := hgiven
        rcases List.mem_cons.mp hr with rfl | hr
        · exact absurd hbad hstop
        · obtain ⟨res', hres', rfl⟩ := map_ok hres
          exact ihfailed ⟨r, hr, hbad⟩ res' hres'
      · intro hall
        rw [ihread fun r hr => hall r (List.mem_cons_of_mem _ hr), List.map_cons, List.flatten_cons,
          readOf_append, List.foldl_append]
        rfl

end Run

/-! ### The describes -/

/-- The fields that definitions give the object with this key, in their order. -/
def fieldsFor (defs : List FieldDefinition) (key : Text) : List DescribedField :=
  (defs.filter fun d => d.IsField ∧ lower d.object = key).map toolingField

def fieldsAt (out : MetadataMap SalesforceDescribe) (key : Text) : List DescribedField :=
  match out.lookup key with
  | none => []
  | some d => d.fields

theorem fieldsFor_append (as bs : List FieldDefinition) (key : Text) :
    fieldsFor (as ++ bs) key = fieldsFor as key ++ fieldsFor bs key := by
  unfold fieldsFor
  rw [List.filter_append, List.map_append]

theorem addDefinition_fields (out : MetadataMap SalesforceDescribe) (d : FieldDefinition)
    (key : Text) : fieldsAt (addDefinition out d) key = fieldsAt out key ++ fieldsFor [d] key := by
  unfold addDefinition
  by_cases hkept : d.isKept = true
  · have hfield := (isKept_iff d).mp hkept
    rw [if_pos hkept]
    by_cases hkey : lower d.object = key
    · subst hkey
      have hone : fieldsFor [d] (lower d.object) = [toolingField d] := by simp [fieldsFor, hfield]
      rw [hone]
      unfold fieldsAt
      rw [AList.lookup_insert]
      cases out.lookup (lower d.object) <;> rfl
    · have hnone : fieldsFor [d] key = [] := by simp [fieldsFor, hkey]
      rw [hnone, List.append_nil]
      unfold fieldsAt
      rw [AList.lookup_insert_ne (Ne.symm hkey)]
  · have hfield := (isKept_iff d).not.mp hkept
    have hnone : fieldsFor [d] key = [] := by simp [fieldsFor, hfield]
    rw [if_neg hkept, hnone, List.append_nil]

theorem definitions_fields (defs : List FieldDefinition) (out : MetadataMap SalesforceDescribe)
    (key : Text) :
    fieldsAt (defs.foldl addDefinition out) key = fieldsAt out key ++ fieldsFor defs key := by
  induction defs generalizing out with
  | nil => exact (List.append_nil _).symm
  | cons d defs ih =>
    rw [List.foldl_cons, ih, addDefinition_fields, List.append_assoc, ← fieldsFor_append,
      List.singleton_append]

/-- Records that are found and plain give the fields that they spell out. -/
theorem fieldsFor_read (records : List ToolingRecord) (key : Text)
    (h : ∀ r ∈ records, DefinitionLookups r.object ∧ DefinitionPlain r.object) :
    fieldsFor (records.map fun r => readFieldDefinition r.object.text) key =
      fieldsFor (records.map ToolingRecord.definition) key := by
  induction records with
  | nil => rfl
  | cons r records ih =>
    obtain ⟨hlookups, hplain⟩ := h r List.mem_cons_self
    obtain ⟨hkept, hsame⟩ := record_read r.object r.definition r.spelled hlookups hplain
    rw [isKept_iff] at hkept
    have hrest := ih fun r' hr' => h r' (List.mem_cons_of_mem _ hr')
    have hhead : fieldsFor [readFieldDefinition r.object.text] key = fieldsFor [r.definition] key := by
      by_cases hfield : r.definition.IsField
      · rw [hsame hfield]
      · simp [fieldsFor, hfield, hkept]
    rw [List.map_cons, List.map_cons, ← List.singleton_append, fieldsFor_append, hhead, hrest,
      ← fieldsFor_append, List.singleton_append]

/-! ### Completeness -/

/-- A call that returns true has requested every page of every chunk's chain, and
each object has exactly the fields that its records spell out. -/
def ToolingComplete (pages : ℕ → Text → Option ToolingPage) (paths : List Text)
    (result : Except Text (ToolingResult (List (List Text)))) : Prop :=
  ∀ r, result = .ok r → r.ok = true → ∃ pss : List (List ToolingPage),
    Chains pages ToolingPage.isDone ToolingPage.next 0 paths pss ∧
    r.requests = List.zipWith requestedPaths paths pss ∧
    ∀ key d, r.out.lookup key = some d → d.fields = fieldsFor (definitionsOf pss.flatten) key

section Complete
variable (send : ToolingService) (pages : ℕ → Text → Option ToolingPage) (paths : List Text)

/-- A request is refused, or every chain ends within the guard's limits. -/
def NoChainCut : Prop :=
  (∃ r ∈ readAll pages ToolingPage.isDone ToolingPage.next kToolingMaxPages 0 paths,
    r.2 = .failed) ∨
  ∃ pss, AllWithin pages ToolingPage.isDone ToolingPage.next kToolingMaxPages 0 paths pss

/-- It holds of all records on the chains. -/
def OnChains (P : JsonText.ObjectText → Prop) : Prop :=
  ∀ pss, Chains pages ToolingPage.isDone ToolingPage.next 0 paths pss →
    ∀ pg ∈ pss.flatten, ∀ r ∈ pg.records, P r.object

theorem fieldsFor_chains (pss : List (List ToolingPage))
    (hchains : Chains pages ToolingPage.isDone ToolingPage.next 0 paths pss)
    (hlookups : OnChains pages paths DefinitionLookups)
    (hplain : OnChains pages paths DefinitionPlain) (key : Text) :
    fieldsFor (readOf pss.flatten) key = fieldsFor (definitionsOf pss.flatten) key := by
  have hread : readOf pss.flatten = (pss.flatten.flatMap ToolingPage.records).map
      fun r => readFieldDefinition r.object.text := by
    rw [List.map_flatMap, readOf]
    exact List.flatMap_congr fun pg _ => by rw [ToolingPage.texts, List.map_map]; rfl
  rw [hread, definitionsOf, ← List.map_flatMap]
  refine fieldsFor_read _ key fun r hr => ?_
  obtain ⟨pg, hpg, hmem⟩ := List.mem_flatMap.mp hr
  exact ⟨hlookups pss hchains pg hpg r hmem, hplain pss hchains pg hpg r hmem⟩

theorem loop_complete (hserves : Serves send pages) (hcut : NoChainCut pages paths)
    (hlookups : OnChains pages paths DefinitionLookups)
    (hplain : OnChains pages paths DefinitionPlain) :
    ToolingComplete pages paths (toolingLoop send 0 paths ∅) := by
  obtain ⟨hfailed, hread⟩ := toolingLoop_read send pages hserves paths 0 ∅
  intro r hr hok
  rcases hcut with hrefused | ⟨pss, hwithin⟩
  · rw [hfailed hrefused r hr] at hok
    cases hok
  · obtain ⟨_, hreads⟩ := (readAll_complete _ _ _ kToolingMaxPages 0 paths pss).mp hwithin
    have hpages : (readAll pages ToolingPage.isDone ToolingPage.next kToolingMaxPages 0 paths).map
        Prod.fst = pss := by
      rw [hreads, List.map_map]
      exact List.map_id _
    have hall : ∀ r ∈ readAll pages ToolingPage.isDone ToolingPage.next kToolingMaxPages 0 paths,
        r.2 ≠ .failed := by
      rw [hreads]
      intro r hr
      obtain ⟨pgs, _, rfl⟩ := List.mem_map.mp hr
      exact fun h => nomatch h
    rw [hread hall] at hr
    rw [← Except.ok.inj hr, hpages]
    refine ⟨pss, hwithin.1, rfl, ?_⟩
    intro key d hd
    have hfields := definitions_fields (readOf pss.flatten) ∅ key
    unfold fieldsAt at hfields
    rw [hd, fieldsFor_chains pages paths pss hwithin.1 hlookups hplain key] at hfields
    exact hfields

theorem loop_uncut (hserves : Serves send pages)
    (hcomplete : ToolingComplete pages paths (toolingLoop send 0 paths ∅)) :
    NoChainCut pages paths := by
  obtain ⟨_, hread⟩ := toolingLoop_read send pages hserves paths 0 ∅
  by_cases hrefused : ∃ r ∈ readAll pages ToolingPage.isDone ToolingPage.next kToolingMaxPages 0
      paths, r.2 = .failed
  · exact Or.inl hrefused
  have hall : ∀ r ∈ readAll pages ToolingPage.isDone ToolingPage.next kToolingMaxPages 0 paths,
      r.2 ≠ .failed := fun r hr hbad => hrefused ⟨r, hr, hbad⟩
  rw [hread hall] at hcomplete
  obtain ⟨pss, hchains, hrequests, _⟩ := hcomplete _ rfl rfl
  refine Or.inr ⟨pss, (readAll_complete _ _ _ kToolingMaxPages 0 paths pss).mpr ⟨?_, ?_⟩⟩
  · exact chains_length _ _ _ hchains
  · exact readAll_chains _ _ _ kToolingMaxPages 0 paths pss hchains hrequests

end Complete

/-- With the members found, a call is complete where no chain is cut and all
records are plain, and only where no chain is cut. -/
theorem tooling_complete_iff (send : ToolingService) (pages : ℕ → Text → Option ToolingPage)
    (hserves : Serves send pages) (apiVersion : Text) (objects : List Text)
    (hlookups : OnChains pages ((toolingChunks objects).map (toolingPath apiVersion))
      DefinitionLookups) :
    (NoChainCut pages ((toolingChunks objects).map (toolingPath apiVersion)) ∧
        OnChains pages ((toolingChunks objects).map (toolingPath apiVersion)) DefinitionPlain →
      ToolingComplete pages ((toolingChunks objects).map (toolingPath apiVersion))
        (toolingDescribe send apiVersion objects)) ∧
    (ToolingComplete pages ((toolingChunks objects).map (toolingPath apiVersion))
        (toolingDescribe send apiVersion objects) →
      NoChainCut pages ((toolingChunks objects).map (toolingPath apiVersion))) :=
  ⟨fun h => loop_complete send pages _ hserves h.1 hlookups h.2, loop_uncut send pages _ hserves⟩

/-! ### A page that comes again -/

def toolingBody (done : Bool) (rest : JsonText.Members) : JsonText.ObjectText :=
  ⟨.none, .none, memberOf "done" (.bool done) rest, .none⟩

/-- A field of the account object, its entity with a URL. -/
def fieldMembers (url name : String) : JsonText.Members :=
  memberOf "EntityDefinition" (.object .none (memberOf "url" (textOf url)
      (memberOf "QualifiedApiName" (textOf "Account") .nil)))
    (memberOf "QualifiedApiName" (textOf name) (memberOf "DataType" (textOf "Text(255)")
      (memberOf "IsCompound" (.bool false) (memberOf "IsFilterable" (.bool true) .nil))))

def fieldObject (url name : String) : JsonText.ObjectText := recordObject .none (fieldMembers url name)

def accountDefinition (name : String) : FieldDefinition :=
  ⟨"Account".toList, name.toList, "Text(255)".toList, false, true⟩

def nameRecord : ToolingRecord :=
  ⟨fieldObject "/a" "Name", accountDefinition "Name", ⟨rfl, rfl, rfl, rfl, rfl⟩⟩

/-- The URL opens a brace. -/
def braceRecord : ToolingRecord :=
  ⟨fieldObject "a\x7b" "Type", accountDefinition "Type", ⟨rfl, rfl, rfl, rfl, rfl⟩⟩

theorem field_lookups (url name : String) (h : (url, name) ∈ [("/a", "Name"), ("a\x7b", "Type")]) :
    DefinitionLookups (fieldObject url name) := by
  refine ⟨?_, ?_, ?_⟩
  · unfold MemberFound
    rcases List.mem_pair.mp h with h | h <;> cases h <;> decide +kernel
  · intro e he
    rw [← Option.some.inj he]
    unfold MemberFound
    rcases List.mem_pair.mp h with h | h <;> cases h <;> decide +kernel
  · intro m lead members hfind hvalue key hkey
    -- without the block the record does not depend on the URL
    have hrest : m.before ++ m.after = '{' :: ',' :: (JsonText.Members.render (memberOf
        "QualifiedApiName" (textOf name) (memberOf "DataType" (textOf "Text(255)")
        (memberOf "IsCompound" (.bool false) (memberOf "IsFilterable" (.bool true) .nil)))) ++ ['}']) := by
      rw [← Option.some.inj hfind]
      rfl
    rw [hrest]
    have hname : name ∈ ["Name", "Type"] := by
      rcases List.mem_pair.mp h with h | h <;> cases h <;> decide
    simp only [definitionKeys, List.mem_cons, List.not_mem_nil, or_false] at hkey
    rcases hkey with rfl | rfl | rfl | rfl
    · refine lookupFinds_at _ _ (textOf name) 21 ?_ ?_ ?_ <;>
        rcases List.mem_pair.mp hname with rfl | rfl <;> decide +kernel
    · refine lookupFinds_at _ _ (textOf "Text(255)") 39 ?_ ?_ ?_ <;>
        rcases List.mem_pair.mp hname with rfl | rfl <;> decide +kernel
    · refine lookupFinds_at _ _ (.bool false) 64 ?_ ?_ ?_ <;>
        rcases List.mem_pair.mp hname with rfl | rfl <;> decide +kernel
    · refine lookupFinds_at _ _ (.bool true) 85 ?_ ?_ ?_ <;>
        rcases List.mem_pair.mp hname with rfl | rfl <;> decide +kernel

theorem nameRecord_plain : DefinitionPlain nameRecord.object := by
  have hplain : ∀ (o : JsonText.ObjectText) (key : Text) (f : JsonText.Found) (t : String),
      o.find key = some f → f.value = textOf t →
      (∀ x ∈ JsonText.spell t.toList, plainlyEscaped x = true) → PlainMember o key := by
    intro o key f t hfind hvalue ht
    refine (plainMember_found o key f hfind).mpr fun items hitems => ?_
    rw [hvalue] at hitems
    cases hitems
    exact ht
  refine ⟨?_, ?_, ?_, ?_⟩
  · intro m lead members hfind hvalue
    rw [← Option.some.inj hfind] at hvalue
    cases hvalue
    decide +kernel
  · intro e he
    rw [← Option.some.inj he]
    exact hplain _ _ _ "Account" rfl rfl (by decide)
  · exact hplain _ _ _ "Name" rfl rfl (by decide)
  · exact hplain _ _ _ "Text(255)" rfl rfl (by decide)

/-- `{"done":true,"records":[...]}`. -/
def lastBody (records : JsonText.Elements) : JsonText.ObjectText :=
  toolingBody true (memberOf "records" (.array .none records) .nil)

def nameElements : JsonText.Elements := .cons .none (.object .none (fieldMembers "/a" "Name")) .none .nil

def braceElements : JsonText.Elements :=
  .cons .none (.object .none (fieldMembers "/a" "Name")) .none
    (.cons .none (.object .none (fieldMembers "a\x7b" "Type")) .none .nil)

theorem lastPage_said (elements : JsonText.Elements) (records : List ToolingRecord)
    (h : elements = nameElements ∨ elements = braceElements)
    (htexts : elementTexts elements = records.map fun r => r.object.text) :
    PageText (lastBody elements).text ⟨records, true, none⟩ := by
  have hrecords : HasMember (lastBody elements) "records".toList (.array .none elements) := by
    refine hasMember_of _ _ _ ⟨_, rfl, ?_, rfl⟩
    rcases h with rfl | rfl <;> decide +kernel
  have hdone : HasMember (lastBody elements) "done".toList (.bool true) := by
    refine hasMember_of _ _ _ ⟨_, rfl, ?_, rfl⟩
    rcases h with rfl | rfl <;> decide +kernel
  have hnext : LacksMember (lastBody elements) "nextRecordsUrl".toList := by
    refine lacksMember_of _ _ rfl ?_
    rcases h with rfl | rfl <;> decide +kernel
  have hobjects : AllObjects elements := by
    rcases h with rfl | rfl
    · exact ⟨⟨_, _, rfl⟩, trivial⟩
    · exact ⟨⟨_, _, rfl⟩, ⟨_, _, rfl⟩, trivial⟩
  exact ⟨lastBody elements, rfl, ⟨_, _, hrecords, hobjects, htexts⟩, hdone, Or.inl hnext⟩

/-- One request, answered with the last page. -/
theorem lastPage_chains (page : ToolingPage) (hdone : page.isDone = true) (path : Text)
    (pss : List (List ToolingPage)) :
    Chains (fun _ _ => some page) ToolingPage.isDone ToolingPage.next 0 [path] pss ↔
      pss = [[page]] := by
  constructor
  · intro h
    cases h with
    | cons _ _ _ pgs _ hchain hrest =>
      cases hrest
      cases hchain with
      | last _ _ _ hget _ => rw [Option.some.inj hget]
      | more _ _ _ _ _ hget hundone _ _ =>
        rw [← Option.some.inj hget, hdone] at hundone
        cases hundone
  · rintro rfl
    exact .cons _ _ _ _ _ (.last _ _ _ rfl hdone) (.nil _)

theorem account_complete :
    ToolingComplete (fun _ _ => some ⟨[nameRecord], true, none⟩)
      ((toolingChunks ["Account".toList]).map (toolingPath "v60.0".toList))
      (toolingDescribe (fun _ _ => .ok ⟨200, (lastBody nameElements).text, []⟩) "v60.0".toList
        ["Account".toList]) := by
  have hserves : Serves (fun _ _ => .ok ⟨200, (lastBody nameElements).text, []⟩)
      (fun _ _ => some ⟨[nameRecord], true, none⟩) := fun _ _ =>
    ⟨_, rfl, lastPage_said nameElements [nameRecord] (Or.inl rfl) rfl⟩
  have hchains := lastPage_chains ⟨[nameRecord], true, none⟩ rfl
    (toolingPath "v60.0".toList ["Account".toList])
  have honly : ∀ P : JsonText.ObjectText → Prop, P nameRecord.object →
      OnChains (fun _ _ => some ⟨[nameRecord], true, none⟩)
        ((toolingChunks ["Account".toList]).map (toolingPath "v60.0".toList)) P := by
    intro P hP pss hpss pg hpg r hr
    rw [(hchains pss).mp hpss] at hpg
    rw [List.mem_singleton.mp hpg] at hr
    rw [List.mem_singleton.mp hr]
    exact hP
  refine (tooling_complete_iff _ _ hserves "v60.0".toList ["Account".toList]
    (honly _ (field_lookups _ _ List.mem_cons_self))).1 ⟨Or.inr ⟨_, (hchains _).mpr rfl, ?_⟩,
      honly _ nameRecord_plain⟩
  intro pgs hpgs
  rw [List.mem_singleton.mp hpgs]
  exact ⟨by decide, List.nodup_nil, List.forall_mem_nil _⟩

theorem brace_read (path : Text) :
    toolingLoop (fun _ _ => .ok ⟨200, (lastBody braceElements).text, []⟩) 0 [path] ∅ =
      .ok ⟨true, [[path]], (readOf [⟨[nameRecord, braceRecord], true, none⟩]).foldl addDefinition ∅⟩ := by
  have hpage := toolingPages_stop (fun _ _ => .ok ⟨200, (lastBody braceElements).text, []⟩)
    kToolingMaxPages [] 0 path ∅ _ _ rfl rfl
    (lastPage_said braceElements [nameRecord, braceRecord] (Or.inr rfl) rfl) (Or.inl rfl)
  rw [toolingLoop, hpage]
  simp only [Except.bind, toolingLoop, if_true, Except.map]

/-- The brace in the URL ends the record for the cut: its field is lost, and the
call returns true. -/
theorem brace_field_lost :
    OnChains (fun _ _ => some ⟨[nameRecord, braceRecord], true, none⟩)
        ((toolingChunks ["Account".toList]).map (toolingPath "v60.0".toList)) DefinitionLookups ∧
      ¬ ToolingComplete (fun _ _ => some ⟨[nameRecord, braceRecord], true, none⟩)
        ((toolingChunks ["Account".toList]).map (toolingPath "v60.0".toList))
        (toolingDescribe (fun _ _ => .ok ⟨200, (lastBody braceElements).text, []⟩) "v60.0".toList
          ["Account".toList]) := by
  have hchains := lastPage_chains ⟨[nameRecord, braceRecord], true, none⟩ rfl
    (toolingPath "v60.0".toList ["Account".toList])
  refine ⟨?_, ?_⟩
  · intro pss hpss pg hpg r hr
    rw [(hchains pss).mp hpss] at hpg
    rw [List.mem_singleton.mp hpg] at hr
    rcases List.mem_pair.mp hr with rfl | rfl
    · exact field_lookups _ _ List.mem_cons_self
    · exact field_lookups _ _ (List.mem_cons_of_mem _ List.mem_cons_self)
  · intro h
    have hread : readOf [⟨[nameRecord, braceRecord], true, none⟩] =
        [accountDefinition "Name", ⟨"Account".toList, [], [], false, false⟩] := by
      decide +kernel
    have hpaths : (toolingChunks ["Account".toList]).map (toolingPath "v60.0".toList) =
        [toolingPath "v60.0".toList ["Account".toList]] := rfl
    rw [hpaths, toolingDescribe, hpaths] at h
    obtain ⟨pss, hpss, _, hfields⟩ := h _ (brace_read _) rfl
    rw [(hchains pss).mp hpss, hread] at hfields
    have hgot := definitions_fields [accountDefinition "Name",
      ⟨"Account".toList, [], [], false, false⟩] ∅ "account".toList
    unfold fieldsAt at hgot
    cases hd : ([accountDefinition "Name", ⟨"Account".toList, [], [], false, false⟩].foldl
        addDefinition ∅).lookup "account".toList with
    | none =>
      rw [hd] at hgot
      exact absurd (congrArg List.length hgot) (by decide +kernel)
    | some d =>
      rw [hd] at hgot
      have hlength := congrArg List.length (hgot.symm.trans (hfields _ d hd))
      exact absurd hlength (by decide +kernel)

/-- `{"done":false,"nextRecordsUrl":"/q","records":[]}`. -/
def againBody : JsonText.ObjectText :=
  toolingBody false (memberOf "nextRecordsUrl" (textOf "/q")
    (memberOf "records" (.array .none .nil) .nil))

def againPage : ToolingPage := ⟨[], false, some "/q".toList⟩

theorem againPage_said : PageText againBody.text againPage := by
  have hrecords : HasMember againBody "records".toList (.array .none .nil) :=
    hasMember_of _ _ _ ⟨_, rfl, by decide, rfl⟩
  have hdone : HasMember againBody "done".toList (.bool false) :=
    hasMember_of _ _ _ ⟨_, rfl, by decide, rfl⟩
  have hnext : HasMember againBody "nextRecordsUrl".toList (textOf "/q") :=
    hasMember_of _ _ _ ⟨_, rfl, by decide, rfl⟩
  exact ⟨againBody, rfl, ⟨_, _, hrecords, trivial, rfl⟩, hdone, List.cons_ne_nil _ _,
    JsonText.spell "/q".toList, hnext, by decide, by decide⟩

/-- A service that announces the same page again and again. -/
def againPages : ℕ → Text → Option ToolingPage := fun _ _ => some againPage

theorem again_endless (n : ℕ) (path : Text) (pgs : List ToolingPage) :
    ¬ Chain againPages ToolingPage.isDone ToolingPage.next n path pgs := by
  intro h
  induction h with
  | last n p pg hget hdone =>
    rw [← Option.some.inj hget] at hdone
    cases hdone
  | more _ _ _ _ _ _ _ _ _ ih => exact ih

theorem again_cut (path : Text) :
    PageChain.read againPages ToolingPage.isDone ToolingPage.next kToolingMaxPages [] 0 path =
      ([againPage, againPage], .cut) := by
  have hmore := read_more againPages ToolingPage.isDone ToolingPage.next 99999 [] 0 path "/q".toList
    againPage rfl rfl rfl List.not_mem_nil
  have hcut := read_cut againPages ToolingPage.isDone ToolingPage.next 99999 ["/q".toList] 1
    "/q".toList againPage rfl rfl fun q hq => Or.inr (by
      rw [← Option.some.inj hq]
      exact List.mem_singleton_self _)
  rw [List.nil_append, hcut] at hmore
  exact hmore

/-- The guard ends the loop, and the call returns true. -/
theorem repeated_page_accepted :
    ¬ ∀ (send : ToolingService) (pages : ℕ → Text → Option ToolingPage) (apiVersion : Text)
      (objects : List Text), Serves send pages →
      OnChains pages ((toolingChunks objects).map (toolingPath apiVersion)) DefinitionLookups →
      ToolingComplete pages ((toolingChunks objects).map (toolingPath apiVersion))
        (toolingDescribe send apiVersion objects) := by
  intro h
  have hserves : Serves (fun _ _ => .ok ⟨200, againBody.text, []⟩) againPages :=
    fun _ _ => ⟨againPage, rfl, againPage_said⟩
  have hlookups : OnChains againPages
      ((toolingChunks ["Account".toList]).map (toolingPath "v60.0".toList)) DefinitionLookups := by
    intro pss hpss
    cases hpss with
    | cons _ _ _ pgs _ hchain _ => exact absurd hchain (again_endless 0 _ pgs)
  have hcomplete := h _ againPages "v60.0".toList ["Account".toList] hserves hlookups
  rcases loop_uncut _ againPages _ hserves hcomplete with ⟨r, hr, hfailed⟩ | ⟨pss, hwithin⟩
  · have hone : readAll againPages ToolingPage.isDone ToolingPage.next kToolingMaxPages 0
        ((toolingChunks ["Account".toList]).map (toolingPath "v60.0".toList)) =
        [([againPage, againPage], .cut)] := by
      show readAll againPages ToolingPage.isDone ToolingPage.next kToolingMaxPages 0
        [toolingPath "v60.0".toList ["Account".toList]] = _
      rw [readAll, again_cut]
      rfl
    rw [hone] at hr
    rw [List.mem_singleton.mp hr] at hfailed
    cases hfailed
  · cases hwithin.1 with
    | cons _ _ _ pgs _ hchain _ => exact again_endless 0 _ pgs hchain

end DuckdbSalesforce
