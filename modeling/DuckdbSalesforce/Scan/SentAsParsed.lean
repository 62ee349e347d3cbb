import DuckdbSalesforce.Scan.AggregateTerms

/-!
# What an explicit aggregate sends

`AggBind` checks pieces of the aggregates and sends the text whole. The service
reads what was parsed exactly when each piece is the call that was found in it.
-/

namespace DuckdbSalesforce
open CondGrammar Fallible

/-! ### What was parsed -/

namespace AggArguments

def terms (args : AggArguments) : List Text := splitTopLevelCommas args.aggregates

def groups (args : AggArguments) : List Text :=
  if args.groupBy = [] then [] else (splitTopLevelCommas args.groupBy).map trim

/-- The group fields, then the calls, under the clauses that were given. -/
def statement (args : AggArguments) : AggregateStatement :=
  ⟨args.groups.map groupItem ++ args.terms.filterMap (fun term => (recognised term).item),
    args.object, conditionOf args.filter, args.groups⟩

end AggArguments

structure SentAsParsed (args : AggArguments) (bind : AggBindData) : Prop where
  calls : ∀ term ∈ args.terms, (recognised term).item.isSome
  sent : parseAggregate bind.soql = some args.statement
  rows : ∀ record, bind.row record = (resultKeys 0 args.statement.items).map (aggCell record)

structure PlainTerm (term : Text) : Prop where
  call : (parseExprText (recognised term).callText).isSome
  bare : (recognised term).introduced = false
  named : upper (recognised term).resultName ∉ reservedNames
  spaced : SoqlSpaced (outsideCall term)

structure PlainArguments (args : AggArguments) : Prop where
  object : upper args.object ∉ soqlKeywords
  groups : ∀ g ∈ args.groups, upper g ∉ soqlKeywords
  terms : ∀ term ∈ args.terms, PlainTerm term

/-! ### What was checked -/

theorem collect_groups (gs fields : List Text) (h : collect groupField gs = .ok fields) :
    fields = gs.map trim ∧ ∀ g ∈ fields, isIdentifier g = true := by
  induction gs generalizing fields with
  | nil =>
    cases h
    exact ⟨rfl, by simp⟩
  | cons g gs ih =>
    obtain ⟨field, hfield, hrest⟩ := bind_ok h
    obtain ⟨fields', hfields, rfl⟩ := map_ok hrest
    obtain ⟨hsame, hall⟩ := ih fields' hfields
    unfold groupField at hfield
    by_cases hid : isIdentifier (trim g) = true
    · rw [if_pos hid] at hfield
      cases hfield
      exact ⟨by rw [List.map_cons, hsame], List.forall_mem_cons.mpr ⟨hid, hall⟩⟩
    · rw [if_neg hid] at hfield
      cases hfield

theorem groupFields_ok (args : AggArguments) (fields : List Text)
    (h : groupFields args.groupBy = .ok fields) :
    fields = args.groups ∧ ∀ g ∈ args.groups, isIdentifier g = true := by
  unfold groupFields at h
  by_cases hempty : args.groupBy = []
  · rw [if_pos hempty] at h
    cases h
    rw [AggArguments.groups, if_pos hempty]
    exact ⟨rfl, by simp⟩
  · rw [if_neg hempty] at h
    obtain ⟨_, _, hcollect⟩ := bind_ok h
    obtain ⟨hsame, hall⟩ := collect_groups _ _ hcollect
    have hgroups : fields = args.groups := by rw [hsame, AggArguments.groups, if_neg hempty]
    exact ⟨hgroups, hgroups ▸ hall⟩

/-- What `AggBind` has checked of arguments that it accepts. -/
structure BindChecked (args : AggArguments) (bind : AggBindData) : Prop where
  object : isIdentifier args.object = true
  groups : ∀ g ∈ args.groups, isIdentifier g = true
  terms : ∀ term ∈ args.terms, Accepted term
  soql : bind.soql = aggregateText args args.groups
  keys : bind.columns.map AggColumn.key = args.groups ++ termKeys 0 (args.terms.map recognised)

theorem aggBind_checked (credentials : Text → Except Text (SalesforceConfig × SalesforceTokenSet))
    (inputs : List (Option Text)) (args : AggArguments) (bind : AggBindData)
    (hargs : readAggArguments inputs = .ok args) (hbind : aggBind credentials inputs = .ok bind) :
    BindChecked args bind := by
  rw [aggBind, hargs] at hbind
  change bindArguments credentials args = .ok bind at hbind
  unfold bindArguments at hbind
  by_cases hobject : isIdentifier args.object = true
  · simp only [hobject, Bool.not_true, Bool.false_eq_true, if_false] at hbind
    by_cases hempty : args.aggregates = []
    · rw [if_pos hempty] at hbind
      cases hbind
    · rw [if_neg hempty] at hbind
      obtain ⟨_, _, hbind⟩ := bind_ok hbind
      obtain ⟨_, _, hbind⟩ := bind_ok hbind
      obtain ⟨fields, hfields, hbind⟩ := bind_ok hbind
      obtain ⟨columns, hcolumns, hbind⟩ := bind_ok hbind
      obtain ⟨c, _, rfl⟩ := map_ok hbind
      obtain ⟨rfl, hgroups⟩ := groupFields_ok args fields hfields
      obtain ⟨hterms, hkeys⟩ := parseTerms_accepted _ _ _ hcolumns
      refine ⟨hobject, hgroups, hterms, rfl, ?_⟩
      rw [List.map_append, hkeys, List.map_map]
      congr 1
      exact List.map_id _
  · simp only [hobject, Bool.not_false, if_true] at hbind
    cases hbind

/-! ### The tokens of the statement -/

def termPiece (term : Text) : ItemPiece :=
  ⟨(callOf term).expr.tokens ++ nameTokens (recognised term), callOf term,
    (recognised term).introduced = false ∧ upper (recognised term).resultName ∉ reservedNames⟩

def AggArguments.pieces (args : AggArguments) : List ItemPiece :=
  args.groups.map groupPiece ++ args.terms.map termPiece

theorem joinTok_append (sep : Token) (xs ys : List (List Token)) (hx : xs ≠ []) (hy : ys ≠ []) :
    joinTok sep (xs ++ ys) = joinTok sep xs ++ sep :: joinTok sep ys := by
  obtain ⟨y, ys, rfl⟩ := List.exists_cons_of_ne_nil hy
  induction xs with
  | nil => exact absurd rfl hx
  | cons x xs ih =>
    cases xs with
    | nil => rfl
    | cons x' xs =>
      have hrest := ih (List.cons_ne_nil x' xs)
      have hcons : ∀ zs : List (List Token), joinTok sep (x :: x' :: zs) =
          x ++ sep :: joinTok sep (x' :: zs) := fun _ => rfl
      rw [List.cons_append, List.cons_append, hcons, hcons, ← List.cons_append, hrest]
      simp

theorem lex_aggregates (args : AggArguments) (hterms : ∀ term ∈ args.terms, Accepted term)
    (hcalls : ∀ term ∈ args.terms, ((recognised term).item).isSome)
    (hspaced : ∀ term ∈ args.terms, SoqlSpaced (outsideCall term)) :
    lex args.aggregates =
      some (joinTok (.atom .comma) ((args.terms.map termPiece).map ItemPiece.toks)) := by
  have hsep : ∀ a b ta tb, lex a = some ta → lex b = some tb →
      lex (a ++ [','] ++ b) = some (ta ++ .atom .comma :: tb) := by
    intro a b ta tb ha hb
    rw [List.append_assoc, List.singleton_append, lex_delimiter a b ',' ta [.atom .comma] rfl ha, hb]
    simp
  have hall := lex_joined_by [','] (.atom .comma) hsep
    (args.terms.map fun term => (term, (termPiece term).toks)) (by
      intro p hp
      obtain ⟨term, hterm, rfl⟩ := List.mem_map.mp hp
      exact lex_term term (hterms term hterm) (hspaced term hterm) _
        (call_item term (hcalls term hterm)).2.1)
  have hjoin := splitCommas_join args.aggregates 0 []
  rw [List.map_map, List.map_map, Function.comp_def, Function.comp_def, List.map_id'] at hall
  rw [List.nil_append] at hjoin
  rw [List.map_map, Function.comp_def, ← hall]
  exact congrArg lex hjoin.symm

def groupsText (groups : List Text) : Text :=
  if groups = [] then [] else joinText ", ".toList groups ++ ", ".toList

theorem lex_groups (groups : List Text) (h : ∀ g ∈ groups, isIdentifier g = true) :
    lex (joinText ", ".toList groups) = some (joinComma (groups.map wordToken)) := by
  have hall := lex_commas (groups.map fun g => (g, wordToken g)) (by
    intro p hp
    obtain ⟨g, hg, rfl⟩ := List.mem_map.mp hp
    exact lex_identifier g (h g hg))
  simpa [List.map_map, Function.comp_def] using hall

theorem lex_items_text (args : AggArguments) (bind : AggBindData) (h : BindChecked args bind)
    (hcalls : ∀ term ∈ args.terms, ((recognised term).item).isSome)
    (hspaced : ∀ term ∈ args.terms, SoqlSpaced (outsideCall term)) :
    lex (groupsText args.groups ++ args.aggregates) =
      some (joinTok (.atom .comma) (args.pieces.map ItemPiece.toks)) := by
  have haggregates := lex_aggregates args h.terms hcalls hspaced
  have hterms : args.terms ≠ [] := splitCommas_ne args.aggregates 0 []
  have hne : (args.terms.map termPiece).map ItemPiece.toks ≠ [] := by simpa using hterms
  unfold groupsText AggArguments.pieces
  by_cases hnil : args.groups = []
  · rw [if_pos hnil, hnil, List.nil_append, haggregates]
    rfl
  · have hgroups : (args.groups.map groupPiece).map ItemPiece.toks ≠ [] := by simpa using hnil
    have hwords : joinTok (.atom .comma) ((args.groups.map groupPiece).map ItemPiece.toks) =
        joinComma (args.groups.map wordToken) := by
      rw [← joinTok_comma, List.map_map, List.map_map]
      rfl
    rw [if_neg hnil, lex_comma _ _ _ _ (lex_groups args.groups h.groups) haggregates,
      List.map_append, joinTok_append _ _ _ hgroups hne, hwords]

def groupByText (groups : List Text) : Text :=
  if groups = [] then [] else " GROUP BY ".toList ++ joinText ", ".toList groups

def whereText (filter : Text) : Text := if filter = [] then [] else " WHERE ".toList ++ filter

theorem groupBy_reads (groups : List Text) (h : ∀ g ∈ groups, isIdentifier g = true) :
    TailReads (groupByText groups) (groupTokens groups) := by
  unfold groupByText groupTokens
  by_cases hnil : groups = []
  · rw [if_pos hnil, if_pos hnil]
    exact Or.inl ⟨rfl, rfl⟩
  · have hgroup : lex "GROUP".toList = some [wordAtom "GROUP".toList] := lex_bare _ (by decide)
    have hby : lex "BY".toList = some [wordAtom "BY".toList] := lex_bare _ (by decide)
    rw [if_neg hnil, if_neg hnil]
    exact Or.inr ⟨"GROUP".toList ++ ' ' :: ("BY".toList ++ ' ' :: joinText ", ".toList groups), rfl,
      lex_space _ _ _ _ hgroup (lex_space _ _ _ _ hby (lex_groups groups h))⟩

theorem clauses_read_back (filter : Text) (groups : List Text)
    (hfilter : filter = [] ∨ (conditionOf filter).isSome)
    (h : ∀ g ∈ groups, isIdentifier g = true) :
    TailReads (whereText filter ++ groupByText groups)
      (whereTokens filter ++ groupTokens groups) := by
  have htail := groupBy_reads groups h
  unfold whereText whereTokens
  by_cases hnil : filter = []
  · rw [if_pos hnil, if_pos hnil]
    exact htail
  · obtain ⟨c, hc⟩ := Option.isSome_iff_exists.mp (hfilter.resolve_left hnil)
    obtain ⟨ts, hlex, _⟩ := Option.bind_eq_some_iff.mp hc
    have hwhere : lex "WHERE".toList = some [clauseToken "WHERE"] := by decide
    rw [if_neg hnil, if_neg hnil, hlex, Option.getD_some]
    exact Or.inr ⟨"WHERE".toList ++ ' ' :: (filter ++ groupByText groups), List.append_assoc ..,
      lex_space _ _ [clauseToken "WHERE"] _ hwhere (lex_tail filter _ ts _ hlex htail)⟩

theorem lex_statement (items object tail : Text) (toks tt : List Token) (t : Token)
    (hitems : lex items = some toks) (hobject : lex object = some [t]) (htail : TailReads tail tt) :
    lex ("SELECT ".toList ++ items ++ " FROM ".toList ++ object ++ tail) =
      some (clauseToken "SELECT" :: (toks ++ (clauseToken "FROM" :: t :: tt))) := by
  have hsel : lex "SELECT".toList = some [clauseToken "SELECT"] := by decide
  have hfrom : lex "FROM".toList = some [clauseToken "FROM"] := by decide
  have hend := lex_tail _ _ _ _ hobject htail
  have hall := lex_space _ _ _ _ hsel (lex_space _ _ _ _ hitems (lex_space _ _ _ _ hfrom hend))
  simpa using hall

/-- The text in its parts. -/
theorem sent_text (args : AggArguments) :
    aggregateText args args.groups =
      "SELECT ".toList ++ (groupsText args.groups ++ args.aggregates) ++ " FROM ".toList ++
        args.object ++ (whereText args.filter ++ groupByText args.groups) := by
  have hshape : ∀ s g a f o w b : Text,
      s ++ g ++ a ++ f ++ o ++ w ++ b = s ++ (g ++ a) ++ f ++ o ++ (w ++ b) := by
    intro s g a f o w b
    simp
  exact hshape _ _ _ _ _ _ _

theorem lex_sent (args : AggArguments) (bind : AggBindData) (h : BindChecked args bind)
    (hfilter : args.filter = [] ∨ (conditionOf args.filter).isSome)
    (hcalls : ∀ term ∈ args.terms, ((recognised term).item).isSome)
    (hspaced : ∀ term ∈ args.terms, SoqlSpaced (outsideCall term)) :
    lex bind.soql = some (clauseToken "SELECT" ::
      (joinTok (.atom .comma) (args.pieces.map ItemPiece.toks) ++
        clauseToken "FROM" :: wordToken args.object ::
          (whereTokens args.filter ++ groupTokens args.groups))) := by
  rw [h.soql, sent_text]
  exact lex_statement _ _ _ _ _ _ (lex_items_text args bind h hcalls hspaced)
    (lex_identifier args.object h.object)
    (clauses_read_back args.filter args.groups hfilter h.groups)

theorem spaced_of_lex (args : AggArguments) (bind : AggBindData) (h : BindChecked args bind)
    (hcalls : ∀ term ∈ args.terms, ((recognised term).item).isSome) (ts : List Token)
    (hlex : lex bind.soql = some ts) : ∀ term ∈ args.terms, SoqlSpaced (outsideCall term) := by
  have hstart : ∃ tg, lex ("SELECT ".toList ++ groupsText args.groups) = some tg := by
    have hsel : lex "SELECT".toList = some [clauseToken "SELECT"] := by decide
    have hgroups : ∃ tg, lex (groupsText args.groups) = some tg := by
      unfold groupsText
      by_cases hnil : args.groups = []
      · rw [if_pos hnil]
        exact ⟨[], rfl⟩
      · have hcomma := lex_comma _ [] _ [] (lex_groups args.groups h.groups) rfl
        rw [List.append_nil] at hcomma
        rw [if_neg hnil]
        exact ⟨_, hcomma⟩
    obtain ⟨tg, hgroups⟩ := hgroups
    have hall := lex_space _ _ _ _ hsel hgroups
    exact ⟨_, by simpa using hall⟩
  obtain ⟨tg, hstart⟩ := hstart
  have hjoin : joinText [','] args.terms = args.aggregates := splitCommas_join args.aggregates 0 []
  have hshape : ∀ s g a f o w : Text,
      s ++ (g ++ a) ++ f ++ o ++ w = (s ++ g) ++ (a ++ (f ++ o ++ w)) := by
    intro s g a f o w
    simp
  obtain ⟨s, hrun, _⟩ := Option.bind_eq_some_iff.mp hlex
  rw [h.soql, sent_text, hshape, lexRun_append, ← hjoin] at hrun
  obtain ⟨s1, hrun1, hrun⟩ := Option.bind_eq_some_iff.mp hrun
  have hs1 := lexRun_whole _ tg [] s1 hstart hrun1
  rw [lexRun_append] at hrun
  obtain ⟨s2, hrun2, _⟩ := Option.bind_eq_some_iff.mp hrun
  exact lexRun_terms args.terms h.terms hcalls s1 s2 hs1 hrun2

/-! ### When the terms are their calls -/

theorem nameTokens_head (t : AggTerm) (rest : List Token) (h : EndsItem rest) :
    (nameTokens t ++ rest).head? ≠ some .lpar := by
  have hword : ∀ w ts, (wordToken w :: ts).head? ≠ some .lpar := by
    intro w ts hc
    exact wordToken_ne_lpar w (by simpa using hc)
  unfold nameTokens wordTokens
  by_cases hintro : t.introduced = true
  · rw [if_pos hintro]
    exact hword _ _
  · by_cases hname : t.resultName = []
    · rw [if_neg hintro, if_pos hname]
      exact h.not_lpar
    · rw [if_neg hintro, if_neg hname]
      exact hword _ _

theorem termPiece_reads (term : Text) (h : Accepted term)
    (hcall : ((recognised term).item).isSome) : (termPiece term).Reads := by
  intro rest r hrest hr
  obtain ⟨f, e, es, hexpr⟩ := isCall term h hcall
  have hname := (call_item term hcall).2.2
  have hparse : parseItem ((termPiece term).toks ++ rest) =
      some (⟨(callOf term).expr, (readName (nameTokens (recognised term) ++ rest)).1⟩,
        (readName (nameTokens (recognised term) ++ rest)).2) := by
    show parseItem (((callOf term).expr.tokens ++ nameTokens (recognised term)) ++ rest) = _
    rw [List.append_assoc, hexpr]
    exact parseItem_call f e es _ (nameTokens_head _ rest hrest)
  have hread : parseItem ((termPiece term).toks ++ rest) = some ((termPiece term).item, r) ↔
      readName (nameTokens (recognised term) ++ rest) = ((callOf term).resultName, r) := by
    rw [hparse, Option.some.injEq, Prod.mk.injEq, Prod.ext_iff]
    show SelectItem.mk (callOf term).expr _ = callOf term ∧ _ ↔ _
    rw [SelectItem.ext_iff]
    simp
  rw [hread, hname]
  show _ ↔ ((recognised term).introduced = false ∧
    upper (recognised term).resultName ∉ reservedNames) ∧ r = rest
  generalize recognised term = t
  unfold nameTokens wordTokens
  by_cases hintro : t.introduced = true
  · -- The `AS` is taken for the name.
    obtain ⟨a, b, after, hafter, has⟩ := introduced_text t hintro
    have hfree : upper [a, b] ∉ reservedNames := by
      rw [has]
      decide
    have hfirst : ∀ ts : List Token, ([wordToken ((a :: b :: ' ' :: after).take 2)] ++ ts) ++ rest =
        wordToken [a, b] :: (ts ++ rest) := fun _ => rfl
    rw [if_pos hintro, hafter, hfirst, readName_word, if_neg hfree]
    simp only [hintro, Bool.true_eq_false, false_and, iff_false, Prod.mk.injEq]
    intro hpair
    obtain ⟨hsame, hleft⟩ := hpair
    by_cases hempty : t.resultName = []
    · rw [if_pos hempty] at hsame
      cases hsame
    · rw [if_neg hempty, Option.some.injEq] at hsame
      rw [if_neg hempty, ← hsame] at hleft
      have hatom := wordToken_atom [a, b] fun hkey => hfree (soqlKeywords_reserved _ hkey)
      obtain ⟨u, us, hu, hend⟩ := hr
      rw [← hleft, hatom, List.singleton_append] at hu
      rw [← (List.cons.inj hu).1] at hend
      rcases hend with hend | hend <;> cases hend
  · simp only [hintro, Bool.false_eq_true, if_false, List.nil_append]
    by_cases hempty : t.resultName = []
    · have hfree : upper [] ∉ reservedNames := by decide
      rw [hempty, if_pos rfl, if_pos rfl, List.nil_append, hrest.readName]
      simp only [Prod.mk.injEq, true_and, hfree, not_false_eq_true]
      exact eq_comm
    · rw [if_neg hempty, if_neg hempty, List.singleton_append, readName_word]
      by_cases hres : upper t.resultName ∈ reservedNames
      · rw [if_pos hres]
        simp [hres]
      · rw [if_neg hres]
        simp only [Prod.mk.injEq, true_and, hres, not_false_eq_true]
        exact eq_comm

/-! ### The statement that is sent -/

theorem resultKeys_groups (groups : List Text) (items : List SelectItem) (n : ℕ) :
    resultKeys n (groups.map groupItem ++ items) = groups ++ resultKeys n items := by
  induction groups with
  | nil => rfl
  | cons g groups ih => exact congrArg (g :: ·) ih

theorem resultKeys_calls (terms : List Text) (h : ∀ term ∈ terms, Accepted term)
    (hcalls : ∀ term ∈ terms, ((recognised term).item).isSome) (n : ℕ) :
    resultKeys n (terms.map callOf) = termKeys n (terms.map recognised) := by
  induction terms generalizing n with
  | nil => rfl
  | cons term terms ih =>
    have hrest := ih (fun x hx => h x (List.mem_cons_of_mem _ hx))
      fun x hx => hcalls x (List.mem_cons_of_mem _ hx)
    obtain ⟨f, e, es, hexpr⟩ := isCall term (h term (List.mem_cons_self ..))
      (hcalls term (List.mem_cons_self ..))
    have hname := (call_item term (hcalls term (List.mem_cons_self ..))).2.2
    cases hitem : callOf term with
    | mk expr name =>
      rw [hitem] at hexpr hname
      have hexpr' : expr = .call f e es := hexpr
      have hname' : name = if (recognised term).resultName = [] then none
          else some (recognised term).resultName := hname
      rw [List.map_cons, List.map_cons, termKeys, hitem, hexpr']
      by_cases hempty : (recognised term).resultName = []
      · rw [if_pos hempty] at hname' ⊢
        rw [hname', ← hrest]
        rfl
      · rw [if_neg hempty] at hname' ⊢
        rw [hname', ← hrest]
        rfl

theorem statement_items (args : AggArguments)
    (hcalls : ∀ term ∈ args.terms, ((recognised term).item).isSome) :
    args.statement.items = args.pieces.map ItemPiece.item := by
  have hmap : args.terms.filterMap (fun term => (recognised term).item) = args.terms.map callOf := by
    rw [← List.filterMap_eq_map]
    refine List.filterMap_congr fun term hterm => ?_
    exact (call_item term (hcalls term hterm)).1
  show args.groups.map groupItem ++ args.terms.filterMap _ = _
  rw [hmap, AggArguments.pieces, List.map_append, List.map_map, List.map_map]
  rfl

/-- Each column reads the member that the item in its place is returned as. -/
theorem sent_rows (args : AggArguments) (bind : AggBindData) (h : BindChecked args bind)
    (hcalls : ∀ term ∈ args.terms, ((recognised term).item).isSome) (record : Text) :
    bind.row record = (resultKeys 0 args.statement.items).map (aggCell record) := by
  have hitems : args.statement.items = args.groups.map groupItem ++ args.terms.map callOf := by
    rw [statement_items args hcalls, AggArguments.pieces, List.map_append, List.map_map,
      List.map_map]
    rfl
  rw [hitems, resultKeys_groups, resultKeys_calls args.terms h.terms hcalls, ← h.keys,
    List.map_map]
  rfl

theorem pieces_read (args : AggArguments) (h : ∀ term ∈ args.terms, Accepted term)
    (hcalls : ∀ term ∈ args.terms, ((recognised term).item).isSome) :
    args.pieces ≠ [] ∧ ∀ p ∈ args.pieces, p.Reads := by
  refine ⟨?_, ?_⟩
  · have hne : args.terms ≠ [] := splitCommas_ne args.aggregates 0 []
    simp [AggArguments.pieces, hne]
  · intro p hp
    rcases List.mem_append.mp hp with hp | hp
    · obtain ⟨g, _, rfl⟩ := List.mem_map.mp hp
      exact groupPiece_reads g
    · obtain ⟨term, hterm, rfl⟩ := List.mem_map.mp hp
      exact termPiece_reads term (h term hterm) (hcalls term hterm)

theorem pieces_plain (args : AggArguments) :
    (∀ p ∈ args.pieces, p.plain) ↔
      (∀ g ∈ args.groups, upper g ∉ soqlKeywords) ∧
        ∀ term ∈ args.terms, (recognised term).introduced = false ∧
          upper (recognised term).resultName ∉ reservedNames := by
  rw [AggArguments.pieces, List.forall_mem_append, List.forall_mem_map, List.forall_mem_map]
  rfl

theorem parse_sent_iff (args : AggArguments) (bind : AggBindData) (h : BindChecked args bind)
    (hfilter : args.filter = [] ∨ (conditionOf args.filter).isSome)
    (hcalls : ∀ term ∈ args.terms, ((recognised term).item).isSome)
    (hspaced : ∀ term ∈ args.terms, SoqlSpaced (outsideCall term)) :
    parseAggregate bind.soql = some args.statement ↔
      (∀ p ∈ args.pieces, p.plain) ∧ upper args.object ∉ soqlKeywords := by
  obtain ⟨hne, hreads⟩ := pieces_read args h.terms hcalls
  have hstatement : args.statement = ⟨args.pieces.map ItemPiece.item, args.object,
      conditionOf args.filter, args.groups⟩ := by
    rw [← statement_items args hcalls]
    rfl
  have htail : (∀ p ∈ args.pieces, p.plain) →
      parseClauses (whereTokens args.filter ++ groupTokens args.groups) =
        some (conditionOf args.filter, args.groups) := fun hplain =>
    parseClauses_words args.filter args.groups hfilter ((pieces_plain args).mp hplain).1
  rw [parseAggregate, lex_sent args bind h hfilter hcalls hspaced, Option.bind_some, hstatement,
    parse_pieces_iff args.pieces hne hreads args.object _ _ _ htail, wordToken_atom_iff]

/-- Explicit aggregates are sent as they were parsed exactly when the arguments
are plain. -/
theorem sent_as_parsed_iff
    (credentials : Text → Except Text (SalesforceConfig × SalesforceTokenSet))
    (inputs : List (Option Text)) (args : AggArguments) (bind : AggBindData)
    (hargs : readAggArguments inputs = .ok args) (hbind : aggBind credentials inputs = .ok bind)
    (hfilter : args.filter = [] ∨ (conditionOf args.filter).isSome) :
    SentAsParsed args bind ↔ PlainArguments args := by
  have h := aggBind_checked credentials inputs args bind hargs hbind
  refine ⟨?_, ?_⟩
  · intro hagree
    obtain ⟨hcalls, hsent, _⟩ := hagree
    obtain ⟨ts, hlex, _⟩ := Option.bind_eq_some_iff.mp hsent
    have hspaced := spaced_of_lex args bind h hcalls ts hlex
    obtain ⟨hplain, hobject⟩ := (parse_sent_iff args bind h hfilter hcalls hspaced).mp hsent
    obtain ⟨hgroups, hterms⟩ := (pieces_plain args).mp hplain
    refine ⟨hobject, hgroups, fun term hterm => ⟨?_, (hterms term hterm).1, (hterms term hterm).2,
      hspaced term hterm⟩⟩
    rw [(call_item term (hcalls term hterm)).2.1]
    rfl
  · intro hplain
    obtain ⟨hobject, hgroups, hterms⟩ := hplain
    have hcalls : ∀ term ∈ args.terms, ((recognised term).item).isSome := by
      intro term hterm
      rw [AggTerm.item, Option.isSome_map]
      exact (hterms term hterm).call
    have hplain := (pieces_plain args).mpr
      ⟨hgroups, fun term hterm => ⟨(hterms term hterm).bare, (hterms term hterm).named⟩⟩
    exact ⟨hcalls, (parse_sent_iff args bind h hfilter hcalls
      fun term hterm => (hterms term hterm).spaced).mpr ⟨hplain, hobject⟩,
      sent_rows args bind h hcalls⟩

/-! ### A grouped query, and a name that `AS` introduces -/

theorem plainTerm_iff (term : Text) :
    PlainTerm term ↔ (parseExprText (recognised term).callText).isSome ∧
      (recognised term).introduced = false ∧
        upper (recognised term).resultName ∉ reservedNames ∧ SoqlSpaced (outsideCall term) :=
  ⟨fun h => ⟨h.call, h.bare, h.named, h.spaced⟩, fun h => ⟨h.1, h.2.1, h.2.2.1, h.2.2.2⟩⟩

instance : DecidablePred PlainTerm := fun term => decidable_of_iff _ (plainTerm_iff term).symm

theorem plainArguments_iff (args : AggArguments) :
    PlainArguments args ↔ upper args.object ∉ soqlKeywords ∧
      (∀ g ∈ args.groups, upper g ∉ soqlKeywords) ∧ ∀ term ∈ args.terms, PlainTerm term :=
  ⟨fun h => ⟨h.object, h.groups, h.terms⟩, fun h => ⟨h.1, h.2.1, h.2.2⟩⟩

instance : DecidablePred PlainArguments := fun args =>
  decidable_of_iff _ (plainArguments_iff args).symm

def attachedOrg (catalog : Text) : Except Text (SalesforceConfig × SalesforceTokenSet) :=
  if catalog = "sf".toList then
    .ok (⟨"prod".toList, .refreshToken, "c".toList, "s".toList, "r".toList, [], [],
      "https://login".toList, "v60.0".toList, [], [], 0⟩, ⟨"AT".toList, "https://x".toList⟩)
  else .error ("no attached catalog named '".toList ++ catalog ++ "'".toList)

def sfArguments (aggregates filter groupBy : String) : AggArguments :=
  ⟨"sf".toList, "Account".toList, aggregates.toList, filter.toList, groupBy.toList⟩

def AggArguments.inputs (args : AggArguments) : List (Option Text) :=
  [some args.catalog, some args.object, some args.aggregates, some args.filter, some args.groupBy]

def grouped : AggArguments :=
  sfArguments "COUNT(Id) n, max( AnnualRevenue )" "Type = 'Customer'" "Industry"

theorem grouped_bound : ∃ bind, aggBind attachedOrg grouped.inputs = .ok bind ∧
    bind.soql = ("SELECT Industry, COUNT(Id) n, max( AnnualRevenue ) FROM Account " ++
      "WHERE Type = 'Customer' GROUP BY Industry").toList :=
  ⟨_, rfl, by decide +kernel⟩

theorem grouped_sent : ∃ bind, aggBind attachedOrg grouped.inputs = .ok bind ∧
    SentAsParsed grouped bind := by
  obtain ⟨bind, hbind, _⟩ := grouped_bound
  exact ⟨bind, hbind, (sent_as_parsed_iff attachedOrg grouped.inputs grouped bind rfl hbind
    (by decide +kernel)).mpr (by decide +kernel)⟩

/-- Two terms, and one item with a string for its argument. -/
example : (sfArguments "COUNT('), SUM(')" "" "").terms.length = 2 ∧
    (parseAggregate "SELECT COUNT('), SUM(') FROM Account".toList).map (·.items.length) = some 1 := by
  decide +kernel

def introducedName : AggArguments := sfArguments "COUNT(Id) AS n" "" ""

/-- `AS` passes the checks and is no word of the grammar. -/
theorem as_not_sent :
    ¬ ∀ (credentials : Text → Except Text (SalesforceConfig × SalesforceTokenSet))
      (inputs : List (Option Text)) (args : AggArguments) (bind : AggBindData),
      readAggArguments inputs = .ok args → aggBind credentials inputs = .ok bind →
        (args.filter = [] ∨ (conditionOf args.filter).isSome) → SentAsParsed args bind := by
  intro h
  obtain ⟨bind, hbind, hsoql⟩ : ∃ bind, aggBind attachedOrg introducedName.inputs = .ok bind ∧
      bind.soql = "SELECT COUNT(Id) AS n FROM Account".toList := ⟨_, rfl, by decide +kernel⟩
  have hsent := (h attachedOrg introducedName.inputs introducedName bind rfl hbind
    (Or.inl rfl)).sent
  have hnone : parseAggregate "SELECT COUNT(Id) AS n FROM Account".toList = none := by
    decide +kernel
  rw [hsoql, hnone] at hsent
  cases hsent

end DuckdbSalesforce
