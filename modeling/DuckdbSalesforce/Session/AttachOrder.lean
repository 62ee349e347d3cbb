import DuckdbSalesforce.Session.AttachConfig

/-!
# The order of the options (salesforce_config.cpp)

The options come from an unordered map and are matched without regard to case:
`ParseAndValidate` gives the same result in whatever order they come.
-/

namespace DuckdbSalesforce

def KnownOption (key : Text) : Prop :=
  ciEquals key "type".toList = true ∨ attachOptionNames.any (ciEquals key) = true

/-- One value under one name, in any case. -/
def SameOption (o o' : Text × Text) : Prop := lower o.1 = lower o'.1 ∧ o.2 = o'.2

/-- No name twice. -/
def DistinctOptions (options : AttachOptions) : Prop :=
  options.Pairwise fun o o' => lower o.1 ≠ lower o'.1

/-! ### Reading the options -/

def isRouting (o : Text × Text) : Bool := ciEquals o.1 "type".toList

theorem readOptions_known (options opts : AttachOptions) (h : ∀ o ∈ options, KnownOption o.1) :
    readOptions options opts =
      .ok ((options.filter fun o => !isRouting o).reverse ++ opts) := by
  induction options generalizing opts with
  | nil => rfl
  | cons o rest ih =>
    obtain ⟨key, value⟩ := o
    have hkey : KnownOption key := h (key, value) (List.mem_cons_self ..)
    have hrest := fun opts => ih opts fun o ho => h o (List.mem_cons_of_mem _ ho)
    rw [readOptions]
    by_cases htype : ciEquals key "type".toList = true
    · have hrouting : isRouting (key, value) = true := htype
      rw [if_pos htype, hrest, List.filter_cons_of_neg (by simp [hrouting])]
    · have hrouting : isRouting (key, value) = false := Bool.eq_false_iff.mpr htype
      have hname : attachOptionNames.any (ciEquals key) = true := hkey.resolve_left htype
      rw [if_neg htype, hname, List.filter_cons_of_pos (by simp [hrouting])]
      simp only [Bool.not_true, Bool.false_eq_true, if_false, hrest, List.reverse_cons,
        List.append_assoc, List.cons_append, List.nil_append]

theorem readOptions_unknown (options opts : AttachOptions) (o : Text × Text) (ho : o ∈ options)
    (h : ¬ KnownOption o.1) : ∃ e, readOptions options opts = .error e := by
  induction options generalizing opts with
  | nil => cases ho
  | cons p rest ih =>
    obtain ⟨key, value⟩ := p
    rw [readOptions]
    by_cases htype : ciEquals key "type".toList = true
    · rw [if_pos htype]
      rcases List.mem_cons.mp ho with rfl | hrest
      · exact absurd (Or.inl htype) h
      · exact ih opts hrest
    · rw [if_neg htype]
      split
      · exact ⟨_, rfl⟩
      · rename_i hname
        rcases List.mem_cons.mp ho with rfl | hrest
        · exact absurd (Or.inr (by simpa using hname)) h
        · exact ih _ hrest

/-! ### The value of an option -/

def named (key : Text) (o : Text × Text) : Bool := ciEquals o.1 key

theorem optionValue_filter (opts : AttachOptions) (key : Text) :
    optionValue opts key = (opts.filter (named key)).head?.map Prod.snd := by
  rw [optionValue, List.head?_filter]
  rfl

theorem named_once (opts : AttachOptions) (h : DistinctOptions opts) (key : Text) :
    (opts.filter (named key)).length ≤ 1 := by
  have hpair := List.Pairwise.filter (named key) h
  have hkey : ∀ o ∈ opts.filter (named key), lower o.1 = lower key := by
    intro o ho
    simpa [named, ciEquals] using (List.mem_filter.mp ho).2
  generalize opts.filter (named key) = found at hpair hkey
  cases found with
  | nil => simp
  | cons o rest =>
    cases rest with
    | nil => simp
    | cons o' rest =>
      have hne := (List.pairwise_cons.mp hpair).1 o' (List.mem_cons_self ..)
      rw [hkey o (List.mem_cons_self ..), hkey o' (List.mem_cons_of_mem o List.mem_cons_self)] at hne
      exact absurd rfl hne

theorem optionValue_perm (opts opts' : AttachOptions) (hdistinct : DistinctOptions opts)
    (h : opts.Perm opts') (key : Text) : optionValue opts key = optionValue opts' key := by
  have hperm := h.filter (named key)
  have honce := named_once opts hdistinct key
  rw [optionValue_filter, optionValue_filter]
  generalize opts.filter (named key) = found at hperm honce
  generalize opts'.filter (named key) = found' at hperm
  have hfound : found = found' := by
    match found, honce with
    | [], _ => exact hperm.nil_eq
    | [o], _ => exact (List.perm_singleton.mp hperm.symm).symm
  rw [hfound]

theorem optionValue_recased (opts opts' : AttachOptions) (h : List.Forall₂ SameOption opts opts')
    (key : Text) : optionValue opts key = optionValue opts' key := by
  induction h with
  | nil => rfl
  | @cons o o' rest rest' ho _ ih =>
    have hnamed : ciEquals o.1 key = ciEquals o'.1 key := by rw [ciEquals, ciEquals, ho.1]
    rw [optionValue, optionValue, List.find?_cons, List.find?_cons, hnamed]
    cases ciEquals o'.1 key with
    | true => exact congrArg some ho.2
    | false => exact ih

/-- The configuration is made of the values. -/
theorem configOf_congr (lTrim rTrim : Text → Text) (w : AttachWorld) (org : Text)
    (opts opts' : AttachOptions) (h : ∀ key, optionValue opts key = optionValue opts' key) :
    configOf lTrim rTrim w org opts = configOf lTrim rTrim w org opts' := by
  have hgiven : ∀ key, givenOption lTrim rTrim opts key = givenOption lTrim rTrim opts' key := by
    intro key
    rw [givenOption, givenOption, h key]
  unfold configOf credentials authSource optionCredentials jwtCredentials keyPath requireOption
    setApiVersion setQueryMode setTransport setBulkChunks
  simp only [hgiven]

/-! ### The whole -/

theorem forall₂_filter_routing (options options' : AttachOptions)
    (h : List.Forall₂ SameOption options options') :
    List.Forall₂ SameOption (options.filter fun o => !isRouting o)
      (options'.filter fun o => !isRouting o) := by
  induction h with
  | nil => exact .nil
  | @cons o o' rest rest' ho _ ih =>
    have hsame : isRouting o = isRouting o' := by rw [isRouting, isRouting, ciEquals, ciEquals, ho.1]
    rw [List.filter_cons, List.filter_cons, hsame]
    cases isRouting o' with
    | true => exact ih
    | false => exact .cons ho ih

theorem knownOption_same (o o' : Text × Text) (h : SameOption o o') :
    KnownOption o.1 ↔ KnownOption o'.1 := by
  have hnames : ciEquals o.1 = ciEquals o'.1 := by
    funext name
    rw [ciEquals, ciEquals, h.1]
  rw [KnownOption, KnownOption, hnames]

theorem allKnown_same (options options' : AttachOptions)
    (h : List.Forall₂ SameOption options options') :
    (∀ o ∈ options, KnownOption o.1) ↔ ∀ o ∈ options', KnownOption o.1 := by
  induction h with
  | nil => exact Iff.rfl
  | @cons o o' rest rest' ho _ ih =>
    rw [List.forall_mem_cons, List.forall_mem_cons, knownOption_same o o' ho, ih]

theorem readOptions_order (options mid options' : AttachOptions)
    (hdistinct : DistinctOptions options) (hperm : options.Perm mid)
    (hcase : List.Forall₂ SameOption mid options') (hknown : ∀ o ∈ options, KnownOption o.1)
    (hknown' : ∀ o ∈ options', KnownOption o.1) :
    ∃ opts opts', readOptions options [] = .ok opts ∧ readOptions options' [] = .ok opts' ∧
      ∀ key, optionValue opts key = optionValue opts' key := by
  refine ⟨_, _, readOptions_known options [] hknown, readOptions_known options' [] hknown', ?_⟩
  intro key
  have hplain : DistinctOptions (options.filter fun o => !isRouting o) :=
    List.Pairwise.filter _ hdistinct
  have hback : DistinctOptions (options.filter fun o => !isRouting o).reverse :=
    List.pairwise_reverse.mpr (hplain.imp fun hne => Ne.symm hne)
  have hmid : (options.filter fun o => !isRouting o).reverse.Perm
      (mid.filter fun o => !isRouting o).reverse :=
    (List.reverse_perm _).trans ((hperm.filter _).trans (List.reverse_perm _).symm)
  have hsame := List.rel_reverse (forall₂_filter_routing mid options' hcase)
  rw [List.append_nil, List.append_nil, optionValue_perm _ _ hback hmid key,
    optionValue_recased _ _ hsame key]

/-- The order of the options and the case of their names change nothing: the
result is the same, or both ATTACHes fail, with the same error unless an option
is unknown. -/
theorem attach_order (lTrim rTrim : Text → Text) (w : AttachWorld) (path : Text)
    (options mid options' : AttachOptions) (hdistinct : DistinctOptions options)
    (hperm : options.Perm mid) (hcase : List.Forall₂ SameOption mid options') :
    Fallible.Same (parseAndValidate lTrim rTrim w path options)
        (parseAndValidate lTrim rTrim w path options') ∧
      ((∀ o ∈ options, KnownOption o.1) → parseAndValidate lTrim rTrim w path options =
        parseAndValidate lTrim rTrim w path options') := by
  have hall : (∀ o ∈ options, KnownOption o.1) ↔ ∀ o ∈ options', KnownOption o.1 := by
    rw [← allKnown_same mid options' hcase]
    exact forall_congr' fun o => imp_congr_left hperm.mem_iff
  have hequal : (∀ o ∈ options, KnownOption o.1) → parseAndValidate lTrim rTrim w path options =
      parseAndValidate lTrim rTrim w path options' := by
    intro hknown
    obtain ⟨opts, opts', hopts, hopts', hvalues⟩ :=
      readOptions_order options mid options' hdistinct hperm hcase hknown
        (hall.mp hknown)
    unfold parseAndValidate
    rw [hopts, hopts']
    simp only [Except.bind, configOf_congr lTrim rTrim w _ opts opts' hvalues]
  refine ⟨?_, hequal⟩
  by_cases hknown : ∀ o ∈ options, KnownOption o.1
  · rw [hequal hknown]
    rfl
  · have hfails : ∀ opts : AttachOptions, (¬ ∀ o ∈ opts, KnownOption o.1) →
        (parseAndValidate lTrim rTrim w path opts).toOption = none := by
      intro opts hunknown
      obtain ⟨o, ho, hname⟩ : ∃ o ∈ opts, ¬ KnownOption o.1 := by simpa using hunknown
      obtain ⟨e, he⟩ := readOptions_unknown opts [] o ho hname
      unfold parseAndValidate
      rw [he]
      dsimp only [Except.bind]
      split
      · rfl
      · split <;> rfl
    unfold Fallible.Same
    rw [hfails options hknown, hfails options' fun h => hknown (hall.mpr h)]

def bulkOptions : AttachOptions :=
  [("client_id".toList, "id".toList), ("transport".toList, "Bulk".toList),
    ("client_secret".toList, "s".toList), ("refresh_token".toList, "rt".toList)]

def bulkOptionsSwapped : AttachOptions :=
  [("TRANSPORT".toList, "Bulk".toList), ("client_id".toList, "id".toList),
    ("Client_Secret".toList, "s".toList), ("refresh_token".toList, "rt".toList)]

/-- Two options swapped, two spelled otherwise, and the ATTACH is accepted. -/
theorem attach_order_swapped :
    parseAndValidate (List.dropWhile isSpace) (List.rdropWhile isSpace)
        ⟨none, fun _ => none, fun _ => none⟩ "salesforce://prod".toList bulkOptions =
      parseAndValidate (List.dropWhile isSpace) (List.rdropWhile isSpace)
        ⟨none, fun _ => none, fun _ => none⟩ "salesforce://prod".toList bulkOptionsSwapped ∧
      (parseAndValidate (List.dropWhile isSpace) (List.rdropWhile isSpace)
        ⟨none, fun _ => none, fun _ => none⟩ "salesforce://prod".toList bulkOptions).map
          SalesforceConfig.transport = .ok "bulk".toList := by
  have hcase : List.Forall₂ SameOption
      [("transport".toList, "Bulk".toList), ("client_id".toList, "id".toList),
        ("client_secret".toList, "s".toList), ("refresh_token".toList, "rt".toList)]
      bulkOptionsSwapped :=
    .cons ⟨by decide, rfl⟩ (.cons ⟨rfl, rfl⟩ (.cons ⟨by decide, rfl⟩ (.cons ⟨rfl, rfl⟩ .nil)))
  have hknown : ∀ o ∈ bulkOptions, KnownOption o.1 := by
    intro o ho
    simp only [bulkOptions, List.mem_cons, List.not_mem_nil, or_false] at ho
    rcases ho with rfl | rfl | rfl | rfl
    all_goals exact Or.inr (by decide)
  refine ⟨(attach_order _ _ _ _ bulkOptions _ _ ?_ (List.Perm.swap _ _ _) hcase).2 hknown, rfl⟩
  unfold bulkOptions DistinctOptions
  decide

end DuckdbSalesforce
