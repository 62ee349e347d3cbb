import DuckdbSalesforce.Json.Member

/-!
# Cutting out objects and array elements

`ExtractObject`, `GetObjectArray` and `SplitArrayObjects` at a well-formed
value. The loop over an array finds the end of an element where the loop over
an object does.
-/

namespace DuckdbSalesforce
open JsonText

def elementTexts : Elements → List Text
  | .nil => []
  | .cons _ value _ rest => value.render :: elementTexts rest

def AllObjects : Elements → Prop
  | .nil => True
  | .cons _ value _ rest =>
    (∃ lead members, value = .object lead members) ∧ AllObjects rest

/-! ### One object -/

/-- Inside of an object the array loop goes on to the brace that closes it. -/
theorem scanObjects_end (t : Text) (d : ℤ) (m : ScanMode) (cur : Text) (n : ℕ) (hd : 1 ≤ d)
    (hend : objectEnd d m t = some n) :
    ∃ cur', scanObjects m d true cur t =
      (cur ++ t.take n) :: scanObjects .code 0 false cur' (t.drop n) := by
  induction t generalizing d m cur n with
  | nil => cases m <;> cases hend
  | cons c t ih =>
    -- the loops take the same step, and the character joins the element
    have hstep : ∀ d' m' k, 1 ≤ d' → objectEnd d' m' t = some k →
        scanObjects m d true cur (c :: t) = scanObjects m' d' true (cur ++ [c]) t → n = k + 1 →
        ∃ cur', scanObjects m d true cur (c :: t) =
          (cur ++ (c :: t).take n) :: scanObjects .code 0 false cur' ((c :: t).drop n) := by
      intro d' m' k hd' hk hscan hn
      obtain ⟨cur', hrest⟩ := ih d' m' (cur ++ [c]) k hd' hk
      refine ⟨cur', ?_⟩
      rw [hscan, hrest, hn, List.take_succ_cons, List.drop_succ_cons, List.append_assoc]
      rfl
    cases m with
    | skip =>
      rw [objectEnd, Option.map_eq_some_iff] at hend
      obtain ⟨k, hk, rfl⟩ := hend
      exact hstep d .string k hd hk (by rw [scanObjects]) rfl
    | string =>
      rw [objectEnd] at hend
      by_cases hb : c = '\\'
      · rw [if_pos hb, Option.map_eq_some_iff] at hend
        obtain ⟨k, hk, rfl⟩ := hend
        exact hstep d .skip k hd hk (by rw [scanObjects, if_pos hb]) rfl
      rw [if_neg hb] at hend
      by_cases hq : c = '"'
      · rw [if_pos hq, Option.map_eq_some_iff] at hend
        obtain ⟨k, hk, rfl⟩ := hend
        exact hstep d .code k hd hk (by rw [scanObjects, if_neg hb, if_pos hq]) rfl
      · rw [if_neg hq, Option.map_eq_some_iff] at hend
        obtain ⟨k, hk, rfl⟩ := hend
        exact hstep d .string k hd hk (by rw [scanObjects, if_neg hb, if_neg hq]) rfl
    | code =>
      rw [objectEnd] at hend
      by_cases hq : c = '"'
      · rw [if_pos hq, Option.map_eq_some_iff] at hend
        obtain ⟨k, hk, rfl⟩ := hend
        exact hstep d .string k hd hk (by rw [scanObjects, if_pos hq]) rfl
      rw [if_neg hq] at hend
      have hd0 : ¬ d = 0 := by omega
      by_cases ho : c = '{'
      · rw [if_pos ho, Option.map_eq_some_iff] at hend
        obtain ⟨k, hk, rfl⟩ := hend
        exact hstep (d + 1) .code k (by omega) hk
          (by rw [scanObjects, if_neg hq, if_pos ho, if_neg hd0]) rfl
      rw [if_neg ho] at hend
      by_cases hc : c = '}'
      · rw [if_pos hc] at hend
        by_cases hlast : d - 1 = 0
        · rw [if_pos hlast, Option.some.injEq] at hend
          refine ⟨cur ++ [c], ?_⟩
          rw [scanObjects, if_neg hq, if_neg ho, if_pos hc, if_pos ⟨hlast, rfl⟩, hlast, ← hend]
          rfl
        · rw [if_neg hlast, Option.map_eq_some_iff] at hend
          obtain ⟨k, hk, rfl⟩ := hend
          exact hstep (d - 1) .code k (by omega) hk
            (by rw [scanObjects, if_neg hq, if_neg ho, if_pos hc, if_neg fun h => hlast h.1]) rfl
      · rw [if_neg hc, Option.map_eq_some_iff] at hend
        obtain ⟨k, hk, rfl⟩ := hend
        exact hstep d .code k hd hk
          (by rw [scanObjects, if_neg hq, if_neg ho, if_neg hc, if_neg fun h => hd0 h.2]) rfl

theorem scanObjects_object (lead : Blank) (members : Members) (cur rest : Text) :
    ∃ cur', scanObjects .code 0 false cur ((Json.object lead members).render ++ rest) =
      (Json.object lead members).render :: scanObjects .code 0 false cur' rest := by
  obtain ⟨t, ht⟩ : ∃ t, (Json.object lead members).render = '{' :: t := ⟨_, rfl⟩
  have hend := objectEnd_object lead members rest
  rw [ht, List.cons_append, objectEnd, if_neg (by decide), if_pos rfl,
    Option.map_eq_some_iff] at hend
  obtain ⟨n, hn, hlen⟩ := hend
  have hnt : n = t.length := by simpa using hlen
  obtain ⟨cur', hscan⟩ := scanObjects_end (t ++ rest) 1 .code ['{'] n (le_refl 1) hn
  refine ⟨cur', ?_⟩
  rw [hnt, List.take_left, List.drop_left] at hscan
  rw [ht, List.cons_append, scanObjects, if_neg (by decide), if_pos rfl, if_pos rfl]
  exact hscan

/-! ### The elements of an array -/

/-- Between the elements nothing is collected. -/
theorem scanObjects_between (a : Text) (h : ∀ c ∈ a, isNeutral c = true ∧ c ≠ ']')
    (cur rest : Text) :
    scanObjects .code 0 false cur (a ++ rest) = scanObjects .code 0 false (cur ++ a) rest := by
  induction a generalizing cur with
  | nil => rw [List.nil_append, List.append_nil]
  | cons c a ih =>
    obtain ⟨hneutral, hclose⟩ := h c List.mem_cons_self
    simp only [isNeutral, Bool.and_eq_true, bne_iff_ne] at hneutral
    rw [List.cons_append, scanObjects, if_neg hneutral.1.1, if_neg hneutral.1.2,
      if_neg hneutral.2, if_neg fun hc => hclose hc.1,
      ih fun d hd => h d (List.mem_cons_of_mem _ hd), List.append_assoc]
    rfl

theorem blank_between (b : Blank) : ∀ c ∈ b.text, isNeutral c = true ∧ c ≠ ']' := by
  intro c hc
  refine ⟨blank_neutral b c hc, ?_⟩
  intro heq
  subst heq
  exact absurd (List.all_eq_true.mp b.blank _ hc) (by decide)

theorem comma_between (e : Elements) : ∀ c ∈ e.comma, isNeutral c = true ∧ c ≠ ']' := by
  intro c hc
  cases e with
  | nil => cases hc
  | cons _ _ _ _ =>
    rw [List.mem_singleton.mp hc]
    decide

theorem scanObjects_elements (elements : Elements) (h : AllObjects elements) (cur rest : Text) :
    scanObjects .code 0 false cur (elements.render ++ ']' :: rest) = elementTexts elements := by
  match elements with
  | .nil =>
    show scanObjects .code 0 false cur (']' :: rest) = []
    rw [scanObjects, if_neg (by decide), if_neg (by decide), if_neg (by decide),
      if_pos ⟨rfl, rfl⟩]
  | .cons pre value trail more =>
    obtain ⟨⟨lead, members, rfl⟩, hmore⟩ := h
    have hshape : (Elements.cons pre (.object lead members) trail more).render ++ ']' :: rest =
        pre.text ++ ((Json.object lead members).render ++
          (trail.text ++ (more.comma ++ (more.render ++ ']' :: rest)))) := by
      simp [Elements.render]
    obtain ⟨cur', hobject⟩ := scanObjects_object lead members (cur ++ pre.text)
      (trail.text ++ (more.comma ++ (more.render ++ ']' :: rest)))
    rw [hshape, scanObjects_between _ (blank_between pre), hobject,
      scanObjects_between _ (blank_between trail), scanObjects_between _ (comma_between more),
      scanObjects_elements more hmore]
    rfl

theorem scanObjects_array (lead : Blank) (elements : Elements) (h : AllObjects elements)
    (rest : Text) :
    scanObjects .code 0 false [] (((Json.array lead elements).render ++ rest).tail) =
      elementTexts elements := by
  have htail : ((Json.array lead elements).render ++ rest).tail =
      lead.text ++ (elements.render ++ ']' :: rest) := by
    simp [Json.render]
  rw [htail, scanObjects_between _ (blank_between lead), scanObjects_elements elements h]

theorem splitArrayObjects_array (lead : Blank) (elements : Elements) (h : AllObjects elements)
    (before : Blank) (after : Text) :
    splitArrayObjects (before.text ++ (Json.array lead elements).render ++ after) =
      elementTexts elements := by
  have hfind : findText ['['] (before.text ++ (Json.array lead elements).render ++ after) =
      some before.text.length := by
    rw [findText_some _ _ _ (List.cons_ne_nil _ _)]
    refine ⟨?_, ?_⟩
    · rw [List.append_assoc, List.drop_left]
      exact ⟨_, rfl⟩
    · intro j hj hgiven
      obtain ⟨t, ht⟩ := hgiven
      rw [List.append_assoc, List.drop_append_of_le_length (Nat.le_of_lt hj)] at ht
      have hmem : '[' ∈ before.text := by
        rw [List.drop_eq_getElem_cons hj] at ht
        rw [(List.cons.inj ht).1]
        exact List.getElem_mem hj
      exact absurd (List.all_eq_true.mp before.blank _ hmem) (by decide)
  have htail : (before.text ++ (Json.array lead elements).render ++ after).drop
      (before.text.length + 1) = ((Json.array lead elements).render ++ after).tail := by
    rw [List.append_assoc, ← List.drop_drop, List.drop_left, List.drop_one]
  rw [splitArrayObjects, hfind]
  show scanObjects .code 0 false [] (List.drop (before.text.length + 1) _) = _
  rw [htail, scanObjects_array lead elements h]

theorem getObjectArray_at (json key : Text) (i : ℕ) (lead : Blank) (elements : Elements)
    (rest : Text) (hobjects : AllObjects elements) (hfind : findValue json key = some i)
    (hvalue : json.drop i = (Json.array lead elements).render ++ rest) :
    getObjectArray json key = elementTexts elements := by
  have hopen : json[i]? = some '[' := by
    rw [← List.head?_drop, hvalue]
    rfl
  have htail : json.drop (i + 1) = ((Json.array lead elements).render ++ rest).tail := by
    rw [← List.drop_drop, hvalue, List.drop_one]
  unfold getObjectArray
  rw [hfind]
  show (if json[i]? = some '[' then _ else _) = _
  rw [if_pos hopen, htail, scanObjects_array lead elements hobjects]

/-- At a well-formed value that the lookup has found the scanners return the
exact source texts: of the object, or of the elements of the array. -/
theorem scanners_exact (json key : Text) (i : ℕ) (v : Json) (rest : Text)
    (hfind : findValue json key = some i) (hvalue : json.drop i = v.render ++ rest) :
    (∀ lead members, v = .object lead members → extractObject json key = v.render) ∧
      (∀ lead elements, v = .array lead elements → AllObjects elements →
        getObjectArray json key = elementTexts elements ∧
          ∀ before after : Blank,
            splitArrayObjects (before.text ++ v.render ++ after.text) = elementTexts elements) := by
  refine ⟨?_, ?_⟩
  · intro lead members heq
    subst heq
    obtain ⟨_, _, _, _, hobject⟩ := readers_at json key i hfind
    rw [hobject, hvalue, objectAt_value]
    rfl
  · intro lead elements heq hobjects
    subst heq
    exact ⟨getObjectArray_at json key i lead elements rest hobjects hfind hvalue,
      fun before after => splitArrayObjects_array lead elements hobjects before after.text⟩

/-! ### A page of records -/

def objectOf (members : Members) : Json := .object .none members

/-- `[{"Name":"a\\"}, {"Owner":{"Name":"]}"}}]`. -/
def recordElements : Elements :=
  .cons .none (objectOf (memberOf "Name" (.string (spell "a".toList ++ [.escape .backslash])) .nil))
    .none (.cons ⟨" ".toList, rfl⟩ (objectOf (memberOf "Owner"
      (objectOf (memberOf "Name" (textOf "]\x7d") .nil)) .nil)) .none .nil)

def pageText : Text :=
  "\x7b\"records\": ".toList ++ (Json.array .none recordElements).render ++ "\x7d".toList

theorem page_split :
    getObjectArray pageText "records".toList = elementTexts recordElements := by
  have hobjects : AllObjects recordElements := ⟨⟨_, _, rfl⟩, ⟨_, _, rfl⟩, trivial⟩
  exact ((scanners_exact pageText "records".toList 12 (.array .none recordElements) "\x7d".toList
    (by decide) (by decide)).2 .none recordElements rfl hobjects).1

end DuckdbSalesforce
