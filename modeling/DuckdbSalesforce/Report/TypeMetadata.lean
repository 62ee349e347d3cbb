import DuckdbSalesforce.Json.BraceCount
import DuckdbSalesforce.Json.HasMember

/-!
# The object of a report type (`FirstCategoryUniqueObject`, `salesforce_report.cpp`)

The columns of the first category name the fields they show by object and field.
When all of them name one object, the report is about that object.
-/

namespace DuckdbSalesforce
open JsonText

/-! ### The walk over the columns -/

/-- What stands before the first dot, unless that is nothing. -/
def beforeDot (name : Text) : Option Text :=
  match findText ['.'] name with
  | none => none
  | some dot => if 0 < dot then some (name.take dot) else none

def kQualifiedName : Text := "fullyQualifiedName".toList

def memberPrefix (member : Text) : Option Text :=
  match findText (quoted kQualifiedName) member with
  | none => none
  | some fqn =>
    if ':' ∈ member.drop fqn then
      let r := getValue member kQualifiedName
      if r.found && !r.isNull then beforeDot r.out else none
    else none

/-- The opening brace of the member's value, unless a comma stands before it. -/
def memberBrace (key : Text) : Option ℕ :=
  match findText ['{'] key, findText [','] key with
  | none, _ => none
  | some brace, none => some brace
  | some brace, some comma => if comma < brace then none else some brace

/-- The loop from `i` on: the prefixes in the order they are met. -/
def walkColumns : ℕ → Text → List Text
  | 0, _ => []
  | fuel + 1, s =>
    match s.dropWhile (· != '"') with
    | [] => []
    | _ :: t =>
      -- from `key_close` on
      let key := t.dropWhile (· != '"')
      match memberBrace key with
      | none =>
        match findText [','] key with
        | none => []
        | some comma => walkColumns fuel (key.drop (comma + 1))
      | some brace =>
        let value := key.drop brace
        let n := braceLength 0 value
        (memberPrefix (value.take n)).toList ++ walkColumns fuel (value.drop n)

def firstCategoryUniqueObject (body : Text) : Text :=
  match getObjectArray body "categories".toList with
  | [] => []
  | category :: _ =>
    let columns := extractObject category "columns".toList
    if columns = [] then []
    else
      match (walkColumns columns.length columns).dedup with
      | [p] => p
      | _ => []

/-! ### What a body says -/

def memberValue (o : ObjectText) (key : Text) : Option Json := (o.find key).map Found.value

/-- A member of the object that is a member's value, in the whole text. -/
def Found.around (f g : Found) : Found :=
  ⟨f.head ++ g.before, g.name, g.mid, g.post, g.value, g.after ++ f.after⟩

def categoriesMember (body : ObjectText) : Option Found :=
  (body.find "reportTypeMetadata".toList).bind fun f =>
    match f.value with
    | .object lead members =>
      ((recordObject lead members).find "categories".toList).map (Found.around f)
    | _ => none

def firstCategory (body : ObjectText) : Option ObjectText :=
  match (categoriesMember body).map Found.value with
  | some (.array _ (.cons _ (.object lead members) _ _)) => some (recordObject lead members)
  | _ => none

def columnEntries : Members → List (List StringItem × Json)
  | .nil => []
  | .cons _ name _ _ value _ rest => (name, value) :: columnEntries rest

/-- The columns of the first category, each with its key. -/
def firstColumns (body : ObjectText) : List (List StringItem × Json) :=
  match (firstCategory body).bind fun c => memberValue c "columns".toList with
  | some (.object _ columns) => columnEntries columns
  | _ => []

/-- What the column names its field; nothing where it names none. -/
def qualifiedUnits : Json → List ℕ
  | .object lead members => stringUnits (memberValue (recordObject lead members) kQualifiedName)
  | _ => []

def unitsBeforeDot (units : List ℕ) : Option (List ℕ) :=
  if 46 ∈ units ∧ units.head? ≠ some 46 then some (units.takeWhile (· ≠ 46)) else none

def columnPrefixes (columns : List (List StringItem × Json)) : List (List ℕ) :=
  columns.filterMap fun c => unitsBeforeDot (qualifiedUnits c.2)

/-- The one prefix when exactly one occurs, else nothing. -/
def UniquePrefix (prefixes : List (List ℕ)) (result : Text) : Prop :=
  (∀ p, (∀ q, q ∈ prefixes ↔ q = p) → codeUnits result = p) ∧
    ((¬ ∃ p, ∀ q, q ∈ prefixes ↔ q = p) → result = [])

/-- A column is an object or null, and its qualified name a string or null. -/
def ColumnShape : Json → Prop
  | .null => True
  | .object lead members =>
    match memberValue (recordObject lead members) kQualifiedName with
    | none => True
    | some .null => True
    | some (.string _) => True
    | _ => False
  | _ => False

/-- What the body has of a report type is of the documented shape. -/
structure ReportTypeShape (body : ObjectText) : Prop where
  categories : ∀ f, categoriesMember body = some f →
    ∃ lead elements, f.value = .array lead elements ∧ AllObjects elements
  columns : ∀ c v, firstCategory body = some c → memberValue c "columns".toList = some v →
    ∃ lead members, v = .object lead members
  column : ∀ c ∈ firstColumns body, ColumnShape c.2

/-! ### When the walk reads it -/

/-- The member is the first thing in the text that looks like it; without one
nothing does. -/
def FoundFirst (key : Text) (found : Option Found) (text : Text) : Prop :=
  (∀ f, found = some f → SpelledFirst key f) ∧ (found = none → NoFalseHit key text)

/-- Up to the first dot no escape is a `\b`, `\f` or `\u`. -/
def PlainBeforeDot (items : List StringItem) : Prop :=
  ∀ before x after, items = before ++ x :: after → x.units = [46] →
    (∀ y ∈ before, y.units ≠ [46]) → ∀ y ∈ before ++ [x], plainlyEscaped y = true

/-- The key has no brace and no comma behind an escaped quote, the braces of the
value balance even when those in strings count, and the name is found. -/
structure ColumnRead (name : List StringItem) (value : Json) : Prop where
  key : ∀ c ∈ (renderItems name).dropWhile (· != '"'), c ≠ '{' ∧ c ≠ ','
  balance : ∀ lead members, value = .object lead members → BracesBalance value.render
  found : ∀ lead members, value = .object lead members →
    FoundFirst kQualifiedName ((recordObject lead members).find kQualifiedName) value.render
  plain : ∀ lead members items, value = .object lead members →
    memberValue (recordObject lead members) kQualifiedName = some (.string items) →
    PlainBeforeDot items

structure ReportTypeRead (body : ObjectText) : Prop where
  categories : FoundFirst "categories".toList (categoriesMember body) body.text
  columns : ∀ c, firstCategory body = some c →
    FoundFirst "columns".toList (c.find "columns".toList) c.text
  column : ∀ c ∈ firstColumns body, ColumnRead c.1 c.2

/-! ### Qualified names -/

theorem charUnits_dot (c : Char) : 46 ∈ charUnits c ↔ c = '.' := by
  constructor
  · intro h
    rcases charUnits_cases c with ⟨hunits, _⟩ | ⟨hi, lo, hunits, _⟩
    · rw [hunits, List.mem_singleton] at h
      exact Char.toNat_inj.mp h.symm
    · rw [hunits] at h
      simp only [List.mem_cons, List.not_mem_nil, or_false] at h
      omega
  · intro heq
    subst heq
    decide

theorem unitsBeforeDot_split (a b : List ℕ) (h : 46 ∉ a) :
    unitsBeforeDot (a ++ 46 :: b) = if a = [] then none else some a := by
  cases a with
  | nil => rfl
  | cons u a =>
    have hu : u ≠ 46 := fun hu => h (by rw [hu]; exact List.mem_cons_self)
    have hall : ∀ v ∈ u :: a, decide (v ≠ 46) = true := by
      intro v hv
      exact decide_eq_true fun hv46 => h (hv46 ▸ hv)
    have htake : (u :: a ++ 46 :: b).takeWhile (· ≠ 46) = u :: a := by
      rw [List.takeWhile_append_of_pos hall]
      simp
    rw [unitsBeforeDot, htake, if_neg (List.cons_ne_nil u a)]
    exact if_pos ⟨by simp, by simpa using hu⟩

theorem unitsBeforeDot_none (units : List ℕ) (h : 46 ∉ units) : unitsBeforeDot units = none :=
  if_neg fun hdot => h hdot.1

theorem beforeDot_units (name : Text) :
    (beforeDot name).map codeUnits = unitsBeforeDot (codeUnits name) := by
  have hno : ∀ t : Text, '.' ∉ t → 46 ∉ codeUnits t := by
    intro t ht hmem
    obtain ⟨c, hc, hunit⟩ := List.mem_flatMap.mp hmem
    exact ht ((charUnits_dot c).mp hunit ▸ hc)
  by_cases hdot : '.' ∈ name
  · obtain ⟨a, b, rfl, ha⟩ := List.eq_append_cons_of_mem hdot
    have hfind : findText ['.'] (a ++ '.' :: b) = some a.length := by
      rw [findText_skip '.' a _ ha, findText_here]
      simp
    have hunits : codeUnits (a ++ '.' :: b) = codeUnits a ++ 46 :: codeUnits b := by
      rw [codeUnits_append, codeUnits_cons]
      rfl
    rw [beforeDot, hfind, hunits, unitsBeforeDot_split _ _ (hno a ha)]
    cases a with
    | nil => rfl
    | cons c a =>
      have hne : codeUnits (c :: a) ≠ [] := fun hnil => List.cons_ne_nil c a (codeUnits_eq_nil _ hnil)
      rw [if_neg hne]
      simp
  · rw [beforeDot, findText_absent '.' name hdot, unitsBeforeDot_none _ (hno name hdot)]
    rfl

theorem units_dot (x : StringItem) (h : 46 ∈ x.units) : x.units = [46] := by
  cases x with
  | plain c hc =>
    have hdot := (charUnits_dot c).mp h
    subst hdot
    rfl
  | escape e => rw [StringItem.units, ← List.mem_singleton.mp h]
  | unicode a b c d => rw [StringItem.units, ← List.mem_singleton.mp h]

theorem readItem_dot (x : StringItem) (h : 46 ∈ codeUnits (readItem x)) : x.units = [46] := by
  obtain ⟨e, he, hunit⟩ := List.mem_flatMap.mp h
  have hdot := (charUnits_dot e).mp hunit
  subst hdot
  cases x with
  | plain c hc =>
    have hc' := List.mem_singleton.mp he
    subst hc'
    rfl
  | escape e => cases e <;> exact absurd he (by decide)
  | unicode a b c d =>
    have hhex : ∀ d : HexDigit, '.' ≠ d.char := by
      intro d hd
      have hdigit := d.hex
      rw [← hd] at hdigit
      cases hdigit
    simp [readItem, hhex] at he

/-- The name is read right as far as its first dot. -/
theorem unitsBeforeDot_read (items : List StringItem) (h : PlainBeforeDot items) :
    unitsBeforeDot (codeUnits (readItems items)) = unitsBeforeDot (unitsOf items) := by
  cases hfind : items.find? fun x => x.units == [46] with
  | none =>
    have hno : ∀ x ∈ items, x.units ≠ [46] := by
      intro x hx hunits
      exact List.find?_eq_none.mp hfind x hx (by rw [hunits]; rfl)
    rw [unitsBeforeDot_none, unitsBeforeDot_none]
    · intro hmem
      obtain ⟨x, hx, hunit⟩ := List.mem_flatMap.mp hmem
      exact hno x hx (units_dot x hunit)
    · intro hmem
      obtain ⟨c, hc, hunit⟩ := List.mem_flatMap.mp hmem
      obtain ⟨x, hx, hcx⟩ := List.mem_flatMap.mp hc
      exact hno x hx (readItem_dot x (List.mem_flatMap.mpr ⟨c, hcx, hunit⟩))
  | some x =>
    obtain ⟨hdot, before, after, rfl, hbefore⟩ := List.find?_eq_some_iff_append.mp hfind
    have hx : x.units = [46] := by simpa using hdot
    have hno : ∀ y ∈ before, y.units ≠ [46] := by
      intro y hy
      simpa using hbefore y hy
    have hplain := h before x after rfl hx hno
    have hread := (readItems_right_iff (before ++ [x])).mpr hplain
    have hsplit : before ++ x :: after = (before ++ [x]) ++ after := by simp
    have hunits : unitsOf (before ++ [x]) = unitsOf before ++ [46] := by
      rw [unitsOf_append, unitsOf_cons, hx]
      rfl
    have hfree : 46 ∉ unitsOf before := by
      intro hmem
      obtain ⟨y, hy, hunit⟩ := List.mem_flatMap.mp hmem
      exact hno y hy (units_dot y hunit)
    have hreadItems : readItems ((before ++ [x]) ++ after) =
        readItems (before ++ [x]) ++ readItems after := List.flatMap_append
    rw [hsplit, hreadItems, codeUnits_append, hread, unitsOf_append (before ++ [x]), hunits,
      List.append_assoc, List.append_assoc]
    exact (unitsBeforeDot_split _ _ hfree).trans (unitsBeforeDot_split _ _ hfree).symm

theorem plainBeforeDot_of_all (items : List StringItem)
    (h : ∀ y ∈ items, plainlyEscaped y = true) : PlainBeforeDot items := by
  intro before x after heq _ _ y hy
  subst heq
  apply h
  rcases List.mem_append.mp hy with hy | hy
  · exact List.mem_append_left _ hy
  · exact List.mem_append_right _ (List.mem_cons.mpr (Or.inl (List.mem_singleton.mp hy)))

/-! ### One column -/

/-- The two searches in front of `GetValue` change nothing. -/
theorem memberPrefix_value (member : Text) :
    memberPrefix member =
      if (getValue member kQualifiedName).found && !(getValue member kQualifiedName).isNull then
        beforeDot (getValue member kQualifiedName).out
      else none := by
  unfold memberPrefix
  cases hpos : findValue member kQualifiedName with
  | none =>
    have hread : getValue member kQualifiedName = ⟨[], false, false⟩ := by
      rw [getValue, hpos]
    rw [hread]
    split
    · rfl
    · split <;> rfl
  | some i =>
    obtain ⟨x, w, v, y, htext, _, _, _, hfirst, _⟩ := (findValue_some _ _ _).mp hpos
    have hdrop : member.drop x.length = quoted kQualifiedName ++ w ++ ':' :: v ++ y := by
      rw [htext]
      simp
    have hfind : findText (quoted kQualifiedName) member = some x.length := by
      rw [findText_some _ _ _ (quoted_ne kQualifiedName), hdrop]
      exact ⟨⟨w ++ ':' :: v ++ y, by simp⟩, hfirst⟩
    have hcolon : ':' ∈ member.drop x.length := by
      rw [hdrop]
      simp
    simp only [hfind, if_pos hcolon]

theorem memberPrefix_column (name : List StringItem) (value : Json) (lead : Blank)
    (members : Members) (hvalue : value = .object lead members) (hshape : ColumnShape value)
    (hread : ColumnRead name value) :
    (memberPrefix value.render).map codeUnits = unitsBeforeDot (qualifiedUnits value) := by
  subst hvalue
  obtain ⟨hsome, hnone⟩ := hread.found lead members rfl
  have htext := recordObject_text lead members
  rw [memberPrefix_value]
  cases hfind : (recordObject lead members).find kQualifiedName with
  | none =>
    have hpos := (findValue_none_iff _ _).mpr (hnone hfind)
    have hvalue : getValue (Json.object lead members).render kQualifiedName = ⟨[], false, false⟩ := by
      rw [getValue, hpos]
    rw [hvalue, qualifiedUnits, memberValue, hfind]
    rfl
  | some f =>
    obtain ⟨hftext, hname, hterm⟩ := ObjectText.find_spec _ _ f hfind
    have hpos := (findValue_found_iff f kQualifiedName hname).mpr (hsome f hfind)
    obtain ⟨_, hvalue, _⟩ := readers_found f kQualifiedName hpos
    rw [hftext, htext] at hvalue
    have hmember : memberValue (recordObject lead members) kQualifiedName = some f.value := by
      rw [memberValue, hfind]
      rfl
    rw [ColumnShape, hmember] at hshape
    rw [hvalue, qualifiedUnits, hmember]
    cases hv : f.value with
    | bool _ | number _ | array _ _ | object _ _ =>
      rw [hv] at hshape
      exact absurd hshape not_false
    | null => rfl
    | string items =>
      rw [hv] at hmember
      rw [valueAt_scalar _ _ hterm rfl]
      show (beforeDot (readItems items)).map codeUnits = _
      rw [beforeDot_units, unitsBeforeDot_read items (hread.plain lead members items rfl hmember)]
      rfl

/-! ### All columns -/

theorem dropWhile_quote (a b : Text) :
    (a ++ '"' :: b).dropWhile (· != '"') = a.dropWhile (· != '"') ++ '"' :: b := by
  rw [List.dropWhile_append]
  split
  · rename_i hempty
    rw [List.isEmpty_iff.mp hempty]
    simp
  · rfl

theorem dropWhile_free (a : Text) (h : '"' ∉ a) : a.dropWhile (· != '"') = [] := by
  rw [List.dropWhile_eq_nil_iff]
  intro c hc
  exact bne_iff_ne.mpr fun hq => h (hq ▸ hc)

theorem blank_free (b : Blank) (c : Char) (hc : isBlank c = false) : c ∉ b.text := by
  intro hmem
  rw [List.all_eq_true.mp b.blank c hmem] at hc
  cases hc

theorem walkColumns_step (fuel : ℕ) (junk key s : Text) (hjunk : '"' ∉ junk) :
    walkColumns (fuel + 1) (junk ++ '"' :: (key ++ '"' :: s)) =
      match memberBrace (key.dropWhile (· != '"') ++ '"' :: s) with
      | none =>
        match findText [','] (key.dropWhile (· != '"') ++ '"' :: s) with
        | none => []
        | some comma =>
          walkColumns fuel ((key.dropWhile (· != '"') ++ '"' :: s).drop (comma + 1))
      | some brace =>
        (memberPrefix (((key.dropWhile (· != '"') ++ '"' :: s).drop brace).take
          (braceLength 0 ((key.dropWhile (· != '"') ++ '"' :: s).drop brace)))).toList ++
          walkColumns fuel (((key.dropWhile (· != '"') ++ '"' :: s).drop brace).drop
            (braceLength 0 ((key.dropWhile (· != '"') ++ '"' :: s).drop brace))) := by
  have hopen : (junk ++ '"' :: (key ++ '"' :: s)).dropWhile (· != '"') = '"' :: (key ++ '"' :: s) := by
    rw [dropWhile_quote, dropWhile_free junk hjunk]
    rfl
  rw [walkColumns, hopen]
  simp only [dropWhile_quote]

theorem walkColumns_end (fuel : ℕ) (s : Text) (h : '"' ∉ s) : walkColumns fuel s = [] := by
  cases fuel with
  | zero => rfl
  | succ fuel => rw [walkColumns, dropWhile_free s h]

theorem memberBrace_open (a t : Text) (hopen : '{' ∉ a) (hcomma : ',' ∉ a) :
    memberBrace (a ++ '{' :: t) = some a.length := by
  have hbrace : findText ['{'] (a ++ '{' :: t) = some a.length := by
    rw [findText_skip '{' a _ hopen, findText_here]
    simp
  have hafter := findText_skip ',' a ('{' :: t) hcomma
  rw [memberBrace, hbrace, hafter]
  cases findText [','] ('{' :: t) with
  | none => rfl
  | some k => exact if_neg (Nat.not_lt.mpr (Nat.le_add_left _ _))

theorem memberBrace_comma (a t : Text) (hopen : '{' ∉ a) (hcomma : ',' ∉ a) :
    memberBrace (a ++ ',' :: t) = none ∧ findText [','] (a ++ ',' :: t) = some a.length := by
  have hfind : findText [','] (a ++ ',' :: t) = some a.length := by
    rw [findText_skip ',' a _ hcomma, findText_here]
    simp
  have hno : List.isPrefixOf ['{'] (',' :: t) = false := rfl
  refine ⟨?_, hfind⟩
  rw [memberBrace, hfind, findText_skip '{' a _ hopen, findText, hno, if_neg Bool.false_ne_true]
  cases findText ['{'] t with
  | none => rfl
  | some k =>
    have hlt : a.length < k + 1 + a.length := by omega
    exact if_pos hlt

theorem memberBrace_none (a : Text) (hopen : '{' ∉ a) : memberBrace a = none := by
  rw [memberBrace, findText_absent '{' a hopen]

/-- Between a key and its value there is no brace and no comma. -/
theorem key_free (name : List StringItem) (value : Json) (mid post : Blank)
    (hread : ColumnRead name value) (c : Char) (hc : c = '{' ∨ c = ',') :
    c ∉ (renderItems name).dropWhile (· != '"') ++ '"' :: (mid.text ++ ':' :: post.text) := by
  have hblank : isBlank c = false := by rcases hc with rfl | rfl <;> rfl
  have hquote : c ≠ '"' ∧ c ≠ ':' := by rcases hc with rfl | rfl <;> decide
  simp only [List.mem_append, List.mem_cons, not_or]
  refine ⟨?_, hquote.1, blank_free mid c hblank, hquote.2, blank_free post c hblank⟩
  intro hmem
  obtain ⟨hopen, hcomma⟩ := hread.key c hmem
  rcases hc with rfl | rfl
  · exact hopen rfl
  · exact hcomma rfl

/-- A null column is skipped up to the comma behind it. -/
theorem nullColumn_skipped (key : Text) (trail : Blank) (rest : Members) (hopen : '{' ∉ key)
    (hcomma : ',' ∉ key) (text : Text)
    (htext : text = key ++ (Json.null.render ++ (trail.text ++ rest.comma ++ rest.render ++ ['}']))) :
    memberBrace text = none ∧ ((rest = .nil ∧ findText [','] text = none) ∨
      ∃ k, findText [','] text = some k ∧ text.drop (k + 1) = rest.render ++ ['}']) := by
  have hfree : ∀ c : Char, isBlank c = false → c ∉ "null".toList → c ∉ key →
      c ∉ key ++ ("null".toList ++ trail.text) := by
    intro c hblank hnull hc
    simp only [List.mem_append, not_or]
    exact ⟨hc, hnull, blank_free trail c hblank⟩
  have hopen' := hfree '{' rfl (by decide) hopen
  have hcomma' := hfree ',' rfl (by decide) hcomma
  cases rest with
  | nil =>
    have hshort : text = key ++ ("null".toList ++ trail.text) ++ ['}'] := by
      simp [htext, Json.render, Members.render, Members.comma]
    rw [hshort]
    exact ⟨memberBrace_none _ (by simpa using hopen'),
      Or.inl ⟨rfl, findText_absent _ _ (by simpa using hcomma')⟩⟩
  | cons pre name mid post value more rest =>
    have hshort : text = key ++ ("null".toList ++ trail.text) ++
        ',' :: ((Members.cons pre name mid post value more rest).render ++ ['}']) := by
      simp [htext, Json.render, Members.comma]
    obtain ⟨hnone, hfound⟩ := memberBrace_comma _
      ((Members.cons pre name mid post value more rest).render ++ ['}']) hopen' hcomma'
    rw [hshort]
    refine ⟨hnone, Or.inr ⟨_, hfound, ?_⟩⟩
    rw [← List.drop_drop, List.drop_left, List.drop_one, List.tail_cons]

/-- The loop goes from column to column; between them there is no quote. -/
theorem walkColumns_members (members : Members)
    (hshape : ∀ c ∈ columnEntries members, ColumnShape c.2)
    (hread : ∀ c ∈ columnEntries members, ColumnRead c.1 c.2) (fuel : ℕ)
    (hfuel : members.render.length ≤ fuel) (junk : Text) (hjunk : '"' ∉ junk) :
    (walkColumns fuel (junk ++ members.render ++ ['}'])).map codeUnits =
      columnPrefixes (columnEntries members) := by
  match members with
  | .nil =>
    rw [walkColumns_end]
    · rfl
    · simpa [Members.render] using hjunk
  | .cons pre name mid post value trail rest =>
    have hvalueShape := hshape (name, value) List.mem_cons_self
    have hvalueRead := hread (name, value) List.mem_cons_self
    have hrestShape := fun c hc => hshape c (List.mem_cons_of_mem (name, value) hc)
    have hrestRead := fun c hc => hread c (List.mem_cons_of_mem (name, value) hc)
    have hopen := key_free name value mid post hvalueRead '{' (Or.inl rfl)
    have hcomma := key_free name value mid post hvalueRead ',' (Or.inr rfl)
    have hrest : rest.render.length + 2 ≤ fuel := by
      simp only [Members.render, renderString, List.length_append, List.length_cons] at hfuel
      omega
    obtain ⟨fuel, rfl⟩ : ∃ n, fuel = n + 1 := ⟨fuel - 1, by omega⟩
    have hrec := walkColumns_members rest hrestShape hrestRead fuel (by omega)
    have hprefixes : columnPrefixes (columnEntries (.cons pre name mid post value trail rest)) =
        (unitsBeforeDot (qualifiedUnits value)).toList ++ columnPrefixes (columnEntries rest) := by
      rw [columnEntries, columnPrefixes, List.filterMap_cons]
      cases unitsBeforeDot (qualifiedUnits value) <;> rfl
    have htext : junk ++ (Members.cons pre name mid post value trail rest).render ++ ['}'] =
        (junk ++ pre.text) ++ '"' :: (renderItems name ++ '"' :: (mid.text ++ ':' :: (post.text ++
          (value.render ++ (trail.text ++ rest.comma ++ rest.render ++ ['}']))))) := by
      simp [Members.render, renderString]
    have hkey : (renderItems name).dropWhile (· != '"') ++ '"' :: (mid.text ++ ':' :: (post.text ++
        (value.render ++ (trail.text ++ rest.comma ++ rest.render ++ ['}'])))) =
        ((renderItems name).dropWhile (· != '"') ++ '"' :: (mid.text ++ ':' :: post.text)) ++
          (value.render ++ (trail.text ++ rest.comma ++ rest.render ++ ['}'])) := by
      simp
    have hquiet : '"' ∉ junk ++ pre.text := by
      rw [List.mem_append, not_or]
      exact ⟨hjunk, blank_free pre '"' rfl⟩
    rw [htext, walkColumns_step fuel _ _ _ hquiet, hkey, hprefixes]
    generalize (renderItems name).dropWhile (· != '"') ++ '"' :: (mid.text ++ ':' :: post.text) = key
      at hopen hcomma ⊢
    cases value with
    | bool _ | number _ | string _ | array _ _ => exact absurd hvalueShape not_false
    | null =>
      obtain ⟨hnone, ⟨rfl, hfound⟩ | ⟨k, hfound, hdrop⟩⟩ :=
        nullColumn_skipped key trail rest hopen hcomma _ rfl
      · rw [hnone, hfound]
        rfl
      · rw [hnone, hfound]
        simp only [hdrop]
        exact hrec [] List.not_mem_nil
    | object lead members =>
      have hbalance := hvalueRead.balance lead members rfl
      have hprefix := memberPrefix_column name _ lead members rfl hvalueShape hvalueRead
      obtain ⟨u, hu⟩ : ∃ u, (Json.object lead members).render = '{' :: u := ⟨_, rfl⟩
      have hlen := braceLength_balanced u (trail.text ++ rest.comma ++ rest.render ++ ['}'])
        (hu ▸ hbalance)
      have hquiet' : '"' ∉ trail.text ++ rest.comma := by
        rw [List.mem_append, not_or]
        exact ⟨blank_free trail '"' rfl, fun hmem => absurd (members_comma rest _ hmem) (by decide)⟩
      have hnext := hrec (trail.text ++ rest.comma) hquiet'
      rw [← hu] at hlen
      have hbrace := memberBrace_open key (u ++ (trail.text ++ rest.comma ++ rest.render ++ ['}']))
        hopen hcomma
      rw [← List.cons_append, ← hu] at hbrace
      rw [hbrace]
      simp only [List.drop_left, hlen, List.take_left]
      rw [List.map_append, hnext, ← hprefix]
      cases memberPrefix (Json.object lead members).render <;> rfl

/-! ### The unique object -/

theorem uniquePrefix_dedup (found : List Text) :
    UniquePrefix (found.map codeUnits)
      (match found.dedup with
      | [p] => p
      | _ => []) := by
  have hmem : ∀ q, q ∈ found.map codeUnits ↔ ∃ t ∈ found.dedup, codeUnits t = q := by
    intro q
    simp only [List.mem_map, List.mem_dedup]
  have hnodup := List.nodup_dedup found
  match hdedup : found.dedup with
  | [] =>
    refine ⟨fun p hp => ?_, fun _ => rfl⟩
    obtain ⟨t, ht, _⟩ := (hmem p).mp ((hp p).mpr rfl)
    rw [hdedup] at ht
    cases ht
  | [p] =>
    have hone : ∀ q, q ∈ found.map codeUnits ↔ q = codeUnits p := by
      intro q
      rw [hmem, hdedup]
      simp [eq_comm]
    exact ⟨fun q hq => (hq (codeUnits p)).mp ((hone _).mpr rfl), fun hno => absurd ⟨_, hone⟩ hno⟩
  | p :: q :: rest =>
    refine ⟨fun r hr => ?_, fun _ => rfl⟩
    have hp := (hr (codeUnits p)).mp ((hmem _).mpr ⟨p, by rw [hdedup]; simp, rfl⟩)
    have hq := (hr (codeUnits q)).mp ((hmem _).mpr ⟨q, by rw [hdedup]; simp, rfl⟩)
    have heq : p = q := codeUnits_injective p q (hp.trans hq.symm)
    rw [hdedup, heq] at hnodup
    simp at hnodup

theorem uniquePrefix_none : UniquePrefix [] [] := uniquePrefix_dedup []

theorem categoriesMember_spec (body : ObjectText) (c : Found) (h : categoriesMember body = some c) :
    c.text = body.text ∧ unitsOf c.name = codeUnits "categories".toList := by
  obtain ⟨f, hf, hc⟩ := Option.bind_eq_some_iff.mp h
  obtain ⟨hftext, _, _⟩ := ObjectText.find_spec body _ f hf
  cases hv : f.value with
  | null | bool _ | number _ | string _ | array _ _ =>
    rw [hv] at hc
    cases hc
  | object lead members =>
    rw [hv] at hc
    obtain ⟨g, hg, rfl⟩ := Option.map_eq_some_iff.mp hc
    obtain ⟨hgtext, hgname, _⟩ := ObjectText.find_spec _ _ g hg
    refine ⟨?_, hgname⟩
    have hwhole : f.text = f.head ++ g.text ++ f.after := by
      rw [hgtext, recordObject_text, ← hv]
      rfl
    rw [← hftext, hwhole]
    simp [Found.around, Found.head, Found.text]

theorem categories_read (body : ObjectText) (hshape : ReportTypeShape body)
    (hread : ReportTypeRead body) :
    getObjectArray body.text "categories".toList =
      match (categoriesMember body).map Found.value with
      | some (.array _ elements) => elementTexts elements
      | _ => [] := by
  cases hc : categoriesMember body with
  | none =>
    have hpos := (findValue_none_iff _ _).mpr (hread.categories.2 hc)
    rw [getObjectArray, hpos]
    rfl
  | some c =>
    obtain ⟨htext, hname⟩ := categoriesMember_spec body c hc
    obtain ⟨lead, elements, hv, hobjects⟩ := hshape.categories c hc
    have hpos := (findValue_found_iff c _ hname).mpr (hread.categories.1 c hc)
    have hdrop := found_drop c
    rw [htext, hv] at hdrop
    rw [htext] at hpos
    rw [Option.map_some, hv]
    exact getObjectArray_at _ _ _ lead elements c.after hobjects hpos hdrop

theorem columns_read (c : ObjectText)
    (hread : FoundFirst "columns".toList (c.find "columns".toList) c.text) :
    extractObject c.text "columns".toList = objectText (memberValue c "columns".toList) := by
  cases hf : c.find "columns".toList with
  | none =>
    have hpos := (findValue_none_iff _ _).mpr (hread.2 hf)
    rw [extractObject, hpos, memberValue, hf]
    rfl
  | some f =>
    obtain ⟨htext, hname, hterm⟩ := ObjectText.find_spec c _ f hf
    have hpos := (findValue_found_iff f _ hname).mpr (hread.1 f hf)
    obtain ⟨_, _, _, _, hobject⟩ := readers_found f _ hpos
    rw [htext] at hobject
    rw [hobject, memberValue, hf]
    rfl

theorem uniqueObject_read (body : ObjectText) (hshape : ReportTypeShape body)
    (hread : ReportTypeRead body) :
    UniquePrefix (columnPrefixes (firstColumns body)) (firstCategoryUniqueObject body.text) := by
  have hcategories := categories_read body hshape hread
  rw [firstCategoryUniqueObject, hcategories]
  cases hc : categoriesMember body with
  | none =>
    have hnone : firstCategory body = none := by rw [firstCategory, hc]; rfl
    rw [firstColumns, hnone]
    exact uniquePrefix_none
  | some f =>
    obtain ⟨lead, elements, hv, hobjects⟩ := hshape.categories f hc
    rw [Option.map_some, hv]
    cases elements with
    | nil =>
      have hnone : firstCategory body = none := by rw [firstCategory, hc, Option.map_some, hv]
      rw [firstColumns, hnone]
      exact uniquePrefix_none
    | cons pre value trail rest =>
      obtain ⟨⟨clead, cmembers, rfl⟩, _⟩ := hobjects
      have hfirst : firstCategory body = some (recordObject clead cmembers) := by
        rw [firstCategory, hc, Option.map_some, hv]
      have hextract := columns_read _ (hread.columns _ hfirst)
      rw [recordObject_text] at hextract
      simp only [elementTexts, hextract]
      cases hcolumns : memberValue (recordObject clead cmembers) "columns".toList with
      | none =>
        have hnone : firstColumns body = [] := by
          rw [firstColumns, hfirst, Option.bind_some, hcolumns]
        rw [hnone]
        exact uniquePrefix_none
      | some v =>
        obtain ⟨olead, omembers, rfl⟩ := hshape.columns _ v hfirst hcolumns
        have hentries : firstColumns body = columnEntries omembers := by
          rw [firstColumns, hfirst, Option.bind_some, hcolumns]
        have hne : (Json.object olead omembers).render ≠ [] := List.cons_ne_nil '{' _
        have hshape' := hshape.column
        have hread' := hread.column
        rw [hentries] at hshape' hread'
        have htext : (Json.object olead omembers).render =
            ('{' :: olead.text) ++ omembers.render ++ ['}'] := by
          simp [Json.render]
        have hwalk := walkColumns_members omembers hshape' hread'
          (Json.object olead omembers).render.length (by rw [htext]; simp; omega)
          ('{' :: olead.text) (by simp [blank_free olead '"' rfl])
        rw [← htext] at hwalk
        rw [hentries, ← hwalk, objectText, if_neg hne]
        exact uniquePrefix_dedup _

theorem category_object_unique (body : ObjectText) (hshape : ReportTypeShape body)
    (hread : ReportTypeRead body) :
    UniquePrefix (columnPrefixes (firstColumns body)) (firstCategoryUniqueObject body.text) :=
  uniqueObject_read body hshape hread

/-! ### Cases -/

/-- `{"fullyQualifiedName":"Case.CaseNumber"}`. -/
def caseColumn : Json := objectOf (memberOf "fullyQualifiedName" (textOf "Case.CaseNumber") .nil)

/-- `{"reportTypeMetadata":{"categories":[{"columns":{"CASE_NUMBER":...}}]}}`. -/
def typeBody (column : Json) : ObjectText :=
  recordObject .none (memberOf "reportTypeMetadata" (objectOf (memberOf "categories"
    (.array .none (.cons .none (objectOf (memberOf "columns"
      (objectOf (memberOf "CASE_NUMBER" column .nil)) .nil)) .none .nil)) .nil)) .nil)

theorem foundFirst_of (key : Text) (f : Found) (hname : unitsOf f.name = codeUnits key)
    (hpos : findValue f.text key = some f.head.length) : FoundFirst key (some f) f.text := by
  refine ⟨fun g hg => ?_, fun hno => by cases hno⟩
  rw [← Option.some.inj hg]
  exact (findValue_found_iff f key hname).mp hpos

theorem typeBody_shape (column : Json) (h : ColumnShape column) :
    ReportTypeShape (typeBody column) := by
  refine ⟨?_, ?_, ?_⟩
  · intro f hf
    rw [← Option.some.inj hf]
    exact ⟨_, _, rfl, ⟨⟨_, _, rfl⟩, trivial⟩⟩
  · intro c v hc hv
    rw [← Option.some.inj hc] at hv
    exact ⟨_, _, (Option.some.inj hv).symm⟩
  · intro c hc
    rw [List.mem_singleton.mp hc]
    exact h

theorem case_columns_unique :
    UniquePrefix (columnPrefixes (firstColumns (typeBody caseColumn)))
      (firstCategoryUniqueObject (typeBody caseColumn).text) := by
  refine category_object_unique (typeBody caseColumn) (typeBody_shape caseColumn trivial) ⟨?_, ?_, ?_⟩
  · exact foundFirst_of _ _ (by decide) (by decide +kernel)
  · intro c hc
    rw [← Option.some.inj hc]
    exact foundFirst_of _ _ (by decide) (by decide +kernel)
  · intro c hc
    rw [List.mem_singleton.mp hc]
    have hkey : (renderItems (spell "CASE_NUMBER".toList)).dropWhile (· != '"') = [] := by decide
    refine ⟨fun d hd => ?_, ?_, ?_, ?_⟩
    · rw [hkey] at hd
      cases hd
    · intro lead members _
      decide +kernel
    · intro lead members hv
      cases hv
      exact foundFirst_of _ _ (by decide) (by decide +kernel)
    · intro lead members items hv hitems
      cases hv
      have hspelled := Json.string.inj (Option.some.inj hitems)
      rw [← hspelled]
      exact plainBeforeDot_of_all _ (by decide +kernel)

/-- `{"label":"a}","fullyQualifiedName":"Case.CaseNumber"}`. -/
def bracedColumn : Json :=
  objectOf (memberOf "label" (textOf "a\x7d")
    (memberOf "fullyQualifiedName" (textOf "Case.CaseNumber") .nil))

/-- The brace in the label ends the column, and the object is lost. -/
theorem braced_label_loses :
    ¬ ∀ body : ObjectText, ReportTypeShape body →
      UniquePrefix (columnPrefixes (firstColumns body)) (firstCategoryUniqueObject body.text) := by
  intro h
  have hunique := (h (typeBody bracedColumn) (typeBody_shape bracedColumn trivial)).1
    (codeUnits "Case".toList)
  have hprefixes : columnPrefixes (firstColumns (typeBody bracedColumn)) =
      [codeUnits "Case".toList] := by decide +kernel
  have hlost : firstCategoryUniqueObject (typeBody bracedColumn).text = [] := by decide +kernel
  rw [hprefixes, hlost] at hunique
  exact absurd (hunique fun q => List.mem_singleton) (by decide)

end DuckdbSalesforce
