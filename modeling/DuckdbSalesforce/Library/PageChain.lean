import Mathlib

/-!
# Chains of pages

A server answers a request with a page, which is the last one or names the path
of the next. A reader follows a chain and gives up where a path comes a second
time, where none is named, and after a number of pages. Answers may change with
time: `get n p` is the answer to the `n`-th request, `none` when it is refused.
-/

namespace PageChain

variable {Path Page : Type} (get : ℕ → Path → Option Page)
  (done : Page → Bool) (next : Page → Option Path)

/-- All pages of a chain that ends, read from the `n`-th request on. -/
inductive Chain : ℕ → Path → List Page → Prop
  | last (n : ℕ) (p : Path) (pg : Page) (h : get n p = some pg) (hdone : done pg = true) :
    Chain n p [pg]
  | more (n : ℕ) (p q : Path) (pg : Page) (pgs : List Page) (h : get n p = some pg)
      (hdone : done pg = false) (hnext : next pg = some q) (rest : Chain (n + 1) q pgs) :
    Chain n p (pg :: pgs)

/-- The paths that the pages but the last one name. -/
def followed : List Page → List Path
  | [] => []
  | [_] => []
  | pg :: pgs => (next pg).toList ++ followed pgs

theorem chain_ne {n : ℕ} {p : Path} {pgs : List Page} (h : Chain get done next n p pgs) :
    pgs ≠ [] := by
  cases h <;> exact List.cons_ne_nil _ _

theorem chain_starts {n : ℕ} {p : Path} {pgs : List Page} (h : Chain get done next n p pgs) :
    ∃ pg, get n p = some pg := by
  cases h with
  | last _ _ pg h _ => exact ⟨pg, h⟩
  | more _ _ _ pg _ h _ _ _ => exact ⟨pg, h⟩

theorem followed_cons (pg : Page) (pgs : List Page) (q : Path) (hne : pgs ≠ [])
    (hq : next pg = some q) : followed next (pg :: pgs) = q :: followed next pgs := by
  cases pgs with
  | nil => exact absurd rfl hne
  | cons a as =>
    rw [followed, hq]
    rfl
    simp

inductive Stop where
  | complete
  | cut
  | failed
  deriving DecidableEq

def GivesUp (left : ℕ) (seen : List Path) (pg : Page) : Prop :=
  ∀ q, next pg = some q → left = 0 ∨ q ∈ seen

/-- A chain the reader does not give up on. -/
structure Within (left : ℕ) (seen : List Path) (pgs : List Page) : Prop where
  short : pgs.length ≤ left + 1
  once : (followed next pgs).Nodup
  new : ∀ q ∈ followed next pgs, q ∉ seen

theorem within_cons (left : ℕ) (seen : List Path) (pg : Page) (pgs : List Page) (q : Path)
    (hne : pgs ≠ []) (hq : next pg = some q) :
    Within next left seen (pg :: pgs) ↔ left ≠ 0 ∧ q ∉ seen ∧
      Within next (left - 1) (seen ++ [q]) pgs := by
  have hlen := List.length_pos_of_ne_nil hne
  have hfollowed := followed_cons next pg pgs q hne hq
  constructor
  · intro h
    obtain ⟨hshort, honce, hnew⟩ := h
    rw [hfollowed] at honce hnew
    rw [List.length_cons] at hshort
    obtain ⟨hfresh, honce⟩ := List.nodup_cons.mp honce
    refine ⟨by omega, hnew q List.mem_cons_self, by omega, honce, ?_⟩
    intro r hr hmem
    rcases List.mem_append.mp hmem with hseen | hlast
    · exact hnew r (List.mem_cons_of_mem _ hr) hseen
    · rw [List.mem_singleton.mp hlast] at hr
      exact hfresh hr
  · intro h
    obtain ⟨hleft, hseen, hshort, honce, hnew⟩ := h
    constructor
    · rw [List.length_cons]
      omega
    · rw [hfollowed, List.nodup_cons]
      refine ⟨fun hmem => ?_, honce⟩
      exact hnew q hmem (List.mem_append_right _ (List.mem_singleton_self q))
    · intro r hr
      rw [hfollowed] at hr
      rcases List.mem_cons.mp hr with rfl | hr
      · exact hseen
      · exact fun hmem => hnew r hr (List.mem_append_left _ hmem)

section Read
variable [DecidableEq Path]

/-- What a reader reads that goes on for at most `left` pages and no path in
`seen`. -/
def read : ℕ → List Path → ℕ → Path → List Page × Stop
  | left, seen, n, p =>
    match get n p with
    | none => ([], .failed)
    | some pg =>
      if done pg then ([pg], .complete)
      else
        match next pg, left with
        | none, _ => ([pg], .cut)
        | some _, 0 => ([pg], .cut)
        | some q, left + 1 =>
          if q ∈ seen then ([pg], .cut)
          else
            let rest := read left (seen ++ [q]) (n + 1) q
            (pg :: rest.1, rest.2)

theorem read_refused (left : ℕ) (seen : List Path) (n : ℕ) (p : Path) (h : get n p = none) :
    read get done next left seen n p = ([], .failed) := by
  unfold read
  rw [h]

theorem read_last (left : ℕ) (seen : List Path) (n : ℕ) (p : Path) (pg : Page)
    (h : get n p = some pg) (hdone : done pg = true) :
    read get done next left seen n p = ([pg], .complete) := by
  unfold read
  rw [h]
  exact if_pos hdone

theorem read_cut (left : ℕ) (seen : List Path) (n : ℕ) (p : Path) (pg : Page)
    (h : get n p = some pg) (hdone : done pg = false) (hup : GivesUp next left seen pg) :
    read get done next left seen n p = ([pg], .cut) := by
  unfold read
  rw [h]
  simp only [hdone, Bool.false_eq_true, if_false]
  match hq : next pg, left with
  | none, _ => rfl
  | some q, 0 => rfl
  | some q, left + 1 =>
    rcases hup q hq with hzero | hseen
    · omega
    · exact if_pos hseen

theorem read_more (left : ℕ) (seen : List Path) (n : ℕ) (p q : Path) (pg : Page)
    (h : get n p = some pg) (hdone : done pg = false) (hq : next pg = some q) (hnew : q ∉ seen) :
    read get done next (left + 1) seen n p =
      (pg :: (read get done next left (seen ++ [q]) (n + 1) q).1,
        (read get done next left (seen ++ [q]) (n + 1) q).2) := by
  conv_lhs => unfold read
  rw [h]
  simp only [hdone, Bool.false_eq_true, if_false, hq, if_neg hnew]

theorem givesUp_or (left : ℕ) (seen : List Path) (pg : Page) :
    GivesUp next left seen pg ∨ ∃ q m, next pg = some q ∧ left = m + 1 ∧ q ∉ seen := by
  cases hq : next pg with
  | none => exact Or.inl fun q h => by rw [hq] at h; cases h
  | some q =>
    by_cases hup : left = 0 ∨ q ∈ seen
    · refine Or.inl fun r h => ?_
      rw [hq] at h
      rwa [← Option.some.inj h]
    · push Not at hup
      exact Or.inr ⟨q, left - 1, rfl, by omega, hup.2⟩

/-- The reader gets to the end of exactly the chains within its limits. -/
theorem read_complete (left : ℕ) (seen : List Path) (n : ℕ) (p : Path) (pgs : List Page) :
    read get done next left seen n p = (pgs, .complete) ↔
      Chain get done next n p pgs ∧ Within next left seen pgs := by
  induction left using Nat.strongRecOn generalizing seen n p pgs with
  | ind left ih =>
    constructor
    · intro h
      cases hget : get n p with
      | none =>
        rw [read_refused get done next left seen n p hget] at h
        cases h
      | some pg =>
        cases hdone : done pg with
        | true =>
          rw [read_last get done next left seen n p pg hget hdone] at h
          cases h
          exact ⟨.last n p pg hget hdone, Nat.le_add_left 1 left, List.nodup_nil,
            List.forall_mem_nil _⟩
        | false =>
          rcases givesUp_or next left seen pg with hup | ⟨q, m, hq, rfl, hnew⟩
          · rw [read_cut get done next left seen n p pg hget hdone hup] at h
            cases h
          · rw [read_more get done next m seen n p q pg hget hdone hq hnew] at h
            obtain ⟨hpgs, hstop⟩ := Prod.mk.inj h
            obtain ⟨hchain, hwithin⟩ := (ih m (Nat.lt_succ_self m) (seen ++ [q]) (n + 1) q _).mp
              (Prod.ext rfl hstop)
            rw [← hpgs]
            refine ⟨.more n p q pg _ hget hdone hq hchain, ?_⟩
            exact (within_cons next (m + 1) seen pg _ q (chain_ne get done next hchain) hq).mpr
              ⟨Nat.succ_ne_zero m, hnew, hwithin⟩
    · intro hgiven
      obtain ⟨hchain, hwithin⟩ := hgiven
      cases hchain with
      | last _ _ pg hget hdone => exact read_last get done next left seen n p pg hget hdone
      | more _ _ q pg rest hget hdone hq hrest =>
        obtain ⟨hleft, hnew, hbelow⟩ :=
          (within_cons next left seen pg rest q (chain_ne get done next hrest) hq).mp hwithin
        obtain ⟨m, rfl⟩ := Nat.exists_eq_succ_of_ne_zero hleft
        have hread := (ih m (Nat.lt_succ_self m) (seen ++ [q]) (n + 1) q rest).mpr ⟨hrest, hbelow⟩
        rw [Nat.succ_eq_add_one, read_more get done next m seen n p q pg hget hdone hq hnew, hread]

theorem read_ne (left : ℕ) (seen : List Path) (n : ℕ) (p : Path) (pg : Page)
    (h : get n p = some pg) : (read get done next left seen n p).1 ≠ [] := by
  cases hdone : done pg with
  | true =>
    rw [read_last get done next left seen n p pg h hdone]
    exact List.cons_ne_nil _ _
  | false =>
    rcases givesUp_or next left seen pg with hup | ⟨q, m, hq, rfl, hnew⟩
    · rw [read_cut get done next left seen n p pg h hdone hup]
      exact List.cons_ne_nil _ _
    · rw [read_more get done next m seen n p q pg h hdone hq hnew]
      exact List.cons_ne_nil _ _

/-- A chain that ends is read to its end or not followed as far. -/
theorem read_chain (left : ℕ) (seen : List Path) (n : ℕ) (p : Path) (pgs : List Page)
    (h : Chain get done next n p pgs) :
    read get done next left seen n p = (pgs, .complete) ∨
      (followed next (read get done next left seen n p).1).length < (followed next pgs).length := by
  induction h generalizing left seen with
  | last n p pg hget hdone => exact Or.inl (read_last get done next left seen n p pg hget hdone)
  | more n p q pg rest hget hdone hq hrest ih =>
    rw [followed_cons next pg rest q (chain_ne get done next hrest) hq]
    rcases givesUp_or next left seen pg with hup | ⟨r, m, hr, rfl, hnew⟩
    · right
      rw [read_cut get done next left seen n p pg hget hdone hup]
      exact Nat.zero_lt_succ _
    · rw [hq] at hr
      cases hr
      rw [read_more get done next m seen n p q pg hget hdone hq hnew]
      obtain ⟨pg', hget'⟩ := chain_starts get done next hrest
      rw [followed_cons next pg _ q (read_ne get done next m _ _ q pg' hget') hq]
      rcases ih m (seen ++ [q]) with heq | hlt
      · left
        rw [heq]
      · right
        exact Nat.succ_lt_succ hlt

/-- A reader that is not refused requests one page for each path. -/
theorem read_length (left : ℕ) (seen : List Path) (n : ℕ) (p : Path)
    (h : (read get done next left seen n p).2 ≠ .failed) :
    (followed next (read get done next left seen n p).1).length + 1 =
      (read get done next left seen n p).1.length := by
  induction left using Nat.strongRecOn generalizing seen n p with
  | ind left ih =>
    cases hget : get n p with
    | none =>
      rw [read_refused get done next left seen n p hget] at h
      exact absurd rfl h
    | some pg =>
      cases hdone : done pg with
      | true =>
        rw [read_last get done next left seen n p pg hget hdone]
        rfl
      | false =>
        rcases givesUp_or next left seen pg with hup | ⟨q, m, hq, rfl, hnew⟩
        · rw [read_cut get done next left seen n p pg hget hdone hup]
          rfl
        · rw [read_more get done next m seen n p q pg hget hdone hq hnew] at h ⊢
          have hrest := ih m (Nat.lt_succ_self m) (seen ++ [q]) (n + 1) q h
          have hne : (read get done next m (seen ++ [q]) (n + 1) q).1 ≠ [] := by
            intro hnil
            rw [hnil] at hrest
            cases hrest
          rw [followed_cons next pg _ q hne hq, List.length_cons, List.length_cons, hrest]

end Read

/-! ### Several chains -/

section Several
variable [DecidableEq Path] (limit : ℕ)

inductive Chains : ℕ → List Path → List (List Page) → Prop
  | nil (n : ℕ) : Chains n [] []
  | cons (n : ℕ) (p : Path) (ps : List Path) (pgs : List Page) (rest : List (List Page))
      (h : Chain get done next n p pgs) (hrest : Chains (n + pgs.length) ps rest) :
    Chains n (p :: ps) (pgs :: rest)

omit [DecidableEq Path] in
theorem chains_length {n : ℕ} {ps : List Path} {pss : List (List Page)}
    (h : Chains get done next n ps pss) : pss.length = ps.length := by
  induction h with
  | nil n => rfl
  | cons n p ps pgs rest _ _ ih => exact congrArg Nat.succ ih

/-- Reading stops at the first chain that is refused. -/
def readAll : ℕ → List Path → List (List Page × Stop)
  | _, [] => []
  | n, p :: ps =>
    let r := read get done next limit [] n p
    if r.2 = .failed then [r] else r :: readAll (n + r.1.length) ps

def requested (p : Path) (pgs : List Page) : List Path := p :: followed next pgs

/-- If as many pages are requested as the chains have, all of them are read. -/
theorem readAll_chains (n : ℕ) (ps : List Path) (pss : List (List Page))
    (h : Chains get done next n ps pss)
    (hreq : List.zipWith (requested next) ps ((readAll get done next limit n ps).map Prod.fst) =
      List.zipWith (requested next) ps pss) :
    readAll get done next limit n ps = pss.map fun pgs => (pgs, .complete) := by
  induction h with
  | nil n => rfl
  | cons n p ps pgs rest hchain hrest ih =>
    have hshape : ∀ r tail, readAll get done next limit n (p :: ps) = r :: tail →
        requested next p r.1 = requested next p pgs ∧
          List.zipWith (requested next) ps (tail.map Prod.fst) =
            List.zipWith (requested next) ps rest := by
      intro r tail hr
      rw [hr, List.map_cons, List.zipWith_cons_cons, List.zipWith_cons_cons] at hreq
      exact List.cons.inj hreq
    rcases read_chain get done next limit [] n p pgs hchain with heq | hlt
    · have hall : readAll get done next limit n (p :: ps) =
          (pgs, .complete) :: readAll get done next limit (n + pgs.length) ps := by
        simp only [readAll, heq, reduceCtorEq, if_false]
      rw [hall, ih (hshape _ _ hall).2]
      rfl
    · exfalso
      have hhead : ∃ tail, readAll get done next limit n (p :: ps) =
          read get done next limit [] n p :: tail := by
        simp only [readAll]
        split
        · exact ⟨[], rfl⟩
        · exact ⟨_, rfl⟩
      obtain ⟨tail, htail⟩ := hhead
      have hsame := congrArg List.length (hshape _ tail htail).1
      simp only [requested, List.length_cons] at hsame
      omega

def AllWithin (n : ℕ) (ps : List Path) (pss : List (List Page)) : Prop :=
  Chains get done next n ps pss ∧ ∀ pgs ∈ pss, Within next limit [] pgs

theorem readAll_complete (n : ℕ) (ps : List Path) (pss : List (List Page)) :
    AllWithin get done next limit n ps pss ↔ pss.length = ps.length ∧
      readAll get done next limit n ps = pss.map fun pgs => (pgs, .complete) := by
  constructor
  · intro h
    obtain ⟨hchains, hwithin⟩ := h
    induction hchains with
    | nil n => exact ⟨rfl, rfl⟩
    | cons n p ps pgs rest hchain hrest ih =>
      obtain ⟨hlen, htail⟩ := ih fun qs hqs => hwithin qs (List.mem_cons_of_mem _ hqs)
      have hread := (read_complete get done next limit [] n p pgs).mpr
        ⟨hchain, hwithin pgs List.mem_cons_self⟩
      refine ⟨congrArg Nat.succ hlen, ?_⟩
      simp only [readAll, hread, reduceCtorEq, if_false, htail, List.map_cons]
  · intro h
    obtain ⟨hlen, hread⟩ := h
    induction ps generalizing n pss with
    | nil =>
      rw [List.length_eq_zero_iff.mp hlen]
      exact ⟨.nil n, List.forall_mem_nil _⟩
    | cons p ps ih =>
      cases pss with
      | nil => cases hlen
      | cons pgs rest =>
        rw [readAll, List.map_cons] at hread
        split at hread
        · rename_i hfailed
          have hhead := (List.cons.inj hread).1
          rw [hhead] at hfailed
          cases hfailed
        · obtain ⟨hhead, htail⟩ := List.cons.inj hread
          rw [hhead] at htail
          obtain ⟨hchain, hwithin⟩ := (read_complete get done next limit [] n p pgs).mp hhead
          obtain ⟨hchains, hall⟩ := ih (n + pgs.length) rest (Nat.succ.inj hlen) htail
          exact ⟨.cons n p ps pgs rest hchain hchains, List.forall_mem_cons.mpr ⟨hwithin, hall⟩⟩

end Several

end PageChain
