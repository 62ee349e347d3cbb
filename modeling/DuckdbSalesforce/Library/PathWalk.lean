import Mathlib

/-!
# Walks along paths

Every node lists its edges; along some of them the walk goes on, which may
depend on the nodes it has come over. A walk of bounded depth stops at every
edge of every place it gets to, once.
-/

namespace PathWalk

variable {N E : Type}

/-- A place of the walk: the nodes come over, the node reached and the edges
followed. -/
structure Place (N E : Type) where
  visited : List N
  node : N
  trail : List E

def Place.step (p : Place N E) (e : E) (m : N) : Place N E :=
  ⟨p.visited ++ [m], m, p.trail ++ [e]⟩

variable (edges : N → List E) (next : List N → N → E → Option N)

inductive Path (start : Place N E) : Place N E → Prop
  | here : Path start start
  | step (p : Place N E) (e : E) (m : N) (h : Path start p) (he : e ∈ edges p.node)
      (hm : next p.visited p.node e = some m) : Path start (p.step e m)

/-- All stops of a walk in their order, with at most `levels` edges followed. -/
def visits : ℕ → Place N E → List (Place N E × E)
  | 0, p => (edges p.node).map fun e => (p, e)
  | levels + 1, p => (edges p.node).flatMap fun e =>
      (p, e) :: match next p.visited p.node e with
        | none => []
        | some m => visits levels (p.step e m)

theorem path_trail {p q : Place N E} (h : Path edges next p q) : ∃ es, q.trail = p.trail ++ es := by
  induction h with
  | here => exact ⟨[], (List.append_nil _).symm⟩
  | step q e m _ _ _ ih =>
    obtain ⟨es, hes⟩ := ih
    exact ⟨es ++ [e], by rw [Place.step, hes, List.append_assoc]⟩

theorem path_first {p q : Place N E} {e : E} {m : N} (he : e ∈ edges p.node)
    (hm : next p.visited p.node e = some m) (h : Path edges next (p.step e m) q) :
    Path edges next p q := by
  induction h with
  | here => exact .step p e m .here he hm
  | step q f n _ hf hn ih => exact .step q f n ih hf hn

theorem path_cases {p q : Place N E} (h : Path edges next p q) :
    q = p ∨ ∃ e ∈ edges p.node, ∃ m, next p.visited p.node e = some m ∧
      Path edges next (p.step e m) q := by
  induction h with
  | here => exact Or.inl rfl
  | step q f n _ hf hn ih =>
    right
    rcases ih with rfl | ⟨e, he, m, hm, hrest⟩
    · exact ⟨f, hf, n, hn, .here⟩
    · exact ⟨e, he, m, hm, .step q f n hrest hf hn⟩

theorem mem_visits_succ (levels : ℕ) (p q : Place N E) (e : E) :
    (q, e) ∈ visits edges next (levels + 1) p ↔ (q = p ∧ e ∈ edges p.node) ∨
      ∃ f ∈ edges p.node, ∃ m, next p.visited p.node f = some m ∧
        (q, e) ∈ visits edges next levels (p.step f m) := by
  rw [visits, List.mem_flatMap]
  constructor
  · intro h
    obtain ⟨f, hf, hmem⟩ := h
    rcases List.mem_cons.mp hmem with heq | hbelow
    · obtain ⟨rfl, rfl⟩ := Prod.mk.inj heq
      exact Or.inl ⟨rfl, hf⟩
    · cases hm : next p.visited p.node f with
      | none =>
        rw [hm] at hbelow
        cases hbelow
      | some m =>
        rw [hm] at hbelow
        exact Or.inr ⟨f, hf, m, hm, hbelow⟩
  · intro h
    rcases h with ⟨rfl, he⟩ | ⟨f, hf, m, hm, hbelow⟩
    · exact ⟨e, he, List.mem_cons_self⟩
    · refine ⟨f, hf, List.mem_cons_of_mem _ ?_⟩
      rw [hm]
      exact hbelow

theorem path_same {p q : Place N E} (h : Path edges next p q)
    (hlen : q.trail.length ≤ p.trail.length) : q = p := by
  rcases path_cases edges next h with heq | ⟨e, _, m, _, hrest⟩
  · exact heq
  · obtain ⟨es, hes⟩ := path_trail edges next hrest
    have hlong := congrArg List.length hes
    simp only [Place.step, List.length_append, List.length_singleton] at hlong
    omega

/-- The walk stops exactly at the edges of the places in reach. -/
theorem mem_visits (levels : ℕ) (p q : Place N E) (e : E) :
    (q, e) ∈ visits edges next levels p ↔ Path edges next p q ∧
      q.trail.length ≤ p.trail.length + levels ∧ e ∈ edges q.node := by
  induction levels generalizing p with
  | zero =>
    rw [visits, List.mem_map]
    constructor
    · intro h
      obtain ⟨f, hf, heq⟩ := h
      obtain ⟨rfl, rfl⟩ := Prod.mk.inj heq
      exact ⟨.here, Nat.le_refl _, hf⟩
    · intro h
      obtain ⟨hpath, hlen, he⟩ := h
      have hsame := path_same edges next hpath hlen
      rw [hsame] at he ⊢
      exact ⟨e, he, rfl⟩
  | succ levels ih =>
    rw [mem_visits_succ]
    constructor
    · intro h
      rcases h with ⟨rfl, he⟩ | ⟨f, hf, m, hm, hbelow⟩
      · exact ⟨.here, Nat.le_add_right _ _, he⟩
      · obtain ⟨hpath, hlen, he⟩ := (ih (p.step f m)).mp hbelow
        refine ⟨path_first edges next hf hm hpath, ?_, he⟩
        simp only [Place.step, List.length_append, List.length_singleton] at hlen
        omega
    · intro h
      obtain ⟨hpath, hlen, he⟩ := h
      rcases path_cases edges next hpath with rfl | ⟨f, hf, m, hm, hrest⟩
      · exact Or.inl ⟨rfl, he⟩
      · refine Or.inr ⟨f, hf, m, hm, (ih (p.step f m)).mpr ⟨hrest, ?_, he⟩⟩
        simp only [Place.step, List.length_append, List.length_singleton]
        omega

def stopName (v : Place N E × E) : List E × E := (v.1.trail, v.2)

theorem below_trail {levels : ℕ} {p : Place N E} {e : E} {m : N} {v : Place N E × E}
    (h : v ∈ visits edges next levels (p.step e m)) :
    ∃ es, v.1.trail = p.trail ++ e :: es := by
  obtain ⟨es, hes⟩ := path_trail edges next ((mem_visits edges next levels _ v.1 v.2).mp h).1
  refine ⟨es, ?_⟩
  rw [hes, Place.step, List.append_assoc, List.singleton_append]

theorem visits_nodup (hedges : ∀ n, (edges n).Nodup) (levels : ℕ) (p : Place N E) :
    ((visits edges next levels p).map stopName).Nodup := by
  induction levels generalizing p with
  | zero =>
    rw [visits, List.map_map]
    exact (hedges p.node).map fun e f h => congrArg Prod.snd h
  | succ levels ih =>
    rw [visits, List.map_flatMap, List.nodup_flatMap]
    constructor
    · intro e _
      rw [List.map_cons, List.nodup_cons]
      cases hm : next p.visited p.node e with
      | none => exact ⟨List.not_mem_nil, List.nodup_nil⟩
      | some m =>
        refine ⟨?_, ih (p.step e m)⟩
        intro hmem
        obtain ⟨v, hv, hname⟩ := List.mem_map.mp hmem
        obtain ⟨es, hes⟩ := below_trail edges next hv
        have htrail : v.1.trail = p.trail := congrArg Prod.fst hname
        rw [hes] at htrail
        exact absurd (List.append_right_eq_self.mp htrail) (List.cons_ne_nil _ _)
    · refine (hedges p.node).imp ?_
      intro e f hne
      -- a stop under `e` is at `e` itself or has `e` next in its trail
      have hunder : ∀ d, ∀ s ∈ List.map stopName ((p, d) ::
          match next p.visited p.node d with
          | none => []
          | some m => visits edges next levels (p.step d m)),
          s = (p.trail, d) ∨ ∃ es, s.1 = p.trail ++ d :: es := by
        intro d s hs
        rw [List.map_cons] at hs
        rcases List.mem_cons.mp hs with rfl | hs
        · exact Or.inl rfl
        · cases hm : next p.visited p.node d with
          | none =>
            rw [hm] at hs
            cases hs
          | some m =>
            rw [hm] at hs
            obtain ⟨v, hv, rfl⟩ := List.mem_map.mp hs
            exact Or.inr (below_trail edges next hv)
      intro s hse hsf
      rcases hunder e s hse with rfl | ⟨es, hes⟩ <;> rcases hunder f _ hsf with hf | ⟨fs, hfs⟩
      · exact hne (congrArg Prod.snd hf)
      · have hnil := List.append_right_eq_self.mp hfs.symm
        cases hnil
      · rw [hf] at hes
        have hnil := List.append_right_eq_self.mp hes.symm
        cases hnil
      · rw [hes] at hfs
        exact hne (List.cons.inj (List.append_cancel_left hfs)).1

end PathWalk
