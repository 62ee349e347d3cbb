import Mathlib

/-!
# A memo in front of a source that may fail

A memo keeps what it fetched until it drops the key, and keeps nothing of a
fetch that failed. Its history, newest event first, says what it holds.
-/

namespace Memo
variable {Key Val Err : Type}

inductive Event (Key Val Err : Type) where
  | fetch (key : Key) (answer : Except Err Val)
  | drop (covers : Key → Prop)

def Event.drops (k : Key) : Event Key Val Err → Prop
  | .fetch _ _ => False
  | .drop covers => covers k

/-- The last successful fetch of the key, unless it was dropped since. -/
inductive Holds (k : Key) (v : Val) : List (Event Key Val Err) → Prop
  | fetched (older : List (Event Key Val Err)) : Holds k v (.fetch k (.ok v) :: older)
  | later (e : Event Key Val Err) (older : List (Event Key Val Err)) (before : Holds k v older)
      (other : ∀ w, e ≠ .fetch k (.ok w)) (kept : ¬ e.drops k) : Holds k v (e :: older)

/-- Every fetch was a miss. -/
def Asked : List (Event Key Val Err) → Prop
  | [] => True
  | .fetch k _ :: older => (∀ v, ¬ Holds k v older) ∧ Asked older
  | .drop _ :: older => Asked older

/-! ### What is held -/

theorem holds_fetch (k : Key) (v : Val) (k' : Key) (v' : Val) (h : List (Event Key Val Err)) :
    Holds k v (.fetch k' (.ok v') :: h) ↔ (k' = k ∧ v' = v) ∨ (k' ≠ k ∧ Holds k v h) := by
  refine ⟨?_, ?_⟩
  · intro hholds
    cases hholds with
    | fetched => exact Or.inl ⟨rfl, rfl⟩
    | later _ _ before other _ =>
      refine Or.inr ⟨?_, before⟩
      intro hkey
      exact other v' (by rw [hkey])
  · intro hcases
    rcases hcases with ⟨hkey, hval⟩ | ⟨hkey, hholds⟩
    · rw [hkey, hval]
      exact .fetched h
    · refine .later _ _ hholds ?_ id
      intro w heq
      exact hkey (Event.fetch.inj heq).1

theorem holds_failed (k : Key) (v : Val) (k' : Key) (e : Err) (h : List (Event Key Val Err)) :
    Holds k v (.fetch k' (.error e) :: h) ↔ Holds k v h := by
  refine ⟨?_, ?_⟩
  · intro hholds
    cases hholds with
    | later _ _ before _ _ => exact before
  · intro hholds
    refine .later _ _ hholds ?_ id
    intro w heq
    cases (Event.fetch.inj heq).2

theorem holds_drop (k : Key) (v : Val) (covers : Key → Prop) (h : List (Event Key Val Err)) :
    Holds k v (.drop covers :: h) ↔ ¬ covers k ∧ Holds k v h := by
  refine ⟨?_, ?_⟩
  · intro hholds
    cases hholds with
    | later _ _ before _ kept => exact ⟨kept, before⟩
  · intro hboth
    exact .later _ _ hboth.2 (fun w => by simp) hboth.1

/-- What is held was fetched, and no later event fetched or dropped the key. -/
theorem holds_split (k : Key) (v : Val) (h : List (Event Key Val Err)) (hholds : Holds k v h) :
    ∃ newer older, h = newer ++ .fetch k (.ok v) :: older ∧
      ∀ e ∈ newer, (∀ w, e ≠ .fetch k (.ok w)) ∧ ¬ e.drops k := by
  induction hholds with
  | fetched older => exact ⟨[], older, rfl, List.forall_mem_nil _⟩
  | later e older _ other kept ih =>
    obtain ⟨newer, rest, hsplit, hnewer⟩ := ih
    refine ⟨e :: newer, rest, by rw [hsplit]; rfl, ?_⟩
    intro d hd
    rcases List.mem_cons.mp hd with hd | hd
    · rw [hd]
      exact ⟨other, kept⟩
    · exact hnewer d hd

/-! ### Histories of misses -/

theorem asked_older (newer older : List (Event Key Val Err)) (h : Asked (newer ++ older)) :
    Asked older := by
  induction newer with
  | nil => exact h
  | cons e newer ih =>
    cases e with
    | fetch k answer => exact ih h.2
    | drop covers => exact ih h

/-- What is held stays held over events that do not drop it. -/
theorem holds_grows (k : Key) (v : Val) (newer older : List (Event Key Val Err))
    (h : Asked (newer ++ older)) (hkept : ∀ e ∈ newer, ¬ e.drops k) (hholds : Holds k v older) :
    Holds k v (newer ++ older) := by
  induction newer with
  | nil => exact hholds
  | cons e newer ih =>
    have hrest : Asked (newer ++ older) := asked_older [e] _ h
    have hheld := ih hrest fun d hd => hkept d (List.mem_cons_of_mem e hd)
    refine .later e _ hheld ?_ (hkept e List.mem_cons_self)
    intro w heq
    rw [heq] at h
    exact h.1 v hheld

/-- After a successful fetch of a key the source is not asked for it again until
it is dropped. -/
theorem asked_spaced (k : Key) (v : Val) (answer : Except Err Val)
    (newest between oldest : List (Event Key Val Err))
    (h : Asked (newest ++ .fetch k answer :: (between ++ .fetch k (.ok v) :: oldest))) :
    ∃ e ∈ between, e.drops k := by
  have hmiss := (asked_older newest _ h).1
  by_contra hnone
  have hkept : ∀ e ∈ between, ¬ e.drops k := by simpa using hnone
  exact hmiss v (holds_grows k v between _ (asked_older newest _ h).2 hkept (.fetched oldest))

end Memo
