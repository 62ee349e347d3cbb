import Mathlib

/-!
# Streams of pages

What a reader of a paged result shows to the outside: the pages it requests and
the rows it delivers, in the order in which it does so. A lazy reader requests
a page only when it has delivered every row of the pages before.
-/

namespace PagedStream
variable {Path Row Error : Type}

inductive Event (Path Row : Type) where
  | request (p : Path)
  | deliver (r : Row)

abbrev Trace (Path Row : Type) := List (Event Path Row)

def Event.requested : Event Path Row → Option Path
  | .request p => some p
  | .deliver _ => none

def Event.row : Event Path Row → Option Row
  | .request _ => none
  | .deliver r => some r

def requests (t : Trace Path Row) : List Path := t.filterMap Event.requested

def delivered (t : Trace Path Row) : List Row := t.filterMap Event.row

theorem requests_append (s t : Trace Path Row) : requests (s ++ t) = requests s ++ requests t :=
  List.filterMap_append

theorem delivered_append (s t : Trace Path Row) :
    delivered (s ++ t) = delivered s ++ delivered t := List.filterMap_append

theorem requests_deliveries (rows : List Row) :
    requests (rows.map (@Event.deliver Path Row)) = [] := by
  rw [requests, List.filterMap_map]
  exact List.filterMap_eq_nil_iff.mpr fun _ _ => rfl

theorem delivered_deliveries (rows : List Row) :
    delivered (rows.map (@Event.deliver Path Row)) = rows := by
  rw [delivered, List.filterMap_map]
  exact List.filterMap_some

/-- Before each request all rows of the pages requested so far are delivered. -/
def Lazy (rowsAt : Path → List Row) (t : Trace Path Row) : Prop :=
  ∀ pre p post, t = pre ++ .request p :: post → delivered pre = (requests pre).flatMap rowsAt

theorem lazy_nil (rowsAt : Path → List Row) : Lazy rowsAt [] := by
  intro pre p post h
  cases pre <;> cases h

theorem lazy_append (rowsAt : Path → List Row) (t : Trace Path Row) (e : Event Path Row)
    (h : Lazy rowsAt t)
    (he : ∀ p, e = .request p → delivered t = (requests t).flatMap rowsAt) :
    Lazy rowsAt (t ++ [e]) := by
  intro pre p post hsplit
  rcases List.eq_nil_or_concat post with hpost | ⟨init, last, hpost⟩
  · subst hpost
    obtain ⟨hpre, hlast⟩ := List.append_inj' hsplit rfl
    rw [← hpre]
    exact he p (List.cons.inj hlast).1
  · subst hpost
    rw [List.concat_eq_append, ← List.cons_append, ← List.append_assoc] at hsplit
    obtain ⟨hpre, _⟩ := List.append_inj' hsplit rfl
    exact h pre p init hpre

theorem lazy_request (rowsAt : Path → List Row) (t : Trace Path Row) (p : Path)
    (h : Lazy rowsAt t) (hall : delivered t = (requests t).flatMap rowsAt) :
    Lazy rowsAt (t ++ [.request p]) :=
  lazy_append rowsAt t _ h fun _ _ => hall

theorem lazy_deliveries (rowsAt : Path → List Row) (t : Trace Path Row) (rows : List Row)
    (h : Lazy rowsAt t) : Lazy rowsAt (t ++ rows.map .deliver) := by
  induction rows generalizing t with
  | nil => rwa [List.map_nil, List.append_nil]
  | cons r rows ih =>
    have hone : Lazy rowsAt (t ++ [.deliver r]) :=
      lazy_append rowsAt t _ h fun p hp => by cases hp
    have hrest := ih _ hone
    rwa [List.append_assoc, List.singleton_append] at hrest

/-! ### Batches -/

theorem batch_split (n : ℕ) (rows : List Row) :
    rows.take n ++ rows.drop (rows.take n).length = rows :=
  List.prefix_iff_eq_append.mp (List.take_prefix n rows)

theorem batch_nonempty (n : ℕ) (rows : List Row) (hn : 0 < n) (h : rows.take n = []) :
    rows = [] := by
  rcases List.take_eq_nil_iff.mp h with hzero | hrows
  · omega
  · exact hrows

end PagedStream
