import Mathlib

/-!
# Tables emitted in chunks

A table is emitted call by call, each call writing the next rows into vectors of
a fixed capacity. The lists of a list vector stand one after the other in its
child, and an entry says where; a list of structs has one child for each field.
No write passes the end of its buffer, and what is read back is the rows.
-/

namespace TableChunks
variable {Row Cell α : Type}

/-! ### Vectors -/

/-- `none` was not written since the chunk is there. -/
abbrev Buffer (α : Type) := List (Option α)

def unwritten (n : ℕ) : Buffer α := List.replicate n none

/-- A write past the end is none. -/
def put (i : ℕ) (a : α) (buffer : Buffer α) : Option (Buffer α) :=
  if i < buffer.length then some (buffer.set i (some a)) else none

def putAll : List α → ℕ → Buffer α → Option (Buffer α)
  | [], _, buffer => some buffer
  | a :: as, i, buffer => (put i a buffer).bind (putAll as (i + 1))

/-- The fields of a struct, each into its own buffer. -/
def putStruct (i : ℕ) : List α → List (Buffer α) → Option (List (Buffer α))
  | a :: as, buffer :: buffers =>
    (put i a buffer).bind fun buffer' => (putStruct i as buffers).map (buffer' :: ·)
  | [], [] => some []
  | _, _ => none

def putStructs {width : ℕ} :
    List (List.Vector α width) → ℕ → List (Buffer α) → Option (List (Buffer α))
  | [], _, buffers => some buffers
  | s :: ss, i, buffers => (putStruct i s.toList buffers).bind (putStructs ss (i + 1))

/-- A flat slot may be written as null; a list entry is an offset and a length. -/
inductive OutVector (Cell : Type) where
  | flat (slots : Buffer (Option Cell))
  | list (entries : Buffer (ℕ × ℕ)) (child : Buffer Cell)
  | structs (entries : Buffer (ℕ × ℕ)) (children : List (Buffer Cell))

/-- What a column holds of a row. -/
inductive Column (Row Cell : Type) where
  | flat (cell : Row → Option Cell)
  | list (items : Row → List Cell)
  | structs (width : ℕ) (items : Row → List (List.Vector Cell width))

def Column.fresh (v : ℕ) : Column Row Cell → OutVector Cell
  | .flat _ => .flat (unwritten v)
  | .list _ => .list (unwritten v) []
  | .structs _ _ => .structs (unwritten v) []

/-! ### One call -/

/-- The lists are written after the loop over the rows. -/
def Column.writeCell (row : ℕ) (r : Row) : Column Row Cell → OutVector Cell → Option (OutVector Cell)
  | .flat cell, .flat slots => (put row (cell r) slots).map .flat
  | .flat _, _ => none
  | .list _, vec => some vec
  | .structs _ _, vec => some vec

def writeRow (row : ℕ) (r : Row) :
    List (Column Row Cell) → List (OutVector Cell) → Option (List (OutVector Cell))
  | c :: cs, vec :: vecs =>
    (c.writeCell row r vec).bind fun vec' => (writeRow row r cs vecs).map (vec' :: ·)
  | _, _ => some []

/-- The rows written, `left` more fitting into the chunk. -/
def fillRows (columns : List (Column Row Cell)) (rows : List Row) :
    ℕ → ℕ → ℕ → List (OutVector Cell) → Option (List (OutVector Cell) × ℕ)
  | 0, row, _, vecs => some (vecs, row)
  | left + 1, row, cursor, vecs =>
    match rows[cursor]? with
    | none => some (vecs, row)
    | some r => (writeRow row r columns vecs).bind (fillRows columns rows left (row + 1) (cursor + 1))

/-- The child is reserved for this many. -/
def listTotal (items : Row → List α) (rows : List Row) (start : ℕ) : ℕ → ℕ
  | 0 => 0
  | count + 1 => listTotal items rows start count +
      (rows[start + count]?).elim 0 fun r => (items r).length

/-- `write` puts items into the child from a position on. -/
def fillEntries {Child : Type} (write : List α → ℕ → Child → Option Child) (items : Row → List α)
    (rows : List Row) (start : ℕ) :
    ℕ → ℕ → ℕ → Buffer (ℕ × ℕ) → Child → Option (Buffer (ℕ × ℕ) × Child)
  | 0, _, _, entries, child => some (entries, child)
  | left + 1, r, off, entries, child =>
    (rows[start + r]?).bind fun row =>
      (put r (off, (items row).length) entries).bind fun entries' =>
        (write (items row) off child).bind
          (fillEntries write items rows start left (r + 1) (off + (items row).length) entries')

def Column.fillList (rows : List Row) (start count : ℕ) :
    Column Row Cell → OutVector Cell → Option (OutVector Cell)
  | .list items, .list entries _ =>
    (fillEntries putAll items rows start count 0 0 entries
      (unwritten (listTotal items rows start count))).map fun p => .list p.1 p.2
  | .structs width items, .structs entries _ =>
    (fillEntries putStructs items rows start count 0 0 entries
      (List.replicate width (unwritten (listTotal items rows start count)))).map fun p =>
        .structs p.1 p.2
  | .flat _, vec => some vec
  | _, _ => none

def fillLists (rows : List Row) (start count : ℕ) :
    List (Column Row Cell) → List (OutVector Cell) → Option (List (OutVector Cell))
  | c :: cs, vec :: vecs =>
    (c.fillList rows start count vec).bind fun vec' => (fillLists rows start count cs vecs).map (vec' :: ·)
  | _, _ => some []

structure Chunk (Cell : Type) where
  vectors : List (OutVector Cell)
  cardinality : ℕ

def emitChunk (columns : List (Column Row Cell)) (rows : List Row) (v cursor : ℕ) :
    Option (Chunk Cell) :=
  (fillRows columns rows v 0 cursor (columns.map (Column.fresh v))).bind fun filled =>
    (fillLists rows cursor filled.2 columns filled.1).map fun vecs => ⟨vecs, filled.2⟩

/-! ### Reading -/

inductive OutValue (Cell : Type) where
  | null
  | cell (c : Cell)
  | items (cs : List Cell)
  | structs (ss : List (List Cell))
  deriving DecidableEq

def cellValue : Option Cell → OutValue Cell
  | none => .null
  | some c => .cell c

/-- What was not written, or lies outside, cannot be read. -/
def readAll (buffer : Buffer α) (off len : ℕ) : Option (List α) :=
  (List.range len).mapM fun k => (buffer[off + k]?).join

/-- The field of every child at a position. -/
def readStruct (buffers : List (Buffer α)) (k : ℕ) : Option (List α) :=
  buffers.mapM fun buffer => (buffer[k]?).join

def readStructs (buffers : List (Buffer α)) (off len : ℕ) : Option (List (List α)) :=
  (List.range len).mapM fun k => readStruct buffers (off + k)

def OutVector.read (r : ℕ) : OutVector Cell → Option (OutValue Cell)
  | .flat slots => (slots[r]?).join.map cellValue
  | .list entries child =>
    (entries[r]?).join.bind fun e => (readAll child e.1 e.2).map .items
  | .structs entries children =>
    (entries[r]?).join.bind fun e => (readStructs children e.1 e.2).map .structs

def Chunk.readRow (chunk : Chunk Cell) (r : ℕ) : Option (List (OutValue Cell)) :=
  chunk.vectors.mapM (OutVector.read r)

def Chunk.read (chunk : Chunk Cell) : Option (List (List (OutValue Cell))) :=
  (List.range chunk.cardinality).mapM chunk.readRow

def Column.value (r : Row) : Column Row Cell → OutValue Cell
  | .flat cell => cellValue (cell r)
  | .list items => .items (items r)
  | .structs _ items => .structs ((items r).map List.Vector.toList)

def rowValues (columns : List (Column Row Cell)) (r : Row) : List (OutValue Cell) :=
  columns.map (Column.value r)

/-- What `n` calls emit, and the cursor after them. -/
def emitCalls (columns : List (Column Row Cell)) (rows : List Row) (v : ℕ) :
    ℕ → ℕ → Option (List (List (OutValue Cell)) × ℕ)
  | 0, cursor => some ([], cursor)
  | n + 1, cursor =>
    (emitChunk columns rows v cursor).bind fun chunk =>
      chunk.read.bind fun out =>
        (emitCalls columns rows v n (cursor + chunk.cardinality)).map fun rest =>
          (out ++ rest.1, rest.2)

/-! ### Buffers filled from the front -/

def filled (done : List α) (free : ℕ) : Buffer α := done.map some ++ unwritten free

theorem filled_length (done : List α) (free : ℕ) : (filled done free).length = done.length + free := by
  unfold filled unwritten
  rw [List.length_append, List.length_map, List.length_replicate]

theorem filled_get (done : List α) (free i : ℕ) (h : i < done.length) :
    ((filled done free)[i]?).join = done[i]? := by
  unfold filled
  rw [List.getElem?_append_left (by rw [List.length_map]; exact h), List.getElem?_map,
    List.getElem?_eq_getElem h]
  rfl

theorem put_filled (done : List α) (a : α) (free : ℕ) :
    put done.length a (filled done (free + 1)) = some (filled (done ++ [a]) free) := by
  have hlen := filled_length done (free + 1)
  unfold put
  rw [if_pos (by omega)]
  unfold filled unwritten
  rw [List.set_append_right _ _ (by rw [List.length_map]), List.length_map, Nat.sub_self,
    List.replicate_succ, List.set_cons_zero, List.map_append, List.append_assoc]
  rfl

theorem putAll_filled (as done : List α) (free : ℕ) :
    putAll as done.length (filled done (as.length + free)) = some (filled (done ++ as) free) := by
  induction as generalizing done with
  | nil => rw [putAll, List.length_nil, Nat.zero_add, List.append_nil]
  | cons a as ih =>
    have hput := put_filled done a (as.length + free)
    have hrest := ih (done ++ [a])
    rw [List.length_append, List.length_singleton, List.append_assoc] at hrest
    rw [putAll, List.length_cons, Nat.add_right_comm, hput]
    exact hrest

theorem mapM_some {β : Type} (f : α → Option β) (g : α → β) (l : List α)
    (h : ∀ a ∈ l, f a = some (g a)) : l.mapM f = some (l.map g) := by
  induction l with
  | nil => rfl
  | cons a l ih =>
    rw [List.mapM_cons, h a List.mem_cons_self, ih fun b hb => h b (List.mem_cons_of_mem a hb)]
    rfl

theorem mapM_range {β : Type} (f : ℕ → Option β) (as : List β)
    (h : ∀ k (hk : k < as.length), f k = some as[k]) : (List.range as.length).mapM f = some as := by
  induction as using List.reverseRecOn with
  | nil => rfl
  | append_singleton as a ih =>
    have hlen : (as ++ [a]).length = as.length + 1 := List.length_append
    have hbefore : ∀ k (hk : k < as.length), f k = some as[k] := by
      intro k hk
      rw [h k (by omega), List.getElem_append_left hk]
    have hlast : f as.length = some a := by
      rw [h as.length (by omega), List.getElem_concat_length rfl]
    rw [hlen, List.range_succ, List.mapM_append, ih hbefore, List.mapM_cons, hlast]
    rfl

theorem get_between (before as after : List α) (k : ℕ) (hk : k < as.length) :
    (before ++ as ++ after)[before.length + k]? = some as[k] := by
  rw [List.append_assoc, List.getElem?_append_right (Nat.le_add_right _ _),
    Nat.add_sub_cancel_left, List.getElem?_append_left hk, List.getElem?_eq_getElem hk]

theorem readAll_filled (before as after : List α) :
    readAll (filled (before ++ as ++ after) 0) before.length as.length = some as := by
  refine mapM_range _ as fun k hk => ?_
  have hlt : before.length + k < (before ++ as ++ after).length := by
    rw [List.length_append, List.length_append]
    omega
  rw [filled_get _ _ _ hlt, get_between before as after k hk]

/-! ### Structs -/

/-- The children after these structs. -/
def filledStructs (width : ℕ) (done : List (List.Vector α width)) (free : ℕ) : List (Buffer α) :=
  (List.finRange width).map fun j => filled (done.map fun s => s.get j) free

theorem filledStructs_nil (width free : ℕ) :
    filledStructs width ([] : List (List.Vector α width)) free =
      List.replicate width (unwritten free) := by
  have hlen : (List.finRange width).length = width := List.length_finRange
  show (List.finRange width).map (fun _ => unwritten free) = _
  rw [List.map_const', hlen]

theorem toList_get {width : ℕ} (s : List.Vector α width) :
    s.toList = (List.finRange width).map s.get := by
  rw [← List.ofFn_eq_map, ← List.Vector.toList_ofFn, List.Vector.ofFn_get]

theorem putStruct_map {ι : Type} (i : ℕ) (f : ι → α) (before after : ι → Buffer α) (js : List ι)
    (h : ∀ j, put i (f j) (before j) = some (after j)) :
    putStruct i (js.map f) (js.map before) = some (js.map after) := by
  induction js with
  | nil => rfl
  | cons j js ih =>
    rw [List.map_cons, List.map_cons, putStruct, h j, Option.bind_some, ih]
    rfl

theorem putStructs_filled {width : ℕ} (ss done : List (List.Vector α width)) (free : ℕ) :
    putStructs ss done.length (filledStructs width done (ss.length + free)) =
      some (filledStructs width (done ++ ss) free) := by
  induction ss generalizing done with
  | nil => rw [putStructs, List.length_nil, Nat.zero_add, List.append_nil]
  | cons s ss ih =>
    have hfield : ∀ j : Fin width,
        put done.length (s.get j) (filled (done.map fun s => s.get j) (ss.length + free + 1)) =
          some (filled ((done ++ [s]).map fun s => s.get j) (ss.length + free)) := by
      intro j
      have hone := put_filled (done.map fun s => s.get j) (s.get j) (ss.length + free)
      rw [List.length_map] at hone
      rw [hone, List.map_append]
      rfl
    have hput := putStruct_map done.length s.get _ _ (List.finRange width) hfield
    have hrest := ih (done ++ [s])
    rw [List.length_append, List.length_singleton, List.append_assoc] at hrest
    rw [putStructs, List.length_cons, Nat.add_right_comm, toList_get]
    show Option.bind (putStruct done.length _ (List.map _ (List.finRange width))) _ = _
    rw [hput]
    exact hrest

theorem readStruct_filled {width : ℕ} (done : List (List.Vector α width)) (k : ℕ)
    (hk : k < done.length) :
    readStruct (filledStructs width done 0) k = some done[k].toList := by
  have hread : ∀ j ∈ List.finRange width,
      (((filled (done.map fun s => s.get j) 0))[k]?).join = some (done[k].get j) := by
    intro j _
    rw [filled_get _ _ _ (by rw [List.length_map]; exact hk), List.getElem?_map,
      List.getElem?_eq_getElem hk]
    rfl
  rw [readStruct, filledStructs, List.mapM_map, toList_get]
  exact mapM_some _ _ _ hread

theorem readStructs_filled {width : ℕ} (before ss after : List (List.Vector α width)) :
    readStructs (filledStructs width (before ++ ss ++ after) 0) before.length ss.length =
      some (ss.map List.Vector.toList) := by
  have hlen : ss.length = (ss.map List.Vector.toList).length := by rw [List.length_map]
  rw [hlen]
  refine mapM_range _ (ss.map List.Vector.toList) fun k hk => ?_
  rw [List.length_map] at hk
  have hlt : before.length + k < (before ++ ss ++ after).length := by
    rw [List.length_append, List.length_append]
    omega
  have hget := get_between before ss after k hk
  rw [List.getElem?_eq_getElem hlt, Option.some.injEq] at hget
  rw [readStruct_filled _ _ hlt, hget, List.getElem_map]

/-! ### The rows of one call -/

/-- The rows from the cursor on that fit. -/
def batch (rows : List Row) (cursor count : ℕ) : List Row := (rows.drop cursor).take count

/-- A vector after these rows, its lists not being written yet. -/
def Column.written (done : List Row) (free : ℕ) : Column Row Cell → OutVector Cell
  | .flat cell => .flat (filled (done.map cell) free)
  | .list _ => .list (unwritten (done.length + free)) []
  | .structs _ _ => .structs (unwritten (done.length + free)) []

theorem fresh_written (v : ℕ) (c : Column Row Cell) : c.fresh v = c.written [] v := by
  cases c with
  | flat cell => rfl
  | list items =>
    show OutVector.list (unwritten v) [] = .list (unwritten (0 + v)) []
    rw [Nat.zero_add]
  | structs width items =>
    show OutVector.structs (unwritten v) [] = .structs (unwritten (0 + v)) []
    rw [Nat.zero_add]

theorem writeCell_written (c : Column Row Cell) (done : List Row) (r : Row) (free : ℕ) :
    c.writeCell done.length r (c.written done (free + 1)) = some (c.written (done ++ [r]) free) := by
  cases c with
  | flat cell =>
    have hput := put_filled (done.map cell) (cell r) free
    rw [List.length_map] at hput
    show (put done.length (cell r) (filled (done.map cell) (free + 1))).map OutVector.flat = _
    rw [hput, Column.written, List.map_append]
    rfl
  | list items =>
    show some (OutVector.list (unwritten (done.length + (free + 1))) []) =
      some (.list (unwritten ((done ++ [r]).length + free)) [])
    rw [List.length_append, List.length_singleton, Nat.add_assoc, Nat.add_comm 1 free]
  | structs width items =>
    show some (OutVector.structs (unwritten (done.length + (free + 1))) []) =
      some (.structs (unwritten ((done ++ [r]).length + free)) [])
    rw [List.length_append, List.length_singleton, Nat.add_assoc, Nat.add_comm 1 free]

theorem writeRow_written (columns : List (Column Row Cell)) (done : List Row) (r : Row) (free : ℕ) :
    writeRow done.length r columns (columns.map (Column.written done (free + 1))) =
      some (columns.map (Column.written (done ++ [r]) free)) := by
  induction columns with
  | nil => rfl
  | cons c cs ih =>
    rw [List.map_cons, writeRow, writeCell_written, Option.bind_some, ih]
    rfl

theorem fillRows_written (columns : List (Column Row Cell)) (rows : List Row) (left cursor : ℕ)
    (done : List Row) :
    fillRows columns rows left done.length cursor (columns.map (Column.written done left)) =
      some (columns.map (Column.written (done ++ batch rows cursor left)
        (left - (batch rows cursor left).length)), done.length + (batch rows cursor left).length) := by
  induction left generalizing cursor done with
  | zero =>
    have hnone : batch rows cursor 0 = [] := List.take_zero
    rw [hnone, List.append_nil]
    rfl
  | succ left ih =>
    cases hrow : rows[cursor]? with
    | none =>
      have hnone : batch rows cursor (left + 1) = [] := by
        unfold batch
        rw [List.drop_eq_nil_of_le (List.getElem?_eq_none_iff.mp hrow), List.take_nil]
      rw [fillRows, hrow, hnone, List.append_nil]
      rfl
    | some r =>
      obtain ⟨hlt, hget⟩ := List.getElem?_eq_some_iff.mp hrow
      have hbatch : batch rows cursor (left + 1) = r :: batch rows (cursor + 1) left := by
        unfold batch
        rw [List.drop_eq_getElem_cons hlt, List.take_succ_cons, hget]
      have hrest := ih (cursor + 1) (done ++ [r])
      rw [List.length_append, List.length_singleton] at hrest
      rw [fillRows, hrow, hbatch]
      dsimp only
      rw [writeRow_written, Option.bind_some, hrest, List.append_assoc, List.length_cons,
        Nat.succ_sub_succ, Nat.add_assoc, Nat.add_comm 1 (batch rows (cursor + 1) left).length]
      rfl

/-! ### The lists of one call -/

/-- Where the lists of the rows stand in the child. -/
def spans (items : Row → List α) : ℕ → List Row → List (ℕ × ℕ)
  | _, [] => []
  | off, r :: rs => (off, (items r).length) :: spans items (off + (items r).length) rs

theorem spans_length (items : Row → List α) (off : ℕ) (rs : List Row) :
    (spans items off rs).length = rs.length := by
  induction rs generalizing off with
  | nil => rfl
  | cons r rs ih => rw [spans, List.length_cons, List.length_cons, ih]

theorem spans_append (items : Row → List α) (off : ℕ) (before after : List Row) :
    spans items off (before ++ after) =
      spans items off before ++ spans items (off + (before.flatMap items).length) after := by
  induction before generalizing off with
  | nil => rfl
  | cons r rs ih =>
    rw [List.cons_append, spans, spans, ih, List.flatMap_cons, List.length_append, Nat.add_assoc]
    rfl

theorem spans_get (items : Row → List α) (before after : List Row) (r : Row) :
    (spans items 0 (before ++ r :: after))[before.length]? =
      some ((before.flatMap items).length, (items r).length) := by
  have hlen := spans_length items 0 before
  rw [spans_append, List.getElem?_append_right (by omega), hlen, Nat.sub_self, spans, Nat.zero_add]
  rfl

theorem listTotal_batch (items : Row → List α) (rows : List Row) (start count : ℕ) :
    listTotal items rows start count = ((batch rows start count).flatMap items).length := by
  induction count with
  | zero =>
    have hnone : batch rows start 0 = [] := List.take_zero
    rw [hnone]
    rfl
  | succ count ih =>
    have hlast : batch rows start (count + 1) =
        batch rows start count ++ (rows[start + count]?).toList := by
      unfold batch
      rw [List.take_add_one, List.getElem?_drop]
    rw [listTotal, ih, hlast, List.flatMap_append, List.length_append]
    cases rows[start + count]? with
    | none => rfl
    | some r => simp

/-- `full` is the child after these items, with room for more. -/
theorem fillEntries_filled {Child : Type} (write : List α → ℕ → Child → Option Child)
    (full : List α → ℕ → Child)
    (hwrite : ∀ as done free,
      write as done.length (full done (as.length + free)) = some (full (done ++ as) free))
    (items : Row → List α) (rows : List Row) (start free : ℕ) (before after : List Row)
    (hrows : ∀ k < after.length, rows[start + (before.length + k)]? = after[k]?) :
    fillEntries write items rows start after.length before.length (before.flatMap items).length
        (filled (spans items 0 before) (after.length + free))
        (full (before.flatMap items) (after.flatMap items).length) =
      some (filled (spans items 0 (before ++ after)) free,
        full ((before ++ after).flatMap items) 0) := by
  induction after generalizing before with
  | nil => simp [fillEntries]
  | cons r after ih =>
    have hrow : rows[start + before.length]? = some r := hrows 0 (Nat.succ_pos _)
    have hput := put_filled (spans items 0 before) ((before.flatMap items).length, (items r).length)
      (after.length + free)
    rw [spans_length] at hput
    have hspans : spans items 0 before ++ [((before.flatMap items).length, (items r).length)] =
        spans items 0 (before ++ [r]) := by
      rw [spans_append, Nat.zero_add]
      rfl
    have hchild := hwrite (items r) (before.flatMap items) (after.flatMap items).length
    have hflat : before.flatMap items ++ items r = (before ++ [r]).flatMap items := by
      rw [List.flatMap_append, List.flatMap_singleton]
    have hrest := ih (before ++ [r]) (by
      intro k hk
      have hnext := hrows (k + 1) (Nat.succ_lt_succ hk)
      rw [List.length_append, List.length_singleton, Nat.add_assoc, Nat.add_comm 1 k]
      exact hnext)
    rw [List.length_append, List.length_singleton, ← hflat, List.length_append, hflat,
      List.append_assoc] at hrest
    rw [List.length_cons, fillEntries, hrow, Option.bind_some, Nat.add_right_comm, hput,
      Option.bind_some, hspans, List.flatMap_cons, List.length_append, hchild, Option.bind_some, hflat]
    exact hrest

/-- A vector after the call. -/
def Column.complete (done : List Row) (free : ℕ) : Column Row Cell → OutVector Cell
  | .flat cell => .flat (filled (done.map cell) free)
  | .list items => .list (filled (spans items 0 done) free) (filled (done.flatMap items) 0)
  | .structs width items =>
    .structs (filled (spans items 0 done) free) (filledStructs width (done.flatMap items) 0)

theorem batch_get (rows : List Row) (start count k : ℕ) (h : k < (batch rows start count).length) :
    rows[start + k]? = (batch rows start count)[k]? := by
  unfold batch at h ⊢
  rw [List.getElem?_take_of_lt (by rw [List.length_take] at h; omega), List.getElem?_drop]

theorem batch_length (rows : List Row) (start count : ℕ) :
    (batch rows start count).length = min count (rows.length - start) := by
  unfold batch
  rw [List.length_take, List.length_drop]

theorem batch_again (rows : List Row) (start v : ℕ) :
    batch rows start (batch rows start v).length = batch rows start v := by
  unfold batch
  rw [List.take_eq_take_iff, List.length_take]
  omega

/-- The entries and the child of a list vector, the child being reserved first. -/
theorem fillEntries_batch {Child : Type} (write : List α → ℕ → Child → Option Child)
    (full : List α → ℕ → Child)
    (hwrite : ∀ as done free,
      write as done.length (full done (as.length + free)) = some (full (done ++ as) free))
    (items : Row → List α) (rows : List Row) (start v free : ℕ) :
    fillEntries write items rows start (batch rows start v).length 0 0
        (unwritten ((batch rows start v).length + free))
        (full [] (listTotal items rows start (batch rows start v).length)) =
      some (filled (spans items 0 (batch rows start v)) free,
        full ((batch rows start v).flatMap items) 0) := by
  have hfilled := fillEntries_filled write full hwrite items rows start free []
    (batch rows start v) (by
      intro k hk
      rw [List.length_nil, Nat.zero_add]
      exact batch_get rows start v k hk)
  have htotal := listTotal_batch items rows start (batch rows start v).length
  rw [batch_again] at htotal
  rw [htotal]
  exact hfilled

theorem fillList_written (c : Column Row Cell) (rows : List Row) (start v free : ℕ) :
    c.fillList rows start (batch rows start v).length (c.written (batch rows start v) free) =
      some (c.complete (batch rows start v) free) := by
  cases c with
  | flat cell => rfl
  | list items =>
    have hfilled := fillEntries_batch putAll filled putAll_filled items rows start v free
    show (fillEntries putAll items rows start _ 0 0 (unwritten _) (filled [] _)).map _ = _
    rw [hfilled]
    rfl
  | structs width items =>
    have hfilled := fillEntries_batch putStructs (filledStructs width) putStructs_filled items rows
      start v free
    rw [filledStructs_nil] at hfilled
    show (fillEntries putStructs items rows start _ 0 0 (unwritten _) _).map _ = _
    rw [hfilled]
    rfl

theorem fillLists_written (columns : List (Column Row Cell)) (rows : List Row) (start v free : ℕ) :
    fillLists rows start (batch rows start v).length columns
        (columns.map (Column.written (batch rows start v) free)) =
      some (columns.map (Column.complete (batch rows start v) free)) := by
  induction columns with
  | nil => rfl
  | cons c cs ih =>
    rw [List.map_cons, fillLists, fillList_written, Option.bind_some, ih]
    rfl

/-! ### A chunk read back -/

theorem emitChunk_complete (columns : List (Column Row Cell)) (rows : List Row) (v cursor : ℕ) :
    emitChunk columns rows v cursor =
      some ⟨columns.map (Column.complete (batch rows cursor v) (v - (batch rows cursor v).length)),
        (batch rows cursor v).length⟩ := by
  have hfresh : columns.map (Column.fresh v) = columns.map (Column.written [] v) :=
    List.map_congr_left fun c _ => fresh_written v c
  have hrows := fillRows_written columns rows v cursor []
  unfold emitChunk
  rw [hfresh]
  rw [List.length_nil, List.nil_append, Nat.zero_add] at hrows
  rw [hrows, Option.bind_some, fillLists_written]
  rfl

theorem read_complete (c : Column Row Cell) (before after : List Row) (r : Row) (free : ℕ) :
    (c.complete (before ++ r :: after) free).read before.length = some (c.value r) := by
  have hlt : before.length < (before ++ r :: after).length := by
    rw [List.length_append, List.length_cons]
    omega
  cases c with
  | flat cell =>
    show ((filled ((before ++ r :: after).map cell) free)[before.length]?).join.map cellValue = _
    rw [filled_get _ _ _ (by rw [List.length_map]; exact hlt), List.map_append, List.map_cons,
      List.getElem?_append_right (by rw [List.length_map]), List.length_map, Nat.sub_self]
    rfl
  | list items =>
    have hchild : (before ++ r :: after).flatMap items =
        before.flatMap items ++ items r ++ after.flatMap items := by
      rw [List.flatMap_append, List.flatMap_cons, List.append_assoc]
    show (((filled (spans items 0 (before ++ r :: after)) free)[before.length]?).join).bind _ = _
    rw [filled_get _ _ _ (by rw [spans_length]; exact hlt), spans_get, Option.bind_some, hchild,
      readAll_filled]
    rfl
  | structs width items =>
    have hchild : (before ++ r :: after).flatMap items =
        before.flatMap items ++ items r ++ after.flatMap items := by
      rw [List.flatMap_append, List.flatMap_cons, List.append_assoc]
    show (((filled (spans items 0 (before ++ r :: after)) free)[before.length]?).join).bind _ = _
    rw [filled_get _ _ _ (by rw [spans_length]; exact hlt), spans_get, Option.bind_some, hchild,
      readStructs_filled]
    rfl

theorem readRow_complete (columns : List (Column Row Cell)) (before after : List Row) (r : Row)
    (free n : ℕ) :
    (Chunk.mk (columns.map (Column.complete (before ++ r :: after) free)) n).readRow before.length =
      some (rowValues columns r) := by
  show (columns.map (Column.complete (before ++ r :: after) free)).mapM _ = _
  induction columns with
  | nil => rfl
  | cons c cs ih =>
    rw [List.map_cons, List.mapM_cons, read_complete, ih]
    rfl

theorem emitChunk_read (columns : List (Column Row Cell)) (rows : List Row) (v cursor : ℕ) :
    ∃ chunk, emitChunk columns rows v cursor = some chunk ∧
      chunk.cardinality = (batch rows cursor v).length ∧
      chunk.read = some ((batch rows cursor v).map (rowValues columns)) := by
  refine ⟨_, emitChunk_complete columns rows v cursor, rfl, ?_⟩
  generalize batch rows cursor v = done
  generalize hcolumns : columns.map (Column.complete done (v - done.length)) = vecs
  show (List.range done.length).mapM (Chunk.mk vecs done.length).readRow = _
  have hread : ∀ k (hk : k < done.length),
      (Chunk.mk vecs done.length).readRow k = some (rowValues columns done[k]) := by
    intro k hk
    have hsplit : done = done.take k ++ done[k] :: done.drop (k + 1) := by
      rw [← List.drop_eq_getElem_cons hk, List.take_append_drop]
    have hlen : (done.take k).length = k := by rw [List.length_take]; omega
    have hrow := readRow_complete columns (done.take k) (done.drop (k + 1)) done[k]
      (v - done.length) done.length
    rw [← hsplit, hcolumns, hlen] at hrow
    exact hrow
  have hlen : (done.map (rowValues columns)).length = done.length := List.length_map _
  have hall := mapM_range (Chunk.mk vecs done.length).readRow (done.map (rowValues columns))
    fun k hk => by rw [hread k (by omega), List.getElem_map]
  rw [hlen] at hall
  exact hall

/-! ### All calls -/

theorem batch_succ (rows : List Row) (cursor v n : ℕ) :
    batch rows cursor ((n + 1) * v) =
      batch rows cursor v ++ batch rows (cursor + (batch rows cursor v).length) (n * v) := by
  have hlen := batch_length rows cursor v
  unfold batch at hlen ⊢
  rw [hlen, ← List.drop_drop, Nat.succ_mul, Nat.add_comm (n * v) v, List.take_add]
  congr 1
  by_cases hle : v ≤ rows.length - cursor
  · rw [Nat.min_eq_left hle]
  · have hge : rows.length - cursor ≤ v := by omega
    rw [Nat.min_eq_right hge, List.drop_eq_nil_of_le (by rw [List.length_drop]; exact hge),
      List.drop_eq_nil_of_le (by rw [List.length_drop])]

/-- After any number of calls what was read back are the rows up to there, and
no write failed. -/
theorem emitCalls_rows (columns : List (Column Row Cell)) (rows : List Row) (v n cursor : ℕ) :
    emitCalls columns rows v n cursor =
      some ((batch rows cursor (n * v)).map (rowValues columns),
        cursor + (batch rows cursor (n * v)).length) := by
  induction n generalizing cursor with
  | zero =>
    have hnone : batch rows cursor (0 * v) = [] := by rw [Nat.zero_mul]; exact List.take_zero
    rw [hnone]
    rfl
  | succ n ih =>
    obtain ⟨chunk, hchunk, hcount, hread⟩ := emitChunk_read columns rows v cursor
    rw [emitCalls, hchunk, Option.bind_some, hread, Option.bind_some, hcount, ih, batch_succ,
      List.map_append, List.length_append, Nat.add_assoc]
    rfl

end TableChunks
