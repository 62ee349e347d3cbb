import Mathlib
import DuckdbSalesforce.Text
import DuckdbSalesforce.Library.CsvText

/-!
# The CSV parser (salesforce_csv.hpp)

`sfcsv::Parse`: the characters left to read beside the state of the loop.
Every text a CSV writer may produce is read back to its rows.
-/

namespace DuckdbSalesforce.Sfcsv

structure ParseState where
  rows : List (List Text)
  row : List Text
  cell : Text
  inQuotes : Bool
  fieldStarted : Bool

def ParseState.endField (s : ParseState) : ParseState :=
  { s with row := s.row ++ [s.cell], cell := [] }

def ParseState.endRow (s : ParseState) : ParseState :=
  { s.endField with rows := s.rows ++ [s.endField.row], row := [], fieldStarted := false }

def parseLoop : Text → ParseState → ParseState
  | [], s => s
  | c :: rest, s =>
    if s.inQuotes then
      if c = '"' then
        match rest with
        | '"' :: rest => parseLoop rest { s with cell := s.cell ++ ['"'] }
        | rest => parseLoop rest { s with inQuotes := false }
      else parseLoop rest { s with cell := s.cell ++ [c] }
    else if c = '"' then parseLoop rest { s with inQuotes := true, fieldStarted := true }
    else if c = ',' then parseLoop rest { s.endField with fieldStarted := true }
    else if c = '\r' then
      match rest with
      | '\n' :: rest => parseLoop rest s.endRow
      | rest => parseLoop rest s.endRow
    else if c = '\n' then parseLoop rest s.endRow
    else parseLoop rest { s with cell := s.cell ++ [c], fieldStarted := true }

/-- The trailing record of a text without a final line end. -/
def ParseState.flush (s : ParseState) : ParseState :=
  if s.fieldStarted || !s.cell.isEmpty || !s.row.isEmpty then s.endRow else s

def parse (data : Text) : List (List Text) :=
  (parseLoop data ⟨[], [], [], false, false⟩).flush.rows

/-! ### Steps of the loop -/

/-- A text that cannot continue a closing quote as a doubled one. -/
def Closes (rest : Text) : Prop := ∀ t, rest ≠ '"' :: t

theorem parseLoop_doubled (s : ParseState) (t : Text) (h : s.inQuotes = true) :
    parseLoop ('"' :: '"' :: t) s = parseLoop t { s with cell := s.cell ++ ['"'] } := by
  conv_lhs => unfold parseLoop
  rw [if_pos h, if_pos rfl]
  rfl

theorem parseLoop_inside (s : ParseState) (c : Char) (t : Text) (h : s.inQuotes = true)
    (hc : c ≠ '"') : parseLoop (c :: t) s = parseLoop t { s with cell := s.cell ++ [c] } := by
  conv_lhs => unfold parseLoop
  rw [if_pos h, if_neg hc]

theorem parseLoop_close (s : ParseState) (t : Text) (h : s.inQuotes = true) (ht : Closes t) :
    parseLoop ('"' :: t) s = parseLoop t { s with inQuotes := false } := by
  conv_lhs => unfold parseLoop
  rw [if_pos h, if_pos rfl]
  cases t with
  | nil => rfl
  | cons d t =>
    have hd : d ≠ '"' := fun he => ht t (by rw [he])
    split
    · rename_i heq
      exact absurd (List.cons.inj heq).1 hd
    · rfl

theorem parseLoop_open (s : ParseState) (t : Text) (h : s.inQuotes = false) :
    parseLoop ('"' :: t) s = parseLoop t { s with inQuotes := true, fieldStarted := true } := by
  conv_lhs => unfold parseLoop
  rw [h, if_neg (by decide), if_pos rfl]

theorem parseLoop_comma (s : ParseState) (t : Text) (h : s.inQuotes = false) :
    parseLoop (',' :: t) s = parseLoop t { s.endField with fieldStarted := true } := by
  conv_lhs => unfold parseLoop
  rw [h, if_neg (by decide), if_neg (by decide), if_pos rfl]

theorem parseLoop_plain (s : ParseState) (c : Char) (t : Text) (h : s.inQuotes = false)
    (hc : c ≠ ',' ∧ c ≠ '"' ∧ c ≠ '\r' ∧ c ≠ '\n') :
    parseLoop (c :: t) s = parseLoop t { s with cell := s.cell ++ [c], fieldStarted := true } := by
  conv_lhs => unfold parseLoop
  rw [h, if_neg (by decide), if_neg hc.2.1, if_neg hc.1, if_neg hc.2.2.1,
    if_neg hc.2.2.2]

theorem parseLoop_lineEnd (s : ParseState) (e : CsvText.LineEnd) (t : Text)
    (h : s.inQuotes = false) : parseLoop (e.render ++ t) s = parseLoop t s.endRow := by
  cases e with
  | lf =>
    show parseLoop ('\n' :: t) s = _
    conv_lhs => unfold parseLoop
    rw [h, if_neg (by decide), if_neg (by decide), if_neg (by decide),
      if_neg (by decide), if_pos rfl]
  | crlf =>
    show parseLoop ('\r' :: '\n' :: t) s = _
    conv_lhs => unfold parseLoop
    rw [h, if_neg (by decide), if_neg (by decide), if_neg (by decide), if_pos rfl]
    rfl

/-! ### Cells -/

theorem read_quoted (v t : Text) (s : ParseState) (h : s.inQuotes = true) (ht : Closes t) :
    parseLoop (CsvText.doubled v ++ '"' :: t) s =
      parseLoop t { s with cell := s.cell ++ v, inQuotes := false } := by
  induction v generalizing s with
  | nil =>
    show parseLoop ('"' :: t) s = _
    rw [parseLoop_close s t h ht, List.append_nil]
  | cons c v ih =>
    by_cases hc : c = '"'
    · rw [hc, CsvText.doubled_quote]
      show parseLoop ('"' :: '"' :: (CsvText.doubled v ++ '"' :: t)) s = _
      rw [parseLoop_doubled s _ h, ih { s with cell := s.cell ++ ['"'] } h]
      simp only [List.append_assoc, List.singleton_append]
    · rw [CsvText.doubled_plain c v hc]
      show parseLoop (c :: (CsvText.doubled v ++ '"' :: t)) s = _
      rw [parseLoop_inside s c _ h hc, ih { s with cell := s.cell ++ [c] } h]
      simp only [List.append_assoc, List.singleton_append]

theorem read_plain (v t : Text) (s : ParseState) (h : s.inQuotes = false)
    (hv : ∀ c ∈ v, c ≠ ',' ∧ c ≠ '"' ∧ c ≠ '\r' ∧ c ≠ '\n') :
    parseLoop (v ++ t) s =
      parseLoop t { s with cell := s.cell ++ v, fieldStarted := s.fieldStarted || !v.isEmpty } := by
  induction v generalizing s with
  | nil => simp only [List.nil_append, List.append_nil, List.isEmpty_nil, Bool.not_true, Bool.or_false]
  | cons c v ih =>
    have hc := hv c (List.mem_cons_self ..)
    have htail := fun d hd => hv d (List.mem_cons_of_mem _ hd)
    rw [List.cons_append, parseLoop_plain s c _ h hc,
      ih { s with cell := s.cell ++ [c], fieldStarted := true } h htail]
    simp only [List.append_assoc, List.singleton_append, Bool.true_or, List.isEmpty_cons,
      Bool.not_false, Bool.or_true]

/-- Between two cells of a row: nothing of the next cell is read yet. -/
def atCell (rows : List (List Text)) (row : List Text) (started : Bool) : ParseState :=
  ⟨rows, row, [], false, started⟩

theorem read_cell (c : CsvText.Cell) (rows : List (List Text)) (row : List Text) (started : Bool)
    (t : Text) (ht : Closes t) :
    ∃ b, parseLoop (c.render ++ t) (atCell rows row started) =
      parseLoop t ⟨rows, row, c.value, false, b⟩ := by
  cases hq : c.quoted with
  | true =>
    refine ⟨true, ?_⟩
    rw [CsvText.render_quoted c hq, List.cons_append, List.append_assoc]
    rw [parseLoop_open _ _ rfl]
    exact read_quoted c.value t ⟨rows, row, [], true, true⟩ rfl ht
  | false =>
    refine ⟨started || !c.value.isEmpty, ?_⟩
    rw [CsvText.render_plain c hq]
    exact read_plain c.value t (atCell rows row started) rfl (CsvText.plain_chars c hq)

theorem closes_comma (t : Text) : Closes (',' :: t) := by
  intro u h
  exact absurd (List.cons.inj h).1 (by decide)

theorem closes_lineEnd (e : CsvText.LineEnd) (t : Text) : Closes (e.render ++ t) := by
  intro u h
  cases e with
  | lf => exact absurd (List.cons.inj h).1 (by decide)
  | crlf => exact absurd (List.cons.inj h).1 (by decide)

/-! ### Rows -/

theorem read_cells (cs : List CsvText.Cell) (hcs : cs ≠ []) (e : CsvText.LineEnd)
    (rows : List (List Text)) (row : List Text) (started : Bool) (t : Text) :
    parseLoop (CsvText.renderCells cs ++ (e.render ++ t)) (atCell rows row started) =
      parseLoop t (atCell (rows ++ [row ++ cs.map CsvText.Cell.value]) [] false) := by
  induction cs generalizing row started with
  | nil => exact absurd rfl hcs
  | cons c cs ih =>
    cases cs with
    | nil =>
      obtain ⟨b, hb⟩ := read_cell c rows row started (e.render ++ t) (closes_lineEnd e t)
      show parseLoop (c.render ++ (e.render ++ t)) _ = _
      rw [hb, parseLoop_lineEnd _ e t rfl]
      rfl
    | cons d cs =>
      obtain ⟨b, hb⟩ := read_cell c rows row started
        (',' :: (CsvText.renderCells (d :: cs) ++ (e.render ++ t))) (closes_comma _)
      rw [CsvText.renderCells_cons, List.append_assoc, List.cons_append, hb,
        parseLoop_comma _ _ rfl]
      have hnext := ih (List.cons_ne_nil d cs) (row ++ [c.value]) true
      rw [List.append_assoc, List.singleton_append] at hnext
      exact hnext

theorem read_rows (rs : List CsvText.Row) (rows : List (List Text)) :
    parseLoop (CsvText.render rs) (atCell rows [] false) =
      atCell (rows ++ rs.map CsvText.Row.values) [] false := by
  induction rs generalizing rows with
  | nil => simp [CsvText.render, parseLoop]
  | cons r rs ih =>
    rw [CsvText.render_cons, CsvText.Row.render, List.append_assoc,
      read_cells r.cells r.nonempty r.ending rows [] false, ih, List.map_cons,
      List.append_assoc, List.singleton_append, List.nil_append]
    rfl

theorem flush_rows (rows : List (List Text)) : (atCell rows [] false).flush.rows = rows := rfl

theorem parse_start (data : Text) : parse data = (parseLoop data (atCell [] [] false)).flush.rows :=
  rfl

/-- Parsing inverts writing, whatever the writer chose to quote. -/
theorem parse_render (rs : List CsvText.Row) :
    parse (CsvText.render rs) = rs.map CsvText.Row.values := by
  rw [parse_start, read_rows, flush_rows, List.nil_append]

/-- A name that has to be quoted after a plain id. -/
def quotedRow : CsvText.Row where
  cells := [⟨"001".toList, false, by decide⟩, ⟨"Acme, \"North\"\r\n".toList, true, fun _ => rfl⟩]
  nonempty := List.cons_ne_nil _ _
  ending := .crlf

/-- An id in quotes before an empty cell. -/
def plainRow : CsvText.Row where
  cells := [⟨"002".toList, true, fun _ => rfl⟩, ⟨[], false, by decide⟩]
  nonempty := List.cons_ne_nil _ _
  ending := .lf

theorem quoted_beside_plain :
    CsvText.render [quotedRow, plainRow] =
        "001,\"Acme, \"\"North\"\"\r\n\"\r\n\"002\",\n".toList ∧
      parse (CsvText.render [quotedRow, plainRow]) =
        [["001".toList, "Acme, \"North\"\r\n".toList], ["002".toList, []]] :=
  ⟨by decide, parse_render [quotedRow, plainRow]⟩

end DuckdbSalesforce.Sfcsv
