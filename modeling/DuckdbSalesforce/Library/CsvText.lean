import Mathlib

/-!
# CSV texts

What a CSV writer may produce: cells separated by commas, each row closed by
LF or CRLF, and any cell in quotes with its inner quotes doubled. A writer may
quote any cell and has to quote those that hold a delimiter.
-/

namespace CsvText

abbrev Text := List Char

def isDelimiter (c : Char) : Bool := c == ',' || c == '"' || c == '\r' || c == '\n'

structure Cell where
  value : Text
  quoted : Bool
  forced : value.any isDelimiter = true → quoted = true

inductive LineEnd where
  | lf
  | crlf
  deriving DecidableEq, Repr

structure Row where
  cells : List Cell
  nonempty : cells ≠ []
  ending : LineEnd

def doubled (t : Text) : Text := t.flatMap fun c => if c = '"' then ['"', '"'] else [c]

def Cell.render (c : Cell) : Text :=
  if c.quoted then '"' :: (doubled c.value ++ ['"']) else c.value

def LineEnd.render : LineEnd → Text
  | .lf => ['\n']
  | .crlf => ['\r', '\n']

def renderCells : List Cell → Text
  | [] => []
  | [c] => c.render
  | c :: d :: rest => c.render ++ ',' :: renderCells (d :: rest)

def Row.render (r : Row) : Text := renderCells r.cells ++ r.ending.render

def Row.values (r : Row) : List Text := r.cells.map Cell.value

def render (rows : List Row) : Text := rows.flatMap Row.render

theorem doubled_quote (t : Text) : doubled ('"' :: t) = '"' :: '"' :: doubled t := rfl

theorem doubled_plain (c : Char) (t : Text) (h : c ≠ '"') : doubled (c :: t) = c :: doubled t := by
  simp only [doubled, List.flatMap_cons, if_neg h, List.singleton_append]

theorem render_quoted (c : Cell) (h : c.quoted = true) :
    c.render = '"' :: (doubled c.value ++ ['"']) := if_pos h

theorem render_plain (c : Cell) (h : c.quoted = false) : c.render = c.value := by
  rw [Cell.render, h]
  exact if_neg (by decide)

theorem plain_chars (c : Cell) (h : c.quoted = false) (x : Char) (hx : x ∈ c.value) :
    x ≠ ',' ∧ x ≠ '"' ∧ x ≠ '\r' ∧ x ≠ '\n' := by
  have hany : ¬ c.value.any isDelimiter = true := by
    intro hd
    rw [c.forced hd] at h
    cases h
  have hnot : ¬ isDelimiter x = true := fun hd => hany (List.any_eq_true.mpr ⟨x, hx, hd⟩)
  simp only [isDelimiter, Bool.or_eq_true, beq_iff_eq, not_or] at hnot
  exact ⟨hnot.1.1.1, hnot.1.1.2, hnot.1.2, hnot.2⟩

theorem renderCells_cons (c d : Cell) (rest : List Cell) :
    renderCells (c :: d :: rest) = c.render ++ ',' :: renderCells (d :: rest) := rfl

theorem render_cons (r : Row) (rows : List Row) : render (r :: rows) = r.render ++ render rows :=
  List.flatMap_cons

end CsvText
