/-!
# Text/Lines — the lines of a text

A line ends at a newline, and a carriage return right before that newline belongs to the line end.
A text that ends with a newline has no empty last line.
-/

namespace CounterWatch.Text

/-- The lines of a text, without their line ends. -/
def lines (text : List Char) : List (List Char) :=
  collect [] text
where
  /-- Reads on with the beginning of a line in hand, kept last character first. -/
  collect : List Char → List Char → List (List Char)
    | [], [] => []
    | line, [] => [line.reverse]
    | '\r' :: line, '\n' :: rest => line.reverse :: collect [] rest
    | line, '\n' :: rest => line.reverse :: collect [] rest
    | line, c :: rest => collect (c :: line) rest

end CounterWatch.Text
