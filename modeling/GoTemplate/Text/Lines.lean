import GoTemplate.Text.Basic

/-!
Lines of a text. A line ends at a line feed, and one carriage return before the line feed
belongs to the line end.
-/

namespace GoTemplate.Text

/-- The lines of a text without their ends. A line feed at the very end starts no further line,
and a carriage return that no line feed follows belongs to its line. -/
def lines : Text → List Text
  | [] => []
  | '\n' :: t => [] :: lines t
  | '\r' :: '\n' :: t => [] :: lines t
  | c :: t =>
    match lines t with
    | line :: rest => (c :: line) :: rest
    | [] => [[c]]

/-- Whether `c` is one of the two characters of a line end. -/
def isLineEnd (c : Char) : Bool := c == '\r' || c == '\n'

/-- The text as one line: the line ends at its end, however many, become a single line feed. -/
def asLine (t : Text) : Text := dropEndWhile isLineEnd t ++ ['\n']

end GoTemplate.Text
