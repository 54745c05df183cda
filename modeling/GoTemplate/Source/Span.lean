import GoTemplate.Text.Basic

/-!
Places in a source text. Lines and columns count from one, and columns and lengths count bytes
of UTF-8.
-/

namespace GoTemplate

/-- The place of one character. -/
structure Position where
  line : Nat
  col : Nat
  deriving DecidableEq

namespace Position

/-- The place of the first character of a text. -/
def start : Position := ⟨1, 1⟩

/-- The place after a character at `p`: a line feed starts the next line, any other character
moves on by its bytes. -/
def advance (p : Position) (c : Char) : Position :=
  if c = '\n' then ⟨p.line + 1, 1⟩ else ⟨p.line, p.col + c.utf8Size⟩

/-- The place after a text that starts at `p`. -/
def after (p : Position) (t : Text) : Position := t.foldl advance p

end Position

/-- A stretch of source text: where it starts, and its length. The line of its end is not
recorded. -/
structure Span where
  line : Nat
  col : Nat
  length : Nat
  deriving DecidableEq

namespace Span

/-- The stretch of `length` bytes that starts at `p`. -/
def startingAt (p : Position) (length : Nat) : Span := ⟨p.line, p.col, length⟩

/-- The span of nothing, before any text has been read. -/
def none : Span := ⟨0, 0, 0⟩

/-- Whether the span holds no text. -/
def isEmpty (s : Span) : Bool := s.length == 0

/-- One span for two. On one line it reaches from the first start to the last end; spans on
different lines keep the start of the first and add up their lengths. -/
def merge (s t : Span) : Span :=
  if s.line = t.line then
    let first := min s.col t.col
    let last := max (t.col + t.length) (s.col + s.length)
    ⟨s.line, first, last - first⟩
  else ⟨s.line, s.col, s.length + t.length⟩

/-- The start of the span, written `line:column`. -/
def render (s : Span) : String := s!"{s.line}:{s.col}"

end Span

end GoTemplate
