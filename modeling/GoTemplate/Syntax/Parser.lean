import GoTemplate.Syntax.Cursor
import GoTemplate.Syntax.GoType

/-!
Readers of syntax: what they are, and the small ones from which the grammar is put together.
Every loop ends because it goes on only after a token has been taken.
-/

namespace GoTemplate

/-- A reader of syntax takes tokens from a place on and gives a value, or the first breach of the
grammar. -/
abbrev Parser := StateT Cursor (Except SyntaxError)

namespace Parser

/-- What a look-ahead says about the place. -/
def look {α : Type} (g : Cursor → α) : Parser α := do return g (← get)

/-- The kind of the next token. -/
def kind : Parser TokenKind := look Cursor.kind

/-- The kind of the token that `n` others separate from the place. -/
def kindAt (n : Nat) : Parser TokenKind := look (Cursor.kindAt · n)

/-- The span of the next token. -/
def here : Parser Span := look fun c => c.current.span

/-- The span from `start` to the last token taken. -/
def spanFrom (start : Span) : Parser Span := do return start.merge (← get).previous

/-- Take the next token. -/
def take : Parser Token := modifyGet fun c => (c.current, c.advance)

/-- Reject the next token. -/
def reject {α : Type} (fault : TokenKind → SyntaxFault) : Parser α := do
  throw ⟨fault (← kind), ← here⟩

/-- Reject the next token, where something else is expected. -/
def unexpected {α : Type} (what : Expectation) : Parser α := reject (.expected what)

/-- Take the next token if it is of the kind `k`, and say whether it was. -/
def eat (k : TokenKind) : Parser Bool := do
  if (← kind) = k then
    let _ ← take
    return true
  else return false

/-- Read with `p` if the next token is of the kind `k`; else take nothing and give `otherwise`. -/
def ifNext {α : Type} (k : TokenKind) (p : Parser α) (otherwise : α) : Parser α := do
  if (← kind) = k then p else return otherwise

/-- Take a token of the kind `k`. -/
def expect (k : TokenKind) : Parser Token := do
  if (← kind) = k then take else unexpected (.token k)

/-- Take an identifier. -/
def identifier : Parser Identifier := do
  if (← kind) = .identifier then
    let t ← take
    return ⟨t.lexeme, t.span⟩
  else reject .expectedIdentifier

/-- The end of a declaration, a field or the like: a semicolon, which may be missing before a
closing round or curly bracket and at the end of the source. -/
def statementEnd : Parser Unit := do
  match ← kind with
  | .semicolon => let _ ← take
  | .closing .round | .closing .curly | .endOfSource => return
  | _ => unexpected .statementEnd

/-- Items for as long as the next token satisfies `more`. -/
def manyWhile {α : Type} (more : TokenKind → Bool) (item : Parser α) (c : Cursor) :
    Except SyntaxError (List α × Cursor) :=
  if more c.kind then
    match item c with
    | .error e => .error e
    | .ok (a, next) =>
      if _h : next.rest.length < c.rest.length then
        (manyWhile more item next).map fun (others, last) => (a :: others, last)
      else .ok ([a], next)
  else .ok ([], c)
  termination_by c.rest.length

/-- One item or more, with a token of the kind `separator` between neighbours. -/
def sepBy {α : Type} (separator : TokenKind) (item : Parser α) : Parser (List α) := do
  let first ← item
  let others ← manyWhile (· = separator) (do let _ ← take; item)
  return first :: others

/-- One item or more with commas between neighbours, and perhaps one before `close`, which is not
taken. -/
def commaList {α : Type} (close : TokenKind) (item : Parser α) (c : Cursor) :
    Except SyntaxError (List α × Cursor) :=
  match item c with
  | .error e => .error e
  | .ok (a, next) =>
    if next.kind = .comma then
      if next.advance.kind = close then .ok ([a], next.advance)
      else if _h : next.advance.rest.length < c.rest.length then
        (commaList close item next.advance).map fun (others, last) => (a :: others, last)
      else .ok ([a], next.advance)
    else .ok ([a], next)
  termination_by c.rest.length

/-- As `commaList`, and nothing where the next token is `close`. -/
def commaList? {α : Type} (close : TokenKind) (item : Parser α) : Parser (List α) := do
  if (← kind) = close then return [] else commaList close item

/-- Items up to `close`, each with its end. The list also ends with the source. -/
def statements {α : Type} (close : TokenKind) (item : Parser α) : Parser (List α) :=
  manyWhile (fun k => k ≠ close && k ≠ .endOfSource) do
    let a ← item
    statementEnd
    return a

/-- The tokens after an opening bracket of shape `b`, up to its closing bracket. -/
def groupEnd (b : Bracket) (opened : Span) (c : Cursor) : Except SyntaxError (Unit × Cursor) :=
  match Brackets.close [⟨b, opened⟩] opened c.rest with
  | .ok (last, rest) => .ok ((), { c with previous := last, rest })
  | .error e => .error e

/-- The tokens from an opening bracket of shape `b` to its closing bracket. -/
def group (b : Bracket) : Parser Unit := do
  let opened ← expect (.opening b)
  groupEnd b opened.span

/-- The text of an expression, with single spaces between its tokens. -/
def expression (stops : TokenKind → Bool) (c : Cursor) : Except SyntaxError (Text × Cursor) :=
  match Brackets.splitExpression stops [] c.rest with
  | .ok (taken, rest) =>
    match taken.getLast? with
    | none => unexpected .expression c
    | some last =>
      .ok (Text.joinWithSpaces (taken.map Token.text), { c with previous := last.span, rest })
  | .error e => .error e

end Parser

end GoTemplate
