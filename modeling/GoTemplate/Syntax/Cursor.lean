import GoTemplate.Lexical.Lexer
import GoTemplate.Syntax.Fault

/-!
A place in a list of tokens, and the questions about the tokens after it that need more than the
next one. Brackets are matched in two ways. A skip keeps the stack of open brackets and rejects a
closing bracket of another shape. A look-ahead only counts how many are open.
-/

namespace GoTemplate

/-- A place between two tokens. -/
structure Cursor where
  /-- The span of the token before. -/
  previous : Span
  /-- The tokens to come, without the end of the source. -/
  rest : List Token
  /-- The end of the source. -/
  stop : Token

namespace Cursor

/-- The place before the first token of a run. -/
def ofRun (run : Lexer.Run) : Cursor := ⟨.none, run.tokens, run.stop⟩

/-- The next token; after the last one it is the end of the source. -/
def current (c : Cursor) : Token := c.rest.headD c.stop

/-- The kind of the next token. -/
def kind (c : Cursor) : TokenKind := c.current.kind

/-- The kind of the token that `n` others separate from the place. -/
def kindAt (c : Cursor) (n : Nat) : TokenKind := (c.rest[n]?.getD c.stop).kind

/-- The place after the next token. The end of the source is not passed. -/
def advance (c : Cursor) : Cursor :=
  match c.rest with
  | t :: rest => { c with previous := t.span, rest }
  | [] => c

end Cursor

/-! ## Look-ahead -/

namespace Brackets

/-- The kind of the token after the first closing bracket that leaves none open, where `depth`
brackets are open before the tokens. -/
def kindAfter (depth : Nat) : List Token → TokenKind
  | [] => .endOfSource
  | t :: rest =>
    match t.kind with
    | .opening _ => kindAfter (depth + 1) rest
    | .closing _ =>
      if depth ≤ 1 then (rest.head?.map Token.kind).getD .endOfSource
      else kindAfter (depth - 1) rest
    | _ => kindAfter depth rest

/-- Whether a comma comes outside of the brackets among the tokens and before the closing bracket
of the brackets around them, where `depth` brackets among the tokens are open. -/
def hasComma (depth : Nat) : List Token → Bool
  | [] => false
  | t :: rest =>
    match t.kind with
    | .opening _ => hasComma (depth + 1) rest
    | .closing _ => depth ≠ 0 && hasComma (depth - 1) rest
    | .comma => depth = 0 || hasComma depth rest
    | _ => hasComma depth rest

/-! ## Skipping -/

/-- A bracket that is open, with the span of its opening. -/
structure Opened where
  bracket : Bracket
  span : Span

/-- The rest of the tokens after the brackets in the stack, the innermost first, are all closed,
with the span of the last closing bracket. `last` is the span of the token before. -/
def close : List Opened → Span → List Token → Except SyntaxError (Span × List Token)
  | [], last, rest => .ok (last, rest)
  | inner :: _, _, [] => .error ⟨.unclosedBracket inner.bracket, inner.span⟩
  | inner :: outer, _, t :: rest =>
    match t.kind with
    | .opening b => close (⟨b, t.span⟩ :: inner :: outer) t.span rest
    | .closing b =>
      if b = inner.bracket then close outer t.span rest
      else .error ⟨.mismatchedBracket inner.bracket b, t.span⟩
    | _ => close (inner :: outer) t.span rest

/-- The tokens of an expression, and those after it, where the brackets in the stack, the
innermost first, are open. Outside of brackets the expression ends before a closing bracket and
before a token that satisfies `stops`. It also ends with the tokens, whatever is open. -/
def splitExpression (stops : TokenKind → Bool) :
    List Bracket → List Token → Except SyntaxError (List Token × List Token)
  | _, [] => .ok ([], [])
  | [], t :: rest =>
    if stops t.kind then .ok ([], t :: rest)
    else match t.kind with
      | .opening b => do
        let (taken, rest) ← splitExpression stops [b] rest
        return (t :: taken, rest)
      | .closing _ => .ok ([], t :: rest)
      | _ => do
        let (taken, rest) ← splitExpression stops [] rest
        return (t :: taken, rest)
  | inner :: outer, t :: rest =>
    match t.kind with
    | .opening b => do
      let (taken, rest) ← splitExpression stops (b :: inner :: outer) rest
      return (t :: taken, rest)
    | .closing b =>
      if b = inner then do
        let (taken, rest) ← splitExpression stops outer rest
        return (t :: taken, rest)
      else .error ⟨.mismatchedBracket inner b, t.span⟩
    | _ => do
      let (taken, rest) ← splitExpression stops (inner :: outer) rest
      return (t :: taken, rest)

end Brackets

end GoTemplate
