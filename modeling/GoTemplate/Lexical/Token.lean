import GoTemplate.Lexical.TokenKind
import GoTemplate.Source.Span

/-!
Tokens.
-/

namespace GoTemplate

/-- A token with the text it was read from and the place of that text. -/
structure Token where
  kind : TokenKind
  lexeme : Text
  span : Span
  deriving DecidableEq

namespace Token

/-- Whether the token is a semicolon that stands for a line end and not in the text. -/
def isAutomatic (t : Token) : Bool := t.kind == .semicolon && t.lexeme == ['\n']

/-- The text that stands for the token when it is written out: its lexeme, and `;` for an
automatic semicolon. -/
def text (t : Token) : Text := if t.isAutomatic then [';'] else t.lexeme

end Token

end GoTemplate
