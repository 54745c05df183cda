import GoTemplate.Lexical.Lexer
import GoTemplate.Template.Word
import GoTemplate.Text.Words

/-!
Lines of a template with a type in the place of a placeholder.
-/

namespace GoTemplate.Line

/-- A comment with a type in the place of a placeholder: each of its words is looked at, and they
are put together with single spaces. -/
def substituteComment (placeholder type comment : Text) : Text :=
  Text.joinWithSpaces ((Text.words comment).map (Word.substitute placeholder type))

/-- What becomes of a token: identifiers and literals are words, comments consist of words, and
all else stays. -/
def substituteToken (placeholder type : Text) (t : Token) : Text :=
  if t.kind = .comment then substituteComment placeholder type t.lexeme
  else if t.kind.class? = some .literal then Word.substitute placeholder type t.lexeme
  else t.text

/-- A line with a type in the place of a placeholder: its tokens, comments included, with single
spaces between them. Text that is no token within the line, such as the start of a raw string
that goes on below, stays as it is. -/
def substitute (placeholder type line : Text) : Text :=
  Text.joinWithSpaces
    ((Lexer.ofSource .verbatim line).run.tokens.map (substituteToken placeholder type))

end GoTemplate.Line
