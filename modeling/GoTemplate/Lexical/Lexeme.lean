import GoTemplate.Lexical.Fault
import GoTemplate.Lexical.TokenKind

/-!
The result of looking for a token at the front of a text.
-/

namespace GoTemplate

/-- The stretch of text taken as one token: what it is, or why it is no token, the stretch
itself, and the text after it. -/
structure Lexeme where
  reading : Except LexicalFault TokenKind
  text : Text
  rest : Text

namespace Lexeme

/-- The text from which a lexeme was taken. -/
def source (l : Lexeme) : Text := l.text ++ l.rest

/-- The lexeme with more text before it. -/
def prepend (t : Text) (l : Lexeme) : Lexeme := { l with text := t ++ l.text }

@[simp] theorem text_prepend (t : Text) (l : Lexeme) : (l.prepend t).text = t ++ l.text := rfl

@[simp] theorem rest_prepend (t : Text) (l : Lexeme) : (l.prepend t).rest = l.rest := rfl

theorem source_prepend (t : Text) (l : Lexeme) : (l.prepend t).source = t ++ l.source := by
  simp [prepend, source]

end Lexeme

end GoTemplate
