import GoTemplate.Source.Span

/-!
Why a stretch of text is no token.
-/

namespace GoTemplate

/-- What is wrong with a number. -/
inductive NumeralFault where
  | hexadecimalPointWithoutExponent
  | radixWithoutDigits
  | exponentWithoutDigits
  deriving DecidableEq

/-- What keeps text from being a token. -/
inductive LexicalFault where
  | unexpectedCharacter (c : Char)
  | unterminatedString
  | unterminatedRawString
  | unterminatedRune
  | unterminatedComment
  | invalidNumeral (fault : NumeralFault)
  deriving DecidableEq

/-- The wording of a fault in a number. -/
def NumeralFault.message : NumeralFault → String
  | hexadecimalPointWithoutExponent => "hexadecimal mantissa requires a 'p' exponent"
  | radixWithoutDigits => "expected digits after radix prefix"
  | exponentWithoutDigits => "exponent has no digits"

/-- A character as a message shows it: quotes and the backslash are escaped, printable ASCII
stands for itself, and any other character is given by its code point. -/
def escapeCharacter (c : Char) : String :=
  if c = '\'' ∨ c = '"' ∨ c = '\\' then String.ofList ['\\', c]
  else if c = '\t' then "\\t"
  else if c = '\r' then "\\r"
  else if c = '\n' then "\\n"
  else if 0x20 ≤ c.toNat ∧ c.toNat ≤ 0x7E then String.ofList [c]
  else "\\u\x7b" ++ String.ofList (Nat.toDigits 16 c.toNat) ++ "\x7d"

/-- The wording of a fault. -/
def LexicalFault.message : LexicalFault → String
  | unexpectedCharacter c => s!"unexpected character '{escapeCharacter c}'"
  | unterminatedString => "string literal not terminated"
  | unterminatedRawString => "raw string literal not terminated"
  | unterminatedRune => "rune literal not terminated"
  | unterminatedComment => "comment not terminated (expected closing `*/`)"
  | invalidNumeral fault => s!"invalid number literal: {fault.message}"

/-- A fault and the text it concerns. -/
structure LexicalError where
  fault : LexicalFault
  span : Span
  deriving DecidableEq

end GoTemplate
