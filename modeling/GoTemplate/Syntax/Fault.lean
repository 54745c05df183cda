import GoTemplate.Lexical.Fault
import GoTemplate.Lexical.TokenKind

/-!
Why a source is rejected, and the words for it.
-/

namespace GoTemplate

/-- What the grammar asks for at a place where it leaves no choice. -/
inductive Expectation where
  | token (kind : TokenKind)
  | statementEnd
  | importPath
  | expression
  | endOfType
  deriving DecidableEq

/-- The name of an expectation in messages. -/
def Expectation.description : Expectation → String
  | token kind => kind.description
  | statementEnd => "';' or newline"
  | importPath => "import path"
  | expression => "expression"
  | endOfType => "end of type"

/-- Breaches of the grammar. `found` is the kind of the token in the way. -/
inductive SyntaxFault where
  | expectedPackage (found : TokenKind)
  | lateImport
  | expectedDeclaration (found : TokenKind)
  | expectedIdentifier (found : TokenKind)
  | expectedField (found : TokenKind)
  | expectedType (found : TokenKind)
  | missingParamType (name : Text)
  | mixedParams
  | receiverCount (count : Nat)
  | expected (what : Expectation) (found : TokenKind)
  | unclosedBracket (bracket : Bracket)
  | mismatchedBracket (opened found : Bracket)
  deriving DecidableEq

/-- A breach of the grammar and the text at which it shows. -/
structure SyntaxError where
  fault : SyntaxFault
  span : Span
  deriving DecidableEq

/-- The classes of errors that reports name. -/
inductive ErrorKind where
  | invalidToken | expectedToken | unexpectedEnd | expectedPackage | expectedDeclaration
  | expectedIdentifier | expectedType | mismatchedDelimiter
  deriving DecidableEq

/-- The name of a class of errors in reports. -/
def ErrorKind.description : ErrorKind → String
  | invalidToken => "invalid token"
  | expectedToken => "expected token"
  | unexpectedEnd => "unexpected end of file"
  | expectedPackage => "expected package clause"
  | expectedDeclaration => "expected declaration"
  | expectedIdentifier => "expected identifier"
  | expectedType => "expected type"
  | mismatchedDelimiter => "mismatched delimiter"

namespace SyntaxFault

/-- The class of a breach. -/
def kind : SyntaxFault → ErrorKind
  | expectedPackage _ => .expectedPackage
  | lateImport => .expectedDeclaration
  | expectedDeclaration _ => .expectedDeclaration
  | expectedIdentifier _ => .expectedIdentifier
  | expectedField _ => .expectedIdentifier
  | expectedType _ => .expectedType
  | missingParamType _ => .expectedType
  | mixedParams => .expectedIdentifier
  | receiverCount _ => .expectedToken
  | expected _ found => if found = .endOfSource then .unexpectedEnd else .expectedToken
  | unclosedBracket _ => .unexpectedEnd
  | mismatchedBracket _ _ => .mismatchedDelimiter

/-- The wording of a breach. -/
def message : SyntaxFault → String
  | expectedPackage found => s!"expected 'package', found {found.description}"
  | lateImport => "imports must appear before other declarations"
  | expectedDeclaration found => s!"expected declaration, found {found.description}"
  | expectedIdentifier found => s!"expected identifier, found {found.description}"
  | expectedField found => s!"expected field name or embedded type, found {found.description}"
  | expectedType found => s!"expected type, found {found.description}"
  | missingParamType name => s!"missing type for parameter '{String.ofList name}'"
  | mixedParams => "mixed named and unnamed parameters"
  | receiverCount count => s!"method has {count} receivers, expected exactly one"
  | expected what found =>
    if found = .endOfSource then s!"expected {what.description}"
    else s!"expected {what.description}, found {found.description}"
  | unclosedBracket bracket => s!"unclosed delimiter, expected '{bracket.closer}'"
  | mismatchedBracket opened found => s!"expected '{opened.closer}', found '{found.closer}'"

end SyntaxFault

end GoTemplate
