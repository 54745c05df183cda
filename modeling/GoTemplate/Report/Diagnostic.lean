import GoTemplate.Syntax.Source
import GoTemplate.Text.Lines

/-!
Errors in a source as they are shown: on one line, or below each other with the line of the source
that each concerns.
-/

namespace GoTemplate

/-- An error to be shown. -/
structure Diagnostic where
  kind : ErrorKind
  span : Span
  message : String
  deriving DecidableEq

namespace Diagnostic

/-- The error on one line. -/
def summary (d : Diagnostic) : String :=
  if d.message.isEmpty then s!"{d.span.render}: {d.kind.description}"
  else s!"{d.span.render}: {d.kind.description}: {d.message}"

/-- A line number, at least three places wide. -/
def lineNumber (line : Nat) : Text :=
  let digits := Text.ofNat line
  List.replicate (3 - digits.length) ' ' ++ digits

/-- The marks under a span: a caret and tildes, one mark for each byte. -/
def underline (span : Span) : Text :=
  List.replicate (span.col - 1) ' ' ++ '^' :: List.replicate (span.length - 1) '~'

/-- The line of the source at which a span starts, with the marks below it. -/
def excerpt (source : Text) (span : Span) : List Text :=
  match if span.line = 0 then none else (Text.lines source)[span.line - 1]? with
  | some line =>
    ["  |".toList, lineNumber span.line ++ " | ".toList ++ line,
      "  | ".toList ++ underline span]
  | none => []

/-- The error as rows of text, with the line of the source that it concerns, if there is one. -/
def rows (source : Text) (d : Diagnostic) : List Text :=
  s!"error at {d.span.render}: {d.kind.description}".toList ::
    (if d.message.isEmpty then [] else [s!"  {d.message}".toList]) ++ excerpt source d.span

/-- The error with the line of the source that it concerns. -/
def render (source : Text) (d : Diagnostic) : Text :=
  (d.rows source).flatMap (· ++ ['\n'])

/-- Any number of errors in one text: a single one stands on one line, and more than one are
numbered. -/
def summarize : List Diagnostic → String
  | [] => "no errors"
  | [d] => d.summary
  | ds => s!"{ds.length} errors:\n" ++
      String.join (ds.mapIdx fun i d => s!"  {i + 1}: {d.summary}\n")

end Diagnostic

/-- A fault in the text of a token as it is shown. -/
def LexicalError.diagnostic (e : LexicalError) : Diagnostic :=
  ⟨.invalidToken, e.span, e.fault.message⟩

/-- A breach of the grammar as it is shown. -/
def SyntaxError.diagnostic (e : SyntaxError) : Diagnostic :=
  ⟨e.fault.kind, e.span, e.fault.message⟩

/-- What is shown of a rejected source. -/
def Rejection.diagnostics : Rejection → List Diagnostic
  | .lexical errors => errors.map LexicalError.diagnostic
  | .syntactic error => [error.diagnostic]

end GoTemplate
