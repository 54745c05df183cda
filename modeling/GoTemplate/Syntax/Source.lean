import GoTemplate.Syntax.Declaration.Parser

/-!
Reading a whole source as a source file or as a type.
-/

namespace GoTemplate

/-- Why a source is not what it should be: all the text in it that is no token, or else the first
breach of the grammar. -/
inductive Rejection where
  | lexical (errors : List LexicalError)
  | syntactic (error : SyntaxError)

/-- What a reader of syntax makes of a whole source. The grammar is not looked at where some of
the text is no token. -/
def readSource {α : Type} (parser : Parser α) (source : Text) : Except Rejection α :=
  let run := (Lexer.ofSource .statements source).run
  match run.after.errors with
  | [] =>
    match parser (.ofRun run) with
    | .ok (a, _) => .ok a
    | .error error => .error (.syntactic error)
  | errors => .error (.lexical errors)

/-- The source file that a text is. -/
def SourceFile.parse (source : Text) : Except Rejection SourceFile :=
  readSource Parser.sourceFile source

/-- Whether a text is a source file of some kind can be computed. -/
theorem SourceFile.exists_parse_iff {source : Text} {p : SourceFile → Bool} :
    (∃ file, parse source = .ok file ∧ p file = true) ↔
      (parse source).toOption.any p = true := by
  cases parse source with
  | error e => simp [Except.toOption]
  | ok file => simp [Except.toOption]

/-- The type that a text is. -/
def GoType.parse (source : Text) : Except Rejection GoType :=
  readSource (do
    let type ← Parser.goType
    let _ ← Parser.eat .semicolon
    if (← Parser.kind) ≠ .endOfSource then Parser.unexpected .endOfType
    return type) source

end GoTemplate
