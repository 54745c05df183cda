import GoTemplate.Lexical.Lexeme

/-!
Interpreted strings, rune literals and raw strings.
-/

namespace GoTemplate.Quoted

/-- The rest of a literal up to its closing `quote`. A backslash takes the next character with
it. The literal stays open at the end of the line and at the end of the text, neither of which
belongs to it. -/
def body (kind : Literal) (fault : LexicalFault) (quote : Char) : Text → Lexeme
  | [] => ⟨.error fault, [], []⟩
  | [c] =>
    if c = '\n' then ⟨.error fault, [], [c]⟩
    else if c = quote then ⟨.ok (.literal kind), [c], []⟩
    else ⟨.error fault, [c], []⟩
  | c :: d :: t =>
    if c = '\n' then ⟨.error fault, [], c :: d :: t⟩
    else if c = quote then ⟨.ok (.literal kind), [c], d :: t⟩
    else if c = '\\' ∧ d ≠ '\n' then (body kind fault quote t).prepend [c, d]
    else (body kind fault quote (d :: t)).prepend [c]

/-- The rest of a raw string up to its closing back quote; it may hold any other character. -/
def rawBody : Text → Lexeme
  | [] => ⟨.error .unterminatedRawString, [], []⟩
  | c :: t =>
    if c = '`' then ⟨.ok (.literal .rawString), [c], t⟩
    else (rawBody t).prepend [c]

/-- An interpreted string, after its opening quote. -/
def string (t : Text) : Lexeme :=
  (body .string .unterminatedString '"' t).prepend ['"']

/-- A rune literal, after its opening quote. Its length is not checked. -/
def rune (t : Text) : Lexeme :=
  (body .rune .unterminatedRune '\'' t).prepend ['\'']

/-- A raw string, after its opening quote. -/
def rawString (t : Text) : Lexeme := (rawBody t).prepend ['`']

theorem source_body (kind : Literal) (fault : LexicalFault) (quote : Char) (t : Text) :
    (body kind fault quote t).source = t := by
  fun_induction body kind fault quote t <;> simp_all [Lexeme.source]

theorem source_rawBody (t : Text) : (rawBody t).source = t := by
  fun_induction rawBody t <;> simp_all [Lexeme.source]

theorem source_string (t : Text) : (string t).source = '"' :: t := by
  rw [string, Lexeme.source_prepend, source_body]; rfl

theorem source_rune (t : Text) : (rune t).source = '\'' :: t := by
  rw [rune, Lexeme.source_prepend, source_body]; rfl

theorem source_rawString (t : Text) : (rawString t).source = '`' :: t := by
  rw [rawString, Lexeme.source_prepend, source_rawBody]; rfl

end GoTemplate.Quoted
