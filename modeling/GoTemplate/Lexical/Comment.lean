import GoTemplate.Lexical.Lexeme

/-!
Line comments and block comments.
-/

namespace GoTemplate.Comment

/-- The text up to the end of its line, and the rest. The line end is a line feed or a carriage
return before one, and belongs to the rest. -/
def splitLine : Text → Text × Text
  | [] => ([], [])
  | '\n' :: t => ([], '\n' :: t)
  | '\r' :: '\n' :: t => ([], '\r' :: '\n' :: t)
  | c :: t => (c :: (splitLine t).1, (splitLine t).2)

/-- The text up to and including the first `*/`, and the rest. -/
def splitClose? : Text → Option (Text × Text)
  | [] => none
  | '*' :: '/' :: t => some (['*', '/'], t)
  | c :: t => (splitClose? t).map fun (body, rest) => (c :: body, rest)

/-- A line comment, after its `//`. -/
def line (t : Text) : Lexeme :=
  ⟨.ok .comment, '/' :: '/' :: (splitLine t).1, (splitLine t).2⟩

/-- A block comment, after its opening. Block comments do not nest. -/
def block (t : Text) : Lexeme :=
  match splitClose? t with
  | some (body, rest) => ⟨.ok .comment, '/' :: '*' :: body, rest⟩
  | none => ⟨.error .unterminatedComment, '/' :: '*' :: t, []⟩

/-- Whether the line ends before any further token on it, as far as one comment can tell: the
text or its line is at an end, or a comment follows that reaches the end of the line or goes
beyond it. -/
def lineEnds : Text → Bool
  | [] => true
  | '\n' :: _ => true
  | '/' :: '/' :: _ => true
  | '/' :: '*' :: t =>
    match splitClose? t with
    | some (body, _) => body.contains '\n'
    | none => true
  | _ => false

theorem splitLine_append (t : Text) : (splitLine t).1 ++ (splitLine t).2 = t := by
  fun_induction splitLine t <;> simp_all

theorem splitClose?_append {t body rest : Text} (h : splitClose? t = some (body, rest)) :
    body ++ rest = t := by
  fun_induction splitClose? t generalizing body with
  | case1 => simp at h
  | case2 t =>
    simp only [Option.some.injEq, Prod.mk.injEq] at h
    obtain ⟨rfl, rfl⟩ := h
    rfl
  | case3 c t _ ih =>
    obtain ⟨⟨inner, _⟩, hInner, hPair⟩ := Option.map_eq_some_iff.1 h
    simp only [Prod.mk.injEq] at hPair
    obtain ⟨rfl, rfl⟩ := hPair
    simp [ih hInner]

theorem source_line (t : Text) : (line t).source = '/' :: '/' :: t := by
  simp [line, Lexeme.source, splitLine_append]

theorem source_block (t : Text) : (block t).source = '/' :: '*' :: t := by
  unfold block
  split
  · rename_i hSplit
    simp [Lexeme.source, splitClose?_append hSplit]
  · simp [Lexeme.source]

end GoTemplate.Comment
