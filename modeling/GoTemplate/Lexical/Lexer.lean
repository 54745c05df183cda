import GoTemplate.Lexical.Scan
import GoTemplate.Lexical.Token

/-!
The reader of tokens. It skips blanks, keeps the place in the source, puts semicolons where a
line end ends a statement, and collects the faults it meets.
-/

namespace GoTemplate

/-- What a reader of tokens produces beyond the tokens that every reader produces. -/
structure LexerMode where
  /-- Comments are tokens; otherwise they are skipped. -/
  comments : Bool
  /-- A line end after a token that ends a statement is a semicolon. -/
  semicolons : Bool
  deriving DecidableEq

/-- Statements without comments, as a grammar reads them. -/
def LexerMode.statements : LexerMode := ⟨false, true⟩

/-- The tokens that stand in the text, comments included. -/
def LexerMode.verbatim : LexerMode := ⟨true, false⟩

/-- A reader in the middle of a source. -/
structure Lexer where
  mode : LexerMode
  position : Position
  rest : Text
  /-- Whether a semicolon is due if the line ends here. -/
  semicolonDue : Bool
  /-- The faults met so far and not yet taken, in the order of the source. -/
  errors : List LexicalError

namespace Lexer

/-- A reader at the start of a source. -/
def ofSource (mode : LexerMode) (source : Text) : Lexer := ⟨mode, .start, source, false, []⟩

/-- Whether `c` separates tokens without being part of any. -/
def isBlank (c : Char) : Bool := c == ' ' || c == '\t' || c == '\r' || c == '\n'

/-- The text between tokens at the front of `t`, and the rest: one byte order mark and then
blanks. Where a semicolon is due the blanks end before a line feed. -/
def splitGap (semicolonDue : Bool) (t : Text) : Text × Text :=
  let isGap := fun c => isBlank c && !(semicolonDue && c == '\n')
  match t with
  | '\uFEFF' :: t => ('\uFEFF' :: t.takeWhile isGap, t.dropWhile isGap)
  | t => (t.takeWhile isGap, t.dropWhile isGap)

/-- The reader after the stretch `text` of its source, with `rest` to come. -/
def moveOn (l : Lexer) (text rest : Text) : Lexer :=
  { l with position := l.position.after text, rest := rest }

/-- The reader at the end of the blanks. -/
def skipGap (l : Lexer) : Lexer :=
  l.moveOn (splitGap l.semicolonDue l.rest).1 (splitGap l.semicolonDue l.rest).2

/-- The automatic semicolon at the reader's place, and the reader after it. A line feed that
follows at once is used up by it. -/
def semicolon (l : Lexer) : Token × Lexer :=
  (⟨.semicolon, ['\n'], .startingAt l.position 0⟩,
    { l with
      position := if l.rest.head? = some '\n' then l.position.advance '\n' else l.position
      rest := if l.rest.head? = some '\n' then l.rest.tail else l.rest
      semicolonDue := false })

/-- The token that a lexeme is at the reader's place. -/
def token (l : Lexer) (lexeme : Lexeme) : Token :=
  { kind := match lexeme.reading with | .ok kind => kind | .error _ => .invalid
    lexeme := lexeme.text
    span := .startingAt l.position (Text.byteSize lexeme.text) }

/-- The reader after a lexeme. A fault is recorded and leaves open whether a semicolon is due,
as a comment does. -/
def accept (l : Lexer) (lexeme : Lexeme) : Lexer :=
  let next := l.moveOn lexeme.text lexeme.rest
  match lexeme.reading with
  | .ok .comment => next
  | .ok kind => { next with semicolonDue := l.mode.semicolons && kind.endsStatement }
  | .error fault => { next with errors := l.errors ++ [⟨fault, (l.token lexeme).span⟩] }

theorem splitGap_append (semicolonDue : Bool) (t : Text) :
    (splitGap semicolonDue t).1 ++ (splitGap semicolonDue t).2 = t := by
  unfold splitGap
  split <;> simp [List.takeWhile_append_dropWhile]

theorem skipGap_rest_length (l : Lexer) : l.skipGap.rest.length ≤ l.rest.length := by
  have hGap := congrArg List.length (splitGap_append l.semicolonDue l.rest)
  simp only [List.length_append] at hGap
  simp only [skipGap, moveOn]
  omega

@[simp] theorem accept_rest (l : Lexer) (lexeme : Lexeme) : (l.accept lexeme).rest = lexeme.rest := by
  unfold accept
  split <;> rfl

@[simp] theorem accept_mode (l : Lexer) (lexeme : Lexeme) : (l.accept lexeme).mode = l.mode := by
  unfold accept
  split <;> rfl

/-- The next token, and the reader after it. After the last token there is an end of source, any
number of times. -/
def next (l : Lexer) : Token × Lexer :=
  let here := l.skipGap
  if here.semicolonDue && Comment.lineEnds here.rest then here.semicolon
  else match _hRest : here.rest with
    | [] => (⟨.endOfSource, [], .startingAt here.position 0⟩, here)
    | c :: t =>
      let lexeme := Lexeme.scan c t
      if lexeme.reading matches .ok .comment && !l.mode.comments then
        (here.accept lexeme).next
      else (here.token lexeme, here.accept lexeme)
  termination_by l.rest.length
  decreasing_by
    have hGap := skipGap_rest_length l
    have hScan := Lexeme.rest_scan_length c t
    rw [accept_rest]
    rw [_hRest] at hGap
    simp only [List.length_cons] at hGap
    omega

/-- A bound on the number of tokens to come, which every token lowers: two for each character,
since a semicolon may follow it, and one for a semicolon that is due. -/
def size (l : Lexer) : Nat := 2 * l.rest.length + l.semicolonDue.toNat

private theorem size_accept_lt (l : Lexer) {c : Char} {t : Text} (hRest : l.skipGap.rest = c :: t) :
    (l.skipGap.accept (Lexeme.scan c t)).size < l.size := by
  have hGap := skipGap_rest_length l
  have hScan := Lexeme.rest_scan_length c t
  have hDue := Bool.toNat_le (l.skipGap.accept (Lexeme.scan c t)).semicolonDue
  simp only [hRest, List.length_cons] at hGap
  simp only [size, accept_rest]
  omega

private theorem size_semicolon_lt (l : Lexer) (hDue : l.skipGap.semicolonDue = true) :
    l.skipGap.semicolon.2.size < l.size := by
  have hGap := skipGap_rest_length l
  have hSame : l.semicolonDue = true := hDue
  simp only [semicolon, size, hSame, Bool.toNat_true, Bool.toNat_false]
  split
  · simp only [List.length_tail]
    omega
  · omega

/-- Every token but the end of the source brings the reader closer to its end. -/
theorem size_next_lt (l : Lexer) (h : l.next.1.kind ≠ .endOfSource) : l.next.2.size < l.size := by
  fun_induction next l with
  | case1 l here hSemicolon =>
    exact size_semicolon_lt l (by simp_all [here])
  | case2 => simp at h
  | case3 l here _ c t hRest lexeme hSkip ih =>
    exact Nat.lt_trans (ih h) (size_accept_lt l hRest)
  | case4 l here _ c t hRest lexeme hKeep => exact size_accept_lt l hRest

/-- All that a reader finds up to the end of its source: the tokens, the end itself, and the
reader after it. -/
structure Run where
  tokens : List Token
  stop : Token
  after : Lexer

/-- Read to the end of the source. -/
def run (l : Lexer) : Run :=
  match _hNext : l.next with
  | (token, after) =>
    if _hEnd : token.kind = .endOfSource then ⟨[], token, after⟩
    else
      let others := after.run
      { others with tokens := token :: others.tokens }
  termination_by l.size
  decreasing_by
    have hSize := size_next_lt l
    rw [_hNext] at hSize
    exact hSize _hEnd

/-- The faults met so far, and the reader without them. -/
def takeErrors (l : Lexer) : List LexicalError × Lexer := (l.errors, { l with errors := [] })

end Lexer

end GoTemplate
