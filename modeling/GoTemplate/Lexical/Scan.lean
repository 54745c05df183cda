import GoTemplate.Lexical.Comment
import GoTemplate.Lexical.Numeral
import GoTemplate.Lexical.Quoted
import GoTemplate.Unicode.Alphabetic
import GoTemplate.Unicode.Numeric

/-!
The token at the front of a text. The main statements say that scanning cuts the text in two
without changing it, and that it always takes a character at least.
-/

namespace GoTemplate

/-- Whether an identifier may start with `c`. -/
def isIdentifierStart (c : Char) : Bool := c == '_' || Unicode.isAlphabetic c

/-- Whether `c` may stand in an identifier after its first character. -/
def isIdentifierPart (c : Char) : Bool := isIdentifierStart c || Unicode.isNumeric c

namespace Lexeme

/-- The identifier or keyword that starts with `c`. -/
def word (c : Char) (t : Text) : Lexeme :=
  let word := c :: t.takeWhile isIdentifierPart
  ⟨.ok (match Keyword.ofWord? word with | some k => .keyword k | none => .identifier), word,
    t.dropWhile isIdentifierPart⟩

/-- The symbols with their kinds, in the order in which they are tried. -/
def symbolTable : List (Text × TokenKind) :=
  TokenKind.symbols.filterMap fun kind => kind.spelling?.map (·.toList, kind)

/-- The longest symbol that starts with `c`; a character that starts none is taken alone. -/
def symbol (c : Char) (t : Text) : Lexeme :=
  match symbolTable.find? fun (spelling, _) => spelling.isPrefixOf (c :: t) with
  | some (spelling, kind) =>
    ⟨.ok kind, c :: t.take (spelling.length - 1), t.drop (spelling.length - 1)⟩
  | none => ⟨.error (.unexpectedCharacter c), [c], t⟩

/-- The token, or the fault, at the front of a text whose first character is `c`. -/
def scan (c : Char) (t : Text) : Lexeme :=
  match c, t with
  | '/', '/' :: t => Comment.line t
  | '/', '*' :: t => Comment.block t
  | '"', t => Quoted.string t
  | '`', t => Quoted.rawString t
  | '\'', t => Quoted.rune t
  | c, t =>
    if c.isDigit || (c == '.' && (t.head?.any Char.isDigit)) then Numeral.scan (c :: t)
    else if isIdentifierStart c then word c t
    else symbol c t

theorem source_word (c : Char) (t : Text) : (word c t).source = c :: t := by
  simp [word, source, List.takeWhile_append_dropWhile]

theorem source_symbol (c : Char) (t : Text) : (symbol c t).source = c :: t := by
  unfold symbol
  split <;> simp [source]

/-- Scanning cuts the text in two. -/
theorem source_scan (c : Char) (t : Text) : (scan c t).source = c :: t := by
  unfold scan
  split
  · exact Comment.source_line _
  · exact Comment.source_block _
  · exact Quoted.source_string _
  · exact Quoted.source_rawString _
  · exact Quoted.source_rune _
  · split
    · exact Numeral.source_scan _
    · split
      · exact source_word _ _
      · exact source_symbol _ _

/-- Scanning takes a character at least. -/
theorem text_scan_ne_nil (c : Char) (t : Text) : (scan c t).text ≠ [] := by
  unfold scan
  split
  · simp [Comment.line]
  · unfold Comment.block
    split <;> simp
  · simp [Quoted.string]
  · simp [Quoted.rawString]
  · simp [Quoted.rune]
  · split
    · exact Numeral.text_scan_ne_nil ‹_›
    · split
      · simp [word]
      · unfold symbol
        split <;> simp

/-- The text that scanning takes starts with the character. -/
theorem exists_text_scan (c : Char) (t : Text) :
    ∃ u, (scan c t).text = c :: u ∧ u ++ (scan c t).rest = t := by
  have hSource := source_scan c t
  obtain ⟨d, u, hText⟩ := List.exists_cons_of_ne_nil (text_scan_ne_nil c t)
  rw [source, hText] at hSource
  obtain ⟨rfl, hRest⟩ : d = c ∧ u ++ (scan c t).rest = t := List.cons_eq_cons.1 hSource
  exact ⟨u, hText, hRest⟩

theorem rest_scan_length (c : Char) (t : Text) : (scan c t).rest.length ≤ t.length := by
  have hSource := congrArg List.length (source_scan c t)
  have hText := List.length_pos_iff.2 (text_scan_ne_nil c t)
  simp only [source, List.length_append, List.length_cons] at hSource
  omega

end Lexeme

end GoTemplate
