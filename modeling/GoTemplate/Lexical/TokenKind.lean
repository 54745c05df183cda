import GoTemplate.Text.Basic

/-!
The kinds of Go tokens, with their fixed spellings, their names in messages, and the rule that
says after which of them a line end ends a statement.
-/

namespace GoTemplate

/-- The basic literals. -/
inductive Literal where
  | int | float | imaginary | rune | string | rawString
  deriving DecidableEq

/-- The name of a literal in messages. -/
def Literal.description : Literal → String
  | int => "integer literal"
  | float => "float literal"
  | imaginary => "imaginary literal"
  | rune => "rune literal"
  | string => "string literal"
  | rawString => "raw string literal"

/-- The reserved words. Predeclared names such as `int` and `nil` are not among them. -/
inductive Keyword where
  | «break» | case | chan | const | «continue» | default | defer | «else» | fallthrough | «for»
  | func | go | goto | «if» | «import» | interface | map | package | range | «return» | select
  | struct | switch | type | var
  deriving DecidableEq

namespace Keyword

/-- The keywords in alphabetical order. -/
def all : List Keyword :=
  [Keyword.break, case, chan, const, Keyword.continue, default, defer, Keyword.else, fallthrough,
    Keyword.for, func, go, goto, Keyword.if, Keyword.import, interface, map, package, range,
    Keyword.return, select, struct, switch, type, var]

/-- The spelling of a keyword. -/
def word : Keyword → String
  | «break» => "break"
  | case => "case"
  | chan => "chan"
  | const => "const"
  | «continue» => "continue"
  | default => "default"
  | defer => "defer"
  | «else» => "else"
  | fallthrough => "fallthrough"
  | «for» => "for"
  | func => "func"
  | go => "go"
  | goto => "goto"
  | «if» => "if"
  | «import» => "import"
  | interface => "interface"
  | map => "map"
  | package => "package"
  | range => "range"
  | «return» => "return"
  | select => "select"
  | struct => "struct"
  | switch => "switch"
  | type => "type"
  | var => "var"

theorem mem_all (k : Keyword) : k ∈ all := by cases k <;> decide

/-- The keyword that a word spells, if it is one. -/
def ofWord? (t : Text) : Option Keyword := all.find? fun k => k.word.toList == t

end Keyword

/-- The operators, including the ellipsis and the assignment and declaration signs. -/
inductive Operator where
  | add | sub | mul | quo | rem | and | or | xor | shl | shr | andNot
  | addAssign | subAssign | mulAssign | quoAssign | remAssign | andAssign | orAssign | xorAssign
  | shlAssign | shrAssign | andNotAssign
  | logicalAnd | logicalOr | arrow | increment | decrement
  | equal | less | greater | assign | not | tilde | notEqual | lessEqual | greaterEqual
  | define | ellipsis
  deriving DecidableEq

namespace Operator

/-- The operators, those with longer spellings first. -/
def longestFirst : List Operator :=
  [shlAssign, shrAssign, andNotAssign, ellipsis,
    shl, shr, andNot, addAssign, subAssign, mulAssign, quoAssign, remAssign, andAssign, orAssign,
    xorAssign, logicalAnd, logicalOr, arrow, increment, decrement, equal, notEqual, lessEqual,
    greaterEqual, define,
    add, sub, mul, quo, rem, and, or, xor, less, greater, assign, not, tilde]

/-- The spelling of an operator. -/
def symbol : Operator → String
  | add => "+"
  | sub => "-"
  | mul => "*"
  | quo => "/"
  | rem => "%"
  | and => "&"
  | or => "|"
  | xor => "^"
  | shl => "<<"
  | shr => ">>"
  | andNot => "&^"
  | addAssign => "+="
  | subAssign => "-="
  | mulAssign => "*="
  | quoAssign => "/="
  | remAssign => "%="
  | andAssign => "&="
  | orAssign => "|="
  | xorAssign => "^="
  | shlAssign => "<<="
  | shrAssign => ">>="
  | andNotAssign => "&^="
  | logicalAnd => "&&"
  | logicalOr => "||"
  | arrow => "<-"
  | increment => "++"
  | decrement => "--"
  | equal => "=="
  | less => "<"
  | greater => ">"
  | assign => "="
  | not => "!"
  | tilde => "~"
  | notEqual => "!="
  | lessEqual => "<="
  | greaterEqual => ">="
  | define => ":="
  | ellipsis => "..."

theorem mem_longestFirst (o : Operator) : o ∈ longestFirst := by cases o <;> decide

end Operator

/-- The three pairs of brackets. -/
inductive Bracket where
  | round | square | curly
  deriving DecidableEq

namespace Bracket

/-- The opening bracket. -/
def opener : Bracket → String
  | round => "("
  | square => "["
  | curly => "\x7b"

/-- The closing bracket. -/
def closer : Bracket → String
  | round => ")"
  | square => "]"
  | curly => "\x7d"

end Bracket

/-- The kinds of tokens. `invalid` is text that is no token, and `endOfSource` is what a reader
finds after the last token. -/
inductive TokenKind where
  | literal (l : Literal)
  | identifier
  | comment
  | keyword (k : Keyword)
  | operator (o : Operator)
  | opening (b : Bracket)
  | closing (b : Bracket)
  | comma
  | dot
  | semicolon
  | colon
  | endOfSource
  | invalid
  deriving DecidableEq

namespace TokenKind

/-- The one spelling of a kind that has only one. A semicolon may also be a line end. -/
def spelling? : TokenKind → Option String
  | keyword k => some k.word
  | operator o => some o.symbol
  | opening b => some b.opener
  | closing b => some b.closer
  | comma => some ","
  | dot => some "."
  | semicolon => some ";"
  | colon => some ":"
  | _ => none

/-- The name of a kind in messages: its spelling in quotes, where it has one. -/
def description : TokenKind → String
  | literal l => l.description
  | identifier => "identifier"
  | comment => "comment"
  | endOfSource => "end of file"
  | invalid => "error"
  | keyword k => s!"'{k.word}'"
  | operator o => s!"'{o.symbol}'"
  | opening b => s!"'{b.opener}'"
  | closing b => s!"'{b.closer}'"
  | comma => "','"
  | dot => "'.'"
  | semicolon => "';'"
  | colon => "':'"

/-- Whether a line end after a token of this kind ends the statement: after an identifier or a
basic literal, after `break`, `continue`, `fallthrough` and `return`, after `++` and `--`, and
after a closing bracket. -/
def endsStatement : TokenKind → Bool
  | literal _ => true
  | identifier => true
  | keyword k => k = .break || k = .continue || k = .fallthrough || k = .return
  | operator o => o = .increment || o = .decrement
  | closing _ => true
  | _ => false

/-- The classes of tokens. Identifiers count as literals. -/
inductive Class where
  | keyword | literal | operator | delimiter
  deriving DecidableEq

/-- The class of a kind. Comments, invalid text and the end of the source have none. -/
def class? : TokenKind → Option Class
  | .keyword _ => some .keyword
  | .literal _ => some .literal
  | .identifier => some .literal
  | .operator _ => some .operator
  | .opening _ => some .delimiter
  | .closing _ => some .delimiter
  | .comma => some .delimiter
  | .dot => some .delimiter
  | .semicolon => some .delimiter
  | .colon => some .delimiter
  | .comment => none
  | .endOfSource => none
  | .invalid => none

/-- The kinds spelled with other characters than letters, every kind before those that spell a
beginning of it. -/
def symbols : List TokenKind :=
  Operator.longestFirst.map operator ++
    [opening .round, closing .round, opening .square, closing .square, opening .curly,
      closing .curly, comma, dot, semicolon, colon]

end TokenKind

end GoTemplate
