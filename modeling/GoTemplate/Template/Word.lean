import GoTemplate.Text.Basic
import GoTemplate.Unicode.CaseMapping
import GoTemplate.Unicode.Uppercase

/-!
Words, and how a specific type takes the place of a placeholder within one.
-/

namespace GoTemplate.Word

/-- Whether a word is exported: it starts with an upper-case letter. -/
def isExported (word : Text) : Bool := word.head?.any Unicode.isUppercase

/-- What remains of a type within a word: pointer and address signs before it, curly brackets
after it and all points go. -/
def bare (type : Text) : Text :=
  ((Text.dropEndWhile (fun c => c == '\x7b' || c == '\x7d') type).dropWhile
    fun c => c == '*' || c == '&').filter (· ≠ '.')

/-- The word with its first letter mapped. -/
def mapFirst (f : Char → Text) : Text → Text
  | [] => []
  | c :: t => f c ++ t

/-- A type as part of an exported or an unexported word. -/
def ofType (type : Text) (exported : Bool) : Text :=
  mapFirst (if exported then Unicode.toUpper else Unicode.toLower) (bare type)

/-- A word with a type in the place of a placeholder. A word that is the placeholder becomes the
type as it is given. Within a longer word every occurrence becomes the type in exported form; but
an unexported word that would now start with that form starts with the unexported form. -/
def substitute (placeholder type word : Text) : Text :=
  if word = placeholder then type
  else if placeholder = [] ∨ ¬placeholder.occursIn word then word
  else
    let exported := ofType type true
    let result := Text.replaceAll placeholder exported word
    if exported ≠ [] ∧ exported.isPrefixOf result ∧ ¬isExported word then
      ofType type false ++ result.drop exported.length
    else result

end GoTemplate.Word
