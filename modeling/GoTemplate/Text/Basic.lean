/-!
Text as a list of characters, with the searches and cuts that the library needs beyond those of
`List`. Sizes and columns are counted in bytes of UTF-8.
-/

namespace GoTemplate

/-- A text is the list of its characters. -/
abbrev Text := List Char

namespace Text

/-- The number of bytes of the text in UTF-8. -/
def byteSize : Text → Nat
  | [] => 0
  | c :: t => c.utf8Size + byteSize t

/-- Whether `needle` occurs in the text. The empty text occurs in every text. -/
def occursIn (needle : Text) : Text → Bool
  | [] => needle.isEmpty
  | c :: t => needle.isPrefixOf (c :: t) || occursIn needle t

/-- The text with every occurrence of `old` replaced by `new`, the occurrences being taken from
the left and without overlap. An empty `old` is not replaced anywhere. -/
def replaceAll (old new : Text) : Text → Text
  | [] => []
  | c :: t =>
    if old ≠ [] ∧ old.isPrefixOf (c :: t) then
      new ++ replaceAll old new (t.drop (old.length - 1))
    else c :: replaceAll old new t
  termination_by t => t.length
  decreasing_by all_goals simp only [List.length_drop, List.length_cons]; omega

/-- The pieces between the characters that satisfy `p`, empty ones included. A text without such
a character is its own only piece. -/
def splitWhere (p : Char → Bool) : Text → List Text
  | [] => [[]]
  | c :: t =>
    if p c then [] :: splitWhere p t
    else match splitWhere p t with
      | piece :: pieces => (c :: piece) :: pieces
      | [] => [[c]]

/-- The pieces between the occurrences of a character. -/
def splitAt (separator : Char) (t : Text) : List Text := splitWhere (· == separator) t

/-- The text without its longest end that consists of characters satisfying `p`. -/
def dropEndWhile (p : Char → Bool) (t : Text) : Text := (t.reverse.dropWhile p).reverse

/-- The texts in order with one space between neighbours. -/
def joinWithSpaces (texts : List Text) : Text := [' '].intercalate texts

/-- The decimal digits of a number. -/
def ofNat (n : Nat) : Text := (toString n).toList

end Text

end GoTemplate
