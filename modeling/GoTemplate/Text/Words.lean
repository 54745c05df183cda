import GoTemplate.Text.Basic
import GoTemplate.Unicode.WhiteSpace

/-!
Words of a text: its longest runs without Unicode white space.
-/

namespace GoTemplate.Text

/-- The words of a text in order. None is empty. -/
def words (t : Text) : List Text := (splitWhere Unicode.isWhiteSpace t).filter (· ≠ [])

end GoTemplate.Text
