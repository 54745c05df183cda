import GoTemplate.Template.Line
import GoTemplate.Text.Lines
import GoTemplate.TypeSet.Basic

/-!
The instance of a template for a type set, line by line.
-/

namespace GoTemplate.Template

/-- Text that marks the declaration of a placeholder. -/
def markers : List Text := ["generic.Type".toList, "generic.Number".toList]

/-- Whether a line declares a placeholder, as far as its text shows. -/
def isMarked (line : Text) : Bool := markers.any (·.occursIn line)

/-- A line with the types of a set in the place of their placeholders, one placeholder after the
other. A line that holds no placeholder stays as it is. -/
def instantiateLine (types : TypeSet) (line : Text) : Text :=
  types.entries.foldl
    (fun line (placeholder, type) =>
      if placeholder.occursIn line then Line.substitute placeholder type line else line) line

/-- The lines of an instance. Marked lines are left out, and so is a comment line directly before
a marked line or at the very end. `held` is a comment line that waits for the line after it. -/
def instantiateLines (types : TypeSet) : (held : Option Text) → List Text → List Text
  | _, [] => []
  | held, line :: rest =>
    if isMarked line then instantiateLines types none rest
    else
      let line := instantiateLine types line
      held.toList ++
        if "//".toList.isPrefixOf line then instantiateLines types (some line) rest
        else line :: instantiateLines types none rest

/-- The text of a template's instance for a type set. -/
def instantiate (types : TypeSet) (source : Text) : Text :=
  (instantiateLines types none source.lines).flatMap Text.asLine

end GoTemplate.Template
