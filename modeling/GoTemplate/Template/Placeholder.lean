import GoTemplate.Syntax.Declaration
import GoTemplate.TypeSet.Basic

/-!
The placeholders that a template declares, and whether a type set has a type for each.
-/

namespace GoTemplate

/-- The package of which every member marks a placeholder. -/
def genericPackage : Text := "generic".toList

/-- Whether a declared type is a placeholder: its type is a member of the generic package. -/
def TypeSpec.isPlaceholder (spec : TypeSpec) : Bool :=
  spec.type.qualifiedName?.any (·.1 == genericPackage)

/-- The placeholders of a template in the order of their first declarations, each once. -/
def SourceFile.placeholders (file : SourceFile) : List Text :=
  ((file.typeSpecs.filter TypeSpec.isPlaceholder).map (·.name.name)).eraseDups

/-- The first placeholder of a template for which a set has no type. -/
def SourceFile.missingPlaceholder? (file : SourceFile) (types : TypeSet) : Option Text :=
  file.placeholders.find? fun placeholder => !types.contains placeholder

end GoTemplate
