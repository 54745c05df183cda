import GoTemplate.Syntax.GoType

/-!
Declarations of a Go source file. The bodies of functions and the values of constants and
variables are not kept: only that they are there.
-/

namespace GoTemplate

/-- Type parameters with a common constraint. -/
structure TypeParam where
  names : List Identifier
  constraint : List (Term GoType)

/-- One import. The name may be a dot; the path is kept with its quotes. -/
structure ImportSpec where
  name : Option Identifier
  path : Text
  span : Span

/-- One type declaration; an alias is written with `=`. -/
structure TypeSpec where
  name : Identifier
  typeParams : List TypeParam
  isAlias : Bool
  type : GoType
  span : Span

/-- Constants or variables that are declared together. -/
structure ValueSpec where
  names : List Identifier
  type : Option GoType
  hasValues : Bool
  span : Span

/-- The declarations after one keyword: one alone, or any number in round brackets. -/
structure SpecGroup (α : Type) where
  grouped : Bool
  specs : List α
  span : Span

/-- A function, or with a receiver a method. -/
structure FuncDecl where
  receiver : Option (Param GoType)
  name : Identifier
  typeParams : List TypeParam
  signature : Signature GoType
  hasBody : Bool
  span : Span

/-- A declaration at the top of a source file. -/
inductive Declaration where
  | imports (group : SpecGroup ImportSpec)
  | consts (group : SpecGroup ValueSpec)
  | vars (group : SpecGroup ValueSpec)
  | types (group : SpecGroup TypeSpec)
  | func (decl : FuncDecl)

/-- A source file. -/
structure SourceFile where
  package : Identifier
  declarations : List Declaration
  span : Span

namespace SourceFile

/-- The imports in the order of the source. -/
def imports (file : SourceFile) : List ImportSpec :=
  file.declarations.flatMap fun
    | .imports group => group.specs
    | _ => []

/-- The declared types in the order of the source. -/
def typeSpecs (file : SourceFile) : List TypeSpec :=
  file.declarations.flatMap fun
    | .types group => group.specs
    | _ => []

/-- The functions and methods in the order of the source. -/
def funcs (file : SourceFile) : List FuncDecl :=
  file.declarations.flatMap fun
    | .func decl => [decl]
    | _ => []

end SourceFile

end GoTemplate
