import GoTemplate.Syntax.Fault
import GoTemplate.Syntax.GoType

/-!
Parameter lists. A single name between commas may be the name of a parameter, whose type comes
later in the list, or a type. Which it is shows only in the list as a whole.
-/

namespace GoTemplate

/-- What stands between two commas of a parameter list. -/
inductive ParamEntry where
  | bare (name : Identifier)
  | unnamed (type : GoType) (variadic : Bool)
  | named (name : Identifier) (type : GoType) (variadic : Bool)

namespace ParamEntry

/-- Whether the entry has both a name and a type. -/
def isNamed : ParamEntry → Bool
  | named .. => true
  | _ => false

/-- The entry as an unnamed parameter: a single name is a type. -/
def toUnnamed : ParamEntry → Param GoType
  | bare name => ⟨none, .named none name [] name.span, false⟩
  | unnamed type variadic => ⟨none, type, variadic⟩
  | named _ type variadic => ⟨none, type, variadic⟩

/-- The entries as named parameters, and the type of the first entry that has one. A single name
takes the type of the next entry that has one. -/
def toNamed (opened : Span) :
    List ParamEntry → Except SyntaxError (List (Param GoType) × Option GoType)
  | [] => .ok ([], none)
  | entry :: entries => do
    let (params, next) ← toNamed opened entries
    match entry, next with
    | named name type variadic, _ => return (⟨some name, type, variadic⟩ :: params, some type)
    | bare name, some type => return (⟨some name, type, false⟩ :: params, some type)
    | bare name, none => throw ⟨.missingParamType name.name, name.span⟩
    | unnamed .., _ => throw ⟨.mixedParams, opened⟩

/-- The parameters that the entries of a list mean. Where one entry has both a name and a type,
all parameters are named. `opened` is the span of the opening bracket. -/
def resolve (opened : Span) (entries : List ParamEntry) :
    Except SyntaxError (List (Param GoType)) :=
  if entries.any isNamed then (toNamed opened entries).map (·.1)
  else .ok (entries.map toUnnamed)

end ParamEntry

end GoTemplate
