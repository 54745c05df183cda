import GoTemplate.Syntax.GoType.Params
import GoTemplate.Syntax.Parser

/-!
The grammar of types. Each form of a type is read by a function of the reader of the types within
it; `Parser.goType` ties the knot.
-/

namespace GoTemplate.Parser

/-! ## Forms of types, given the reader of the types within them -/

section

variable (type : Parser GoType)

/-- The arguments of a generic type, with their brackets. -/
def typeArgs : Parser (List GoType) := do
  let _ ← expect (.opening .square)
  let args ← commaList? (.closing .square) type
  let _ ← expect (.closing .square)
  return args

/-- A point and the name of a member of a package, if there is a point. -/
def memberName : Parser (Option Identifier) := do
  if ← eat .dot then some <$> identifier else return none

/-- A name, perhaps of a package before it and with type arguments after it. -/
def namedType : Parser GoType := do
  let first ← identifier
  let second ← memberName
  let args ← ifNext (.opening .square) (typeArgs type) []
  let span ← spanFrom first.span
  match second with
  | some name => return .named (some first) name args span
  | none => return .named none first args span

/-- How an entry of a parameter list begins. -/
inductive EntryForm where
  | ellipsis | bareName | type | nameAndType

/-- The form of the entry at a place. A name before a type is told from a type by the token after
the name, and where that opens square brackets, by the token after them: `xs []int` has a name,
and `List[int]` is a type. -/
def entryForm (c : Cursor) : EntryForm :=
  match c.kind with
  | .operator .ellipsis => .ellipsis
  | .identifier =>
    match c.kindAt 1 with
    | .comma | .closing .round => .bareName
    | .dot => .type
    | .opening .square =>
      match Brackets.kindAfter 0 (c.rest.drop 1) with
      | .comma | .closing .round => .type
      | _ => .nameAndType
    | _ => .nameAndType
  | _ => .type

/-- What stands between two commas of a parameter list. -/
def paramEntry : Parser ParamEntry := do
  match ← look entryForm with
  | .ellipsis =>
    let _ ← take
    return .unnamed (← type) true
  | .bareName => return .bare (← identifier)
  | .type => return .unnamed (← type) false
  | .nameAndType =>
    let name ← identifier
    let variadic ← eat (.operator .ellipsis)
    return .named name (← type) variadic

/-- A parameter list with its brackets. -/
def params : Parser (List (Param GoType)) := do
  let opened ← expect (.opening .round)
  let entries ← commaList? (.closing .round) (paramEntry type)
  let _ ← expect (.closing .round)
  ParamEntry.resolve opened.span entries

/-- The results of a function: a list in round brackets, one type without them, or nothing. -/
def results : Parser (List (Param GoType)) := do
  match ← kind with
  | .opening .round => params type
  | .identifier | .operator .mul | .opening .square | .keyword .map | .keyword .chan
  | .operator .arrow | .keyword .func | .keyword .struct | .keyword .interface =>
    return [⟨none, ← type, false⟩]
  | _ => return []

/-- Parameters and results. -/
def signature : Parser (Signature GoType) := do
  let start ← here
  let params ← params type
  let results ← results type
  return ⟨params, results, ← spanFrom start⟩

/-- A term of a union. -/
def term : Parser (Term GoType) := do
  let tilde ← eat (.operator .tilde)
  return ⟨tilde, ← type⟩

/-- A union of terms. -/
def constraint : Parser (List (Term GoType)) := sepBy (.operator .or) (term type)

/-- Whether a token of the kind `k` may follow the type of an embedded field. -/
def endsField (k : TokenKind) : Bool :=
  k = .semicolon || k = .closing .curly || k = .literal .string || k = .literal .rawString

/-- Whether the field of a struct type at a place is an embedded type. A field without names is
told from one with names by what follows its first name. -/
def isEmbeddedField (c : Cursor) : Bool :=
  c.kind = .operator .mul ||
    match c.kindAt 1 with
    | .dot => true
    | .opening .square => endsField (Brackets.kindAfter 0 (c.rest.drop 1))
    | k => endsField k

/-- The tag after the type of a field, if there is one. -/
def tag : Parser (Option Text) := do
  match ← kind with
  | .literal .string | .literal .rawString => return some (← take).lexeme
  | _ => return none

/-- The names of a field, none where it is an embedded type. -/
def fieldNames : Parser (List Identifier) := do
  if ← look isEmbeddedField then return [] else sepBy .comma identifier

/-- Reject a token that neither starts an embedded type nor is the name of a field. -/
def fieldStart : Parser Unit := do
  match ← kind with
  | .operator .mul | .identifier => return
  | _ => reject .expectedField

/-- A line of a struct type. -/
def field : Parser (Field GoType) := do
  fieldStart
  let names ← fieldNames
  let fieldType ← type
  return ⟨names, fieldType, ← tag⟩

/-- A struct type. -/
def structType : Parser GoType := do
  let keyword ← expect (.keyword .struct)
  let _ ← expect (.opening .curly)
  let fields ← statements (.closing .curly) (field type)
  let _ ← expect (.closing .curly)
  return .struct fields (← spanFrom keyword.span)

/-- A line of an interface type: a name before an opening round bracket is that of a method. -/
def interfaceElement : Parser (InterfaceElement GoType) := do
  if (← kind) = .identifier && (← kindAt 1) = .opening .round then
    let name ← identifier
    return .method name (← signature type)
  else return .union (← constraint type)

/-- An interface type. -/
def interfaceType : Parser GoType := do
  let keyword ← expect (.keyword .interface)
  let _ ← expect (.opening .curly)
  let elements ← statements (.closing .curly) (interfaceElement type)
  let _ ← expect (.closing .curly)
  return .interface elements (← spanFrom keyword.span)

/-- The length of an array. -/
def arrayLength : Parser Text := do
  if (← kind) = .operator .ellipsis then return (← take).lexeme else expression fun _ => false

/-- The type of a slice or an array, after its opening bracket. -/
def sequenceType (start : Span) : Parser GoType := do
  if ← eat (.closing .square) then
    let elem ← type
    return .slice elem (← spanFrom start)
  else
    let length ← arrayLength
    let _ ← expect (.closing .square)
    let elem ← type
    return .array length elem (← spanFrom start)

/-- A type of any form. -/
def typeForm : Parser GoType := do
  let start ← here
  match ← kind with
  | .identifier => namedType type
  | .operator .mul =>
    let _ ← take
    let elem ← type
    return .pointer elem (← spanFrom start)
  | .opening .square =>
    let _ ← take
    sequenceType type start
  | .keyword .map =>
    let _ ← take
    let _ ← expect (.opening .square)
    let key ← type
    let _ ← expect (.closing .square)
    let value ← type
    return .map key value (← spanFrom start)
  | .keyword .chan =>
    let _ ← take
    let sends ← eat (.operator .arrow)
    let elem ← type
    return .chan (if sends then .send else .both) elem (← spanFrom start)
  | .operator .arrow =>
    let _ ← take
    let _ ← expect (.keyword .chan)
    let elem ← type
    return .chan .receive elem (← spanFrom start)
  | .keyword .func =>
    let _ ← take
    return .func (← signature type)
  | .keyword .struct => structType type
  | .keyword .interface => interfaceType type
  | .opening .round =>
    let _ ← take
    let inner ← type
    let _ ← expect (.closing .round)
    return .paren inner (← spanFrom start)
  | _ => reject .expectedType

end

/-! ## Types -/

/-- A type. The types within it start after its first token, so that they are read from fewer
tokens. -/
def goType (c : Cursor) : Except SyntaxError (GoType × Cursor) :=
  typeForm
    (fun inner =>
      if _h : inner.rest.length < c.rest.length then goType inner
      else .error ⟨.expectedType inner.kind, inner.current.span⟩)
    c
  termination_by c.rest.length

end GoTemplate.Parser
