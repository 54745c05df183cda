import GoTemplate.Syntax.Declaration
import GoTemplate.Syntax.GoType.Parser

/-!
The grammar of source files: a package clause, then imports, then the other declarations.
-/

namespace GoTemplate.Parser

/-- Type parameters with a common constraint. -/
def typeParam : Parser TypeParam := do
  let names ← sepBy .comma identifier
  return ⟨names, ← constraint goType⟩

/-- A list of type parameters with its brackets. -/
def typeParams : Parser (List TypeParam) := do
  let _ ← expect (.opening .square)
  let params ← commaList (.closing .square) typeParam
  let _ ← expect (.closing .square)
  return params

/-- Whether a token of the kind `k` can start a type and cannot start an operand. -/
def startsTypeLiteral (k : TokenKind) : Bool :=
  k = .opening .square || k = .keyword .struct || k = .keyword .func || k = .keyword .interface ||
    k = .keyword .map || k = .keyword .chan || k = .operator .arrow || k = .operator .tilde

/-- Whether the square bracket after the name of a declared type opens type parameters, rather
than the length of an array. `[N]` and `[pkg.N]` are lengths, and `[T any]` and `[K, V any]` are
type parameters. `[P *C]` is a length, unless `C` can only be a type or there is a comma. -/
def opensTypeParams (c : Cursor) : Bool :=
  c.kindAt 0 = .opening .square && c.kindAt 1 = .identifier &&
    match c.kindAt 2 with
    | .operator .mul => startsTypeLiteral (c.kindAt 3) || Brackets.hasComma 0 (c.rest.drop 1)
    | .identifier | .comma | .operator .tilde | .opening .square | .opening .round
    | .keyword .interface | .keyword .func | .keyword .map | .keyword .chan | .keyword .struct
    | .operator .arrow => true
    | _ => false

/-- The name of an import, or the dot in its place, if there is one of them. -/
def importName : Parser (Option Identifier) := do
  match ← kind with
  | .identifier => some <$> identifier
  | .dot =>
    let dot ← take
    return some ⟨dot.lexeme, dot.span⟩
  | _ => return none

/-- An import: perhaps a name or a dot, and a path. -/
def importSpec : Parser ImportSpec := do
  let start ← here
  let name ← importName
  match ← kind with
  | .literal .string | .literal .rawString =>
    let path ← take
    return ⟨name, path.lexeme, ← spanFrom start⟩
  | _ => unexpected .importPath

/-- The type parameters of a declared type, if it has any. -/
def specTypeParams : Parser (List TypeParam) := do
  if ← look opensTypeParams then typeParams else return []

/-- The declaration of a type, after the keyword. -/
def typeSpec : Parser TypeSpec := do
  let name ← identifier
  let params ← specTypeParams
  let isAlias ← eat (.operator .assign)
  let type ← goType
  return ⟨name, params, isAlias, type, ← spanFrom name.span⟩

/-- The type of constants or variables, unless the next token shows that there is none. -/
def valueType : Parser (Option GoType) := do
  match ← kind with
  | .operator .assign | .semicolon | .closing .round | .endOfSource => return none
  | _ => some <$> goType

/-- The values of constants or variables, if there are any, and whether there are. They are an
expression up to the end of the statement. -/
def values : Parser Bool := do
  if ← eat (.operator .assign) then
    let _ ← expression (· = .semicolon)
    return true
  else return false

/-- The declaration of constants or variables, after the keyword. -/
def valueSpec : Parser ValueSpec := do
  let start ← here
  let names ← sepBy .comma identifier
  let type ← valueType
  let hasValues ← values
  return ⟨names, type, hasValues, ← spanFrom start⟩

/-- One declaration or any number in round brackets, and which of these it is. -/
def specs {α : Type} (spec : Parser α) : Parser (Bool × List α) := do
  if ← eat (.opening .round) then
    let specs ← statements (.closing .round) spec
    let _ ← expect (.closing .round)
    return (true, specs)
  else return (false, [← spec])

/-- A keyword, and one declaration or any number in round brackets. -/
def specGroup {α : Type} (spec : Parser α) : Parser (SpecGroup α) := do
  let keyword ← take
  let (grouped, specs) ← specs spec
  return ⟨grouped, specs, ← spanFrom keyword.span⟩

/-- The receiver of a method: a parameter list that holds one parameter. -/
def receiver : Parser (Param GoType) := do
  let start ← here
  match ← params goType with
  | [param] => return param
  | params => throw ⟨.receiverCount params.length, start⟩

/-- The body of a function, if there is one, and whether there is. Only its brackets are checked. -/
def body : Parser Bool := ifNext (.opening .curly) (do group .curly; return true) false

/-- A function or a method. -/
def funcDecl : Parser FuncDecl := do
  let keyword ← expect (.keyword .func)
  let receiver ← ifNext (.opening .round) (some <$> receiver) none
  let name ← identifier
  let typeParams ← ifNext (.opening .square) typeParams []
  let signature ← signature goType
  let hasBody ← body
  return ⟨receiver, name, typeParams, signature, hasBody, ← spanFrom keyword.span⟩

/-- An import declaration. -/
def importDecl : Parser Declaration := .imports <$> specGroup importSpec

/-- A declaration that is no import. -/
def declaration : Parser Declaration := do
  match ← kind with
  | .keyword .const => .consts <$> specGroup valueSpec
  | .keyword .var => .vars <$> specGroup valueSpec
  | .keyword .type => .types <$> specGroup typeSpec
  | .keyword .func => .func <$> funcDecl
  | .keyword .import => reject fun _ => .lateImport
  | _ => reject .expectedDeclaration

/-- The package clause, without its end. -/
def packageClause : Parser Identifier := do
  if (← kind) = .keyword .package then
    let _ ← take
    identifier
  else reject .expectedPackage

/-- The imports at the start of a source file, each with its end. -/
def importSection : Parser (List Declaration) :=
  manyWhile (· = .keyword .import) do
    let decl ← importDecl
    statementEnd
    return decl

/-- A source file. -/
def sourceFile : Parser SourceFile := do
  let start ← here
  let package ← packageClause
  statementEnd
  let imports ← importSection
  let declarations ← statements .endOfSource declaration
  return ⟨package, imports ++ declarations, ← spanFrom start⟩

end GoTemplate.Parser
