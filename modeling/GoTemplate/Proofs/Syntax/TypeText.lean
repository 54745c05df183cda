import GoTemplate.Proofs.Lexical.Spelling
import GoTemplate.Proofs.Syntax.BareSource

/-!
Types as one text. Every type has one text in which its tokens are separated by single spaces. The
shapes that a reader of syntax never gives, such as a list in which some parameters have names and
others have none, are told by a predicate on the type and on the types in it.
-/

namespace GoTemplate

open Brackets

/-! ## Words -/

/-- The text of a kind of tokens that has only one, such as a bracket or a keyword. -/
def TokenKind.sign (k : TokenKind) : Text := (k.spelling?.getD "").toList

open TokenKind (sign)

/-- Items in brackets, with commas between neighbours. -/
def bracketed (b : Bracket) (items : List (List Text)) : List Text :=
  sign (.opening b) :: ([sign .comma].intercalate items ++ [sign (.closing b)])

/-- Items in brackets, and nothing where there are no items. -/
def bracketedIfAny (b : Bracket) (items : List (List Text)) : List Text :=
  if items = [] then [] else bracketed b items

/-- A word that may be missing. -/
def wordIf (present : Bool) (word : Text) : List Text := if present then [word] else []

/-- The package of a name, with the point after it. -/
def packageWords : Option Identifier → List Text
  | some package => [package.name, sign .dot]
  | none => []

/-- The keyword of a channel type with the arrow of its direction. -/
def channelWords : ChannelDirection → List Text
  | .both => [sign (.keyword .chan)]
  | .send => [sign (.keyword .chan), sign (.operator .arrow)]
  | .receive => [sign (.operator .arrow), sign (.keyword .chan)]

mutual

/-- The words of a type. Each is a token, but for the length of an array, which is kept as a text. -/
def GoType.words : GoType → List Text
  | .named package name args _ =>
    packageWords package ++ name.name :: bracketedIfAny .square (typesWords args)
  | .pointer elem _ => sign (.operator .mul) :: elem.words
  | .slice elem _ => sign (.opening .square) :: sign (.closing .square) :: elem.words
  | .array length elem _ =>
    sign (.opening .square) :: length :: sign (.closing .square) :: elem.words
  | .map key value _ =>
    sign (.keyword .map) :: sign (.opening .square) ::
      (key.words ++ sign (.closing .square) :: value.words)
  | .chan direction elem _ => channelWords direction ++ elem.words
  | .func ⟨params, results, _⟩ =>
    sign (.keyword .func) ::
      (bracketed .round (paramsWords params) ++ bracketedIfAny .round (paramsWords results))
  | .struct fields _ =>
    sign (.keyword .struct) :: sign (.opening .curly) ::
      (fieldsWords fields ++ [sign (.closing .curly)])
  | .interface elements _ =>
    sign (.keyword .interface) :: sign (.opening .curly) ::
      (elementsWords elements ++ [sign (.closing .curly)])
  | .paren inner _ => sign (.opening .round) :: (inner.words ++ [sign (.closing .round)])
  termination_by structural type => type

def typesWords : List GoType → List (List Text)
  | [] => []
  | type :: types => type.words :: typesWords types
  termination_by structural types => types

/-- A parameter is its name, if it has one, and its type, with an ellipsis before a variadic one. -/
def paramsWords : List (Param GoType) → List (List Text)
  | [] => []
  | ⟨name, type, variadic⟩ :: params =>
    (name.toList.map (·.name) ++ (wordIf variadic (sign (.operator .ellipsis)) ++ type.words)) ::
      paramsWords params
  termination_by structural params => params

/-- A field is its names, its type and its tag, with a semicolon behind. -/
def fieldsWords : List (Field GoType) → List Text
  | [] => []
  | ⟨names, type, tag⟩ :: fields =>
    ([sign .comma].intercalate (names.map ([·.name])) ++ (type.words ++ tag.toList)) ++
      sign .semicolon :: fieldsWords fields
  termination_by structural fields => fields

def termsWords : List (Term GoType) → List (List Text)
  | [] => []
  | ⟨tilde, type⟩ :: terms =>
    (wordIf tilde (sign (.operator .tilde)) ++ type.words) :: termsWords terms
  termination_by structural terms => terms

/-- An element is a method or the terms of a union, with a semicolon behind. -/
def elementsWords : List (InterfaceElement GoType) → List Text
  | [] => []
  | .method name ⟨params, results, _⟩ :: elements =>
    (name.name :: (bracketed .round (paramsWords params) ++
      bracketedIfAny .round (paramsWords results))) ++ sign .semicolon :: elementsWords elements
  | .union terms :: elements =>
    [sign (.operator .or)].intercalate (termsWords terms) ++ sign .semicolon :: elementsWords elements
  termination_by structural elements => elements

end

/-- The one text of a type. -/
def GoType.text (type : GoType) : Text := Text.joinWithSpaces type.words

example : (GoType.map (.named none ⟨"K".toList, .none⟩ [] .none)
    (.array "2 * n".toList (.named (some ⟨"p".toList, .none⟩) ⟨"T".toList, .none⟩ [] .none) .none)
    .none).text = "map [ K ] [ 2 * n ] p . T".toList := by decide

/-! ## Words of the parts -/

def Param.words (param : Param GoType) : List Text :=
  param.name.toList.map (·.name) ++
    (wordIf param.variadic (sign (.operator .ellipsis)) ++ param.type.words)

def Signature.words (signature : Signature GoType) : List Text :=
  bracketed .round (signature.params.map Param.words) ++
    bracketedIfAny .round (signature.results.map Param.words)

def Field.words (field : Field GoType) : List Text :=
  [sign .comma].intercalate (field.names.map ([·.name])) ++ (field.type.words ++ field.tag.toList)

def Term.words (term : Term GoType) : List Text :=
  wordIf term.tilde (sign (.operator .tilde)) ++ term.type.words

def InterfaceElement.words : InterfaceElement GoType → List Text
  | .method name signature => name.name :: signature.words
  | .union terms => [sign (.operator .or)].intercalate (terms.map Term.words)

/-- Lines, each with a semicolon behind. -/
def linesWords {α : Type} (words : α → List Text) (lines : List α) : List Text :=
  lines.flatMap fun line => words line ++ [sign .semicolon]

theorem typesWords_eq (types : List GoType) : typesWords types = types.map GoType.words := by
  induction types with
  | nil => rfl
  | cons type types ih => rw [typesWords, ih]; rfl

theorem paramsWords_eq (params : List (Param GoType)) :
    paramsWords params = params.map Param.words := by
  induction params with
  | nil => rfl
  | cons param params ih => rw [paramsWords, ih]; rfl

theorem fieldsWords_eq (fields : List (Field GoType)) :
    fieldsWords fields = linesWords Field.words fields := by
  induction fields with
  | nil => rfl
  | cons field fields ih => simp [fieldsWords, ih, linesWords, Field.words]

theorem termsWords_eq (terms : List (Term GoType)) : termsWords terms = terms.map Term.words := by
  induction terms with
  | nil => rfl
  | cons term terms ih => rw [termsWords, ih]; rfl

theorem elementsWords_eq (elements : List (InterfaceElement GoType)) :
    elementsWords elements = linesWords InterfaceElement.words elements := by
  induction elements with
  | nil => rfl
  | cons element elements ih =>
      rw [linesWords, List.flatMap_cons, List.append_assoc]
      cases element with
      | method name signature =>
          rw [elementsWords, ih, paramsWords_eq, paramsWords_eq]
          rfl
      | union terms =>
          rw [elementsWords, ih, termsWords_eq]
          rfl

theorem GoType.words_named (package : Option Identifier) (name : Identifier) (args : List GoType)
    (span : Span) : (GoType.named package name args span).words =
      packageWords package ++ name.name :: bracketedIfAny .square (args.map GoType.words) := by
  rw [GoType.words, typesWords_eq]

theorem GoType.words_func (signature : Signature GoType) :
    (GoType.func signature).words = sign (.keyword .func) :: signature.words := by
  rw [GoType.words, paramsWords_eq, paramsWords_eq]
  rfl

theorem GoType.words_struct (fields : List (Field GoType)) (span : Span) :
    (GoType.struct fields span).words = sign (.keyword .struct) :: sign (.opening .curly) ::
      (linesWords Field.words fields ++ [sign (.closing .curly)]) := by
  rw [GoType.words, fieldsWords_eq]

theorem GoType.words_interface (elements : List (InterfaceElement GoType)) (span : Span) :
    (GoType.interface elements span).words = sign (.keyword .interface) :: sign (.opening .curly) ::
      (linesWords InterfaceElement.words elements ++ [sign (.closing .curly)]) := by
  rw [GoType.words, elementsWords_eq]

/-! ## Legible types -/

/-- Names are what can be read as such. -/
def IsName (t : Text) : Prop := Lexeme.Spells .identifier t

instance (t : Text) : Decidable (IsName t) := inferInstanceAs (Decidable (Lexeme.Spells .identifier t))

/-- Tags are strings with their quotes. -/
def IsTag (t : Text) : Prop :=
  Lexeme.Spells (.literal .string) t ∨ Lexeme.Spells (.literal .rawString) t

/-- Lengths of arrays are tokens with single spaces between them: an ellipsis alone, or an expression. -/
def IsLength (t : Text) : Prop :=
  ∃ ws, t = Token.row ws ∧ ws ≠ [] ∧ Balanced ws ∧
    (∀ w ∈ ws, w.kind ≠ .comment ∧ Lexeme.Spells w.kind w.lexeme) ∧
    (nextKind ws = .operator .ellipsis → ∃ w, ws = [w])

/-- Either all parameters of a list have names or none has. -/
def IsParamList (params : List (Param GoType)) : Prop :=
  (∀ param ∈ params, param.name = none) ∨
    ∀ param ∈ params, ∃ name, param.name = some name ∧ IsName name.name

/-- The kind of the first token of a type. -/
def GoType.firstKind : GoType → TokenKind
  | named .. => .identifier
  | pointer .. => .operator .mul
  | slice .. | array .. => .opening .square
  | map .. => .keyword .map
  | chan .receive .. => .operator .arrow
  | chan .. => .keyword .chan
  | func .. => .keyword .func
  | struct .. => .keyword .struct
  | interface .. => .keyword .interface
  | paren .. => .opening .round

/-- Embedded fields are names, or pointers, of which the type of what they point to is not asked. -/
structure Field.IsLegible (field : Field GoType) : Prop where
  names : ∀ name ∈ field.names, IsName name.name
  embedded : field.names = [] →
    field.type.firstKind = .identifier ∨ field.type.firstKind = .operator .mul
  tag : ∀ tag ∈ field.tag, IsTag tag

structure Signature.IsLegible (signature : Signature GoType) : Prop where
  params : IsParamList signature.params
  results : IsParamList signature.results

def InterfaceElement.IsLegible : InterfaceElement GoType → Prop
  | .method name signature => IsName name.name ∧ signature.IsLegible
  | .union terms => terms ≠ []

/-- What has to hold of a type so that its text can be read, apart from the types in it. -/
def GoType.IsFormed : GoType → Prop
  | .named package name _ _ => (∀ p ∈ package, IsName p.name) ∧ IsName name.name
  | .array length _ _ => IsLength length
  | .chan direction elem _ => direction = .both → elem.firstKind ≠ .operator .arrow
  | .func signature => signature.IsLegible
  | .struct fields _ => ∀ field ∈ fields, field.IsLegible
  | .interface elements _ => ∀ element ∈ elements, element.IsLegible
  | _ => True

def Signature.types (signature : Signature GoType) : List GoType :=
  signature.params.map Param.type ++ signature.results.map Param.type

def InterfaceElement.types : InterfaceElement GoType → List GoType
  | .method _ signature => signature.types
  | .union terms => terms.map Term.type

/-- The types within a type. -/
def GoType.parts : GoType → List GoType
  | .named _ _ args _ => args
  | .pointer elem _ | .slice elem _ | .array _ elem _ | .chan _ elem _ | .paren elem _ => [elem]
  | .map key value _ => [key, value]
  | .func signature => signature.types
  | .struct fields _ => fields.map Field.type
  | .interface elements _ => elements.flatMap InterfaceElement.types

/-- Types whose text can be read: they are formed, and so are the types within them. -/
inductive GoType.IsLegible : GoType → Prop where
  | intro {type : GoType} (hFormed : type.IsFormed) (hParts : ∀ part ∈ type.parts, IsLegible part) :
      IsLegible type

end GoTemplate
