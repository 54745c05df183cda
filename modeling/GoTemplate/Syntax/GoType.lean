import GoTemplate.Source.Span

/-!
Go types as they are written: every form of a type, with the spans of its parts and without any
resolution of names.
-/

namespace GoTemplate

/-- A name in the source. -/
structure Identifier where
  name : Text
  span : Span
  deriving DecidableEq

/-- The directions of a channel type. -/
inductive ChannelDirection where
  | both | send | receive
  deriving DecidableEq

/-- One parameter or result. In one list either all have names or none has. -/
structure Param (τ : Type) where
  name : Option Identifier
  type : τ
  variadic : Bool

/-- Parameters and results. The span starts at the opening bracket of the parameters. -/
structure Signature (τ : Type) where
  params : List (Param τ)
  results : List (Param τ)
  span : Span

/-- A line of a struct type: names and their type, or an embedded type without names, and an
optional tag with its quotes. -/
structure Field (τ : Type) where
  names : List Identifier
  type : τ
  tag : Option Text

/-- Whether the field is an embedded type. -/
def Field.isEmbedded {τ : Type} (f : Field τ) : Bool := f.names.isEmpty

/-- A term of a union: a type, or with a tilde all types that have it as their underlying
type. -/
structure Term (τ : Type) where
  tilde : Bool
  type : τ

/-- A line of an interface type. An embedded type is a union of one term. -/
inductive InterfaceElement (τ : Type) where
  | method (name : Identifier) (signature : Signature τ)
  | union (terms : List (Term τ))

/-- A type as it is written. The length of an array is kept as the text of its tokens. A
function type has the span of its signature, without the keyword. -/
inductive GoType where
  | named (package : Option Identifier) (name : Identifier) (args : List GoType) (span : Span)
  | pointer (elem : GoType) (span : Span)
  | slice (elem : GoType) (span : Span)
  | array (length : Text) (elem : GoType) (span : Span)
  | map (key value : GoType) (span : Span)
  | chan (direction : ChannelDirection) (elem : GoType) (span : Span)
  | func (signature : Signature GoType)
  | struct (fields : List (Field GoType)) (span : Span)
  | interface (elements : List (InterfaceElement GoType)) (span : Span)
  | paren (inner : GoType) (span : Span)

namespace GoType

/-- The stretch of source from which the type was read. -/
def span : GoType → Span
  | named _ _ _ span => span
  | pointer _ span => span
  | slice _ span => span
  | array _ _ span => span
  | map _ _ span => span
  | chan _ _ span => span
  | func signature => signature.span
  | struct _ span => span
  | interface _ span => span
  | paren _ span => span

/-- The package and the name of a type that is a qualified name, such as `pkg.Name`. -/
def qualifiedName? : GoType → Option (Text × Text)
  | named (some package) name _ _ => some (package.name, name.name)
  | _ => none

end GoType

end GoTemplate
