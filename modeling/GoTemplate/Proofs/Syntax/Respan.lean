import GoTemplate.Syntax.Source

/-!
Values with other spans. Everything that a reader of syntax takes or gives holds spans, and
`respan f` applies `f` to all of them.
-/

namespace GoTemplate

/-- Types whose values hold spans that can be changed. -/
class Spanned (α : Type) where
  /-- Apply a function to all spans of a value. -/
  respan : (Span → Span) → α → α
  respan_id : ∀ a, respan id a = a

export Spanned (respan)

attribute [simp] Spanned.respan_id

/-! ## Values that hold no trees -/

section

variable {α β : Type}

instance : Spanned Span := ⟨fun f span => f span, fun _ => rfl⟩

instance : Spanned Unit := ⟨fun _ a => a, fun _ => rfl⟩

instance : Spanned Bool := ⟨fun _ a => a, fun _ => rfl⟩

instance : Spanned Text := ⟨fun _ a => a, fun _ => rfl⟩

instance : Spanned TokenKind := ⟨fun _ a => a, fun _ => rfl⟩

instance : Spanned Token := ⟨fun f t => { t with span := f t.span }, fun _ => rfl⟩

instance : Spanned Identifier := ⟨fun f i => { i with span := f i.span }, fun _ => rfl⟩

instance : Spanned SyntaxError := ⟨fun f e => { e with span := f e.span }, fun _ => rfl⟩

instance [Spanned α] : Spanned (List α) where
  respan f := List.map (respan f)
  respan_id as := by
    induction as with
    | nil => rfl
    | cons a as ih => rw [List.map_cons, ih, Spanned.respan_id]

instance [Spanned α] : Spanned (Option α) where
  respan f := Option.map (respan f)
  respan_id a := by cases a <;> simp

instance [Spanned α] [Spanned β] : Spanned (α × β) where
  respan f ab := (respan f ab.1, respan f ab.2)
  respan_id ab := by simp

instance [Spanned α] : Spanned (Except SyntaxError α) where
  respan f
    | .ok a => .ok (respan f a)
    | .error e => .error (respan f e)
  respan_id r := by cases r <;> simp

instance : Spanned Cursor where
  respan f c := ⟨f c.previous, respan f c.rest, respan f c.stop⟩
  respan_id c := by simp

instance [Spanned α] : Spanned (Param α) where
  respan f p := ⟨respan f p.name, respan f p.type, p.variadic⟩
  respan_id p := by simp

instance [Spanned α] : Spanned (Signature α) where
  respan f s := ⟨respan f s.params, respan f s.results, f s.span⟩
  respan_id s := by simp

instance [Spanned α] : Spanned (Field α) where
  respan f field := ⟨respan f field.names, respan f field.type, field.tag⟩
  respan_id field := by simp

instance [Spanned α] : Spanned (Term α) where
  respan f t := ⟨t.tilde, respan f t.type⟩
  respan_id t := by simp

instance [Spanned α] : Spanned (InterfaceElement α) where
  respan f
    | .method name signature => .method (respan f name) (respan f signature)
    | .union terms => .union (respan f terms)
  respan_id e := by cases e <;> simp

end

/-! ## Types -/

mutual

/-- A type with other spans. -/
def GoType.respan (f : Span → Span) : GoType → GoType
  | .named package name args span =>
    .named (Spanned.respan f package) (Spanned.respan f name) (respanTypes f args) (f span)
  | .pointer elem span => .pointer (elem.respan f) (f span)
  | .slice elem span => .slice (elem.respan f) (f span)
  | .array length elem span => .array length (elem.respan f) (f span)
  | .map key value span => .map (key.respan f) (value.respan f) (f span)
  | .chan direction elem span => .chan direction (elem.respan f) (f span)
  | .func ⟨params, results, span⟩ => .func ⟨respanParams f params, respanParams f results, f span⟩
  | .struct fields span => .struct (respanFields f fields) (f span)
  | .interface elements span => .interface (respanElements f elements) (f span)
  | .paren inner span => .paren (inner.respan f) (f span)
  termination_by structural type => type

def respanTypes (f : Span → Span) : List GoType → List GoType
  | [] => []
  | type :: types => type.respan f :: respanTypes f types
  termination_by structural types => types

def respanParams (f : Span → Span) : List (Param GoType) → List (Param GoType)
  | [] => []
  | ⟨name, type, variadic⟩ :: params =>
    ⟨Spanned.respan f name, type.respan f, variadic⟩ :: respanParams f params
  termination_by structural params => params

def respanFields (f : Span → Span) : List (Field GoType) → List (Field GoType)
  | [] => []
  | ⟨names, type, tag⟩ :: fields =>
    ⟨Spanned.respan f names, type.respan f, tag⟩ :: respanFields f fields
  termination_by structural fields => fields

def respanTerms (f : Span → Span) : List (Term GoType) → List (Term GoType)
  | [] => []
  | ⟨tilde, type⟩ :: terms => ⟨tilde, type.respan f⟩ :: respanTerms f terms
  termination_by structural terms => terms

def respanElements (f : Span → Span) :
    List (InterfaceElement GoType) → List (InterfaceElement GoType)
  | [] => []
  | .method name ⟨params, results, span⟩ :: elements =>
    .method (Spanned.respan f name) ⟨respanParams f params, respanParams f results, f span⟩ ::
      respanElements f elements
  | .union terms :: elements => .union (respanTerms f terms) :: respanElements f elements
  termination_by structural elements => elements

end

mutual

private theorem respan_id_type : (type : GoType) → type.respan id = type
  | .named _ _ args _ => by simp [GoType.respan, respan_id_types args]
  | .pointer elem _ | .slice elem _ | .array _ elem _ | .chan _ elem _ | .paren elem _ => by
    simp [GoType.respan, respan_id_type elem]
  | .map key value _ => by simp [GoType.respan, respan_id_type key, respan_id_type value]
  | .func ⟨params, results, _⟩ => by
    simp [GoType.respan, respan_id_params params, respan_id_params results]
  | .struct fields _ => by simp [GoType.respan, respan_id_fields fields]
  | .interface elements _ => by simp [GoType.respan, respan_id_elements elements]

private theorem respan_id_types : (types : List GoType) → respanTypes id types = types
  | [] => rfl
  | type :: types => by simp [respanTypes, respan_id_type type, respan_id_types types]

private theorem respan_id_params : (params : List (Param GoType)) → respanParams id params = params
  | [] => rfl
  | ⟨_, type, _⟩ :: params => by simp [respanParams, respan_id_type type, respan_id_params params]

private theorem respan_id_fields : (fields : List (Field GoType)) → respanFields id fields = fields
  | [] => rfl
  | ⟨_, type, _⟩ :: fields => by simp [respanFields, respan_id_type type, respan_id_fields fields]

private theorem respan_id_terms : (terms : List (Term GoType)) → respanTerms id terms = terms
  | [] => rfl
  | ⟨_, type⟩ :: terms => by simp [respanTerms, respan_id_type type, respan_id_terms terms]

private theorem respan_id_elements :
    (elements : List (InterfaceElement GoType)) → respanElements id elements = elements
  | [] => rfl
  | .method _ ⟨params, results, _⟩ :: elements => by
    simp [respanElements, respan_id_params params, respan_id_params results,
      respan_id_elements elements]
  | .union terms :: elements => by
    simp [respanElements, respan_id_terms terms, respan_id_elements elements]

end

instance : Spanned GoType := ⟨GoType.respan, respan_id_type⟩

section

variable (f : Span → Span)

theorem respanTypes_eq (types : List GoType) : respanTypes f types = respan f types := by
  induction types with
  | nil => rfl
  | cons type types ih => rw [respanTypes, ih]; rfl

theorem respanParams_eq (params : List (Param GoType)) : respanParams f params = respan f params := by
  induction params with
  | nil => rfl
  | cons param params ih => rw [respanParams, ih]; rfl

theorem respanFields_eq (fields : List (Field GoType)) : respanFields f fields = respan f fields := by
  induction fields with
  | nil => rfl
  | cons field fields ih => rw [respanFields, ih]; rfl

theorem respanTerms_eq (terms : List (Term GoType)) : respanTerms f terms = respan f terms := by
  induction terms with
  | nil => rfl
  | cons term terms ih => rw [respanTerms, ih]; rfl

theorem respanElements_eq (elements : List (InterfaceElement GoType)) :
    respanElements f elements = respan f elements := by
  induction elements with
  | nil => rfl
  | cons element elements ih =>
      cases element with
      | method name signature =>
          rw [respanElements, ih, respanParams_eq, respanParams_eq]
          rfl
      | union terms =>
          rw [respanElements, ih, respanTerms_eq]
          rfl

theorem respan_named (package : Option Identifier) (name : Identifier) (args : List GoType)
    (span : Span) : respan f (GoType.named package name args span) =
      .named (respan f package) (respan f name) (respan f args) (f span) := by
  rw [← respanTypes_eq]
  rfl

theorem respan_func (signature : Signature GoType) :
    respan f (GoType.func signature) = .func (respan f signature) := by
  change GoType.func ⟨respanParams f signature.params, respanParams f signature.results, _⟩ = _
  rw [respanParams_eq, respanParams_eq]
  rfl

theorem respan_struct (fields : List (Field GoType)) (span : Span) :
    respan f (GoType.struct fields span) = .struct (respan f fields) (f span) := by
  rw [← respanFields_eq]
  rfl

theorem respan_interface (elements : List (InterfaceElement GoType)) (span : Span) :
    respan f (GoType.interface elements span) = .interface (respan f elements) (f span) := by
  rw [← respanElements_eq]
  rfl

end

instance : Spanned ParamEntry where
  respan f
    | .bare name => .bare (respan f name)
    | .unnamed type variadic => .unnamed (respan f type) variadic
    | .named name type variadic => .named (respan f name) (respan f type) variadic
  respan_id e := by cases e <;> simp

theorem ParamEntry.any_isNamed_respan (f : Span → Span) (entries : List ParamEntry) :
    (respan f entries).any isNamed = entries.any isNamed := by
  have hNamed : isNamed ∘ respan f = isNamed := by
    funext entry
    cases entry <;> rfl
  change (entries.map (respan f)).any isNamed = _
  rw [List.any_map, hNamed]

/-! ## Declarations -/

section

variable {α : Type}

instance : Spanned TypeParam where
  respan f p := ⟨respan f p.names, respan f p.constraint⟩
  respan_id p := by simp

instance : Spanned ImportSpec where
  respan f spec := ⟨respan f spec.name, spec.path, f spec.span⟩
  respan_id spec := by simp

instance : Spanned TypeSpec where
  respan f spec :=
    ⟨respan f spec.name, respan f spec.typeParams, spec.isAlias, respan f spec.type, f spec.span⟩
  respan_id spec := by simp

instance : Spanned ValueSpec where
  respan f spec := ⟨respan f spec.names, respan f spec.type, spec.hasValues, f spec.span⟩
  respan_id spec := by simp

instance [Spanned α] : Spanned (SpecGroup α) where
  respan f group := ⟨group.grouped, respan f group.specs, f group.span⟩
  respan_id group := by simp

instance : Spanned FuncDecl where
  respan f decl :=
    ⟨respan f decl.receiver, respan f decl.name, respan f decl.typeParams,
      respan f decl.signature, decl.hasBody, f decl.span⟩
  respan_id decl := by simp

instance : Spanned Declaration where
  respan f
    | .imports group => .imports (respan f group)
    | .consts group => .consts (respan f group)
    | .vars group => .vars (respan f group)
    | .types group => .types (respan f group)
    | .func decl => .func (respan f decl)
  respan_id decl := by cases decl <;> simp

end

/-! ## Lists -/

section

variable (f : Span → Span) {α : Type} [Spanned α]

theorem respan_cons (a : α) (as : List α) : respan f (a :: as) = respan f a :: respan f as := rfl

@[simp] theorem length_respan (as : List α) : (respan f as).length = as.length := List.length_map _

end

end GoTemplate
