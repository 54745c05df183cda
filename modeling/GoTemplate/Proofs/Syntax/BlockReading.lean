import GoTemplate.Proofs.Syntax.SignatureReading

/-!
Reading the words of struct and interface types, which are blocks of lines, and with them those of all
types. From its words a legible type is read again, with all of its parts.
-/

namespace GoTemplate

open Brackets TokenKind

/-! ## Fields -/

namespace Parser

open GoType

theorem isEmbeddedField_ofTokens {t : Token} (ht : t.kind = .identifier) (ws : List Token) :
    isEmbeddedField (.ofTokens (t :: ws)) =
      match nextKind ws with
      | .dot => true
      | .opening .square => endsField (kindAfter 0 ws)
      | k => endsField k := by
  have hKind : (Cursor.ofTokens (t :: ws)).kind = .identifier := ht
  rw [isEmbeddedField, hKind, kindAt_ofTokens]
  rfl

theorem endsField_of_opensType {k : TokenKind} (h : k.opensType = true) : endsField k = false := by
  simp only [endsField, Bool.or_eq_false_iff, decide_eq_false_iff_not]
  refine ⟨⟨⟨?_, ?_⟩, ?_⟩, ?_⟩
  all_goals
    rintro rfl
    cases h

/-- The name of a field is told from an embedded type. -/
theorem isEmbeddedField_name {t : Token} {ws : List Token} (ht : t.kind = .identifier)
    (hNext : (nextKind ws).opensType = true ∨ nextKind ws = .comma)
    (hAfter : nextKind ws = .opening .square → (kindAfter 0 ws).opensType = true) :
    isEmbeddedField (.ofTokens (t :: ws)) = false := by
  rw [isEmbeddedField_ofTokens ht]
  split
  · simp_all [TokenKind.opensType]
  · exact endsField_of_opensType (hAfter ‹_›)
  · rcases hNext with hNext | hNext
    · exact endsField_of_opensType hNext
    · rw [hNext]
      rfl

/-- An embedded type is told from the name of a field. -/
theorem isEmbeddedField_type {type : GoType} (h : type.IsReread)
    (hFirst : type.firstKind = .identifier ∨ type.firstKind = .operator .mul) {last : List Token}
    (hLast : endsField (nextKind last) = true) :
    isEmbeddedField (.ofTokens (wordTokens type.words ++ last)) = true := by
  rcases hFirst with hFirst | hFirst
  · obtain ⟨package, name, args, span, rfl⟩ := exists_named_of_firstKind hFirst
    obtain ⟨t, ws, hWords, ht, hPoint, hArgs, hAlone⟩ := exists_behind_name h.isFormed h.parts last
    rw [hWords, isEmbeddedField_ofTokens ht]
    by_cases hPackage : package = none
    · by_cases hNil : args = []
      · rw [hAlone hPackage hNil]
        split
        · rfl
        · rename_i hSquare
          rw [hSquare] at hLast
          cases hLast
        · exact hLast
      · obtain ⟨hSquare, hAfter⟩ := hArgs hPackage hNil
        simp only [hSquare, hAfter]
        exact hLast
    · rw [hPoint hPackage]
  · have hKind : (Cursor.ofTokens (wordTokens type.words ++ last)).kind = .operator .mul := by
      rw [kind_ofTokens, nextKind_words_append h.isFormed, hFirst]
    rw [isEmbeddedField, hKind]
    rfl


theorem readsOff_fieldStart {ws : List Token}
    (h : nextKind ws = .identifier ∨ nextKind ws = .operator .mul) : ReadsOff fieldStart ws () ws := by
  rcases h with h | h
  · exact readsOff_kind h rfl
  · exact readsOff_kind h rfl

theorem nextKind_tag {tag : Option Text} (hTag : ∀ text ∈ tag, IsTag text) {rest : List Token}
    (hRest : nextKind rest = .semicolon) :
    nextKind (wordTokens tag.toList ++ rest) ∈
      [TokenKind.semicolon, .literal .string, .literal .rawString] := by
  cases tag with
  | none => simpa using .inl hRest
  | some text =>
      rw [Option.toList_some, wordTokens_cons]
      rcases hTag text rfl with hSpells | hSpells
      · rw [Text.standing_of_spells hSpells (by simp)]
        simp [nextKind]
      · rw [Text.standing_of_spells hSpells (by simp)]
        simp [nextKind]

theorem readsOff_tag {tag : Option Text} (hTag : ∀ text ∈ tag, IsTag text) {rest : List Token}
    (hRest : nextKind rest = .semicolon) :
    ReadsOff Parser.tag (wordTokens tag.toList ++ rest) tag rest := by
  cases tag with
  | none => exact readsOff_kind hRest readsOff_pure
  | some text =>
      rw [Option.toList_some, wordTokens_cons]
      rcases hTag text rfl with hSpells | hSpells
      · rw [Text.standing_of_spells hSpells (by simp)]
        exact readsOff_kind rfl ((readsOff_take rfl).bind readsOff_pure)
      · rw [Text.standing_of_spells hSpells (by simp)]
        exact readsOff_kind rfl ((readsOff_take rfl).bind readsOff_pure)

/-- The names of a field. -/
theorem wordTokens_names {names : List Identifier} (hNames : ∀ name ∈ names, IsName name.name) :
    wordTokens ([sign .comma].intercalate (names.map ([·.name]))) =
      separated .comma (names.map fun name => [⟨.identifier, name.name, .none⟩]) := by
  rw [wordTokens_intercalate rfl, List.map_map]
  congr 1
  exact List.map_congr_left fun name hName => wordTokens_name [] (hNames name hName)

theorem readsOff_fieldNames {field : Field GoType} (hLegible : field.IsLegible)
    (hType : field.type.IsReread) {last : List Token} (hLast : endsField (nextKind last) = true) :
    ReadsOff fieldNames
      (wordTokens ([sign .comma].intercalate (field.names.map ([·.name]))) ++
        (wordTokens field.type.words ++ last))
      (respan Span.erase field.names) (wordTokens field.type.words ++ last) := by
  have hNext := nextKind_words_append hType.isFormed last
  rw [wordTokens_names hLegible.names]
  cases hNames : field.names with
  | nil => exact readsOff_look _ (isEmbeddedField_type hType (hLegible.embedded hNames) hLast) readsOff_pure
  | cons name names =>
      refine readsOff_look false ?_ ?_
      · rw [List.map_cons, separated_cons, List.append_assoc]
        cases names with
        | nil =>
            refine isEmbeddedField_name rfl (.inl ?_) fun hSquare => ?_
            · exact hNext ▸ field.type.opensType_firstKind
            · exact opensType_kindAfter hType.isLegible (hNext.symm.trans hSquare) last
        | cons other names => exact isEmbeddedField_name rfl (.inr rfl) fun hSquare => nomatch hSquare
      · refine readsOff_sepBy (fun name _ last _ => readsOff_identifier name.name) ?_
        rw [hNext]
        exact firstKind_ne rfl

section

variable {field : Field GoType} (hLegible : field.IsLegible) (hType : field.type.IsReread)

include hLegible hType

theorem nextKind_field (rest : List Token) : nextKind (wordTokens field.words ++ rest) = .identifier ∨
    nextKind (wordTokens field.words ++ rest) = .operator .mul := by
  rw [Field.words, wordTokens_append, wordTokens_append, wordTokens_names hLegible.names,
    List.append_assoc, List.append_assoc]
  cases hNames : field.names with
  | nil =>
      have hNext := nextKind_words_append hType.isFormed (wordTokens field.tag.toList ++ rest)
      exact (hLegible.embedded hNames).imp hNext.trans hNext.trans
  | cons name names =>
      left
      rw [List.map_cons, separated_cons]
      rfl

theorem readsOff_field {rest : List Token} (hRest : nextKind rest = .semicolon) :
    ReadsOff (Parser.field goType) (wordTokens field.words ++ rest) (respan Span.erase field) rest := by
  have hStart := nextKind_field hLegible hType rest
  have hTag := nextKind_tag hLegible.tag hRest
  rw [Field.words, wordTokens_append, wordTokens_append, List.append_assoc, List.append_assoc] at hStart ⊢
  generalize hLast : wordTokens field.tag.toList ++ rest = last at hStart hTag ⊢
  have hEnds : endsField (nextKind last) = true ∧ (nextKind last).endsType = true := by
    simp only [List.mem_cons, List.not_mem_nil, or_false] at hTag
    rcases hTag with h | h | h
    all_goals
      rw [h]
      exact ⟨rfl, rfl⟩
  refine (readsOff_fieldStart hStart).bind ?_
  refine (readsOff_fieldNames hLegible hType hEnds.1).bind ((hType.reads last hEnds.2).bind ?_)
  rw [← hLast]
  exact (readsOff_tag hLegible.tag hRest).bind readsOff_pure

end

/-! ## Blocks -/

section

variable {α : Type} {words : α → List Text} {g : α → α} {lines : List α} {item : Parser α}

theorem wordTokens_lines (words : α → List Text) (lines : List α) : wordTokens (linesWords words lines) =
    lines.flatMap fun line => wordTokens (words line) ++ [TokenKind.semicolon.token] := by
  induction lines with
  | nil => rfl
  | cons line lines ih =>
      rw [linesWords, List.flatMap_cons, List.flatMap_cons, wordTokens_append, wordTokens_append,
        wordTokens_sign [] rfl, ← ih]
      rfl

/-- A type that is a block of lines behind a keyword. -/
theorem readsOff_block {k : Keyword} {make : List α → Span → GoType}
    (hItem : ∀ line ∈ lines, ∀ last, nextKind last = .semicolon →
      ReadsOff item (wordTokens (words line) ++ last) (g line) last)
    (hFirst : ∀ line ∈ lines, wordTokens (words line) ≠ [] ∧
      nextKind (wordTokens (words line)) ≠ .closing .curly ∧
      nextKind (wordTokens (words line)) ≠ .endOfSource) (rest : List Token) :
    ReadsOff (do
      let keyword ← expect (.keyword k)
      let _ ← expect (.opening .curly)
      let lines ← statements (.closing .curly) item
      let _ ← expect (.closing .curly)
      return make lines (← spanFrom keyword.span))
      ((keyword k).token :: (wordTokens (sign (.opening .curly) ::
        (linesWords words lines ++ [sign (.closing .curly)])) ++ rest))
      (make (lines.map g) .none) rest := by
  rw [wordTokens_sign _ rfl, wordTokens_append, wordTokens_lines, wordTokens_sign [] rfl]
  simp only [List.cons_append, List.append_assoc]
  exact readsOff_expect.bind (readsOff_expect.bind ((readsOff_statements hItem hFirst rfl).bind
    (readsOff_expect.bind (readsOff_spanFrom.bind readsOff_pure))))

end

theorem reads_struct {fields : List (Field GoType)} (span : Span)
    (hFormed : (struct fields span).IsFormed) (hParts : ∀ part ∈ (struct fields span).parts, part.IsReread)
    (rest : List Token) :
    ReadsOff goType (wordTokens (struct fields span).words ++ rest)
      (respan Span.erase (struct fields span)) rest := by
  have hTypes : ∀ field ∈ fields, field.type.IsReread := List.forall_mem_map.1 hParts
  rw [words_struct, wordTokens_sign _ rfl, respan_struct]
  refine readsOff_goType rfl rfl (readsOff_block (fun field hField _ hLast =>
    readsOff_field (hFormed field hField) (hTypes field hField) hLast) (fun field hField => ?_) rest)
  have hFirst := nextKind_field (hFormed field hField) (hTypes field hField) []
  rw [List.append_nil] at hFirst
  have hNot : nextKind (wordTokens field.words) ≠ .closing .curly ∧
      nextKind (wordTokens field.words) ≠ .endOfSource := by
    rcases hFirst with hFirst | hFirst
    all_goals simp [hFirst]
  exact ⟨ne_nil_of_nextKind hNot.2, hNot⟩

/-! ## Elements -/

section

variable {term : Term GoType} (hType : term.type.IsReread)

include hType

theorem nextKind_term (rest : List Token) :
    nextKind (wordTokens term.words ++ rest) = .operator .tilde ∨
      nextKind (wordTokens term.words ++ rest) = term.type.firstKind ∧ term.words = term.type.words := by
  obtain ⟨tilde, type⟩ := term
  cases tilde with
  | true =>
      left
      rw [Term.words, wordIf, if_pos rfl, List.singleton_append, wordTokens_sign _ rfl]
      rfl
  | false => exact .inr ⟨nextKind_words_append hType.isFormed rest, rfl⟩

theorem readsOff_term {last : List Token} (hLast : (nextKind last).endsType = true) :
    ReadsOff (Parser.term goType) (wordTokens term.words ++ last) (respan Span.erase term) last := by
  obtain ⟨tilde, type⟩ := term
  have hRead := hType.reads last hLast
  cases tilde with
  | true =>
      rw [Term.words, wordIf, if_pos rfl, List.singleton_append, wordTokens_sign _ rfl]
      exact readsOff_eat.bind (hRead.bind readsOff_pure)
  | false =>
      have hNext : nextKind (wordTokens type.words ++ last) ≠ .operator .tilde := by
        rw [nextKind_words_append hType.isFormed]
        exact firstKind_ne rfl
      exact (readsOff_eat_other hNext).bind (hRead.bind readsOff_pure)

end

theorem readsOff_constraint {terms : List (Term GoType)} (hNe : terms ≠ [])
    (hTypes : ∀ term ∈ terms, term.type.IsReread) {rest : List Token}
    (hRest : nextKind rest = .semicolon) :
    ReadsOff (constraint goType)
      (wordTokens ([sign (.operator .or)].intercalate (terms.map Term.words)) ++ rest)
      (respan Span.erase terms) rest := by
  obtain ⟨term, terms, rfl⟩ := List.exists_cons_of_ne_nil hNe
  rw [wordTokens_intercalate rfl, List.map_map]
  refine readsOff_sepBy (fun term hTerm last hLast => readsOff_term (hTypes term hTerm) ?_) ?_
  · rcases hLast with hLast | hLast
    · rw [hLast]; rfl
    · rw [hLast, hRest]; rfl
  · rw [hRest]
    simp

/-- What follows on the first name of a type opens no round bracket. -/
theorem kindAt_name_ne {type : GoType} (h : type.IsReread) (hFirst : type.firstKind = .identifier)
    {last : List Token} (hLast : nextKind last ≠ .opening .round) :
    (Cursor.ofTokens (wordTokens type.words ++ last)).kindAt 1 ≠ .opening .round := by
  obtain ⟨package, name, args, span, rfl⟩ := exists_named_of_firstKind hFirst
  obtain ⟨t, ws, hWords, -, hPoint, hArgs, hAlone⟩ := exists_behind_name h.isFormed h.parts last
  rw [hWords, kindAt_ofTokens]
  by_cases hPackage : package = none
  · by_cases hNil : args = []
    · rwa [hAlone hPackage hNil]
    · rw [(hArgs hPackage hNil).1]
      simp
  · rw [hPoint hPackage]
    simp

section

variable {element : InterfaceElement GoType} (hLegible : element.IsLegible)
  (hTypes : ∀ type ∈ element.types, type.IsReread)

include hLegible hTypes

theorem readsOff_interfaceElement {rest : List Token} (hRest : nextKind rest = .semicolon) :
    ReadsOff (interfaceElement goType) (wordTokens element.words ++ rest) (respan Span.erase element)
      rest := by
  cases element with
  | method name signature =>
      obtain ⟨hName, hSignature⟩ := hLegible
      have hEnds : (nextKind rest).endsType = true := by rw [hRest]; rfl
      have hRead := readsOff_signature hSignature hTypes hEnds
      rw [InterfaceElement.words, wordTokens_name _ hName, List.cons_append]
      refine readsOff_kind rfl (readsOff_look (.opening .round) ?_ ?_)
      · rw [Signature.words, wordTokens_append, List.append_assoc, wordTokens_bracketed]
        rfl
      · exact (readsOff_identifier name.name).bind (hRead.bind readsOff_pure)
  | union terms =>
      have hTerms : ∀ term ∈ terms, term.type.IsReread := List.forall_mem_map.1 hTypes
      have hRead := readsOff_constraint hLegible hTerms hRest
      refine readsOff_kind rfl (readsOff_look _ rfl ?_)
      have hUnion : ¬(nextKind (wordTokens (InterfaceElement.union terms).words ++ rest) = .identifier ∧
          (Cursor.ofTokens (wordTokens (InterfaceElement.union terms).words ++ rest)).kindAt 1 = .opening .round) := by
        rintro ⟨hFirst, hNext⟩
        obtain ⟨term, terms, rfl⟩ := List.exists_cons_of_ne_nil hLegible
        rw [InterfaceElement.words, wordTokens_intercalate rfl, List.map_cons, List.map_cons, separated_cons,
          List.append_assoc] at hFirst hNext
        have hTerm := hTerms term List.mem_cons_self
        rcases nextKind_term hTerm _ with hTilde | ⟨hKind, hWords⟩
        · rw [hTilde] at hFirst
          cases hFirst
        · rw [hWords] at hNext
          refine kindAt_name_ne hTerm (hKind.symm.trans hFirst) ?_ hNext
          cases terms with
          | nil => simp [hRest]
          | cons => simp [nextKind]
      rw [if_neg (by simpa using hUnion)]
      exact hRead.bind readsOff_pure

theorem nextKind_element_ne {k : TokenKind} (hk : k.opensType = false) (hTilde : k ≠ .operator .tilde) :
    nextKind (wordTokens element.words) ≠ k := by
  cases element with
  | method name signature =>
      rw [InterfaceElement.words, wordTokens_name _ hLegible.1]
      rintro rfl
      cases hk
  | union terms =>
      obtain ⟨term, terms, rfl⟩ := List.exists_cons_of_ne_nil hLegible
      rw [InterfaceElement.words, wordTokens_intercalate rfl, List.map_cons, List.map_cons, separated_cons]
      rcases nextKind_term (hTypes term.type (by simp [InterfaceElement.types])) _ with hFirst | ⟨hFirst, -⟩
      · rw [hFirst]
        exact hTilde.symm
      · rw [hFirst]
        exact firstKind_ne hk

end

theorem reads_interface {elements : List (InterfaceElement GoType)} (span : Span)
    (hFormed : (interface elements span).IsFormed)
    (hParts : ∀ part ∈ (interface elements span).parts, part.IsReread) (rest : List Token) :
    ReadsOff goType (wordTokens (interface elements span).words ++ rest)
      (respan Span.erase (interface elements span)) rest := by
  have hTypes : ∀ element ∈ elements, ∀ type ∈ element.types, type.IsReread := fun element hElement type hType =>
    hParts type (List.mem_flatMap.2 ⟨element, hElement, hType⟩)
  rw [words_interface, wordTokens_sign _ rfl, respan_interface]
  refine readsOff_goType rfl rfl (readsOff_block (fun element hElement _ hLast =>
    readsOff_interfaceElement (hFormed element hElement) (hTypes element hElement) hLast)
    (fun element hElement => ?_) rest)
  have hNot {k : TokenKind} :=
    nextKind_element_ne (k := k) (hFormed element hElement) (hTypes element hElement)
  exact ⟨ne_nil_of_nextKind (hNot rfl (by simp)), hNot rfl (by simp), hNot rfl (by simp)⟩

/-! ## All forms -/

/-- Legible types are read again. -/
theorem isReread_of_isLegible {type : GoType} (h : type.IsLegible) : type.IsReread := by
  induction h with
  | @intro type hFormed hLegible hParts =>
      refine ⟨.intro hFormed hLegible, fun part hPart => (hParts part hPart).balanced, fun rest hRest => ?_⟩
      cases type with
      | named package name args span => exact reads_named hParts span hFormed hRest
      | pointer elem span => exact reads_pointer (hParts elem (by simp [parts])) span hRest
      | slice elem span => exact reads_slice (hParts elem (by simp [parts])) span hRest
      | array length elem span => exact reads_array (hParts elem (by simp [parts])) span hFormed hRest
      | map key value span =>
          exact reads_map (hParts value (by simp [parts])) span (hParts key (by simp [parts])) hRest
      | chan direction elem span => exact reads_chan (hParts elem (by simp [parts])) span hFormed hRest
      | func signature => exact reads_func hFormed hParts hRest
      | struct fields span => exact reads_struct span hFormed hParts rest
      | interface elements span => exact reads_interface span hFormed hParts rest
      | paren inner span => exact reads_paren (hParts inner (by simp [parts])) span

end Parser

end GoTemplate
