import GoTemplate.Proofs.Lexical.SpelledRows
import GoTemplate.Proofs.Syntax.BlockReading

/-!
Types are read again from their texts. The words of a legible type are tokens, or for lengths of arrays
tokens in a row, so that the text of the type has the tokens of its words.
-/

namespace GoTemplate

open TokenKind (sign)

/-! ## Words as rows of tokens -/

/-- Texts that are tokens with single spaces between them, one token at least. -/
def IsRow (t : Text) : Prop :=
  ∃ ws, t = Token.row ws ∧ ws ≠ [] ∧ ∀ w ∈ ws, w.kind ≠ .comment ∧ Lexeme.Spells w.kind w.lexeme

theorem isRow_of_spells {kind : TokenKind} {t : Text} (h : Lexeme.Spells kind t)
    (hKind : kind ≠ .comment) : IsRow t :=
  ⟨[⟨kind, t, .none⟩], (Token.row_singleton ⟨kind, t, .none⟩).symm, by simp, by simpa using ⟨hKind, h⟩⟩

theorem isRow_sign {k : TokenKind} (h : k.spelling?.isSome = true) : IsRow k.sign :=
  isRow_of_spells (Lexeme.spells_sign h) (by rintro rfl; cases h)

theorem IsName.isRow {t : Text} (h : IsName t) : IsRow t := isRow_of_spells h (by simp)

theorem IsTag.isRow {t : Text} (h : IsTag t) : IsRow t := by
  rcases h with h | h
  · exact isRow_of_spells h (by simp)
  · exact isRow_of_spells h (by simp)

theorem IsLength.isRow {t : Text} (h : IsLength t) : IsRow t := by
  obtain ⟨ws, hText, hNe, -, hSpells, -⟩ := h
  exact ⟨ws, hText, hNe, hSpells⟩

theorem Token.row_append {us vs : List Token} (hus : us ≠ []) (hvs : vs ≠ []) :
    row (us ++ vs) = row us ++ ' ' :: row vs := by
  obtain ⟨v, vs, rfl⟩ := List.exists_cons_of_ne_nil hvs
  induction us with
  | nil => exact absurd rfl hus
  | cons u us ih =>
      cases us with
      | nil => rw [List.singleton_append, row_cons_cons, row_singleton]
      | cons u' us =>
          have hLater := ih (by simp)
          rw [List.cons_append] at hLater ⊢
          rw [List.cons_append, row_cons_cons, hLater, row_cons_cons, List.append_assoc, List.cons_append]

/-- The text of words has the tokens of the words. -/
theorem exists_row_of_words {words : List Text} (h : ∀ t ∈ words, IsRow t) :
    ∃ ws, Text.joinWithSpaces words = Token.row ws ∧ wordTokens words = ws.map Token.bare ∧
      (words ≠ [] → ws ≠ []) ∧ ∀ w ∈ ws, w.kind ≠ .comment ∧ Lexeme.Spells w.kind w.lexeme := by
  induction words with
  | nil => exact ⟨[], rfl, rfl, by simp, by simp⟩
  | cons t words ih =>
      obtain ⟨⟨us, rfl, hus, hSpells⟩, hWords⟩ := List.forall_mem_cons.1 h
      obtain ⟨vs, hText, hTokens, hvs, hSpells'⟩ := ih hWords
      refine ⟨us ++ vs, ?_, ?_, fun _ => List.append_ne_nil_of_left_ne_nil hus vs,
        List.forall_mem_append.2 ⟨hSpells, hSpells'⟩⟩
      · cases words with
        | nil =>
            obtain rfl : vs = [] := by simpa using hTokens.symm
            rw [Text.joinWithSpaces_singleton, List.append_nil]
        | cons u words =>
            rw [Text.joinWithSpaces_cons_cons, hText, Token.row_append hus (hvs (by simp))]
      · rw [wordTokens_cons, hTokens, List.map_append,
          Text.standing_row (fun w hw => (hSpells w hw).2) fun w hw => (hSpells w hw).1]

/-! ## Words of types -/

/-- Words each of which is a row of tokens. -/
def AreRows (words : List Text) : Prop := ∀ t ∈ words, IsRow t

namespace AreRows

variable {words others : List Text}

theorem nil : AreRows [] := fun _ h => nomatch h

theorem cons {t : Text} (ht : IsRow t) (h : AreRows words) : AreRows (t :: words) :=
  List.forall_mem_cons.2 ⟨ht, h⟩

theorem append (h : AreRows words) (hOthers : AreRows others) : AreRows (words ++ others) :=
  List.forall_mem_append.2 ⟨h, hOthers⟩

theorem intercalate {t : Text} (ht : IsRow t) {items : List (List Text)}
    (h : ∀ item ∈ items, AreRows item) : AreRows ([t].intercalate items) := by
  induction items with
  | nil => exact nil
  | cons item items ih =>
      obtain ⟨hItem, hItems⟩ := List.forall_mem_cons.1 h
      cases items with
      | nil => rwa [List.intercalate_singleton]
      | cons next items =>
          rw [List.intercalate_cons_cons]
          exact (hItem.append (.cons ht .nil)).append (ih hItems)

theorem bracketed (b : Bracket) {items : List (List Text)} (h : ∀ item ∈ items, AreRows item) :
    AreRows (bracketed b items) :=
  .cons (isRow_sign rfl) ((intercalate (isRow_sign rfl) h).append (.cons (isRow_sign rfl) .nil))

theorem bracketedIfAny (b : Bracket) {items : List (List Text)} (h : ∀ item ∈ items, AreRows item) :
    AreRows (bracketedIfAny b items) := by
  rw [GoTemplate.bracketedIfAny]
  split
  · exact nil
  · exact bracketed b h

theorem lines {α : Type} {f : α → List Text} {as : List α} (h : ∀ a ∈ as, AreRows (f a)) :
    AreRows (linesWords f as) := by
  intro t ht
  obtain ⟨a, ha, ht⟩ := List.mem_flatMap.1 ht
  exact ((h a ha).append (.cons (isRow_sign rfl) .nil)) t ht

theorem wordIf (present : Bool) {t : Text} (ht : IsRow t) : AreRows (wordIf present t) := by
  cases present with
  | false => exact nil
  | true => exact .cons ht .nil

theorem packageWords {package : Option Identifier} (h : ∀ p ∈ package, IsName p.name) :
    AreRows (packageWords package) := by
  cases package with
  | none => exact nil
  | some package => exact .cons (h package rfl).isRow (.cons (isRow_sign rfl) .nil)

theorem channelWords (direction : ChannelDirection) : AreRows (channelWords direction) := by
  cases direction with
  | both => exact .cons (isRow_sign rfl) .nil
  | send => exact .cons (isRow_sign rfl) (.cons (isRow_sign rfl) .nil)
  | receive => exact .cons (isRow_sign rfl) (.cons (isRow_sign rfl) .nil)

/-! ### Parts of types -/

theorem param {param : Param GoType} (hName : ∀ name ∈ param.name, IsName name.name)
    (hType : AreRows param.type.words) : AreRows param.words := by
  refine append ?_ ((wordIf _ (isRow_sign rfl)).append hType)
  intro t ht
  obtain ⟨name, hMem, rfl⟩ := List.mem_map.1 ht
  exact (hName name (Option.mem_toList.1 hMem)).isRow

theorem signature {signature : Signature GoType} (hLegible : signature.IsLegible)
    (hTypes : ∀ type ∈ signature.types, AreRows type.words) : AreRows signature.words := by
  obtain ⟨hParams, hResults⟩ := List.forall_mem_append.1 hTypes
  have hList {params : List (Param GoType)} (h : IsParamList params)
      (hTypes : ∀ type ∈ params.map Param.type, AreRows type.words) :
      ∀ item ∈ params.map Param.words, AreRows item := by
    rw [List.forall_mem_map] at hTypes ⊢
    exact fun param hParam => .param (h.name_of_mem hParam) (hTypes param hParam)
  exact (bracketed .round (hList hLegible.params hParams)).append
    (bracketedIfAny .round (hList hLegible.results hResults))

theorem field {field : Field GoType} (hLegible : field.IsLegible) (hType : AreRows field.type.words) :
    AreRows field.words := by
  refine (intercalate (isRow_sign rfl) ?_).append (hType.append ?_)
  · rw [List.forall_mem_map]
    exact fun name hName => .cons (hLegible.names name hName).isRow .nil
  · exact fun text hText => (hLegible.tag text (Option.mem_toList.1 hText)).isRow

theorem element {element : InterfaceElement GoType} (hLegible : element.IsLegible)
    (hTypes : ∀ type ∈ element.types, AreRows type.words) : AreRows element.words := by
  cases element with
  | method name method => exact .cons hLegible.1.isRow (signature hLegible.2 hTypes)
  | union terms =>
      refine intercalate (isRow_sign rfl) ?_
      rw [InterfaceElement.types, List.forall_mem_map] at hTypes
      rw [List.forall_mem_map]
      exact fun term hTerm => (wordIf _ (isRow_sign rfl)).append (hTypes term hTerm)

end AreRows

/-- The words of a legible type are tokens, or tokens in a row. -/
theorem GoType.IsLegible.areRows {type : GoType} (h : type.IsLegible) : AreRows type.words := by
  induction h with
  | @intro type hFormed _ hParts =>
      have hSign {k : TokenKind} (hk : k.spelling?.isSome = true) : IsRow k.sign := isRow_sign hk
      cases type with
      | named package name args span =>
          rw [words_named]
          refine (AreRows.packageWords hFormed.1).append (.cons hFormed.2.isRow (.bracketedIfAny _ ?_))
          exact List.forall_mem_map.2 hParts
      | pointer elem span => exact .cons (hSign rfl) (hParts elem (by simp [parts]))
      | slice elem span => exact .cons (hSign rfl) (.cons (hSign rfl) (hParts elem (by simp [parts])))
      | array length elem span =>
          exact .cons (hSign rfl) (.cons (IsLength.isRow hFormed) (.cons (hSign rfl)
            (hParts elem (by simp [parts]))))
      | map key value span =>
          exact .cons (hSign rfl) (.cons (hSign rfl) ((hParts key (by simp [parts])).append
            (.cons (hSign rfl) (hParts value (by simp [parts])))))
      | chan direction elem span =>
          exact (AreRows.channelWords direction).append (hParts elem (by simp [parts]))
      | func signature =>
          rw [words_func]
          exact .cons (hSign rfl) (.signature hFormed hParts)
      | struct fields span =>
          rw [words_struct]
          refine .cons (hSign rfl) (.cons (hSign rfl) (AreRows.append (.lines ?_) (.cons (hSign rfl) .nil)))
          exact fun field hField => .field (hFormed field hField) (hParts _ (List.mem_map_of_mem hField))
      | interface elements span =>
          rw [words_interface]
          refine .cons (hSign rfl) (.cons (hSign rfl) (AreRows.append (.lines ?_) (.cons (hSign rfl) .nil)))
          exact fun element hElement => .element (hFormed element hElement) fun type hType =>
            hParts type (List.mem_flatMap.2 ⟨element, hElement, hType⟩)
      | paren inner span =>
          exact .cons (hSign rfl) ((hParts inner (by simp [parts])).append (.cons (hSign rfl) .nil))

/-! ## Texts of types -/

/-- The tokens of a run without faults are spelled. -/
theorem Cursor.isSpelled_ofRun {source : Text}
    (h : (Lexer.ofSource .statements source).run.after.errors = []) :
    (Cursor.ofRun (Lexer.ofSource .statements source).run).IsSpelled where
  stop_kind := Lexer.run_stop_kind _
  rest t ht := by
    obtain ⟨-, hTokens⟩ := Lexer.bareTokens_run (l := .ofSource .statements source) rfl h
    exact ⟨Lexer.run_tokens_kind _ t ht, hTokens.isSpelled t.bare (List.mem_map_of_mem ht)⟩

/-- The text of a legible type has the tokens of its words, and perhaps a semicolon behind them. -/
theorem GoType.IsLegible.tokens?_text {type : GoType} (h : type.IsLegible) :
    ∃ tail, (tail = [] ∨ tail = [.automatic]) ∧
      type.text.tokens? = some (wordTokens type.words ++ tail) := by
  obtain ⟨ws, hText, hTokens, -, hSpells⟩ := exists_row_of_words h.areRows
  obtain ⟨tail, hTail, hBare⟩ :=
    BareTokens.row (fun w hw => (hSpells w hw).1) (fun w hw => (hSpells w hw).2) false
  refine ⟨tail, hTail, ?_⟩
  rw [Text.tokens?_eq_some, GoType.text, hText, hTokens]
  exact hBare

namespace Parser

/-- A type and nothing behind it but perhaps a semicolon. -/
def wholeType : Parser GoType := do
  let type ← goType
  let _ ← eat .semicolon
  if (← kind) = .endOfSource then return type else unexpected .endOfType

theorem wholeType_eq : wholeType = (do
    let type ← goType
    let _ ← eat .semicolon
    if (← kind) ≠ .endOfSource then unexpected .endOfType
    return type) := by
  have hEnd (k : TokenKind) (type : GoType) :
      (if k = .endOfSource then return type else unexpected .endOfType : Parser GoType) = (do
        if k ≠ .endOfSource then unexpected .endOfType
        return type) := by
    by_cases hk : k = .endOfSource
    · rw [if_pos hk, if_neg (by simpa using hk)]
    · rw [if_neg hk, if_pos hk]
      rfl
  simp only [wholeType, hEnd]

theorem abreast_wholeType (V : SpanRelation) (n : Nat) :
    Abreast V n wholeType wholeType (EqUpTo V) := by
  refine (abreast_goType V n).bind fun type type' hType => abreast_eat.bind fun _ _ _ => ?_
  apply abreast_kind_bind
  intro k
  split
  · exact (abreast_pure hType).from
  · exact abreast_reject _

theorem inStep_wholeType (n : Nat) : InStep Span.erase n wholeType wholeType :=
  (abreast_wholeType (.ofMerges merges_erase) n).inStep

theorem readsOff_wholeType {type : GoType} {ws tail : List Token} (hTail : tail = [] ∨ tail = [.automatic])
    (h : ReadsOff goType ws type tail) : ReadsOff wholeType ws type [] := by
  refine h.bind ?_
  rcases hTail with rfl | rfl
  · exact (readsOff_eat_other (by simp [Brackets.nextKind])).bind (readsOff_kind rfl readsOff_pure)
  · have hEat : ReadsOff (eat .semicolon) [.automatic] true [] :=
      readsOff_kind rfl ((readsOff_take rfl).bind readsOff_pure)
    exact hEat.bind (readsOff_kind rfl readsOff_pure)

end Parser

theorem GoType.parse_eq (source : Text) : parse source = readSource Parser.wholeType source := by
  rw [Parser.wholeType_eq]
  rfl

/-- What is read of a source is what the reader of types reads from its first token on. -/
theorem GoType.goType_of_parse {source : Text} {type : GoType} (h : parse source = .ok type) :
    (Lexer.ofSource .statements source).run.after.errors = [] ∧
      ∃ c, Parser.goType (.ofRun (Lexer.ofSource .statements source).run) = .ok (type, c) := by
  rw [parse_eq] at h
  obtain ⟨hErrors, c, hRun⟩ := readSource_eq_ok h
  obtain ⟨found, c₁, hType, hRun⟩ := Parser.bind_eq_ok.1 hRun
  obtain ⟨_, c₂, -, hRun⟩ := Parser.bind_eq_ok.1 hRun
  obtain ⟨k, c₃, -, hRun⟩ := Parser.bind_eq_ok.1 hRun
  by_cases hk : k = .endOfSource
  · rw [if_pos hk] at hRun
    cases hRun
    exact ⟨hErrors, c₁, hType⟩
  · rw [if_neg hk] at hRun
    cases hRun

/-- What is read of a source is a legible type. -/
theorem GoType.isLegible_of_parse {source : Text} {type : GoType} (h : parse source = .ok type) :
    type.IsLegible := by
  obtain ⟨hErrors, c, hType⟩ := goType_of_parse h
  exact (Parser.givesLegible_goType _ _ _ _ ⟨Cursor.isSpelled_ofRun hErrors, rfl⟩ hType).2.1

/-- Nothing of a type is lost when it is read: its text is read as the same type, up to places. -/
theorem GoType.parse_text_of_parse {source : Text} {type : GoType} (h : parse source = .ok type) :
    ∃ found, parse type.text = .ok found ∧ respan Span.erase found = respan Span.erase type := by
  have hLegible := isLegible_of_parse h
  obtain ⟨tail, hTail, hTokens⟩ := hLegible.tokens?_text
  have hEnds : (Brackets.nextKind tail).endsType = true := by
    rcases hTail with rfl | rfl <;> rfl
  have hRead := Parser.readsOff_wholeType hTail ((Parser.isReread_of_isLegible hLegible).reads tail hEnds)
  obtain ⟨found, hFound, hSame⟩ := readSource_of_ofTokens Parser.inStep_wholeType hTokens hRead
  exact ⟨found, (parse_eq _).trans hFound, hSame⟩

/-- A signature with names for several parameters and a result without brackets. -/
theorem GoType.parse_text_of_parse_signature : ∃ type,
    parse "func(a, b int, c ...[2*n]string) map[K]*p.T[int]".toList = .ok type ∧
      type.text = "func ( a int , b int , c ... [ 2 * n ] string ) ( map [ K ] * p . T [ int ] )".toList ∧
      ∃ found, parse type.text = .ok found ∧ respan Span.erase found = respan Span.erase type := by
  have hText : (parse "func(a, b int, c ...[2*n]string) map[K]*p.T[int]".toList).toOption.map text =
      some "func ( a int , b int , c ... [ 2 * n ] string ) ( map [ K ] * p . T [ int ] )".toList := by
    decide +kernel
  cases hParse : parse "func(a, b int, c ...[2*n]string) map[K]*p.T[int]".toList with
  | error e => rw [hParse] at hText; cases hText
  | ok type =>
      rw [hParse] at hText
      exact ⟨type, rfl, Option.some.inj hText, parse_text_of_parse hParse⟩

end GoTemplate
