import GoTemplate.Proofs.Lexical.Faults
import GoTemplate.Proofs.Syntax.TypeSource
import GoTemplate.Report.Diagnostic

/-!
What becomes of a source. It depends on the kinds and the lexemes of its tokens alone, and not on
where they stand or on what stands between them. A source is rejected for all its invalid tokens, or
for one breach of the grammar at one of its tokens.
-/

namespace GoTemplate

/-- The tokens that a grammar reads from a source, with the end of the source behind them. -/
def Text.stream (source : Text) : List Token :=
  (Lexer.ofSource .statements source).run.tokens ++ [(Lexer.ofSource .statements source).run.stop]

/-- Spans of tokens that stand at the same place in two lists. What is read has no spans. -/
def SpanRelation.atSameIndex (ts us : List Token) : SpanRelation where
  token s t := ∃ i : Nat, ts[i]?.map Token.span = some s ∧ us[i]?.map Token.span = some t
  previous _ _ := True
  left := Span.erase
  right := Span.erase
  previous_of_token _ := trivial
  left_eq _ := rfl
  left_merge_eq _ _ := rfl

/-- Whether two sources, with these tokens, have the same fate: what they are differs in nothing but
spans, or they are rejected for the same breach of the grammar at the tokens with the same index. -/
inductive SameOutcome (ts us : List Token) {α : Type} [Spanned α] :
    Except Rejection α → Except Rejection α → Prop where
  | accepted {a b : α} (hSame : respan Span.erase a = respan Span.erase b) :
    SameOutcome ts us (.ok a) (.ok b)
  | rejected {e e' : SyntaxError} (hFault : e.fault = e'.fault) (i : Nat)
    (hSpan : ts[i]?.map Token.span = some e.span) (hSpan' : us[i]?.map Token.span = some e'.span) :
    SameOutcome ts us (.error (.syntactic e)) (.error (.syntactic e'))

theorem forall₂_atSameIndex {ts us : List Token}
    (h : ts.map (fun t => (t.kind, t.lexeme)) = us.map fun t => (t.kind, t.lexeme)) :
    List.Forall₂ (Token.GoesWith (.atSameIndex ts us)) ts us := by
  have hLength : ts.length = us.length := by simpa using congrArg List.length h
  refine List.forall₂_iff_get.2 ⟨hLength, fun i hi hi' => ?_⟩
  have hPair := congrArg (·[i]?) h
  simp only [List.getElem?_map, List.getElem?_eq_getElem hi, List.getElem?_eq_getElem hi',
    Option.map_some, Option.some.injEq, Prod.mk.injEq] at hPair
  refine ⟨hPair.1, hPair.2, i, ?_, ?_⟩
  · rw [List.getElem?_eq_getElem hi]
    rfl
  · rw [List.getElem?_eq_getElem hi']
    rfl

/-- At the start of two sources with the same tokens. -/
theorem goesWith_ofRun {s t : Text}
    (h : s.stream.map (fun t => (t.kind, t.lexeme)) = t.stream.map fun t => (t.kind, t.lexeme)) :
    (Cursor.ofRun (Lexer.ofSource .statements s).run).GoesWith (.atSameIndex s.stream t.stream)
      (Cursor.ofRun (Lexer.ofSource .statements t).run) := by
  have hAll : List.Forall₂ (Token.GoesWith (.atSameIndex s.stream t.stream)) (_ ++ [_]) (_ ++ [_]) :=
    forall₂_atSameIndex h
  rw [← List.forall₂_reverse_iff] at hAll
  simp only [List.reverse_append, List.reverse_singleton, List.singleton_append,
    List.forall₂_cons, List.forall₂_reverse_iff] at hAll
  exact ⟨hAll.2, hAll.1, trivial⟩

section

variable {α : Type} [Spanned α] {parser : Parser α}
  (hParser : ∀ V n, Parser.Abreast V n parser parser (EqUpTo V))

include hParser

/-- Readers that go abreast with themselves find the same in sources with the same tokens. -/
theorem sameOutcome_readSource {s t : Text}
    (hs : (Lexer.ofSource .statements s).run.after.errors = [])
    (ht : (Lexer.ofSource .statements t).run.after.errors = [])
    (h : s.stream.map (fun t => (t.kind, t.lexeme)) = t.stream.map fun t => (t.kind, t.lexeme)) :
    SameOutcome s.stream t.stream (readSource parser s) (readSource parser t) := by
  have hBoth := hParser (.atSameIndex s.stream t.stream) _ _ _ (goesWith_ofRun h)
    (Lexer.run_stop_kind _) (Nat.lt_succ_self _) trivial
  rw [readSource, readSource, hs, ht]
  dsimp only
  generalize parser (.ofRun (Lexer.ofSource .statements s).run) = r,
    parser (.ofRun (Lexer.ofSource .statements t).run) = r' at hBoth
  cases hBoth with
  | ok hResult => exact .accepted hResult.1
  | error hFault hSpan =>
      obtain ⟨i, hLeft, hRight⟩ := hSpan
      exact .rejected hFault i hLeft hRight

/-- A breach of the grammar shows at a token of the source. -/
theorem exists_token_of_syntactic {source : Text} {e : SyntaxError}
    (h : readSource parser source = .error (.syntactic e)) : ∃ t ∈ source.stream, e.span = t.span := by
  have hErrors : (Lexer.ofSource .statements source).run.after.errors = [] := by
    by_contra hErrors
    rw [readSource] at h
    split at h
    · exact hErrors ‹_›
    · cases h
  have hSelf := sameOutcome_readSource hParser hErrors hErrors rfl
  rw [h] at hSelf
  cases hSelf with
  | rejected _ i hSpan _ =>
      obtain ⟨t, ht, hEq⟩ := Option.map_eq_some_iff.1 hSpan
      exact ⟨t, List.mem_of_getElem? ht, hEq.symm⟩

end

/-- Layout and comments never decide what a source is. If two sources of which all text is tokens
have the same kinds and lexemes of tokens in the same order, then both are source files, the same up
to spans, or both are rejected with the same fault, class and wording, at tokens with the same index;
and just so where they are read as types. -/
theorem sameOutcome_parse {s t : Text}
    (hs : (Lexer.ofSource .statements s).run.after.errors = [])
    (ht : (Lexer.ofSource .statements t).run.after.errors = [])
    (h : s.stream.map (fun t => (t.kind, t.lexeme)) = t.stream.map fun t => (t.kind, t.lexeme)) :
    SameOutcome s.stream t.stream (SourceFile.parse s) (SourceFile.parse t) ∧
      SameOutcome s.stream t.stream (GoType.parse s) (GoType.parse t) := by
  refine ⟨sameOutcome_readSource (fun _ _ => Parser.abreast_sourceFile) hs ht h, ?_⟩
  rw [GoType.parse_eq, GoType.parse_eq]
  exact sameOutcome_readSource Parser.abreast_wholeType hs ht h

/-- A comment and line breaks between the tokens of a type with a missing bracket. -/
theorem sameOutcome_parse_comment :
    let s : Text := "package p\ntype T [3 int\n".toList
    let t : Text := "package p // c\n\n\ttype T [ 3 /* c */ int".toList
    SameOutcome s.stream t.stream (SourceFile.parse s) (SourceFile.parse t) ∧
      SameOutcome s.stream t.stream (GoType.parse s) (GoType.parse t) :=
  sameOutcome_parse (by decide +kernel) (by decide +kernel) (by decide +kernel)

/-! ## What is reported -/

/-- A breach of the grammar is no invalid token. -/
theorem SyntaxFault.kind_ne_invalidToken (fault : SyntaxFault) : fault.kind ≠ .invalidToken := by
  cases fault with
  | expected what found =>
      rw [kind]
      split <;> simp
  | _ => simp [kind]

namespace Lexer

/-- Where no token is invalid no fault is recorded. -/
theorem errors_eq_nil_iff (mode : LexerMode) (source : Text) :
    (ofSource mode source).run.after.errors = [] ↔
      ¬∃ t ∈ (ofSource mode source).run.tokens, t.kind = .invalid := by
  have hSpans : _ = [] ++ _ := (ofSource mode source).run_errors
  rw [← List.map_eq_nil_iff, hSpans, List.nil_append, invalidSpans, List.map_eq_nil_iff,
    List.filter_eq_nil_iff]
  simp

end Lexer

/-- The fates of a source: its invalid tokens are reported, it is accepted, or the grammar rejects it.
-/
theorem readSource_cases {α : Type} (parser : Parser α) (source : Text) :
    let errors := (Lexer.ofSource .statements source).run.after.errors
    (errors ≠ [] ∧ readSource parser source = .error (.lexical errors)) ∨
      (errors = [] ∧ ((∃ a, readSource parser source = .ok a) ∨
        ∃ e, readSource parser source = .error (.syntactic e))) := by
  intro errors
  rw [readSource]
  cases hErrors : errors with
  | cons e es =>
      left
      change (Lexer.ofSource .statements source).run.after.errors = e :: es at hErrors
      simp only [hErrors]
      exact ⟨List.cons_ne_nil e es, trivial⟩
  | nil =>
      right
      change (Lexer.ofSource .statements source).run.after.errors = [] at hErrors
      simp only [hErrors]
      cases parser (.ofRun (Lexer.ofSource .statements source).run) with
      | ok result => exact ⟨trivial, .inl ⟨result.1, rfl⟩⟩
      | error e => exact ⟨trivial, .inr ⟨e, rfl⟩⟩

/-- Reports of faults are complete and exact. A reader of tokens that has come to the end of a source
has recorded one fault for each invalid token, in their order and in their places. A text is rejected
with nothing but such faults, and then with all of them, exactly if there is an invalid token in it.
Otherwise it is a source file, or rejected with one error of another class, at one of its tokens. -/
theorem SourceFile.diagnostics_of_parse :
    (∀ mode source, (Lexer.ofSource mode source).run.after.takeErrors.1.map LexicalError.span =
      ((Lexer.ofSource mode source).run.tokens.filter (·.kind = .invalid)).map Token.span) ∧
    ∀ source, let tokens := (Lexer.ofSource .statements source).run.tokens
      ((∃ t ∈ tokens, t.kind = .invalid) ↔ ∃ rejection, parse source = .error rejection ∧
        (∀ d ∈ rejection.diagnostics, d.kind = .invalidToken) ∧
        rejection.diagnostics.map Diagnostic.span =
          (tokens.filter (·.kind = .invalid)).map Token.span) ∧
      ((∃ t ∈ tokens, t.kind = .invalid) ∨ (∃ file, parse source = .ok file) ∨
        ∃ rejection d, parse source = .error rejection ∧ rejection.diagnostics = [d] ∧
          d.kind ≠ .invalidToken ∧ ∃ t ∈ source.stream, d.span = t.span) := by
  have hSpans (mode : LexerMode) (source : Text) :
      (Lexer.ofSource mode source).run.after.errors.map LexicalError.span =
        ((Lexer.ofSource mode source).run.tokens.filter (·.kind = .invalid)).map Token.span :=
    (Lexer.ofSource mode source).run_errors
  refine ⟨hSpans, fun source => ?_⟩
  intro tokens
  have hNil := Lexer.errors_eq_nil_iff .statements source
  have hKind (e : SyntaxError) : e.diagnostic.kind ≠ .invalidToken := e.fault.kind_ne_invalidToken
  rcases readSource_cases Parser.sourceFile source with ⟨hErrors, hParse⟩ | ⟨hErrors, hParse⟩
  · have hInvalid : ∃ t ∈ tokens, t.kind = .invalid := by
      by_contra hNone
      exact hErrors (hNil.2 hNone)
    refine ⟨iff_of_true hInvalid ⟨_, hParse, ?_, ?_⟩, .inl hInvalid⟩
    · intro d hd
      obtain ⟨e, -, rfl⟩ := List.mem_map.1 hd
      rfl
    · rw [Rejection.diagnostics, List.map_map]
      exact hSpans .statements source
  · have hValid := hNil.1 hErrors
    rcases hParse with ⟨file, hParse⟩ | ⟨e, hParse⟩
    · refine ⟨iff_of_false hValid ?_, .inr (.inl ⟨file, hParse⟩)⟩
      rintro ⟨rejection, hRejected, -⟩
      cases hParse.symm.trans hRejected
    · obtain ⟨t, ht, hSpan⟩ := exists_token_of_syntactic (fun _ _ => Parser.abreast_sourceFile) hParse
      refine ⟨iff_of_false hValid ?_, .inr (.inr ⟨_, _, hParse, rfl, hKind e, t, ht, hSpan⟩)⟩
      rintro ⟨rejection, hRejected, hOnly, -⟩
      cases hParse.symm.trans hRejected
      exact hKind e (hOnly _ List.mem_cons_self)

end GoTemplate
