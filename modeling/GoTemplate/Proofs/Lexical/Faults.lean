import GoTemplate.Proofs.Lexical.BareTokens

/-!
The faults that a reader of tokens records. There is one for each token that is invalid, in the order
of the source and in the place of the token, and none for anything else.
-/

namespace GoTemplate.Lexer

/-- The places of the tokens that are invalid. -/
def invalidSpans (tokens : List Token) : List Span :=
  (tokens.filter (·.kind = .invalid)).map Token.span

theorem kind_token_of_ok {l : Lexer} {lexeme : Lexeme} {kind : TokenKind}
    (h : lexeme.reading = .ok kind) : (l.token lexeme).kind = kind := by
  rw [token, h]

/-- One step records the fault of its token, if it is invalid. -/
theorem next_errors (l : Lexer) :
    l.next.2.errors.map LexicalError.span =
      l.errors.map LexicalError.span ++ invalidSpans [l.next.1] := by
  fun_induction next l with
  | case1 l here => simp [invalidSpans, semicolon, here, skipGap, moveOn]
  | case2 l here => simp [invalidSpans, here, skipGap, moveOn]
  | case3 l here _ c t _ lexeme hSkip ih =>
      have hScan : lexeme.reading = .ok .comment := reading_of_skip hSkip
      rw [ih, accept_errors_of_ok hScan]
      rfl
  | case4 l here _ c t _ lexeme =>
      cases hScan : lexeme.reading with
      | ok kind =>
          have hKind : kind ≠ .invalid := by
            rintro rfl
            exact Lexeme.reading_ne (.inr rfl) c t hScan
          have hNone : invalidSpans [here.token lexeme] = [] := by
            simp [invalidSpans, kind_token_of_ok hScan, hKind]
          rw [accept_errors_of_ok hScan, hNone, List.append_nil]
          rfl
      | error fault =>
          have hOne : invalidSpans [here.token lexeme] = [(here.token lexeme).span] := by
            simp [invalidSpans, token, hScan]
          have hErrors : (here.accept lexeme).errors =
              l.errors ++ [⟨fault, (here.token lexeme).span⟩] := by
            rw [accept, hScan]
            rfl
          rw [hErrors, hOne, List.map_append]
          rfl

/-- A run records the faults of its tokens, one after the other. -/
theorem run_errors (l : Lexer) :
    l.run.after.errors.map LexicalError.span =
      l.errors.map LexicalError.span ++ invalidSpans l.run.tokens := by
  fun_induction run l with
  | case1 l token after hNext hEnd =>
      have hStep := l.next_errors
      rw [hNext] at hStep
      rw [hStep]
      simp [invalidSpans, hEnd]
  | case2 l token after hNext hEnd others ih =>
      have hStep := l.next_errors
      rw [hNext] at hStep
      have hCons : invalidSpans (token :: others.tokens) =
          invalidSpans [token] ++ invalidSpans others.tokens := by
        rw [invalidSpans, invalidSpans, invalidSpans, ← List.map_append, ← List.filter_append]
        rfl
      rw [ih, hStep, hCons, List.append_assoc]

end GoTemplate.Lexer
