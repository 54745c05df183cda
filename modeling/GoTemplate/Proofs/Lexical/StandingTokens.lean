import GoTemplate.Proofs.Lexical.Verbatim

/-!
The tokens that stand in a text, comments included, without their places. They are said as a
relation between a text of which every part is a token and these tokens, and a reader that keeps
comments finds them wherever the text stands.
-/

namespace GoTemplate

open Lexer in
/-- What stands in a text of which every part is a token or a comment. -/
inductive StandingTokens : Text → List Token → Prop where
  | stop {t : Text} (hGap : (splitGap false t).2 = []) : StandingTokens t []
  | token {t u : Text} {c : Char} {kind : TokenKind} {ws : List Token}
      (hGap : (splitGap false t).2 = c :: u) (hScan : (Lexeme.scan c u).reading = .ok kind)
      (hRest : StandingTokens (Lexeme.scan c u).rest ws) :
      StandingTokens t (⟨kind, (Lexeme.scan c u).text, .none⟩ :: ws)

namespace Lexer

theorem IsVerbatim.rest_scan_length_lt {l : Lexer} (h : l.IsVerbatim) {c : Char} {t : Text}
    (hGap : (splitGap false l.rest).2 = c :: t) : (Lexeme.scan c t).rest.length < l.rest.length := by
  have hGapLength := skipGap_rest_length l
  have hScan := Lexeme.rest_scan_length c t
  rw [h.skipGap_rest, hGap, List.length_cons] at hGapLength
  omega

/-- A run without faults finds what stands in the text. -/
theorem standingTokens_run {l : Lexer} (h : l.IsVerbatim) (hErrors : l.run.after.errors = []) :
    l.errors = [] ∧ StandingTokens l.rest (l.run.tokens.map Token.bare) := by
  cases hGap : (splitGap false l.rest).2 with
  | nil =>
      rw [h.run_of_nil hGap] at hErrors ⊢
      exact ⟨hErrors, .stop hGap⟩
  | cons c t =>
      have hLess := h.rest_scan_length_lt hGap
      rw [h.run_of_cons hGap] at hErrors ⊢
      obtain ⟨hNext, hRest⟩ := standingTokens_run (h.skipGap.accept _) hErrors
      cases hScan : (Lexeme.scan c t).reading with
      | error fault =>
          rw [accept, hScan] at hNext
          exact absurd hNext (List.append_ne_nil_of_right_ne_nil _ (List.cons_ne_nil _ _))
      | ok kind =>
          rw [accept_errors_of_ok hScan] at hNext
          rw [accept_rest] at hRest
          refine ⟨hNext, ?_⟩
          rw [List.map_cons, Token.bare, token, hScan]
          exact .token hGap hScan hRest
  termination_by l.rest.length

end Lexer

/-- A reader that keeps comments finds what stands in its text. -/
theorem StandingTokens.run_eq {t : Text} {ws : List Token} (h : StandingTokens t ws) {l : Lexer}
    (hl : l.IsVerbatim) (hRest : l.rest = t) (hErrors : l.errors = []) :
    l.run.after.errors = [] ∧ l.run.tokens.map Token.bare = ws := by
  induction h generalizing l with
  | stop hGap =>
      rw [hl.run_of_nil (hRest ▸ hGap)]
      exact ⟨hErrors, rfl⟩
  | @token t u c kind ws hGap hScan _ ih =>
      rw [hl.run_of_cons (hRest ▸ hGap)]
      obtain ⟨hAfter, hTokens⟩ := ih (hl.skipGap.accept _) (Lexer.accept_rest _ _)
        (by rw [Lexer.accept_errors_of_ok hScan]; exact hErrors)
      refine ⟨hAfter, ?_⟩
      rw [List.map_cons, hTokens, Token.bare, Lexer.token, hScan]

/-- Whether all of a text is tokens shows in the faults that a reader collects. -/
theorem standingTokens_iff {t : Text} {ws : List Token} :
    StandingTokens t ws ↔ (Lexer.ofSource .verbatim t).run.after.errors = [] ∧
      (verbatimTokens t).map Token.bare = ws := by
  constructor
  · intro h
    exact h.run_eq (Lexer.isVerbatim_ofSource t) rfl rfl
  · intro h
    obtain ⟨hErrors, rfl⟩ := h
    exact (Lexer.standingTokens_run (Lexer.isVerbatim_ofSource t) hErrors).2

end GoTemplate
