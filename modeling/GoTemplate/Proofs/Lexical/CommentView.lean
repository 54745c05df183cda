import GoTemplate.Proofs.Lexical.BareTokens

/-!
Comments as a view. A reader for which comments are tokens and one that skips them go through a
source side by side: they find the same other tokens in the same places, with the same automatic
semicolons between them, and meet the same faults.
-/

namespace GoTemplate

namespace Token

/-- Whether the token is a comment. -/
def isComment (t : Token) : Bool := decide (t.kind = .comment)

end Token

namespace Lexer

/-- The reader at the same place that skips comments. -/
def skippingComments (l : Lexer) : Lexer := { l with mode := { l.mode with comments := false } }

@[simp] theorem skippingComments_comments (l : Lexer) : l.skippingComments.mode.comments = false :=
  rfl

@[simp] theorem skippingComments_semicolonDue (l : Lexer) :
    l.skippingComments.semicolonDue = l.semicolonDue := rfl

theorem skipGap_skippingComments (l : Lexer) :
    l.skippingComments.skipGap = l.skipGap.skippingComments := rfl

theorem token_skippingComments (l : Lexer) (lexeme : Lexeme) :
    l.skippingComments.token lexeme = l.token lexeme := rfl

theorem accept_skippingComments (l : Lexer) (lexeme : Lexeme) :
    l.skippingComments.accept lexeme = (l.accept lexeme).skippingComments := by
  unfold accept
  split <;> rfl

theorem isComment_token {l : Lexer} {lexeme : Lexeme} :
    (l.token lexeme).isComment = true ↔ lexeme.reading = .ok .comment := by
  rw [Token.isComment, decide_eq_true_iff, token]
  cases hReading : lexeme.reading with
  | ok kind => simp
  | error fault => simp

/-- One step of a reader for which comments are tokens: at a comment the other reader goes on to its
next token, and at any other token both take it and stay side by side. -/
theorem next_skippingComments {l : Lexer} (hMode : l.mode.comments = true) :
    l.skippingComments.next =
      if l.next.1.isComment then l.next.2.skippingComments.next
      else (l.next.1, l.next.2.skippingComments) := by
  cases hEnds : l.semicolonDue && Comment.lineEnds l.skipGap.rest with
  | true =>
      rw [next_of_lineEnds hEnds, next_of_lineEnds (l := l.skippingComments) hEnds, if_neg]
      · rfl
      · simp [semicolon, Token.isComment]
  | false =>
      cases hRest : l.skipGap.rest with
      | nil =>
          have hDue : l.semicolonDue = false := by
            rw [hRest] at hEnds
            simpa [Comment.lineEnds] using hEnds
          rw [next_of_nil hDue hRest, next_of_nil (l := l.skippingComments) hDue hRest, if_neg]
          · rfl
          · simp [Token.isComment]
      | cons c t =>
          rw [hRest] at hEnds
          have hView : l.next = (l.skipGap.token (Lexeme.scan c t),
              l.skipGap.accept (Lexeme.scan c t)) := by
            rw [next_of_cons hEnds hRest, hMode]
            simp
          have hPlain := next_of_cons (l := l.skippingComments) hEnds hRest
          rw [skipGap_skippingComments, accept_skippingComments, token_skippingComments] at hPlain
          rw [hPlain, hView]
          dsimp only
          by_cases hScan : (Lexeme.scan c t).reading = .ok .comment
          · rw [if_pos (by simp [hScan]), if_pos (isComment_token.2 hScan)]
          · rw [if_neg, if_neg (mt isComment_token.1 hScan)]
            simp

/-- A whole run, by one step after the other. -/
theorem run_skippingComments (l : Lexer) : l.mode.comments = true →
    l.skippingComments.run =
      ⟨l.run.tokens.filter (!·.isComment), l.run.stop, l.run.after.skippingComments⟩ := by
  fun_induction run l with
  | case1 l token after hNext hEnd =>
      intro hMode
      have hStep := next_skippingComments hMode
      rw [hNext, if_neg (by simp [Token.isComment, hEnd])] at hStep
      rw [run_eq, hStep, if_pos hEnd]
      rfl
  | case2 l token after hNext hEnd others ih =>
      intro hMode
      have hAfter : after.mode.comments = true := by
        rw [← hMode, ← next_mode l, hNext]
      have hStep := next_skippingComments hMode
      rw [hNext] at hStep
      dsimp only at hStep ⊢
      by_cases hComment : token.isComment = true
      · rw [if_pos hComment] at hStep
        rw [run_eq, hStep, ← run_eq, ih hAfter, List.filter_cons_of_neg (by simp [hComment])]
      · rw [if_neg hComment] at hStep
        rw [run_eq, hStep, if_neg hEnd, ih hAfter, List.filter_cons_of_pos (by simpa using hComment)]

/-- Whether comments are tokens is a matter of view. Without its comments, what a reader finds in a
source for which they are tokens is what the reader finds that skips them: the same tokens and end of
the source, kinds, lexemes and places, automatic semicolons among them, and the same faults. -/
theorem run_comments (semicolons : Bool) (source : Text) :
    let view := (ofSource ⟨true, semicolons⟩ source).run
    let plain := (ofSource ⟨false, semicolons⟩ source).run
    view.tokens.filter (fun t => t.kind ≠ .comment) = plain.tokens ∧ view.stop = plain.stop ∧
      view.after.takeErrors.1 = plain.after.takeErrors.1 := by
  intro view plain
  have hRun := (ofSource ⟨true, semicolons⟩ source).run_skippingComments rfl
  change plain = _ at hRun
  have hKinds : (fun t : Token => !t.isComment) = fun t => decide (t.kind ≠ .comment) := by
    funext t
    exact decide_not.symm
  rw [hRun, ← hKinds]
  exact ⟨rfl, rfl, rfl⟩

end Lexer

end GoTemplate
