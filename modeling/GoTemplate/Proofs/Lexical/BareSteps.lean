import GoTemplate.Proofs.Lexical.SpelledRows

/-!
What a grammar reads, step by step. A token at the front of a text is read and a comment is skipped,
whatever is behind.
-/

namespace GoTemplate

namespace BareTokens

variable {due : Bool} {t u : Text} {ws : List Token}

theorem token_iff {c : Char} {kind : TokenKind} (hGap : (Lexer.splitGap due t).2 = c :: u)
    (hScan : (Lexeme.scan c u).reading = .ok kind) (hKind : kind ≠ .comment) :
    BareTokens due t ws ↔ ∃ later, BareTokens kind.endsStatement (Lexeme.scan c u).rest later ∧
      ws = ⟨kind, (Lexeme.scan c u).text, .none⟩ :: later := by
  have hGoesOn : Comment.lineEnds (c :: u) = false := Lexeme.lineEnds_eq_false hScan hKind
  constructor
  · intro h
    cases h with
    | stop hStop => cases hGap.symm.trans hStop
    | semicolon hSame hEnds =>
        rw [← hSame, hGap, hGoesOn] at hEnds
        cases hEnds
    | comment hSame _ hComment =>
        obtain ⟨rfl, rfl⟩ := List.cons_eq_cons.1 (hGap.symm.trans hSame)
        exact absurd (Except.ok.inj (hScan.symm.trans hComment)) hKind
    | token hSame _ hFound _ hRest =>
        obtain ⟨rfl, rfl⟩ := List.cons_eq_cons.1 (hGap.symm.trans hSame)
        obtain rfl := Except.ok.inj (hScan.symm.trans hFound)
        exact ⟨_, hRest, rfl⟩
  · rintro ⟨later, hRest, rfl⟩
    exact .token hGap (by rw [hGoesOn, Bool.and_false]) hScan hKind hRest

/-- A word in front of what is no letter and no digit. -/
theorem word_iff {z : Text} {kind : TokenKind} (h : Lexeme.Spells kind t)
    (hStart : ∀ c ∈ t.head?, isIdentifierStart c = true) (hKind : kind ≠ .comment)
    (hz : ∀ c ∈ z.head?, isIdentifierPart c = false) : BareTokens due (t ++ z) ws ↔
      ∃ later, BareTokens kind.endsStatement z later ∧ ws = ⟨kind, t, .none⟩ :: later := by
  obtain ⟨c, x, rfl⟩ := h.exists_cons
  have hScan := h.scan_append_of_word (hStart c rfl) hz
  rw [List.cons_append, token_iff (h.splitGap due _) (by rw [hScan]) hKind, hScan]

/-- Behind blanks a byte order mark would be a token. -/
theorem head?_ne_mark {blanks : Text} (hNe : blanks ≠ []) (hBlanks : (Lexer.splitGap false blanks).2 = [])
    (h : BareTokens false (blanks ++ t) ws) : t.head? ≠ some '\uFEFF' := by
  intro hHead
  obtain ⟨u, rfl⟩ := List.head?_eq_some_iff.1 hHead
  have hGap := Lexer.splitGap_append_mark hNe hBlanks u
  have hFirst {c : Char} {x : Text} {kind : TokenKind}
      (hSame : (Lexer.splitGap false (blanks ++ '\uFEFF' :: u)).2 = c :: x)
      (hScan : (Lexeme.scan c x).reading = .ok kind) : False := by
    obtain ⟨rfl, rfl⟩ := List.cons_eq_cons.1 (hGap.symm.trans hSame)
    exact Lexeme.not_isToken_mark u ⟨kind, hScan⟩
  cases h with
  | stop hStop => cases hGap.symm.trans hStop
  | comment hSame _ hScan => exact hFirst hSame hScan
  | token hSame _ hScan => exact hFirst hSame hScan

/-- What starts with a slash is a token or a comment. -/
theorem isToken_of_slash (h : BareTokens due t ws) (hGap : (Lexer.splitGap due t).2 = '/' :: u) :
    (Lexeme.scan '/' u).IsToken := by
  induction h with
  | stop hStop => cases hGap.symm.trans hStop
  | semicolon hSame _ _ ih =>
      obtain rfl := hGap.symm.trans hSame
      exact ih (congrArg Prod.snd (Lexer.splitGap_slash false u))
  | comment hSame _ hScan =>
      obtain ⟨rfl, rfl⟩ := List.cons_eq_cons.1 (hGap.symm.trans hSame)
      exact ⟨_, hScan⟩
  | token hSame _ hScan =>
      obtain ⟨rfl, rfl⟩ := List.cons_eq_cons.1 (hGap.symm.trans hSame)
      exact ⟨_, hScan⟩

/-- A comment is skipped. Where it ends the line and a semicolon is due, this comes first. -/
theorem comment_iff (hGap : (Lexer.splitGap due t).2 = '/' :: u)
    (hScan : (Lexeme.scan '/' u).reading = .ok .comment) : BareTokens due t ws ↔
      if due && Comment.lineEnds ('/' :: u) then
        ∃ later, BareTokens false (Lexeme.scan '/' u).rest later ∧ ws = .automatic :: later
      else BareTokens due (Lexeme.scan '/' u).rest ws := by
  have hSlash : (Lexer.splitGap false ('/' :: u)).2 = '/' :: u :=
    congrArg Prod.snd (Lexer.splitGap_slash false u)
  have hSkip {due : Bool} {t : Text} {ws : List Token} (hGap : (Lexer.splitGap due t).2 = '/' :: u)
      (hGoesOn : (due && Comment.lineEnds ('/' :: u)) = false) (h : BareTokens due t ws) :
      BareTokens due (Lexeme.scan '/' u).rest ws := by
    cases h with
    | stop hStop => cases hGap.symm.trans hStop
    | semicolon hSame hEnds =>
        rw [← hSame, hGap] at hEnds
        rw [hEnds] at hGoesOn
        cases hGoesOn
    | comment hSame _ _ hRest =>
        obtain ⟨rfl, rfl⟩ := List.cons_eq_cons.1 (hGap.symm.trans hSame)
        exact hRest
    | token hSame _ hFound hKind =>
        obtain ⟨rfl, rfl⟩ := List.cons_eq_cons.1 (hGap.symm.trans hSame)
        exact absurd (Except.ok.inj (hFound.symm.trans hScan)) hKind
  split
  · rename_i hEnds
    constructor
    · intro h
      cases h with
      | stop => cases hEnds
      | semicolon hSame _ hRest =>
          obtain rfl := hGap.symm.trans hSame
          exact ⟨_, hSkip hSlash rfl hRest, rfl⟩
      | comment hSame hGoesOn =>
          rw [← hSame, hGap, hEnds] at hGoesOn
          cases hGoesOn
      | token hSame hGoesOn =>
          rw [← hSame, hGap, hEnds] at hGoesOn
          cases hGoesOn
    · rintro ⟨later, hRest, rfl⟩
      obtain ⟨rfl, hEnds⟩ := Bool.and_eq_true_iff.1 hEnds
      exact .semicolon hGap hEnds (.comment hSlash rfl hScan hRest)
  · rename_i hGoesOn
    rw [Bool.not_eq_true] at hGoesOn
    exact ⟨hSkip hGap hGoesOn, .comment hGap hGoesOn hScan⟩

/-- One comment may stand in the place of another. -/
theorem of_comment {t' u' : Text} (hGap : (Lexer.splitGap due t).2 = '/' :: u)
    (hGap' : (Lexer.splitGap due t').2 = '/' :: u')
    (hScan : (Lexeme.scan '/' u).reading = .ok .comment)
    (hScan' : (Lexeme.scan '/' u').reading = .ok .comment)
    (hEnds : Comment.lineEnds ('/' :: u') = Comment.lineEnds ('/' :: u))
    (hRest : ∀ due ws, BareTokens due (Lexeme.scan '/' u).rest ws →
      BareTokens due (Lexeme.scan '/' u').rest ws) (h : BareTokens due t ws) : BareTokens due t' ws := by
  rw [comment_iff hGap hScan] at h
  rw [comment_iff hGap' hScan', hEnds]
  split
  · rw [if_pos ‹_›] at h
    obtain ⟨later, hLater, rfl⟩ := h
    exact ⟨later, hRest _ _ hLater, rfl⟩
  · rw [if_neg ‹_›] at h
    exact hRest _ _ h

/-- What stands behind lines without tokens is read as if they were not there. -/
theorem of_append_nil {s : Text} (hs : BareTokens false s []) (hEnd : s = [] ∨ ∃ u, s = u ++ ['\n'])
    (hMark : t.head? ≠ some '\uFEFF')
    (h : BareTokens false (s ++ t) ws) : BareTokens false t ws := by
  generalize hDue : false = due at hs
  generalize hNone : ([] : List Token) = us at hs
  induction hs with
  | stop hGap => exact h.of_splitGap (Lexer.splitGap_append_of_nil hGap hMark).symm
  | semicolon => cases hNone
  | token => cases hNone
  | @comment due s u c us hGap hGoesOn hScan _ ih =>
      subst hDue
      obtain ⟨text, v, hRest, -, hAll⟩ :=
        exists_scan (hEnd.imp_left fun hNil => ⟨hNil, rfl⟩) hGap hGoesOn hScan
      obtain ⟨x, hGap', -, hScan'⟩ := hAll t
      obtain ⟨rfl, -⟩ := Lexeme.scan_of_comment hScan
      rw [comment_iff hGap' (by rw [hScan']), hScan'] at h
      refine ih (.inr ⟨v, hRest⟩) ?_ rfl hNone
      rw [hRest, List.append_assoc]
      exact h

end BareTokens

end GoTemplate
