import GoTemplate.Proofs.Lexical.Tiling

/-!
Reading token by token with comments among the tokens and without automatic semicolons. Such a
reader takes at each step what stands at the front of the text, and goes on behind it.
-/

namespace GoTemplate

/-! ## Shapes of tokens -/

namespace Lexeme

/-- What has a mark of its own at its end: a text in quotes or a comment that is closed, and one
that runs up to the end of its line or of the text. -/
def IsDelimited (l : Lexeme) : Prop :=
  l.rest = [] ∨ (∃ c ∈ ['\n', '\r'], l.rest.head? = some c) ∨
    ∃ c ∈ ['"', '`', '\'', '/'], l.text.getLast? = some c

theorem IsDelimited.prepend {l : Lexeme} (h : l.IsDelimited) (t : Text) :
    (l.prepend t).IsDelimited := by
  rcases h with hNil | hLine | ⟨c, hc, hLast⟩
  · exact .inl hNil
  · exact .inr (.inl hLine)
  · refine .inr (.inr ⟨c, hc, ?_⟩)
    rw [text_prepend, List.getLast?_append, hLast]
    rfl

end Lexeme

namespace Quoted

theorem isDelimited_body {quote : Char} (hQuote : quote ∈ ['"', '`', '\'', '/']) (kind : Literal)
    (fault : LexicalFault) (t : Text) : (body kind fault quote t).IsDelimited := by
  fun_induction body kind fault quote t with
  | case1 => exact .inl rfl
  | case2 => exact .inr (.inl ⟨'\n', by decide, rfl⟩)
  | case3 => exact .inr (.inr ⟨quote, hQuote, rfl⟩)
  | case4 => exact .inl rfl
  | case5 => exact .inr (.inl ⟨'\n', by decide, rfl⟩)
  | case6 => exact .inr (.inr ⟨quote, hQuote, rfl⟩)
  | case7 _ _ _ _ _ _ ih => exact ih.prepend _
  | case8 _ _ _ _ _ _ ih => exact ih.prepend _

theorem isDelimited_rawBody (t : Text) : (rawBody t).IsDelimited := by
  fun_induction rawBody t with
  | case1 => exact .inl rfl
  | case2 => exact .inr (.inr ⟨'`', by decide, rfl⟩)
  | case3 _ _ _ ih => exact ih.prepend _

end Quoted

namespace Comment

theorem getLast?_of_splitClose? {t body rest : Text} (h : splitClose? t = some (body, rest)) :
    body.getLast? = some '/' := by
  fun_induction splitClose? t generalizing body with
  | case1 => cases h
  | case2 => cases h; rfl
  | case3 c t _ ih =>
      obtain ⟨⟨inner, _⟩, hInner, hPair⟩ := Option.map_eq_some_iff.1 h
      cases hPair
      rw [List.getLast?_cons, ih hInner]
      rfl

theorem isDelimited_line (t : Text) : (line t).IsDelimited := by
  rcases splitLine_snd t with hNil | ⟨u, hFeed | hReturn⟩
  · exact .inl hNil
  · exact .inr (.inl ⟨'\n', by decide, by rw [line, hFeed]; rfl⟩)
  · exact .inr (.inl ⟨'\r', by decide, by rw [line, hReturn]; rfl⟩)

theorem isDelimited_block (t : Text) : (block t).IsDelimited := by
  unfold block
  split
  · rename_i body rest hClose
    refine .inr (.inr ⟨'/', by decide, ?_⟩)
    rw [List.getLast?_cons_cons, List.getLast?_cons, getLast?_of_splitClose? hClose]
    rfl
  · exact .inl rfl

end Comment

namespace Lexeme

/-- What a text starts with: something delimited, a number, a word, or a symbol. -/
theorem scan_cases (c : Char) (t : Text) :
    (scan c t).IsDelimited ∨ scan c t = Numeral.scan (c :: t) ∨
      (isIdentifierStart c = true ∧ scan c t = word c t) ∨
        (isIdentifierStart c = false ∧ scan c t = symbol c t) := by
  unfold scan
  split
  · exact .inl (Comment.isDelimited_line _)
  · exact .inl (Comment.isDelimited_block _)
  · exact .inl ((Quoted.isDelimited_body (by decide) _ _ _).prepend _)
  · exact .inl ((Quoted.isDelimited_rawBody _).prepend _)
  · exact .inl ((Quoted.isDelimited_body (by decide) _ _ _).prepend _)
  · split
    · exact .inr (.inl rfl)
    · split
      · rename_i hStart
        exact .inr (.inr (.inl ⟨hStart, rfl⟩))
      · rename_i hStart
        exact .inr (.inr (.inr ⟨Bool.eq_false_iff.2 hStart, rfl⟩))

/-- What a character stops does not hold the character. -/
theorem not_mem_text_of_stop {scan : Text → Lexeme} {stop : Char} (start : Text)
    (hStop : ∀ u t, scan (u ++ stop :: t) = (scan u).followedBy (stop :: t))
    (hSource : ∀ t, (scan t).source = start ++ t) (hStart : stop ∉ start) (t : Text) :
    stop ∉ (scan t).text := by
  intro hMem
  obtain ⟨p, q, hText⟩ := List.append_of_mem hMem
  have hWhole := hSource t
  rw [source, hText, List.append_assoc] at hWhole
  obtain ⟨u, hp, ht⟩ : ∃ u, p = start ++ u ∧ t = u ++ stop :: (q ++ (scan t).rest) := by
    rcases List.append_eq_append_iff.1 hWhole with ⟨u, rfl, hTail⟩ | ⟨u, hp, hTail⟩
    · cases u with
      | nil => exact ⟨[], by simp, hTail.symm⟩
      | cons d u =>
          obtain ⟨rfl, -⟩ := List.cons_eq_cons.1 hTail
          exact absurd (List.mem_append_right p List.mem_cons_self) hStart
    · exact ⟨u, hp, hTail⟩
  have hSame : (scan t).text = (scan u).text := by
    rw [ht, hStop]
    rfl
  have hLength := congrArg List.length (hSource u)
  rw [source, ← hSame, hText, hp] at hLength
  simp only [List.length_append, List.length_cons] at hLength
  omega

end Lexeme

/-! ## Steps -/

/-- The tokens of a text, comments included. -/
def verbatimTokens (t : Text) : List Token := (Lexer.ofSource .verbatim t).run.tokens

namespace Lexer

/-- A reader of tokens as they stand, at any place of its source. -/
structure IsVerbatim (l : Lexer) : Prop where
  mode : l.mode = .verbatim
  due : l.semicolonDue = false

theorem isVerbatim_ofSource (t : Text) : (ofSource .verbatim t).IsVerbatim := ⟨rfl, rfl⟩

theorem IsVerbatim.skipGap {l : Lexer} (h : l.IsVerbatim) : l.skipGap.IsVerbatim := ⟨h.mode, h.due⟩

theorem IsVerbatim.accept {l : Lexer} (h : l.IsVerbatim) (lexeme : Lexeme) :
    (l.accept lexeme).IsVerbatim := by
  refine ⟨by rw [accept_mode, h.mode], ?_⟩
  unfold Lexer.accept
  split
  · exact h.due
  · change (l.mode.semicolons && _) = false
    rw [h.mode]
    rfl
  · exact h.due

theorem IsVerbatim.skipGap_rest {l : Lexer} (h : l.IsVerbatim) :
    l.skipGap.rest = (splitGap false l.rest).2 := by
  rw [← h.due]
  rfl

theorem IsVerbatim.run_of_nil {l : Lexer} (h : l.IsVerbatim)
    (hGap : (splitGap false l.rest).2 = []) :
    l.run = ⟨[], ⟨.endOfSource, [], .startingAt l.skipGap.position 0⟩, l.skipGap⟩ := by
  rw [run_eq, next_of_nil h.due (h.skipGap_rest.trans hGap), if_pos rfl]

theorem IsVerbatim.run_of_cons {l : Lexer} (h : l.IsVerbatim) {c : Char} {t : Text}
    (hGap : (splitGap false l.rest).2 = c :: t) :
    l.run = { (l.skipGap.accept (Lexeme.scan c t)).run with
      tokens := l.skipGap.token (Lexeme.scan c t) ::
        (l.skipGap.accept (Lexeme.scan c t)).run.tokens } := by
  have hNext : l.next = (l.skipGap.token (Lexeme.scan c t), l.skipGap.accept (Lexeme.scan c t)) := by
    rw [next_of_cons (by rw [h.due]; rfl) (h.skipGap_rest.trans hGap), h.mode]
    simp [LexerMode.verbatim]
  rw [run_eq, hNext, if_neg (kind_token_ne_endOfSource _ c t)]

/-- The tokens that a reader finds, by what follows on the blanks at its place. -/
theorem run_tokens_of_isVerbatim {l : Lexer} (h : l.IsVerbatim) :
    l.run.tokens = match (splitGap false l.rest).2 with
      | [] => []
      | c :: t => l.skipGap.token (Lexeme.scan c t) :: (l.skipGap.accept (Lexeme.scan c t)).run.tokens := by
  cases hGap : (splitGap false l.rest).2 with
  | nil => rw [h.run_of_nil hGap]
  | cons c t => rw [h.run_of_cons hGap]

/-- A step of such a reader, with the place of what it takes. -/
theorem IsVerbatim.exists_step {l : Lexer} (h : l.IsVerbatim) {before gap t : Text} {c : Char}
    (hPosition : l.position = .atEnd before) (hGap : splitGap false l.rest = (gap, c :: t)) :
    ∃ (token : Token) (after : Lexer), l.run.tokens = token :: after.run.tokens ∧
      token.lexeme = (Lexeme.scan c t).text ∧ token.StandsAfter (before ++ gap) ∧
      after.IsVerbatim ∧ after.rest = (Lexeme.scan c t).rest ∧
      after.position = .atEnd (before ++ (gap ++ (Lexeme.scan c t).text)) := by
  have hTokens := run_tokens_of_isVerbatim h
  rw [hGap] at hTokens
  have hHere : l.skipGap.position = .atEnd (before ++ gap) := by
    rw [← Position.after_atEnd, ← hPosition]
    change l.position.after (splitGap l.semicolonDue l.rest).1 = _
    rw [h.due, hGap]
  refine ⟨_, _, hTokens, rfl, ?_, h.skipGap.accept _, accept_rest _ _, ?_⟩
  · rw [Token.StandsAfter, Token.source_of_not_automatic (isAutomatic_token _ _ _), ← hHere]
    rfl
  · rw [accept_position, hHere, Position.after_atEnd, List.append_assoc]

end Lexer

end GoTemplate
