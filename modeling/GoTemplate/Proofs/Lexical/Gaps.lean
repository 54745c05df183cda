import GoTemplate.Proofs.Lexical.BareTokens

/-!
What a reader skips before a token. Each step of a reader passes over a gap of blanks and skipped
comments and then acts at the place it has reached.
-/

namespace GoTemplate

/-! ## Gaps -/

/-- Whether a text is one comment, from its opening to its end. -/
inductive IsComment : Text → Prop where
  | line {body : Text} (hLine : '\n' ∉ body) : IsComment ('/' :: '/' :: body)
  | block {body : Text} (hClose : Comment.splitClose? body = some (body, [])) :
      IsComment ('/' :: '*' :: body)

/-- Whether a text holds nothing but blanks and byte order marks. -/
def IsBlank (t : Text) : Prop := ∀ c ∈ t, Lexer.isBlank c = true ∨ c = '\uFEFF'

/-- What a reader may skip between two tokens: blanks, byte order marks and, unless they are
tokens, comments. -/
inductive IsGap (mode : LexerMode) : Text → Prop where
  | nil : IsGap mode []
  | blank {t u : Text} (hBlank : IsBlank t) (hRest : IsGap mode u) : IsGap mode (t ++ u)
  | comment {t u : Text} (hMode : mode.comments = false) (hComment : IsComment t)
      (hRest : IsGap mode u) : IsGap mode (t ++ u)

namespace IsGap

variable {mode : LexerMode}

theorem of_isBlank {t : Text} (h : IsBlank t) : IsGap mode t := by
  have hBlank : IsGap mode (t ++ []) := .blank h .nil
  rwa [List.append_nil] at hBlank

theorem append {t u : Text} (ht : IsGap mode t) (hu : IsGap mode u) : IsGap mode (t ++ u) := by
  induction ht with
  | nil => exact hu
  | blank hBlank _ ih =>
      rw [List.append_assoc]
      exact .blank hBlank ih
  | comment hMode hComment _ ih =>
      rw [List.append_assoc]
      exact .comment hMode hComment ih

/-- Where comments are tokens all gaps are blank. -/
theorem isBlank {t : Text} (h : IsGap mode t) (hMode : mode.comments = true) : IsBlank t := by
  induction h with
  | nil => intro c hc; cases hc
  | blank hBlank _ ih =>
      intro c hc
      rcases List.mem_append.1 hc with hc | hc
      · exact hBlank c hc
      · exact ih c hc
  | comment hSkipped _ _ _ =>
      rw [hMode] at hSkipped
      cases hSkipped

end IsGap

/-! ## Comments as lexemes -/

namespace Comment

theorem lineFeed_not_mem_splitLine (t : Text) : '\n' ∉ (splitLine t).1 := by
  fun_induction splitLine t with
  | case1 => simp
  | case2 => simp
  | case3 => simp
  | case4 c t hFeed _ ih =>
      rw [List.mem_cons, not_or]
      exact ⟨fun hc => hFeed hc.symm, ih⟩

/-- A line comment ends at a line end or at the end of the text. -/
theorem splitLine_snd (t : Text) :
    (splitLine t).2 = [] ∨ ∃ u, (splitLine t).2 = '\n' :: u ∨ (splitLine t).2 = '\r' :: '\n' :: u := by
  fun_induction splitLine t with
  | case1 => exact .inl rfl
  | case2 t => exact .inr ⟨t, .inl rfl⟩
  | case3 t => exact .inr ⟨t, .inr rfl⟩
  | case4 c t _ _ ih => exact ih

theorem splitClose?_self {t body rest : Text} (h : splitClose? t = some (body, rest)) :
    splitClose? body = some (body, []) := by
  fun_induction splitClose? t generalizing body with
  | case1 => cases h
  | case2 t =>
      cases h
      rfl
  | case3 c t hNext ih =>
      obtain ⟨⟨inner, _⟩, hInner, hPair⟩ := Option.map_eq_some_iff.1 h
      cases hPair
      have hText := splitClose?_append hInner
      have hLonger : ∀ u, c :: inner ≠ '*' :: '/' :: u := by
        intro u hu
        obtain ⟨hStar, hRest⟩ := List.cons_eq_cons.1 hu
        refine hNext (u ++ rest) hStar ?_
        rw [← hText, hRest]
        rfl
      rw [splitClose?_cons hLonger, ih hInner]
      rfl

end Comment

namespace Lexeme

/-- What a reader takes for a comment is a line comment or a block comment that is closed. -/
theorem scan_of_comment {c : Char} {t : Text} (h : (scan c t).reading = .ok .comment) :
    c = '/' ∧ ((∃ u, t = '/' :: u ∧ scan c t = Comment.line u) ∨
      ∃ u body rest, t = '*' :: u ∧ Comment.splitClose? u = some (body, rest) ∧
        scan c t = ⟨.ok .comment, '/' :: '*' :: body, rest⟩) := by
  have hBody (kind : Literal) (fault : LexicalFault) (quote : Char) (u : Text) :
      (Quoted.body kind fault quote u).reading ≠ .ok .comment := by
    rcases reading_body kind fault quote u with h | h
    · rw [h]
      simp
    · rw [h]
      simp
  unfold scan at h ⊢
  split at h
  · exact ⟨rfl, .inl ⟨_, rfl, rfl⟩⟩
  · unfold Comment.block at h ⊢
    split at h
    · rename_i u _ body rest hClose
      exact ⟨rfl, .inr ⟨u, body, rest, rfl, hClose, rfl⟩⟩
    · cases h
  · exact absurd h (hBody _ _ _ _)
  · change (Quoted.rawBody t).reading = _ at h
    rcases reading_rawBody t with h' | h'
    · rw [h'] at h
      cases h
    · rw [h'] at h
      cases h
  · exact absurd h (hBody _ _ _ _)
  · split at h
    · unfold Numeral.scan at h
      dsimp only at h
      split at h
      · cases h
      · split at h
        · cases h
        · cases h
    · split at h
      · unfold word at h
        dsimp only at h
        split at h
        · cases h
        · cases h
      · have hTable : ∀ entry ∈ symbolTable, entry.2 ≠ .comment := by decide +kernel
        unfold symbol at h
        split at h
        · rename_i hFind
          cases h
          exact absurd rfl (hTable _ (List.mem_of_find?_eq_some hFind))
        · cases h

theorem isComment_of_reading {c : Char} {t : Text} (h : (scan c t).reading = .ok .comment) :
    IsComment (scan c t).text := by
  obtain ⟨-, ⟨u, -, hScan⟩ | ⟨u, body, rest, -, hClose, hScan⟩⟩ := scan_of_comment h
  · rw [hScan]
    exact .line (Comment.lineFeed_not_mem_splitLine u)
  · rw [hScan]
    exact .block (Comment.splitClose?_self hClose)

end Lexeme


/-! ## Skipping -/

open Lexer in
/-- A reader that stands before the first text skips the second and then stands before the third,
where it finds its next token. -/
inductive Skips (mode : LexerMode) (due : Bool) : Text → Text → Text → Prop where
  | stop {t : Text}
      (hStop : (due && Comment.lineEnds (splitGap due t).2) = true ∨
        ∀ c u, (splitGap due t).2 = c :: u →
          (Lexeme.scan c u).reading = .ok .comment → mode.comments = true) :
      Skips mode due t (splitGap due t).1 (splitGap due t).2
  | comment {t u gap rest : Text} {c : Char} (hGap : (splitGap due t).2 = c :: u)
      (hGoesOn : (due && Comment.lineEnds (c :: u)) = false)
      (hScan : (Lexeme.scan c u).reading = .ok .comment) (hMode : mode.comments = false)
      (hRest : Skips mode due (Lexeme.scan c u).rest gap rest) :
      Skips mode due t ((splitGap due t).1 ++ ((Lexeme.scan c u).text ++ gap)) rest

namespace Lexer

theorem isBlank_splitGap (due : Bool) (t : Text) : IsBlank (splitGap due t).1 := by
  have hTake (u : Text) : IsBlank (u.takeWhile fun c => isBlank c && !(due && c == '\n')) := by
    intro c hc
    have hGap := List.all_eq_true.1 List.all_takeWhile c hc
    rw [Bool.and_eq_true] at hGap
    exact .inl hGap.1
  unfold splitGap
  split
  · intro c hc
    rcases List.mem_cons.1 hc with rfl | hc
    · exact .inr rfl
    · exact hTake _ c hc
  · exact hTake _

theorem lineFeed_not_mem_splitGap (t : Text) : '\n' ∉ (splitGap true t).1 := by
  have hTake (u : Text) : '\n' ∉ u.takeWhile fun c => isBlank c && !(true && c == '\n') := by
    intro hFeed
    simpa using List.all_eq_true.1 List.all_takeWhile _ hFeed
  unfold splitGap
  split
  · rw [List.mem_cons, not_or]
    exact ⟨by decide, hTake _⟩
  · exact hTake _

end Lexer

namespace Skips

variable {mode : LexerMode} {due : Bool} {t gap rest : Text}

theorem append_eq (h : Skips mode due t gap rest) : gap ++ rest = t := by
  induction h with
  | stop => exact Lexer.splitGap_append _ _
  | @comment t u gap rest c hGap _ _ _ _ ih =>
      have hSource : (Lexeme.scan c u).text ++ (Lexeme.scan c u).rest = c :: u :=
        Lexeme.source_scan c u
      rw [List.append_assoc, List.append_assoc, ih, hSource, ← hGap, Lexer.splitGap_append]

theorem isGap (h : Skips mode due t gap rest) : IsGap mode gap := by
  induction h with
  | stop => exact .of_isBlank (Lexer.isBlank_splitGap _ _)
  | comment _ _ hScan hMode _ ih =>
      exact .blank (Lexer.isBlank_splitGap _ _)
        (.comment hMode (Lexeme.isComment_of_reading hScan) ih)

end Skips

namespace Lexer

/-- The next token of a reader that has no gap before it, and the reader after it. -/
def nextHere (l : Lexer) : Token × Lexer :=
  if l.semicolonDue && Comment.lineEnds l.rest then l.semicolon
  else match l.rest with
    | [] => (⟨.endOfSource, [], .startingAt l.position 0⟩, l)
    | c :: t => (l.token (Lexeme.scan c t), l.accept (Lexeme.scan c t))

theorem accept_of_comment {l : Lexer} {lexeme : Lexeme} (h : lexeme.reading = .ok .comment) :
    l.accept lexeme = l.moveOn lexeme.text lexeme.rest := by
  rw [accept, h]

/-- A step of a reader: it skips a gap, and then takes what stands there. -/
theorem exists_skips (l : Lexer) : ∃ gap rest, Skips l.mode l.semicolonDue l.rest gap rest ∧
    l.next = (l.moveOn gap rest).nextHere := by
  fun_induction next l with
  | case1 l here hSemicolon =>
      exact ⟨_, _, .stop (.inl hSemicolon), (if_pos hSemicolon).symm⟩
  | case2 l here hGoesOn hRest =>
      have hNil : (splitGap l.semicolonDue l.rest).2 = [] := hRest
      refine ⟨_, _, .stop (.inr (by simp [hNil])), ?_⟩
      change _ = here.nextHere
      rw [nextHere, if_neg hGoesOn, hRest]
  | case3 l here hGoesOn c t hRest lexeme hSkip ih =>
      have hGap : (splitGap l.semicolonDue l.rest).2 = c :: t := hRest
      have hDue : (l.semicolonDue && Comment.lineEnds (c :: t)) = false := by
        rw [← hRest]
        exact Bool.eq_false_iff.2 hGoesOn
      have hScan : lexeme.reading = .ok .comment := reading_of_skip hSkip
      have hMode : l.mode.comments = false := by
        rw [hScan] at hSkip
        simpa using hSkip
      obtain ⟨gap, rest, hSkips, hNext⟩ := ih
      rw [accept_mode, accept_semicolonDue_of_comment hScan, accept_rest] at hSkips
      refine ⟨_, rest, .comment hGap hDue hScan hMode hSkips, ?_⟩
      rw [hNext, accept_of_comment hScan]
      simp only [here, skipGap, moveOn, Position.after, List.foldl_append, lexeme]
  | case4 l here hGoesOn c t hRest lexeme hKeep =>
      have hGap : (splitGap l.semicolonDue l.rest).2 = c :: t := hRest
      refine ⟨_, _, .stop (.inr ?_), ?_⟩
      · intro d u hCons hScan
        obtain ⟨rfl, rfl⟩ := List.cons_eq_cons.1 (hGap.symm.trans hCons)
        have hReading : lexeme.reading = .ok .comment := hScan
        rw [hReading] at hKeep
        simpa using hKeep
      · change _ = here.nextHere
        rw [nextHere, if_neg hGoesOn, hRest]

end Lexer

end GoTemplate
