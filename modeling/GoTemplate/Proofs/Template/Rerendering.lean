import GoTemplate.Proofs.Lexical.Spelling
import GoTemplate.Template.Line

/-!
Lines that hold no placeholder, rewritten all the same. Such a line keeps its tokens: they are put
together with single spaces, and the white space of comments becomes single spaces, which neither
splits nor joins tokens. So to rewrite the line once more changes nothing.
-/

namespace GoTemplate

open Text (collapse trimEnd)

/-! ## Comments with single spaces -/

namespace Comment

/-- A block comment ends where it ended when its white space becomes single spaces. -/
theorem splitClose?_collapse {t : Text} (h : splitClose? t = some (t, [])) :
    splitClose? (collapse t) = some (collapse t, []) := by
  have hStar : Unicode.isWhiteSpace '*' = false := by decide +kernel
  have hSlash : Unicode.isWhiteSpace '/' = false := by decide +kernel
  induction t with
  | nil => cases h
  | cons c t ih =>
      by_cases hClose : ∃ u, c :: t = '*' :: '/' :: u
      · obtain ⟨u, hu⟩ := hClose
        rw [hu] at h ⊢
        cases h
        rw [Text.collapse_cons_of_not hStar, Text.collapse_cons_of_not hSlash]
        rfl
      · rw [splitClose?_cons fun u hu => hClose ⟨u, hu⟩] at h
        obtain ⟨⟨inner, rest⟩, hInner, hPair⟩ := Option.map_eq_some_iff.1 h
        cases hPair
        have hLater := ih hInner
        rw [collapse]
        split
        · split
          · exact hLater
          · rw [splitClose?_cons (by simp), hLater]
            rfl
        · have hNext : ∀ u, c :: collapse t ≠ '*' :: '/' :: u := by
            intro u hu
            obtain ⟨rfl, hTail⟩ := List.cons_eq_cons.1 hu
            have hHead := (Text.head?_collapse (t := t) (c := '/') (by rw [hTail]; rfl)).resolve_left
              (by decide)
            obtain ⟨v, rfl⟩ := List.head?_eq_some_iff.1 hHead
            exact hClose ⟨v, rfl⟩
          rw [splitClose?_cons hNext, hLater]
          rfl

end Comment

/-- A comment stays one when its white space becomes single spaces and goes at its end. -/
theorem IsComment.collapse_trimEnd {t : Text} (h : IsComment t) : IsComment (collapse (trimEnd t)) := by
  have hSlash : Unicode.isWhiteSpace '/' = false := by decide +kernel
  have hStar : Unicode.isWhiteSpace '*' = false := by decide +kernel
  cases h with
  | @line body hLine =>
      rw [Text.trimEnd_cons_of_not hSlash, Text.trimEnd_cons_of_not hSlash,
        Text.collapse_cons_of_not hSlash, Text.collapse_cons_of_not hSlash]
      refine .line fun hFeed => ?_
      rcases Text.mem_collapse hFeed with hSpace | hFeed
      · cases hSpace
      · exact absurd hFeed (by decide +kernel)
  | @block body hClose =>
      rw [Text.trimEnd_cons_of_not hSlash, Text.trimEnd_cons_of_not hStar,
        Text.trimEnd_of_getLast? (Comment.getLast?_of_splitClose? hClose) hSlash,
        Text.collapse_cons_of_not hSlash, Text.collapse_cons_of_not hStar]
      exact .block (Comment.splitClose?_collapse hClose)

/-- A comment with single spaces is a line comment only if it was one. -/
theorem IsComment.prefix_of_collapse {t : Text} (h : IsComment t)
    (hPrefix : ['/', '/'] <+: collapse (trimEnd t)) : ['/', '/'] <+: t := by
  have hSlash : Unicode.isWhiteSpace '/' = false := by decide +kernel
  have hStar : Unicode.isWhiteSpace '*' = false := by decide +kernel
  cases h with
  | line => exact ⟨_, rfl⟩
  | block =>
      rw [Text.trimEnd_cons_of_not hSlash, Text.trimEnd_cons_of_not hStar,
        Text.collapse_cons_of_not hSlash, Text.collapse_cons_of_not hStar] at hPrefix
      obtain ⟨u, hu⟩ := hPrefix
      cases hu

theorem IsComment.head {t : Text} (h : IsComment t) : t.head?.any Unicode.isWhiteSpace = false := by
  have hSlash : Unicode.isWhiteSpace '/' = false := by decide +kernel
  cases h with
  | line => exact hSlash
  | block => exact hSlash

theorem IsComment.spells {t : Text} (h : IsComment t) : Lexeme.Spells .comment t := by
  cases h with
  | @line body hLine =>
      change Comment.line body = _
      rw [Comment.line, Comment.splitLine_eq_self hLine]
  | @block body hClose =>
      change Comment.block body = _
      rw [Comment.block, hClose]

/-! ## Tokens of a line -/

namespace StandingTokens

/-- Every token that stands in a text is what the text starts with at some place. -/
theorem exists_scan {t : Text} {ws : List Token} (h : StandingTokens t ws) {w : Token} (hw : w ∈ ws) :
    ∃ c u, (Lexeme.scan c u).reading = .ok w.kind ∧ (Lexeme.scan c u).text = w.lexeme := by
  induction h with
  | stop => cases hw
  | @token _ u c _ _ _ hScan _ ih =>
      rcases List.mem_cons.1 hw with rfl | hw
      · exact ⟨c, u, hScan, rfl⟩
      · exact ih hw

theorem spells {t : Text} {ws : List Token} (h : StandingTokens t ws) {w : Token} (hw : w ∈ ws) :
    Lexeme.Spells w.kind w.lexeme := by
  obtain ⟨c, u, hScan, hText⟩ := h.exists_scan hw
  rw [← hText]
  exact Lexeme.spells_scan hScan

theorem isComment {t : Text} {ws : List Token} (h : StandingTokens t ws) {w : Token} (hw : w ∈ ws)
    (hKind : w.kind = .comment) : IsComment w.lexeme := by
  obtain ⟨c, u, hScan, hText⟩ := h.exists_scan hw
  rw [← hText]
  exact Lexeme.isComment_of_reading (hKind ▸ hScan)

theorem isAutomatic {t : Text} {ws : List Token} (h : StandingTokens t ws) {w : Token} (hw : w ∈ ws) :
    w.isAutomatic = false := by
  have hSpells := h.spells hw
  by_contra hAutomatic
  rw [Bool.not_eq_false, Token.isAutomatic, Bool.and_eq_true, beq_iff_eq, beq_iff_eq] at hAutomatic
  rw [hAutomatic.2, Lexeme.Spells, Lexeme.scan_lineFeed_eq] at hSpells
  cases hSpells

/-- Nothing comes after a line comment on its line. -/
theorem not_prefix_of_mem_dropLast {t : Text} {ws : List Token} (h : StandingTokens t ws)
    (hFeed : '\n' ∉ t) {w : Token} (hw : w ∈ ws.dropLast) : ¬['/', '/'] <+: w.lexeme := by
  induction h with
  | stop => cases hw
  | @token t u c kind ws hGap hScan hRest ih =>
      have hText : '\n' ∉ c :: u := fun hMem => hFeed (by
        rw [← Lexer.splitGap_append false t, hGap]
        exact List.mem_append_right _ hMem)
      have hSource := Lexeme.source_scan c u
      cases ws with
      | nil => cases hw
      | cons v ws =>
          rcases List.mem_cons.1 hw with rfl | hw
          · intro hPrefix
            have hStart : ['/', '/'] <+: c :: u := hPrefix.trans ⟨_, hSource⟩
            obtain ⟨x, hx⟩ := hStart
            obtain ⟨rfl, hu⟩ := List.cons_eq_cons.1 hx
            obtain rfl : '/' :: x = u := hu
            change StandingTokens (Comment.line x).rest _ at hRest
            rw [Comment.line, Comment.splitLine_eq_self fun hMem =>
              hText (List.mem_cons_of_mem _ (List.mem_cons_of_mem _ hMem))] at hRest
            cases hRest with
            | token hGap' => cases hGap'
          · refine ih (fun hMem => hText ?_) hw
            rw [← hSource]
            exact List.mem_append_right _ hMem

end StandingTokens

namespace Token

/-- The token as a line without placeholders has it after it was rewritten: each run of white space in
a comment is a space, apart from the one at its end, which is gone. -/
def respaced (t : Token) : Token :=
  if t.kind = .comment then { t with lexeme := collapse (trimEnd t.lexeme) } else t

@[simp] theorem kind_respaced (t : Token) : t.respaced.kind = t.kind := by
  rw [respaced]
  split <;> rfl

theorem bare_respaced {t : Token} (h : t.bare = t) : t.respaced.bare = t.respaced := by
  have hSpan : t.respaced.span = .none := by
    rw [respaced]
    split <;> exact (congrArg span h).symm
  rw [bare, ← hSpan]

theorem respaced_of_ne {t : Token} (h : t.kind ≠ .comment) : t.respaced = t := if_neg h

theorem spells_respaced {t : Token} (hSpells : Lexeme.Spells t.kind t.lexeme)
    (hComment : t.kind = .comment → IsComment t.lexeme) :
    Lexeme.Spells t.respaced.kind t.respaced.lexeme := by
  by_cases hKind : t.kind = .comment
  · rw [kind_respaced, hKind, respaced, if_pos hKind]
    exact (hComment hKind).collapse_trimEnd.spells
  · rwa [respaced_of_ne hKind]

/-- White space that was made single spaces stays so. -/
theorem respaced_respaced {t : Token} (hComment : t.kind = .comment → IsComment t.lexeme) :
    t.respaced.respaced = t.respaced := by
  by_cases hKind : t.kind = .comment
  · have hFirst := (hComment hKind).head
    have hAgain := (hComment hKind).collapse_trimEnd.head
    have hSame : collapse (trimEnd (collapse (trimEnd t.lexeme))) = collapse (trimEnd t.lexeme) := by
      rw [← Text.joinWithSpaces_words hAgain, Text.words_collapse_trimEnd hFirst,
        Text.joinWithSpaces_words hFirst]
    rw [respaced, if_pos ((kind_respaced t).trans hKind)]
    simp only [respaced, if_pos hKind, hSame]
  · rw [respaced_of_ne hKind, respaced_of_ne hKind]

theorem prefix_of_respaced {t : Token} (hComment : t.kind = .comment → IsComment t.lexeme)
    (h : ['/', '/'] <+: t.respaced.lexeme) : ['/', '/'] <+: t.lexeme := by
  by_cases hKind : t.kind = .comment
  · rw [respaced, if_pos hKind] at h
    exact (hComment hKind).prefix_of_collapse h
  · rwa [respaced_of_ne hKind] at h

end Token

namespace Line

variable {placeholder type : Text}

/-- Whether a placeholder occurs neither in an identifier or a literal nor in a word of a comment. -/
def Avoids (placeholder : Text) (t : Token) : Prop :=
  (t.kind.class? = some .literal → placeholder.occursIn t.lexeme = false) ∧
    (t.kind = .comment → ∀ word ∈ Text.words t.lexeme, placeholder.occursIn word = false)

instance (placeholder : Text) (t : Token) : Decidable (Avoids placeholder t) :=
  inferInstanceAs (Decidable (_ ∧ _))

theorem substitute_word {word : Text} (hNe : placeholder ≠ [])
    (h : placeholder.occursIn word = false) : Word.substitute placeholder type word = word := by
  have hDifferent : word ≠ placeholder := by
    rintro rfl
    obtain ⟨c, t, rfl⟩ := List.exists_cons_of_ne_nil hNe
    rw [Text.occursIn, List.isPrefixOf_iff_prefix.2 (List.prefix_refl _)] at h
    cases h
  rw [Word.substitute, if_neg hDifferent, if_pos (.inr (by simp [h]))]

/-- In a token that avoids a placeholder nothing but white space changes. -/
theorem substituteToken_of_avoids {t : Token} (hNe : placeholder ≠ [])
    (hText : t.isAutomatic = false) (hComment : t.kind = .comment → IsComment t.lexeme)
    (h : Avoids placeholder t) : substituteToken placeholder type t = t.respaced.lexeme := by
  obtain ⟨hLiteral, hWords⟩ := h
  by_cases hKind : t.kind = .comment
  · have hSame : (Text.words t.lexeme).map (Word.substitute placeholder type) =
        Text.words t.lexeme :=
      (List.map_congr_left fun word hWord => substitute_word hNe (hWords hKind word hWord)).trans
        (List.map_id _)
    rw [substituteToken, if_pos hKind, substituteComment, hSame,
      Text.joinWithSpaces_words (hComment hKind).head,
      Token.respaced, if_pos hKind]
  · rw [substituteToken, if_neg hKind, Token.respaced_of_ne hKind]
    split
    · exact substitute_word hNe (hLiteral ‹_›)
    · rw [Token.text, hText]
      rfl

/-- Avoiding a placeholder does not depend on white space. -/
theorem Avoids.respaced {t : Token} (hComment : t.kind = .comment → IsComment t.lexeme)
    (h : Avoids placeholder t) : Avoids placeholder t.respaced := by
  by_cases hKind : t.kind = .comment
  · rw [Token.respaced, if_pos hKind]
    refine ⟨fun hLiteral => ?_, fun _ word hWord => ?_⟩
    · rw [show t.kind = _ from hKind] at hLiteral
      cases hLiteral
    · rw [Text.words_collapse_trimEnd (hComment hKind).head] at hWord
      exact h.2 hKind word hWord
  · rwa [Token.respaced_of_ne hKind]

/-- A line without the placeholder, rewritten, is its tokens with single spaces between them. -/
theorem substitute_of_avoids {line : Text} {ws : List Token} (hNe : placeholder ≠ [])
    (h : StandingTokens line ws) (hAvoids : ∀ w ∈ ws, Avoids placeholder w) :
    substitute placeholder type line = Token.row (ws.map Token.respaced) := by
  obtain ⟨-, rfl⟩ := standingTokens_iff.1 h
  rw [substitute, Token.row, List.map_map, List.map_map]
  refine congrArg Text.joinWithSpaces (List.map_congr_left fun t ht => ?_)
  have hMem : t.bare ∈ (verbatimTokens line).map Token.bare := List.mem_map_of_mem ht
  exact substituteToken_of_avoids (t := t.bare) hNe (h.isAutomatic hMem) (h.isComment hMem)
    (hAvoids _ hMem)

/-- A line without faults in which the placeholder does not occur keeps its tokens when it is
rewritten: their kinds, their order and their texts, but for the white space in comments. Rewriting it
once more changes nothing. -/
theorem verbatimTokens_substitute {line : Text} (hLine : '\n' ∉ line)
    (hErrors : (Lexer.ofSource .verbatim line).run.after.errors = []) (hNe : placeholder ≠ [])
    (hAvoids : ∀ t ∈ verbatimTokens line, Avoids placeholder t) :
    (Lexer.ofSource .verbatim (substitute placeholder type line)).run.after.errors = [] ∧
      (verbatimTokens (substitute placeholder type line)).map Token.bare =
        ((verbatimTokens line).map Token.bare).map Token.respaced ∧
      substitute placeholder type (substitute placeholder type line) =
        substitute placeholder type line := by
  obtain ⟨ws, hWs⟩ : ∃ ws, ws = (verbatimTokens line).map Token.bare := ⟨_, rfl⟩
  have hStanding : StandingTokens line ws := standingTokens_iff.2 ⟨hErrors, hWs.symm⟩
  have hBare : ∀ w ∈ ws, w.bare = w ∧ Avoids placeholder w := by
    intro w hw
    obtain ⟨t, ht, rfl⟩ := List.mem_map.1 (hWs ▸ hw)
    exact ⟨rfl, hAvoids t ht⟩
  have hOut : substitute placeholder type line = Token.row (ws.map Token.respaced) :=
    substitute_of_avoids hNe hStanding fun w hw => (hBare w hw).2
  -- What is spelled with single spaces in between is found again, and is avoided as before.
  have hRow : StandingTokens (Token.row (ws.map Token.respaced))
      ((ws.map Token.respaced).map Token.bare) := by
    refine .row ?_ ?_
    · intro w hw
      obtain ⟨v, hv, rfl⟩ := List.mem_map.1 hw
      exact Token.spells_respaced (hStanding.spells hv) (hStanding.isComment hv)
    · intro w hw
      rw [← List.map_dropLast] at hw
      obtain ⟨v, hv, rfl⟩ := List.mem_map.1 hw
      exact fun hPrefix => hStanding.not_prefix_of_mem_dropLast hLine hv
        (Token.prefix_of_respaced (hStanding.isComment (List.dropLast_subset ws hv)) hPrefix)
  have hSame : ws.map (Token.bare ∘ Token.respaced) = ws.map Token.respaced :=
    List.map_congr_left fun w hw => Token.bare_respaced (hBare w hw).1
  rw [List.map_map, hSame] at hRow
  have hAgain : substitute placeholder type (Token.row (ws.map Token.respaced)) =
      Token.row (ws.map Token.respaced) := by
    rw [substitute_of_avoids hNe hRow]
    · rw [List.map_map]
      exact congrArg Token.row (List.map_congr_left fun w hw =>
        Token.respaced_respaced (hStanding.isComment hw))
    · intro w hw
      obtain ⟨v, hv, rfl⟩ := List.mem_map.1 hw
      exact (hBare v hv).2.respaced (hStanding.isComment hv)
  obtain ⟨hNoErrors, hTokens⟩ := standingTokens_iff.1 hRow
  rw [hOut, ← hWs]
  exact ⟨hNoErrors, hTokens, hAgain⟩

/-- A line with white space in its comments, in which the placeholder does not occur. -/
theorem verbatimTokens_substitute_spaces :
    let line : Text := "\t.5e3+x...y/* T  U */z<-//  a\u00A0\tb ".toList
    '\n' ∉ line ∧ (Lexer.ofSource .verbatim line).run.after.errors = [] ∧ "Key".toList ≠ [] ∧
      (∀ t ∈ verbatimTokens line, Avoids "Key".toList t) ∧
      (verbatimTokens (substitute "Key".toList "int".toList line)).map Token.bare =
        ((verbatimTokens line).map Token.bare).map Token.respaced ∧
      substitute "Key".toList "int".toList line = ".5e3 + x ... y /* T U */ z <- // a b".toList := by
  intro line
  have hLine : '\n' ∉ line := by decide +kernel
  have hErrors : (Lexer.ofSource .verbatim line).run.after.errors = [] := by decide +kernel
  have hAvoids : ∀ t ∈ verbatimTokens line, Avoids "Key".toList t := by decide +kernel
  refine ⟨hLine, hErrors, by decide, hAvoids, ?_, by decide +kernel⟩
  exact (verbatimTokens_substitute hLine hErrors (by decide) hAvoids).2.1

/-- White space at the end of a comment does not become a space. -/
theorem substitute_trailing_space :
    let line : Text := "// a ".toList
    '\n' ∉ line ∧ (Lexer.ofSource .verbatim line).run.after.errors = [] ∧
      (∀ t ∈ verbatimTokens line, Avoids "T".toList t) ∧
      (verbatimTokens (substitute "T".toList "int".toList line)).map Token.bare ≠
        (verbatimTokens line).map fun t => { t.bare with lexeme := collapse t.lexeme } := by
  intro line
  exact ⟨by decide +kernel, by decide +kernel, by decide +kernel, by decide +kernel⟩

end Line

end GoTemplate
