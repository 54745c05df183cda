import GoTemplate.Proofs.Lexical.LineKinds
import GoTemplate.Proofs.Template.Markers
import GoTemplate.Proofs.Template.RewrittenWords

/-!
Lines in which names take the place of placeholders. A line keeps the kinds of its tokens where its names
and numbers stay such, and one in which a comment or raw string goes on does so whatever it holds.
-/

namespace GoTemplate

open Text

/-! ## Tokens of a line -/

namespace LineTokens

variable {line : Text} {ws : List Token} {left : Option Opening}

/-- What a line holds are tokens, but for the start of what it leaves open. -/
theorem spells (h : LineTokens line ws left) {w : Token} (hw : w ∈ ws) (hValid : w.kind ≠ .invalid) :
    Lexeme.Spells w.kind w.lexeme := by
  induction h with
  | stop => cases hw
  | token _ hScan _ ih =>
      rcases List.mem_cons.1 hw with rfl | hw
      · exact Lexeme.spells_scan hScan
      · exact ih hw
  | opening =>
      obtain rfl := List.mem_singleton.1 hw
      exact absurd rfl hValid

theorem span_eq (h : LineTokens line ws left) {w : Token} (hw : w ∈ ws) : w.span = .none := by
  induction h with
  | stop => cases hw
  | token _ _ _ ih =>
      rcases List.mem_cons.1 hw with rfl | hw
      · rfl
      · exact ih hw
  | opening =>
      obtain rfl := List.mem_singleton.1 hw
      rfl

/-- Nothing that stands in a line starts with a byte order mark. -/
theorem lexeme_front (h : LineTokens line ws left) {w : Token} (hw : w ∈ ws) :
    ∃ c x, w.lexeme = c :: x ∧ c ≠ '\uFEFF' := by
  induction h with
  | stop => cases hw
  | @token _ u c kind _ _ _ hScan _ ih =>
      rcases List.mem_cons.1 hw with rfl | hw
      · obtain ⟨d, x, hText⟩ := (Lexeme.spells_scan hScan).exists_cons
        refine ⟨d, x, hText, ?_⟩
        have hSource : (Lexeme.scan c u).text ++ (Lexeme.scan c u).rest = c :: u := Lexeme.source_scan c u
        rw [hText] at hSource
        obtain ⟨rfl, -⟩ := List.cons_eq_cons.1 hSource
        rintro rfl
        exact Lexeme.not_isToken_mark u ⟨kind, hScan⟩
      · exact ih hw
  | @opening _ u q =>
      obtain rfl := List.mem_singleton.1 hw
      cases q with
      | comment => exact ⟨'/', '*' :: u, rfl, by decide⟩
      | rawString => exact ⟨'`', u, rfl, by decide⟩

theorem head?_row_ne (h : LineTokens line ws left) : (Token.row ws).head? ≠ some '\uFEFF' := by
  cases ws with
  | nil => rintro ⟨⟩
  | cons w ws =>
      obtain ⟨c, x, hText, hMark⟩ := h.lexeme_front List.mem_cons_self
      cases ws with
      | nil =>
          rw [Token.row_singleton, hText]
          simpa using hMark
      | cons v ws =>
          rw [Token.row_cons_cons, hText]
          simpa using hMark

/-- A line comment is the last that stands in a line. -/
theorem eq_nil_of_lineComment {c : Char} {u : Text} (hText : ['/', '/'] <+: (Lexeme.scan c u).text)
    (hFeed : '\n' ∉ u) (hRest : LineTokens (Lexeme.scan c u).rest ws left) : ws = [] := by
  obtain ⟨z, hz⟩ := hText
  have hSource := Lexeme.source_scan c u
  rw [Lexeme.source, ← hz] at hSource
  obtain ⟨rfl, hSlash⟩ := List.cons_eq_cons.1 hSource
  obtain ⟨e, rfl⟩ := List.head?_eq_some_iff.1 (show u.head? = some '/' by rw [← hSlash]; rfl)
  change LineTokens (Comment.line e).rest ws left at hRest
  rw [Comment.line, Comment.splitLine_eq_self fun hMem => hFeed (List.mem_cons_of_mem _ hMem)] at hRest
  exact hRest.of_nil.1

/-- A blank before a row of what stands in a line, rewritten token by token, is a gap. -/
theorem splitGap_row_map (h : LineTokens line ws left) (hNe : ws ≠ []) {f : Token → Token}
    (hKind : ∀ w ∈ ws, (f w).kind = w.kind) (hOpen : ∀ w ∈ ws, w.kind = .invalid → f w = w)
    (hSpells : ∀ w ∈ ws, w.kind ≠ .invalid → Lexeme.Spells w.kind (f w).lexeme) :
    (Lexer.splitGap false (Token.row (ws.map f))).2 =
      (Lexer.splitGap false (' ' :: Token.row (ws.map f))).2 := by
  obtain ⟨v, vs, rfl⟩ := List.exists_cons_of_ne_nil hNe
  by_cases hValid : v.kind = .invalid
  · cases h with
    | token _ hRead => exact absurd hRead (Lexeme.reading_ne (.inr hValid) _ _)
    | @opening _ _ q =>
        rw [List.map_singleton, hOpen _ List.mem_cons_self hValid, Token.row_singleton]
        cases q <;> rfl
  · have hSpelled := hSpells v List.mem_cons_self hValid
    rw [← hKind v List.mem_cons_self] at hSpelled
    obtain ⟨hRow, hSpace⟩ := hSpelled.splitGap_row false (vs.map f)
    exact hRow.trans hSpace.symm

/-- A row of what stands in a line, rewritten token by token, holds the rewritten tokens and leaves the
same open. -/
theorem row (h : LineTokens line ws left) (hFeed : '\n' ∉ line) {f : Token → Token}
    (hKind : ∀ w ∈ ws, (f w).kind = w.kind) (hSpan : ∀ w ∈ ws, (f w).span = .none)
    (hOpen : ∀ w ∈ ws, w.kind = .invalid → f w = w)
    (hSpells : ∀ w ∈ ws, w.kind ≠ .invalid → Lexeme.Spells w.kind (f w).lexeme)
    (hLine : ∀ w ∈ ws, ['/', '/'] <+: (f w).lexeme → ['/', '/'] <+: w.lexeme) :
    LineTokens (Token.row (ws.map f)) (ws.map f) left := by
  induction h with
  | stop => exact .stop rfl
  | @token t u c kind ws left hGap hScan hRest ih =>
      obtain ⟨hKindHead, hKindTail⟩ := List.forall_mem_cons.1 hKind
      obtain ⟨hSpanHead, hSpanTail⟩ := List.forall_mem_cons.1 hSpan
      obtain ⟨-, hOpenTail⟩ := List.forall_mem_cons.1 hOpen
      obtain ⟨hSpellsHead, hSpellsTail⟩ := List.forall_mem_cons.1 hSpells
      obtain ⟨hLineHead, hLineTail⟩ := List.forall_mem_cons.1 hLine
      have hPart : u <:+ t := (List.suffix_cons c u).trans (Lexer.suffix_of_splitGap hGap)
      have hu : '\n' ∉ u := fun hMem => hFeed (hPart.subset hMem)
      have hNext := ih (fun hMem => hu ((Lexeme.rest_scan_suffix c u).subset hMem)) hKindTail hSpanTail
        hOpenTail hSpellsTail hLineTail
      have hFirst := hSpellsHead fun hInvalid => Lexeme.reading_ne (.inr hInvalid) c u hScan
      generalize hw : f ⟨kind, (Lexeme.scan c u).text, .none⟩ = w at hKindHead hSpanHead hFirst hLineHead
      obtain rfl : w.kind = kind := hKindHead
      obtain ⟨hRowGap, -⟩ := hFirst.splitGap_row false (ws.map f)
      obtain ⟨d, x, hText⟩ := hFirst.exists_cons
      have hToken {v : Text} {vs : List Token} (hRow : Token.row (w :: ws.map f) = d :: (x ++ v))
          (hScan : Lexeme.scan d (x ++ v) = ⟨.ok w.kind, d :: x, v⟩) (hLater : LineTokens v vs left) :
          LineTokens (Token.row (w :: ws.map f)) (w :: vs) left := by
        have hFound := token (hRowGap.trans hRow) (congrArg Lexeme.reading hScan)
          (by rw [hScan]; exact hLater)
        rw [hScan, ← hText, ← hSpanHead] at hFound
        exact hFound
      rw [List.map_cons, hw]
      by_cases hNe : ws = []
      · subst hNe
        rw [hText] at hFirst
        refine hToken (v := []) ?_ ?_ hNext
        · rw [List.map_nil, Token.row_singleton, hText, List.append_nil]
        · rw [List.append_nil]
          exact hFirst
      · have hNot : ¬(d = '/' ∧ x.head? = some '/') := by
          rintro ⟨rfl, hHead⟩
          obtain ⟨y, rfl⟩ := List.head?_eq_some_iff.1 hHead
          exact hNe (eq_nil_of_lineComment (hLineHead ⟨y, hText.symm⟩) hu hRest)
        rw [hText] at hFirst
        refine hToken ?_ (hFirst.scan_append hNot _)
          (hNext.of_splitGap (hRest.splitGap_row_map hNe hKindTail hOpenTail hSpellsTail))
        obtain ⟨v, vs, rfl⟩ := List.exists_cons_of_ne_nil hNe
        rw [List.map_cons, Token.row_cons_cons, hText]
        rfl
  | @opening t u q hGap hNone =>
      rw [List.map_singleton, hOpen _ List.mem_cons_self rfl, Token.row_singleton]
      refine .opening ?_ hNone
      cases q <;> rfl

theorem substitute_eq_row (h : LineTokens line ws left) (placeholder type : Text) :
    Line.substitute placeholder type line = Token.row (ws.map (Token.substitute placeholder type)) := by
  rw [← h.verbatimTokens_eq, Line.substitute, Token.row, List.map_map, List.map_map]
  rfl

/-- A line in which a name takes the place of a placeholder, where names and numbers stay such. -/
theorem substitute {placeholder type : Text} (hPlaceholder : ∀ c ∈ placeholder, isSign c = false)
    (hType : IsName type) (h : LineTokens line ws left) (hFeed : '\n' ∉ line)
    (hWords : ∀ w ∈ ws, w.kind.isWord = true →
      Lexeme.Spells w.kind (w.substitute placeholder type).lexeme) :
    LineTokens (Line.substitute placeholder type line) (ws.map (Token.substitute placeholder type))
      left := by
  have hSpells : ∀ w ∈ ws, w.kind ≠ .invalid →
      Lexeme.Spells w.kind (w.substitute placeholder type).lexeme := by
    intro w hw hValid
    cases hWord : w.kind.isWord with
    | true => exact hWords w hw hWord
    | false => exact Token.spells_substitute hPlaceholder hType (h.spells hw hValid) hWord
  have hOpen : ∀ w ∈ ws, w.kind = .invalid → w.substitute placeholder type = w := by
    intro w hw hInvalid
    obtain ⟨kind, lexeme, span⟩ := w
    obtain rfl : kind = .invalid := hInvalid
    rfl
  rw [h.substitute_eq_row]
  refine h.row hFeed (fun w _ => rfl) (fun w hw => h.span_eq (w := w) hw) hOpen hSpells fun w hw hStart => ?_
  by_cases hInvalid : w.kind = .invalid
  · rwa [hOpen w hw hInvalid] at hStart
  by_cases hComment : w.kind = .comment
  · have hSpelled := h.spells hw hInvalid
    rw [hComment] at hSpelled
    obtain ⟨u, hu⟩ : ['/', '/'] <+: Line.substituteComment placeholder type w.lexeme := by
      rwa [Token.substitute, Line.substituteToken, if_pos hComment] at hStart
    have hOutline := Line.outline_substituteComment hPlaceholder hType hSpelled.isComment
    rw [← hu, outline_append_of_isSign (by decide)] at hOutline
    obtain ⟨v, hv, -⟩ := exists_append_of_outline (by decide) hOutline.symm
    exact hSpelled.isComment.prefix_of_collapse ⟨v, hv.symm⟩
  · obtain ⟨u, hu⟩ := hStart
    have hSpelled := hSpells w hw hInvalid
    rw [← hu] at hSpelled
    exact absurd (Except.ok.inj (congrArg Lexeme.reading hSpelled)).symm hComment

end LineTokens

/-! ## All types of a set -/

/-- The text of a token is a part of the text in which it stands, and is not empty. -/
theorem Lexer.IsVerbatim.lexeme_isInfix {l : Lexer} (h : l.IsVerbatim) {t : Token}
    (ht : t ∈ l.run.tokens) : t.lexeme ≠ [] ∧ t.lexeme <:+: l.rest := by
  cases hGap : (splitGap false l.rest).2 with
  | nil =>
      rw [h.run_of_nil hGap] at ht
      cases ht
  | cons c u =>
      have hText : (splitGap false l.rest).1 ++ ((Lexeme.scan c u).text ++ (Lexeme.scan c u).rest) =
          l.rest := by
        have hSource : (Lexeme.scan c u).text ++ (Lexeme.scan c u).rest = c :: u := Lexeme.source_scan c u
        rw [hSource, ← hGap]
        exact splitGap_append false l.rest
      have hLess := h.rest_scan_length_lt hGap
      rw [h.run_of_cons hGap] at ht
      rw [← hText]
      rcases List.mem_cons.1 ht with rfl | ht
      · exact ⟨Lexeme.text_scan_ne_nil c u, (splitGap false l.rest).1, (Lexeme.scan c u).rest,
          List.append_assoc _ _ _⟩
      · obtain ⟨hNe, before, after, hInfix⟩ := lexeme_isInfix (h.skipGap.accept _) ht
        rw [accept_rest] at hInfix
        exact ⟨hNe, (splitGap false l.rest).1 ++ ((Lexeme.scan c u).text ++ before), after,
          by simp [← hInfix]⟩
  termination_by l.rest.length

/-- What does not occur in a line occurs in no token of it. -/
theorem occursIn_lexeme {line placeholder : Text} (h : placeholder.occursIn line = false) {t : Token}
    (ht : t ∈ verbatimTokens line) : placeholder.occursIn t.lexeme = false :=
  not_occursIn_of_isInfix h ((Lexer.isVerbatim_ofSource line).lexeme_isInfix ht).2

namespace LineTokens

variable {line : Text} {ws : List Token} {left : Option Opening}

private theorem exists_foldl {entries : List (Text × Text)} (hNames : ∀ entry ∈ entries, IsName entry.2)
    (hSigns : ∀ entry ∈ entries, ∀ c ∈ entry.1, isSign c = false) (h : LineTokens line ws left)
    (hFeed : '\n' ∉ line) (hStays : ∀ w ∈ ws, w.Stays entries) :
    ∃ line' ws', line' = entries.foldl (fun line (placeholder, type) =>
      if placeholder.occursIn line then Line.substitute placeholder type line else line) line ∧
        LineTokens line' ws' left ∧ ws'.map Token.kind = ws.map Token.kind ∧
          (line.head? ≠ some '\uFEFF' → line'.head? ≠ some '\uFEFF') := by
  induction entries generalizing line ws with
  | nil => exact ⟨line, ws, rfl, h, rfl, id⟩
  | cons entry entries ih =>
      obtain ⟨placeholder, type⟩ := entry
      obtain ⟨hName, hNames⟩ := List.forall_mem_cons.1 hNames
      obtain ⟨hSign, hSigns⟩ := List.forall_mem_cons.1 hSigns
      rw [List.foldl_cons]
      dsimp only
      split
      · have hFeed' : '\n' ∉ Line.substitute placeholder type line := by
          apply Line.lineEnd_not_mem_substitute rfl _ hFeed
          intro hMem
          cases hName.isSign_eq_false _ hMem
        have hLater : ∀ w ∈ ws.map (Token.substitute placeholder type), w.Stays entries := by
          intro w hw
          obtain ⟨v, hv, rfl⟩ := List.mem_map.1 hw
          exact (hStays v hv).substitute
        have hNext := h.substitute hSign hName hFeed fun w hw hWord =>
          (hStays w hw).substitute hWord _ (Word.mem_steps _ _)
        have hMark' : (Line.substitute placeholder type line).head? ≠ some '\uFEFF' := by
          rw [h.substitute_eq_row] at hNext ⊢
          exact hNext.head?_row_ne
        obtain ⟨line', ws', hLine, hWs, hKinds, hFront⟩ := ih hNames hSigns hNext hFeed' hLater
        refine ⟨line', ws', hLine, hWs, hKinds.trans ?_, fun _ => hFront hMark'⟩
        rw [List.map_map]
        rfl
      · rename_i hOccurs
        rw [Bool.not_eq_true] at hOccurs
        have hNe : placeholder ≠ [] := by
          rintro rfl
          cases line <;> cases hOccurs
        refine ih hNames hSigns h hFeed fun w hw hWord => ?_
        rw [← h.verbatimTokens_eq] at hw
        obtain ⟨t, ht, rfl⟩ := List.mem_map.1 hw
        have hSame : Word.substitute placeholder type t.lexeme = t.lexeme :=
          Line.substitute_word hNe (occursIn_lexeme hOccurs ht)
        intro word hMem
        refine hStays t.bare (h.verbatimTokens_eq ▸ hw) hWord word ?_
        rw [Word.steps_cons]
        refine List.mem_cons_of_mem _ ?_
        rwa [show t.bare.lexeme = t.lexeme from rfl, hSame]

/-- A line keeps the kinds of its tokens when names take the places of placeholders in it, where names and
numbers stay such. -/
theorem exists_instantiateLine {types : TypeSet} (hTypes : types.OfNames) (h : LineTokens line ws left)
    (hFeed : '\n' ∉ line) (hStays : ∀ w ∈ ws, w.Stays types.entries) :
    ∃ ws', LineTokens (Template.instantiateLine types line) ws' left ∧
      ws'.map Token.kind = ws.map Token.kind ∧ (line.head? ≠ some '\uFEFF' →
        (Template.instantiateLine types line).head? ≠ some '\uFEFF') := by
  obtain ⟨_, ws', rfl, hWs, hKinds, hMark⟩ :=
    exists_foldl hTypes.isName hTypes.noSigns h hFeed hStays
  exact ⟨ws', hWs, hKinds, hMark⟩

end LineTokens

/-! ## Lines in which nothing ends -/

namespace Opening

variable {q : Opening}

theorem closeIn?_joinWithSpaces {texts : List Text} (h : ∀ t ∈ texts, q.closeIn? t = none) :
    q.closeIn? (joinWithSpaces texts) = none := by
  induction texts with
  | nil => cases q <;> rfl
  | cons t texts ih =>
      obtain ⟨ht, hTexts⟩ := List.forall_mem_cons.1 h
      cases texts with
      | nil => rwa [joinWithSpaces_singleton]
      | cons u texts =>
          rw [joinWithSpaces_cons_cons, closeIn?_append_of_none ht (by simp),
            closeIn?_cons (by decide) (by decide)]
          exact ih hTexts

/-- In a text with the same signs it does not end either. -/
theorem closeIn?_of_outline {s t : Text} (h : q.closeIn? t = none) (hSame : outline s = outline t) :
    q.closeIn? s = none := by
  have hOutline := closeIn?_outline q s
  rw [hSame, closeIn?_outline, h] at hOutline
  exact Option.map_eq_none_iff.1 hOutline.symm

/-- A line in which a comment or raw string does not end is still such a line when names take the place of
placeholders in it. -/
theorem closeIn?_substitute {placeholder type line : Text}
    (hPlaceholder : ∀ c ∈ placeholder, isSign c = false) (hType : IsName type)
    (h : q.closeIn? line = none) : q.closeIn? (Line.substitute placeholder type line) = none := by
  apply closeIn?_joinWithSpaces
  intro text hText
  obtain ⟨t, ht, rfl⟩ := List.mem_map.1 hText
  obtain ⟨hLexemeNe, hLexemeInfix⟩ := (Lexer.isVerbatim_ofSource line).lexeme_isInfix ht
  have hLexeme : q.closeIn? t.lexeme = none := closeIn?_of_isInfix hLexemeInfix h
  have hWord {word : Text} (hNe : word ≠ []) (hInfix : word <:+: t.lexeme) :
      q.closeIn? (Word.substitute placeholder type word) = none :=
    closeIn?_of_outline (closeIn?_of_isInfix hInfix hLexeme) (Word.outline_substitute hPlaceholder hType hNe)
  rw [Line.substituteToken]
  split
  · apply closeIn?_joinWithSpaces
    intro piece hPiece
    obtain ⟨word, hMem, rfl⟩ := List.mem_map.1 hPiece
    exact hWord (word_of_mem_words hMem).1 (infix_of_mem_words hMem)
  · split
    · exact hWord hLexemeNe (List.infix_refl _)
    · rw [Token.text]
      split
      · cases q <;> rfl
      · exact hLexeme

theorem closeIn?_instantiateLine {types : TypeSet} (hTypes : types.OfNames) {line : Text}
    (h : q.closeIn? line = none) : q.closeIn? (Template.instantiateLine types line) = none := by
  apply List.foldlRecOn (motive := fun line => q.closeIn? line = none) types.entries _ h
  intro line hLine entry hEntry
  dsimp only
  split
  · exact closeIn?_substitute (hTypes.noSigns entry hEntry) (hTypes.isName entry hEntry) hLine
  · exact hLine

end Opening

end GoTemplate
