import GoTemplate.Proofs.Lexical.Stretches
import GoTemplate.Proofs.Syntax.TypePlaces
import GoTemplate.Proofs.Syntax.TypeSource
import GoTemplate.Text.Utf8

/-!
The spans of types cover their texts. Cut out of its source by its span, each type that stands in another
one is read again as the same type. The span of a function type leaves out the keyword, which has to be put
back.
-/

namespace GoTemplate

open Brackets

/-! ## Tokens of a span -/

/-- The keyword that the span of a function type leaves out. -/
def GoType.opener : GoType → Text
  | .func _ => "func".toList
  | _ => []

/-- A token of a kind with only one text is spelled so. -/
theorem Lexeme.Spells.eq_sign {k : TokenKind} {t : Text} (h : Spells k t)
    (hk : k.spelling?.isSome = true) : t = k.sign := by
  obtain ⟨spelling, hSpelling⟩ := Option.isSome_iff_exists.1 hk
  obtain ⟨c, u, rfl⟩ := h.exists_cons
  have hScan : scan c u = ⟨.ok k, c :: u, []⟩ := h
  have hText := text_of_spelling (congrArg reading hScan) hSpelling
  rw [hScan] at hText
  rw [TokenKind.sign, hSpelling]
  exact hText

namespace ReadFrom

variable {type : GoType} {c c' : Cursor} {opener tokens : List Token}

/-- Behind its opener the text of the tokens has all tokens of the type. -/
theorem bareTokens (h : ReadFrom type c c' opener tokens) (hc : c.IsSpelled) {before text : Text}
    (hText : IsStretch before tokens text) : ∃ tail, (tail = [] ∨ tail = [.automatic]) ∧
      BareTokens false (type.opener ++ text) ((opener ++ tokens).map Token.bare ++ tail) := by
  obtain ⟨tail, hTail, hTokens⟩ := hText.tokens
  refine ⟨tail, hTail, ?_⟩
  have hSign {t : Token} (ht : t ∈ opener ++ tokens) {k : TokenKind} (hKind : t.kind = k)
      (hk : k.spelling?.isSome = true) (hSemicolon : k ≠ .semicolon) : t.lexeme = k.sign := by
    have hSpells := (hc.rest t (h.rest_eq ▸ List.mem_append_left c'.rest ht)).2.2
    rw [t.text_eq_lexeme (hKind ▸ hSemicolon), hKind] at hSpells
    exact hSpells.eq_sign hk
  cases type with
  | func s =>
      obtain ⟨⟨t, rfl, ht⟩, hNext⟩ := h.opensWith
      obtain ⟨u, others, behind, rfl, -, rfl⟩ := hText.first
      have hu : u.kind = .opening .round := hNext
      have hFirst : u.source = ['('] := by
        have hAutomatic : u.isAutomatic = false := by simp [Token.isAutomatic, hu]
        rw [Token.source_of_not_automatic hAutomatic, hSign (by simp) hu rfl (by simp)]
        rfl
      have hKeyword : t.bare = ⟨.keyword .func, "func".toList, .none⟩ := by
        rw [Token.bare, ht, hSign (by simp) ht rfl (by simp)]
        rfl
      have hStart : isIdentifierStart 'f' = true := by decide +kernel
      have hStop : isIdentifierPart '(' = false := by decide +kernel
      have hFunc : Lexeme.Spells (.keyword .func) "func".toList := Lexeme.spells_sign rfl
      refine (BareTokens.word_iff hFunc ?_ (by simp) ?_).2 ⟨_, hTokens _, by rw [← hKeyword]; rfl⟩
      · rintro c ⟨⟩
        exact hStart
      · rw [hFirst]
        rintro c ⟨⟩
        exact hStop
  | _ =>
      obtain rfl : opener = [] := h.opensWith
      exact hTokens false

/-- Without their places the tokens are read as the type without places. -/
theorem readsOff (h : ReadFrom type c c' opener tokens)
    (hStop : respan Span.erase c.stop = ⟨.endOfSource, [], .none⟩) {tail : List Token}
    (hTail : tail = [] ∨ tail = [.automatic]) : Parser.ReadsOff Parser.goType
      ((opener ++ tokens).map Token.bare ++ tail) (respan Span.erase type) tail := by
  have hEnds : (nextKind tail).endsType = true := by
    rcases hTail with rfl | rfl <;> rfl
  have hBare : respan Span.erase tail = tail := by
    rcases hTail with rfl | rfl <;> rfl
  have hKind : c.stop.kind = .endOfSource := congrArg Token.kind hStop
  have hPlace (previous : Span) (ws : List Token) :
      respan Span.erase (⟨previous, ws, c.stop⟩ : Cursor) = .ofTokens (respan Span.erase ws) := by
    change (⟨.none, _, respan Span.erase c.stop⟩ : Cursor) = _
    rw [hStop]
    rfl
  have hRun := h.run_eq tail hEnds
  obtain ⟨hStep, hEnd⟩ := (Parser.abreast_goType (.ofMerges merges_erase) _).inStep
    { c with rest := opener ++ tokens ++ tail } hKind (Nat.lt_succ_self _) trivial
  obtain ⟨hSame, -⟩ := hEnd _ _ hRun
  have hSame' : c'.stop = c.stop := hSame
  rw [hRun, hPlace] at hStep
  have hTokens : respan Span.erase (opener ++ tokens ++ tail) = (opener ++ tokens).map Token.bare ++ tail := by
    have hAppend : respan Span.erase (opener ++ tokens ++ tail) =
        respan Span.erase (opener ++ tokens) ++ respan Span.erase tail := List.map_append
    rw [hAppend, hBare]
    rfl
  rw [hTokens] at hStep
  refine hStep.trans ?_
  change Except.ok (_, respan Span.erase (⟨c'.previous, tail, c'.stop⟩ : Cursor)) = _
  rw [hSame', hPlace, hBare]

end ReadFrom

/-! ## Sources -/

theorem Cursor.respan_stop_ofRun {source : Text}
    (h : (Lexer.ofSource .statements source).run.after.errors = []) :
    respan Span.erase (ofRun (Lexer.ofSource .statements source).run).stop = ⟨.endOfSource, [], .none⟩ := by
  have hTokens : source.tokens? = some _ := if_pos h
  exact congrArg Cursor.stop (respan_ofRun hTokens)

/-- A type that stands in a type read from a source on one line, cut out of the source by its span, is
read again as the same type. -/
theorem GoType.parse_cut_of_parse {source : Text} {type node : GoType} (hFeed : '\n' ∉ source)
    (h : parse source = .ok type) (hNode : node.IsNodeOf type) :
    node.span.line = 1 ∧ 1 ≤ node.span.col ∧ node.span.col - 1 + node.span.length ≤ source.toUtf8.size ∧
      ∃ cut found, Text.ofUtf8? (source.toUtf8.extract (node.span.col - 1)
        (node.span.col - 1 + node.span.length)) = some cut ∧
        parse (node.opener ++ cut) = .ok found ∧ respan Span.erase found = respan Span.erase node := by
  obtain ⟨hErrors, c, hType⟩ := goType_of_parse h
  have hSpelled := Cursor.isSpelled_ofRun hErrors
  obtain ⟨d, d', hReaches, hRun⟩ := Parser.exists_place_of_isNodeOf hSpelled.isProper hType hNode
  obtain ⟨front, hFront⟩ := hReaches.exists_word
  have hPlace : d.IsSpelled := hSpelled.of_rest front hFront hReaches.stop_eq
  obtain ⟨opener, tokens, hRead⟩ := exists_readFrom hPlace hRun
  -- The tokens of the span make up a stretch of the source.
  have hTokens : (Lexer.ofSource .statements source).run.tokens = (front ++ opener) ++ (tokens ++ d'.rest) := by
    have hRest : (Lexer.ofSource .statements source).run.tokens = front ++ d.rest := hFront
    rw [hRest, hRead.rest_eq]
    simp only [List.append_assoc]
  have hLast (t : Token) (ht : tokens.getLast? = some t) : t.kind ≠ .semicolon := by
    refine hRead.phrase.last ?_
    rw [List.getLast?_append, ht]
    rfl
  obtain ⟨before, text, behind, hSource, hStretch⟩ :=
    Lexer.exists_isStretch_of_run hFeed hErrors hTokens hRead.ne_nil hLast
  have hOneLine : '\n' ∉ before ∧ '\n' ∉ text := by
    rw [hSource] at hFeed
    exact ⟨fun hMem => hFeed (by simp [hMem]), fun hMem => hFeed (by simp [hMem])⟩
  have hSpan : node.span = .startingAt (.atEnd before) text.byteSize := by
    obtain ⟨first, others, hTokens⟩ := List.exists_cons_of_ne_nil hRead.ne_nil
    have hFirst : tokens.head? = some first := by rw [hTokens]; rfl
    obtain ⟨last, hLast⟩ : ∃ last, tokens.getLast? = some last :=
      ⟨_, List.getLast?_eq_some_getLast hRead.ne_nil⟩
    rw [hRead.span_eq first last hFirst hLast, hStretch.merge_span hOneLine.2 hFirst hLast]
  have hStart : Position.atEnd before = ⟨1, 1 + before.byteSize⟩ := by
    have hLine : Text.lastLine before = before := Text.lastLine_append hOneLine.1 []
    rw [Position.atEnd, List.count_eq_zero_of_not_mem hOneLine.1, hLine]
  have hBytes : source.toUtf8.extract before.byteSize (before.byteSize + text.byteSize) = text.toUtf8 := by
    rw [hSource, Text.extract_toUtf8]
  -- By itself the stretch has the same tokens.
  obtain ⟨tail, hTail, hCut⟩ := hRead.bareTokens hPlace hStretch
  have hStop : Spanned.respan Span.erase d.stop = ⟨.endOfSource, [], .none⟩ := by
    rw [hReaches.stop_eq]
    exact Cursor.respan_stop_ofRun hErrors
  have hWhole := Parser.readsOff_wholeType hTail (hRead.readsOff hStop hTail)
  obtain ⟨found, hFound, hSame⟩ :=
    readSource_of_ofTokens Parser.inStep_wholeType (Text.tokens?_eq_some.2 hCut) hWhole
  rw [hSpan, hStart, Span.startingAt, Nat.add_sub_cancel_left, hBytes]
  refine ⟨rfl, Nat.le_add_right _ _, ?_, text, found, Text.ofUtf8?_toUtf8 text, (parse_eq _).trans hFound, hSame⟩
  rw [Text.size_toUtf8, hSource, Text.byteSize_append, Text.byteSize_append, ← Nat.add_assoc]
  exact Nat.le_add_right _ _

/-- The value of a map, a function type whose first two parameters share a type. -/
theorem GoType.parse_cut_of_parse_value : ∃ type node, parse "map[K]func(a, b T) p.Q".toList = .ok type ∧
    node.IsNodeOf type ∧ node.span = ⟨1, 11, 12⟩ ∧ node.opener = "func".toList ∧
      ∃ cut found, Text.ofUtf8? ((Text.toUtf8 "map[K]func(a, b T) p.Q".toList).extract 10 22) = some cut ∧
        parse ("func".toList ++ cut) = .ok found ∧ respan Span.erase found = respan Span.erase node := by
  have hParts : (parse "map[K]func(a, b T) p.Q".toList).toOption.map
      (fun type => type.parts.map fun part => (part.span, part.opener)) =
        some [(⟨1, 5, 1⟩, []), (⟨1, 11, 12⟩, "func".toList)] := by decide +kernel
  cases hParse : parse "map[K]func(a, b T) p.Q".toList with
  | error e => rw [hParse] at hParts; cases hParts
  | ok type =>
      rw [hParse] at hParts
      obtain ⟨key, values, hType, -, hValue⟩ := List.map_eq_cons_iff.1 (Option.some.inj hParts)
      obtain ⟨value, others, rfl, hValue, -⟩ := List.map_eq_cons_iff.1 hValue
      obtain ⟨hSpan, hOpener⟩ := Prod.mk.inj hValue
      have hNode : value.IsNodeOf type := .part (by rw [hType]; simp) .self
      obtain ⟨-, -, -, hCut⟩ := parse_cut_of_parse (by decide) hParse hNode
      rw [hSpan, hOpener] at hCut
      exact ⟨type, value, rfl, hNode, hSpan, hOpener, hCut⟩

end GoTemplate
