import GoTemplate.Proofs.Lexical.Gaps
import Mathlib.Data.List.DropRight

/-!
Where tokens stand. A reader cuts its source into tokens and gaps: each token takes up its lexeme,
an automatic semicolon takes up nothing, and what is left are the gaps. The span of a token says
where its lexeme starts, counted in the source before it.
-/

namespace GoTemplate

/-! ## Places -/

namespace Text

@[simp] theorem byteSize_append (t u : Text) : (t ++ u).byteSize = t.byteSize + u.byteSize := by
  induction t with
  | nil => simp [byteSize]
  | cons c t ih => simp only [List.cons_append, byteSize, ih, Nat.add_assoc]

theorem byteSize_eq_zero {t : Text} (h : t.byteSize = 0) : t = [] := by
  cases t with
  | nil => rfl
  | cons c t =>
      have hChar : 0 < c.utf8Size := Char.utf8Size_pos c
      rw [byteSize] at h
      omega

/-- The part of a text after its last line feed. -/
def lastLine (t : Text) : Text := t.rtakeWhile (· != '\n')

theorem lastLine_concat (t : Text) (c : Char) :
    lastLine (t ++ [c]) = if c = '\n' then [] else lastLine t ++ [c] := by
  by_cases hFeed : c = '\n'
  · rw [if_pos hFeed, lastLine, List.rtakeWhile_concat_neg _ _ _ (by simp [hFeed])]
  · rw [if_neg hFeed, lastLine, List.rtakeWhile_concat_pos _ _ _ (by simp [hFeed]), lastLine]

theorem lastLine_append {u : Text} (hFeed : '\n' ∉ u) (t : Text) :
    lastLine (t ++ u) = lastLine t ++ u := by
  induction u generalizing t with
  | nil => simp
  | cons c u ih =>
      rw [List.mem_cons, not_or] at hFeed
      rw [List.append_cons, ih hFeed.2, lastLine_concat, if_neg (Ne.symm hFeed.1), ← List.append_cons]

theorem lastLine_suffix (t : Text) : lastLine t <:+ t := List.rtakeWhile_suffix _ _

end Text

namespace Position

/-- The place after a text, by what the text holds: its line feeds make the line, and the bytes
after the last of them the column. -/
def atEnd (t : Text) : Position := ⟨1 + t.count '\n', 1 + t.lastLine.byteSize⟩

theorem after_append (p : Position) (t u : Text) : p.after (t ++ u) = (p.after t).after u :=
  List.foldl_append

theorem advance_atEnd (t : Text) (c : Char) : (atEnd t).advance c = atEnd (t ++ [c]) := by
  unfold advance atEnd
  rw [Text.lastLine_concat]
  by_cases hFeed : c = '\n'
  · simp [hFeed, Text.byteSize, Nat.add_assoc]
  · simp [hFeed, Text.byteSize, Nat.add_assoc]

/-- The place that a reader keeps up is the place counted in the text it has read. -/
theorem after_atEnd (t u : Text) : (atEnd t).after u = atEnd (t ++ u) := by
  induction u generalizing t with
  | nil => simp [after]
  | cons c u ih =>
      have hHead : (atEnd t).after (c :: u) = ((atEnd t).advance c).after u := rfl
      rw [hHead, advance_atEnd, ih, List.append_assoc]
      rfl

theorem start_eq_atEnd : start = atEnd [] := rfl

@[simp] theorem atEnd_line_append (t u : Text) :
    (atEnd (t ++ u)).line = (atEnd t).line + u.count '\n' := by
  simp only [atEnd, List.count_append, Nat.add_assoc]

/-- On one line the column moves on by the bytes of the text. -/
theorem atEnd_col_append {u : Text} (hFeed : '\n' ∉ u) (t : Text) :
    (atEnd (t ++ u)).col = (atEnd t).col + u.byteSize := by
  simp only [atEnd, Text.lastLine_append hFeed, Text.byteSize_append, Nat.add_assoc]

/-- No line number exceeds the bytes before it by more than one. -/
theorem atEnd_line_le (t : Text) : (atEnd t).line ≤ 1 + t.byteSize := by
  have hCount : t.count '\n' ≤ t.byteSize := by
    induction t with
    | nil => exact Nat.le_refl 0
    | cons c t ih =>
        rw [List.count_cons, Text.byteSize]
        have hChar : 0 < c.utf8Size := Char.utf8Size_pos c
        split
        · omega
        · omega
  exact Nat.add_le_add_left hCount 1

/-- No column exceeds the bytes before it by more than one. -/
theorem atEnd_col_le (t : Text) : (atEnd t).col ≤ 1 + t.byteSize := by
  obtain ⟨u, hLine⟩ := Text.lastLine_suffix t
  have hSize : Text.byteSize u + t.lastLine.byteSize = t.byteSize := by
    rw [← Text.byteSize_append, hLine]
  change 1 + t.lastLine.byteSize ≤ 1 + t.byteSize
  omega

end Position

/-! ## Tokens and the gaps between them -/

namespace Token

/-- The stretch of source that is the token. An automatic semicolon takes up nothing. -/
def source (t : Token) : Text := if t.isAutomatic then [] else t.lexeme

theorem source_of_not_automatic {t : Token} (h : t.isAutomatic = false) : t.source = t.lexeme := by
  rw [source, h]
  rfl

/-- Whether the token stands in its source right after the text `before`. -/
def StandsAfter (t : Token) (before : Text) : Prop :=
  t.span = .startingAt (.atEnd before) t.source.byteSize

end Token

/-- A text that goes on after `before` is made of the tokens, each in its place, and of gaps. -/
inductive Tiles (Gap : Text → Prop) : Text → List Token → Text → Prop where
  | nil {before gap : Text} (hGap : Gap gap) : Tiles Gap before [] gap
  | cons {before gap rest : Text} {t : Token} {ts : List Token} (hGap : Gap gap)
      (hPlace : t.StandsAfter (before ++ gap))
      (hRest : Tiles Gap (before ++ (gap ++ t.source)) ts rest) :
      Tiles Gap before (t :: ts) (gap ++ (t.source ++ rest))

namespace Tiles

variable {Gap : Text → Prop}

theorem mono {Gap' : Text → Prop} (hGaps : ∀ gap, Gap gap → Gap' gap) {before rest : Text}
    {ts : List Token} (h : Tiles Gap before ts rest) : Tiles Gap' before ts rest := by
  induction h with
  | nil hGap => exact .nil (hGaps _ hGap)
  | cons hGap hPlace _ ih => exact .cons (hGaps _ hGap) hPlace ih

/-- More of a gap may stand before a text. -/
theorem prepend {before rest gap : Text} {ts : List Token}
    (hGaps : ∀ {gap' : Text}, Gap gap' → Gap (gap ++ gap')) (h : Tiles Gap (before ++ gap) ts rest) :
    Tiles Gap before ts (gap ++ rest) := by
  cases h with
  | nil hGap => exact .nil (hGaps hGap)
  | @cons _ gap' rest t ts hGap hPlace hRest =>
      rw [List.append_assoc] at hPlace hRest
      rw [← List.append_assoc gap gap']
      refine .cons (hGaps hGap) hPlace ?_
      rw [List.append_assoc]
      exact hRest

/-- The tokens from some token on tile the text from its gap on. -/
theorem of_append {before rest : Text} {ts us : List Token} (h : Tiles Gap before (ts ++ us) rest) :
    ∃ x y, rest = x ++ y ∧ Tiles Gap (before ++ x) us y := by
  induction ts generalizing before rest with
  | nil => exact ⟨[], rest, rfl, by rwa [List.append_nil]⟩
  | cons t ts ih =>
      cases h with
      | @cons _ gap rest _ _ hGap hPlace hRest =>
          obtain ⟨x, y, rfl, hTiles⟩ := ih hRest
          rw [List.append_assoc] at hTiles
          refine ⟨(gap ++ t.source) ++ x, y, ?_, hTiles⟩
          simp only [List.append_assoc]

end Tiles

/-! ## The tiling that a reader finds -/

namespace Lexeme

/-- A character with which no token starts is taken alone. -/
theorem scan_of_unexpected {c : Char} (hQuotes : c ≠ '"' ∧ c ≠ '`' ∧ c ≠ '\'')
    (hDigit : c.isDigit = false) (hWord : isIdentifierStart c = false)
    (hSymbols : ∀ entry ∈ symbolTable, c ∉ entry.1) (t : Text) :
    scan c t = ⟨.error (.unexpectedCharacter c), [c], t⟩ := by
  have hSlash : c ≠ '/' := by
    rintro rfl
    exact hSymbols (['/'], .operator .quo) (by decide +kernel) (by simp)
  have hPoint : (c == '.') = false := by
    rw [beq_eq_false_iff_ne]
    rintro rfl
    exact hSymbols (['.'], .dot) (by decide +kernel) (by simp)
  have hEmpty : symbolTable.find? (fun entry => entry.1.isPrefixOf []) = none := by decide +kernel
  have hNone : symbolTable.find? (fun entry => entry.1.isPrefixOf (c :: t)) = none := by
    rw [← hEmpty]
    exact List.find?_congr fun entry hEntry => isPrefixOf_append_stop (hSymbols entry hEntry) [] t
  rw [scan_of_ne (fun h => absurd h hSlash) hQuotes.1 hQuotes.2.1 hQuotes.2.2, hDigit, hPoint, hWord,
    symbol, hNone]
  rfl

/-- No token starts with a line feed. -/
theorem scan_lineFeed_eq (t : Text) :
    scan '\n' t = ⟨.error (.unexpectedCharacter '\n'), ['\n'], t⟩ :=
  scan_of_unexpected (by decide) rfl (by decide +kernel) (by decide +kernel) t

/-- No token starts with a byte order mark. -/
theorem scan_mark_eq (t : Text) :
    scan '\uFEFF' t = ⟨.error (.unexpectedCharacter '\uFEFF'), ['\uFEFF'], t⟩ :=
  scan_of_unexpected (by decide) (by decide) (by decide +kernel) (by decide +kernel) t

end Lexeme

namespace Lexer

/-- The token that stands in the text is never automatic. -/
theorem isAutomatic_token (l : Lexer) (c : Char) (t : Text) :
    (l.token (Lexeme.scan c t)).isAutomatic = false := by
  by_cases hFeed : c = '\n'
  · subst hFeed
    rw [Lexeme.scan_lineFeed_eq]
    rfl
  · have hText : (Lexeme.scan c t).text ≠ ['\n'] := by
      intro hText
      have hSource := Lexeme.source_scan c t
      rw [Lexeme.source, hText] at hSource
      exact hFeed (List.cons_eq_cons.1 hSource).1.symm
    simp [Token.isAutomatic, token, hText]

theorem kind_token_ne_endOfSource (l : Lexer) (c : Char) (t : Text) :
    (l.token (Lexeme.scan c t)).kind ≠ .endOfSource := by
  have hReading := Lexeme.reading_ne_endOfSource c t
  rw [token]
  dsimp only
  split
  · rename_i kind hScan
    rw [hScan] at hReading
    exact fun hKind => hReading (congrArg _ hKind)
  · simp

theorem accept_position (l : Lexer) (lexeme : Lexeme) :
    (l.accept lexeme).position = l.position.after lexeme.text := by
  unfold accept
  split <;> rfl

/-- What a token takes up, and the line feed that an automatic semicolon uses up besides. -/
theorem exists_nextHere (l : Lexer) : ∃ used,
    (used = [] ∨ used = ['\n'] ∧ l.nextHere.1.isAutomatic = true) ∧
    l.rest = l.nextHere.1.source ++ (used ++ l.nextHere.2.rest) ∧
    l.nextHere.1.span = .startingAt l.position l.nextHere.1.source.byteSize ∧
    l.nextHere.2.position = (l.position.after l.nextHere.1.source).after used := by
  unfold nextHere
  split
  · by_cases hFeed : l.rest.head? = some '\n'
    · obtain ⟨t, hRest⟩ := List.head?_eq_some_iff.1 hFeed
      refine ⟨['\n'], .inr ⟨rfl, rfl⟩, ?_, rfl, ?_⟩
      · simp [semicolon, hRest, Token.source, Token.isAutomatic]
      · simp [semicolon, hRest, Token.source, Token.isAutomatic, Position.after]
    · refine ⟨[], .inl rfl, ?_, rfl, ?_⟩
      · simp [semicolon, hFeed, Token.source, Token.isAutomatic]
      · simp [semicolon, hFeed, Token.source, Token.isAutomatic, Position.after]
  · split
    · exact ⟨[], .inl rfl, rfl, rfl, rfl⟩
    · rename_i c t hRest
      have hSource : (l.token (Lexeme.scan c t)).source = (Lexeme.scan c t).text :=
        Token.source_of_not_automatic (isAutomatic_token l c t)
      refine ⟨[], .inl rfl, ?_, ?_, ?_⟩
      · rw [hSource, accept_rest, hRest]
        exact (Lexeme.source_scan c t).symm
      · rw [hSource]
        rfl
      · rw [hSource, accept_position]
        rfl

theorem kind_nextHere {l : Lexer} (h : l.nextHere.1.kind = .endOfSource) :
    l.rest = [] ∧ l.semicolonDue = false ∧
      l.nextHere = (⟨.endOfSource, [], .startingAt l.position 0⟩, l) := by
  unfold nextHere at h ⊢
  split at h
  · cases h
  · rename_i hGoesOn
    rw [if_neg hGoesOn]
    split at h
    · rename_i hRest
      rw [hRest] at hGoesOn
      exact ⟨hRest, by simpa [Comment.lineEnds] using hGoesOn, rfl⟩
    · rename_i c t hRest
      exact absurd h (kind_token_ne_endOfSource l c t)

/-- A step to the end of the source changes nothing but the place, and can be made again. -/
theorem next_of_endOfSource {l : Lexer} (h : l.next.1.kind = .endOfSource) :
    IsGap l.mode l.rest ∧
      l.next.1 = ⟨.endOfSource, [], .startingAt (l.position.after l.rest) 0⟩ ∧
      l.next.2.errors = l.errors ∧ l.next.2.next = l.next := by
  obtain ⟨gap, rest, hSkips, hNext⟩ := l.exists_skips
  rw [hNext] at h ⊢
  obtain ⟨hNil, hDue, hHere⟩ := kind_nextHere h
  change rest = [] at hNil
  subst hNil
  have hGap : l.rest = gap := by rw [← hSkips.append_eq, List.append_nil]
  rw [hHere, hGap]
  refine ⟨hSkips.isGap, rfl, rfl, ?_⟩
  have hSame : (l.moveOn gap []).skipGap = l.moveOn gap [] := rfl
  rw [next_of_nil hDue (by rw [hSame]; rfl), hSame]

theorem exists_next (l : Lexer) : ∃ gap used, IsGap l.mode gap ∧ (used = [] ∨ used = ['\n']) ∧
    l.rest = gap ++ (l.next.1.source ++ (used ++ l.next.2.rest)) ∧
    l.next.1.span = .startingAt (l.position.after gap) l.next.1.source.byteSize ∧
    l.next.2.position = ((l.position.after gap).after l.next.1.source).after used := by
  obtain ⟨gap, rest, hSkips, hNext⟩ := l.exists_skips
  obtain ⟨used, hUsed, hRest, hSpan, hPosition⟩ := (l.moveOn gap rest).exists_nextHere
  refine ⟨gap, used, hSkips.isGap, hUsed.imp_right And.left, ?_, ?_, ?_⟩
  · rw [hNext, ← hRest]
    exact hSkips.append_eq.symm
  · rw [hNext]
    exact hSpan
  · rw [hNext]
    exact hPosition

/-- The tokens of a run stand in the text that the reader had before it, the end of the source at
the end of that text. -/
theorem tiles_run (l : Lexer) : ∀ before, l.position = .atEnd before →
    Tiles (IsGap l.mode) before l.run.tokens l.rest ∧ l.run.stop.StandsAfter (before ++ l.rest) := by
  fun_induction run l with
  | case1 l token after hNext hEnd =>
      intro before hPosition
      obtain ⟨hGap, hStop, -⟩ := next_of_endOfSource (l := l) (by rw [hNext]; exact hEnd)
      rw [hNext, hPosition, Position.after_atEnd] at hStop
      dsimp only at hStop
      rw [hStop]
      exact ⟨.nil hGap, rfl⟩
  | case2 l token after hNext hEnd others ih =>
      intro before hPosition
      obtain ⟨gap, used, hGap, hUsed, hRest, hSpan, hAfter⟩ := l.exists_next
      rw [hNext] at hRest hSpan hAfter
      rw [hPosition, Position.after_atEnd] at hSpan hAfter
      rw [Position.after_atEnd, Position.after_atEnd] at hAfter
      obtain ⟨hTiles, hStop⟩ := ih _ hAfter
      have hMode : after.mode = l.mode := by rw [← next_mode l, hNext]
      rw [hMode] at hTiles
      have hBlank : IsBlank used := by
        rcases hUsed with rfl | rfl
        · intro c hc
          cases hc
        · intro c hc
          obtain rfl := List.mem_singleton.1 hc
          exact .inl rfl
      have hUsedTiles := hTiles.prepend (.blank hBlank)
      rw [List.append_assoc] at hUsedTiles
      have hText : before ++ l.rest = before ++ gap ++ token.source ++ used ++ after.rest := by
        simp only [hRest, List.append_assoc]
      refine ⟨?_, ?_⟩
      · rw [hRest]
        exact .cons hGap hSpan hUsedTiles
      · rw [hText]
        exact hStop

/-- The reader after `n` tokens. -/
def skipTokens (l : Lexer) (n : Nat) : Lexer := (fun l => l.next.2)^[n] l

/-- The token that a reader finds after `n` others. -/
def nth (l : Lexer) (n : Nat) : Token := (l.skipTokens n).next.1

theorem nth_succ (l : Lexer) (n : Nat) : l.nth (n + 1) = l.next.2.nth n := rfl

/-- A run is what comes of asking for one token after the other up to the end of the source, which
comes again whenever it is asked for. -/
theorem run_tokens_eq (l : Lexer) :
    l.run.tokens = (List.range l.run.tokens.length).map l.nth ∧
      (∀ i < l.run.tokens.length, (l.nth i).kind ≠ .endOfSource) ∧ l.run.stop.kind = .endOfSource ∧
      l.run.after.errors = (l.skipTokens l.run.tokens.length).errors ∧
      ∀ i ≥ l.run.tokens.length, (l.skipTokens i).next = (l.run.stop, l.run.after) := by
  fun_induction run l with
  | case1 l token after hNext hEnd =>
      obtain ⟨-, -, hErrors, hAgain⟩ := next_of_endOfSource (l := l) (by rw [hNext]; exact hEnd)
      rw [hNext] at hErrors hAgain
      refine ⟨rfl, fun i hi => absurd hi (Nat.not_lt_zero i), hEnd, hErrors, fun i _ => ?_⟩
      induction i with
      | zero => exact hNext
      | succ i ih =>
          have hStep : l.skipTokens (i + 1) = (l.skipTokens i).next.2 :=
            Function.iterate_succ_apply' _ _ _
          rw [hStep, ih (Nat.zero_le i)]
          exact hAgain
  | case2 l token after hNext hEnd others ih =>
      obtain ⟨hTokens, hKinds, hStop, hErrors, hAgain⟩ := ih
      have hAfter : l.next.2 = after := by rw [hNext]
      have hToken : l.nth 0 = token := congrArg Prod.fst hNext
      have hStep (i : Nat) : l.skipTokens (i + 1) = after.skipTokens i := by
        rw [← hAfter]
        rfl
      refine ⟨?_, fun i hi => ?_, hStop, ?_, ?_⟩
      · change token :: others.tokens = (List.range (others.tokens.length + 1)).map l.nth
        rw [List.range_succ_eq_map, List.map_cons, List.map_map, hToken]
        refine congrArg (token :: ·) (hTokens.trans (List.map_congr_left fun i _ => ?_))
        rw [Function.comp_apply, nth_succ, hAfter]
      · cases i with
        | zero =>
            rw [hToken]
            exact hEnd
        | succ i =>
            rw [nth_succ, hAfter]
            exact hKinds i (Nat.lt_of_succ_lt_succ hi)
      · change _ = (l.skipTokens (others.tokens.length + 1)).errors
        rw [hStep]
        exact hErrors
      · intro i hi
        change others.tokens.length + 1 ≤ i at hi
        obtain ⟨j, rfl⟩ : ∃ j, i = j + 1 := ⟨i - 1, by omega⟩
        rw [hStep]
        exact hAgain j (Nat.le_of_succ_le_succ hi)

end Lexer

/-- No token but an automatic semicolon is empty, up to the end of the source. -/
theorem Lexer.lexeme_ne_nil {l : Lexer} (hEnd : l.next.1.kind ≠ .endOfSource) :
    l.next.1.lexeme ≠ [] := by
  obtain ⟨gap, rest, -, hNext⟩ := l.exists_skips
  rw [hNext] at hEnd ⊢
  unfold nextHere at hEnd ⊢
  split
  · simp [semicolon]
  · rename_i hGoesOn
    rw [if_neg hGoesOn] at hEnd
    split
    · rename_i hRest
      rw [hRest] at hEnd
      exact absurd rfl hEnd
    · exact Lexeme.text_scan_ne_nil _ _

/-- A token of a kind with only one spelling is spelled so, if it stands in the text. -/
theorem Lexer.lexeme_of_spelling {l : Lexer} {t : Token} {spelling : String}
    (ht : t ∈ l.run.tokens) (hSpelling : t.kind.spelling? = some spelling)
    (hKind : t.kind ≠ .semicolon) : t.lexeme = spelling.toList := by
  rw [l.run_tokens_eq.1] at ht
  obtain ⟨i, -, rfl⟩ := List.mem_map.1 ht
  obtain ⟨gap, rest, -, hNext⟩ := (l.skipTokens i).exists_skips
  rw [nth, hNext] at hSpelling hKind ⊢
  unfold nextHere at hSpelling hKind ⊢
  split at hSpelling
  · rename_i hDue
    rw [if_pos hDue] at hKind
    exact absurd rfl hKind
  · rename_i hGoesOn
    rw [if_neg hGoesOn]
    split at hSpelling
    · cases hSpelling
    · rename_i c t _
      rw [token] at hSpelling
      dsimp only at hSpelling
      split at hSpelling
      · rename_i kind hReading
        exact Lexeme.text_of_spelling hReading hSpelling
      · cases hSpelling

/-- A reader for which comments are tokens, asked for one token after the other, finds those that
tile its source. After finitely many comes the end of the source, which comes again each time and
with no new fault. The other tokens have a lexeme, of which an automatic semicolon takes up nothing;
between them the source is blank. Each token, the end of the source included, says of itself where
its lexeme starts, and how long it is. -/
theorem Lexer.tiles_source (semicolons : Bool) (source : Text) :
    ∃ n stop after,
      let l := Lexer.ofSource ⟨true, semicolons⟩ source
      (∀ i < n, (l.nth i).kind ≠ .endOfSource ∧ (l.nth i).lexeme ≠ []) ∧
      stop.kind = .endOfSource ∧ after.errors = (l.skipTokens n).errors ∧
      (∀ i ≥ n, (l.skipTokens i).next = (stop, after)) ∧
      Tiles IsBlank [] ((List.range n).map l.nth) source ∧ stop.StandsAfter source := by
  let l := ofSource ⟨true, semicolons⟩ source
  obtain ⟨hTokens, hKinds, hStop, hErrors, hAgain⟩ := l.run_tokens_eq
  obtain ⟨hTiles, hPlace⟩ := l.tiles_run [] Position.start_eq_atEnd
  have hBlank : Tiles IsBlank [] l.run.tokens source := hTiles.mono fun _ hGap => hGap.isBlank rfl
  rw [hTokens] at hBlank
  exact ⟨l.run.tokens.length, l.run.stop, l.run.after,
    fun i hi => ⟨hKinds i hi, lexeme_ne_nil (hKinds i hi)⟩, hStop, hErrors, hAgain, hBlank, hPlace⟩

end GoTemplate
