import GoTemplate.Proofs.Lexical.Semicolons

/-!
Automatic semicolons as a view. A reader that puts semicolons and one that does not go through a
source side by side, but for one place: a byte order mark at the start of a line is skipped only if a
semicolon has ended the line before it.
-/

namespace GoTemplate.Lexer

/-- The reader at the same place that puts no semicolons. -/
def withoutSemicolons (l : Lexer) : Lexer :=
  { l with mode := { l.mode with semicolons := false }, semicolonDue := false }

theorem accept_withoutSemicolons (l : Lexer) (lexeme : Lexeme) :
    l.withoutSemicolons.accept lexeme = (l.accept lexeme).withoutSemicolons := by
  unfold accept
  split <;> rfl

/-! ## Gaps -/

/-- What satisfies `p` goes on behind what satisfies more. -/
theorem takeWhile_of_imp {p q : Char → Bool} (h : ∀ c, q c = true → p c = true) (t : Text) :
    t.takeWhile p = t.takeWhile q ++ (t.dropWhile q).takeWhile p ∧
      t.dropWhile p = (t.dropWhile q).dropWhile p := by
  induction t with
  | nil => exact ⟨rfl, rfl⟩
  | cons c t ih =>
      cases hq : q c with
      | true =>
          simp only [List.takeWhile_cons, List.dropWhile_cons, hq, h c hq, if_true, List.cons_append]
          exact ⟨congrArg (c :: ·) ih.1, ih.2⟩
      | false => simp [List.takeWhile_cons, List.dropWhile_cons, hq]

/-- Blanks go on where they have ended before a line feed. -/
theorem splitGap_false (due : Bool) (t : Text) :
    splitGap false t = ((splitGap due t).1 ++ (splitGap due t).2.takeWhile isBlank,
      (splitGap due t).2.dropWhile isBlank) := by
  have hFalse : (fun c => isBlank c && !(false && c == '\n')) = isBlank := by
    funext c
    simp
  have hBlank : ∀ c, (isBlank c && !(due && c == '\n')) = true → isBlank c = true :=
    fun c hc => (Bool.and_eq_true _ _ ▸ hc).1
  unfold splitGap
  dsimp only
  rw [hFalse]
  split
  · rename_i u
    rw [(takeWhile_of_imp hBlank u).1, (takeWhile_of_imp hBlank u).2]
    rfl
  · rw [(takeWhile_of_imp hBlank t).1, (takeWhile_of_imp hBlank t).2]

theorem skipGap_withoutSemicolons (l : Lexer) :
    l.withoutSemicolons.skipGap =
      l.skipGap.withoutSemicolons.moveOn (l.skipGap.rest.takeWhile isBlank)
        (l.skipGap.rest.dropWhile isBlank) := by
  change l.withoutSemicolons.moveOn (splitGap false l.rest).1 (splitGap false l.rest).2 = _
  rw [splitGap_false l.semicolonDue l.rest]
  simp only [skipGap, moveOn, withoutSemicolons, Position.after_append]

theorem skipGap_withoutSemicolons_of_head {l : Lexer}
    (h : ∀ c ∈ l.skipGap.rest.head?, isBlank c = false) :
    l.withoutSemicolons.skipGap = l.skipGap.withoutSemicolons := by
  have hTake : l.skipGap.rest.takeWhile isBlank = [] ∧
      l.skipGap.rest.dropWhile isBlank = l.skipGap.rest := by
    generalize l.skipGap.rest = t at h ⊢
    cases t with
    | nil => exact ⟨rfl, rfl⟩
    | cons c t => simp [h c rfl]
  rw [skipGap_withoutSemicolons, hTake.1, hTake.2]
  rfl

theorem next_eq_of_skipGap {l l' : Lexer} (h : l.skipGap = l'.skipGap) : l.next = l'.next := by
  have hMode : l.skipGap.mode = l'.skipGap.mode := by rw [h]
  change l.mode = l'.mode at hMode
  rw [next.eq_1 l, next.eq_1 l', h, hMode]

/-- A gap ends before a character that is no blank, unless the line ends there. -/
theorem isBlank_of_goesOn {l : Lexer} {c : Char} {t : Text} (hRest : l.skipGap.rest = c :: t)
    (hGoesOn : (l.semicolonDue && Comment.lineEnds (c :: t)) = false) : isBlank c = false := by
  have hGap : isGap l.semicolonDue c = false := by
    have hDrop : (dropMark l.rest).dropWhile (isGap l.semicolonDue) = c :: t := by
      rw [← splitGap_snd]
      exact hRest
    have hHead := List.head?_dropWhile_not (isGap l.semicolonDue) (dropMark l.rest)
    rw [hDrop] at hHead
    exact hHead
  by_contra hNot
  have hBlank : isBlank c = true := by simpa using hNot
  rw [isGap, hBlank, Bool.true_and, Bool.not_eq_false', Bool.and_eq_true,
    beq_iff_eq] at hGap
  obtain ⟨hDue, rfl⟩ := hGap
  rw [hDue] at hGoesOn
  cases hGoesOn

/-! ## Steps -/

theorem splitGap_of_head {t : Text} (hMark : t.head? ≠ some '\uFEFF') :
    splitGap false t = (t.takeWhile isBlank, t.dropWhile isBlank) := by
  have hFalse : (fun c => isBlank c && !(false && c == '\n')) = isBlank := by
    funext c
    simp
  unfold splitGap
  dsimp only
  rw [hFalse]
  split
  · exact absurd rfl hMark
  · rfl

/-- After an automatic semicolon the gap goes on as if it had not been there, unless a byte order
mark comes first. -/
theorem skipGap_semicolon {l : Lexer} (hMark : l.skipGap.semicolon.2.rest.head? ≠ some '\uFEFF') :
    l.withoutSemicolons.skipGap = l.skipGap.semicolon.2.withoutSemicolons.skipGap := by
  have hSplit := splitGap_of_head hMark
  change _ = l.skipGap.semicolon.2.withoutSemicolons.moveOn
    (splitGap false l.skipGap.semicolon.2.rest).1 (splitGap false l.skipGap.semicolon.2.rest).2
  rw [skipGap_withoutSemicolons, hSplit]
  by_cases hFeed : l.skipGap.rest.head? = some '\n'
  · obtain ⟨u, hRest⟩ := List.head?_eq_some_iff.1 hFeed
    simp only [semicolon, hRest]
    rfl
  · simp only [semicolon, if_neg hFeed]
    rfl

/-- A byte order mark behind the line feed of an automatic semicolon is taken for a token, where the
semicolon is not put. -/
theorem next_of_mark {l : Lexer} (hEnds : Comment.lineEnds l.skipGap.rest = true)
    (hMark : l.skipGap.semicolon.2.rest.head? = some '\uFEFF') :
    l.withoutSemicolons.next.1 =
      ⟨.invalid, ['\uFEFF'], .startingAt l.skipGap.semicolon.2.position 3⟩ := by
  have hFeed : l.skipGap.rest.head? = some '\n' := by
    by_contra hFeed
    simp only [semicolon, if_neg hFeed] at hMark
    obtain ⟨u, hRest⟩ := List.head?_eq_some_iff.1 hMark
    rw [hRest] at hEnds
    cases hEnds
  obtain ⟨u, hRest⟩ := List.head?_eq_some_iff.1 hFeed
  simp only [semicolon, hRest, List.tail_cons] at hMark ⊢
  obtain ⟨v, rfl⟩ := List.head?_eq_some_iff.1 hMark
  have hGap := skipGap_withoutSemicolons l
  rw [hRest] at hGap
  have hSkip : l.withoutSemicolons.skipGap =
      l.skipGap.withoutSemicolons.moveOn ['\n'] ('\uFEFF' :: v) := hGap
  rw [next_of_cons rfl (by rw [hSkip]; rfl), Lexeme.scan_mark_eq, hSkip]
  rfl

/-- One step of a reader that puts semicolons: at an automatic semicolon the other reader goes on to
its next token, unless a byte order mark comes next, and at any other token both take it and stay
side by side. -/
theorem next_withoutSemicolons (l : Lexer) :
    if l.next.1.isAutomatic then
      if l.next.2.rest.head? = some '\uFEFF' then
        l.withoutSemicolons.next.1 = ⟨.invalid, ['\uFEFF'], .startingAt l.next.2.position 3⟩
      else l.withoutSemicolons.next = l.next.2.withoutSemicolons.next
    else l.withoutSemicolons.next = (l.next.1, l.next.2.withoutSemicolons) := by
  fun_induction next l with
  | case1 l here hSemicolon =>
      rw [Bool.and_eq_true] at hSemicolon
      have hAutomatic : here.semicolon.1.isAutomatic = true := rfl
      rw [if_pos hAutomatic]
      split
      · exact next_of_mark hSemicolon.2 ‹_›
      · exact next_eq_of_skipGap (skipGap_semicolon ‹_›)
  | case2 l here hGoesOn hRest =>
      have hDue : l.semicolonDue = false := by
        change ¬(l.semicolonDue && Comment.lineEnds here.rest) = true at hGoesOn
        rw [hRest] at hGoesOn
        simpa [Comment.lineEnds] using hGoesOn
      have hSkip : l.withoutSemicolons.skipGap = here.withoutSemicolons :=
        skipGap_withoutSemicolons_of_head (by simp [here, hRest])
      rw [if_neg (by simp [Token.isAutomatic]), next_of_nil rfl (by rw [hSkip]; exact hRest), hSkip]
      rfl
  | case3 l here hGoesOn c t hRest lexeme hSkip ih =>
      have hDue : (l.semicolonDue && Comment.lineEnds (c :: t)) = false := by
        rw [← hRest]
        exact Bool.eq_false_iff.2 hGoesOn
      have hSame : l.withoutSemicolons.skipGap = here.withoutSemicolons :=
        skipGap_withoutSemicolons_of_head (by simp [here, hRest, isBlank_of_goesOn hRest hDue])
      have hNext : l.withoutSemicolons.next = (here.accept lexeme).withoutSemicolons.next := by
        rw [next_of_cons rfl (by rw [hSame]; exact hRest), hSame, ← accept_withoutSemicolons]
        exact if_pos hSkip
      rw [hNext]
      exact ih
  | case4 l here hGoesOn c t hRest lexeme hKeep =>
      have hDue : (l.semicolonDue && Comment.lineEnds (c :: t)) = false := by
        rw [← hRest]
        exact Bool.eq_false_iff.2 hGoesOn
      have hSame : l.withoutSemicolons.skipGap = here.withoutSemicolons :=
        skipGap_withoutSemicolons_of_head (by simp [here, hRest, isBlank_of_goesOn hRest hDue])
      rw [if_neg (by rw [isAutomatic_token]; exact Bool.false_ne_true),
        next_of_cons rfl (by rw [hSame]; exact hRest), hSame, ← accept_withoutSemicolons]
      exact if_neg hKeep

/-! ## Places of automatic semicolons -/

/-- Whether the reader stands somewhere in the source and knows where. -/
def StandsIn (source : Text) (l : Lexer) : Prop :=
  ∃ before, before ++ l.rest = source ∧ l.position = .atEnd before

theorem standsIn_ofSource (mode : LexerMode) (source : Text) :
    (ofSource mode source).StandsIn source := ⟨[], rfl, Position.start_eq_atEnd⟩

theorem StandsIn.next {source : Text} {l : Lexer} (h : l.StandsIn source) :
    l.next.2.StandsIn source := by
  obtain ⟨before, hSource, hPosition⟩ := h
  obtain ⟨gap, used, -, -, hRest, -, hAfter⟩ := l.exists_next
  refine ⟨((before ++ gap) ++ l.next.1.source) ++ used, ?_, ?_⟩
  · rw [← hSource, hRest]
    simp only [List.append_assoc]
  · rw [hAfter, hPosition, Position.after_atEnd, Position.after_atEnd, Position.after_atEnd]

/-- An automatic semicolon stands where the line is over. -/
theorem exists_semicolon {l : Lexer} (h : l.next.1.isAutomatic = true) :
    l.semicolonDue = true ∧ ∃ gap rest, l.rest = gap ++ rest ∧ Comment.lineEnds rest = true ∧
      l.next = (l.moveOn gap rest).semicolon := by
  obtain ⟨gap, rest, hSkips, hNext⟩ := l.exists_skips
  rw [hNext, nextHere] at h
  split at h
  · rename_i hEnds
    have hBoth := (Bool.and_eq_true _ _).mp hEnds
    refine ⟨hBoth.1, gap, rest, hSkips.append_eq.symm, hBoth.2, ?_⟩
    rw [hNext, nextHere, if_pos hEnds]
  · split at h
    · cases h
    · rw [isAutomatic_token] at h
      cases h

/-- No text stands between equal places. -/
theorem eq_nil_of_atEnd {t u : Text} (h : Position.atEnd (t ++ u) = .atEnd t) : u = [] := by
  have hLine := congrArg Position.line h
  rw [Position.atEnd_line_append] at hLine
  have hFeed : '\n' ∉ u := List.count_eq_zero.1 (by omega)
  have hCol := congrArg Position.col h
  rw [Position.atEnd_col_append hFeed] at hCol
  exact Text.byteSize_eq_zero (by omega)

/-- In one source there is one text before a place. -/
theorem eq_of_atEnd {t t' u u' : Text} (hSource : t ++ u = t' ++ u')
    (h : Position.atEnd t = .atEnd t') : t = t' := by
  rcases List.append_eq_append_iff.1 hSource with ⟨v, rfl, -⟩ | ⟨v, rfl, -⟩
  · rw [eq_nil_of_atEnd h.symm, List.append_nil]
  · rw [eq_nil_of_atEnd h, List.append_nil]

theorem position_eq_of_startingAt {p q : Position} {n m : Nat}
    (h : Span.startingAt p n = .startingAt q m) : p = q := by
  cases p
  cases q
  cases h
  rfl

/-- Whether the token is an automatic semicolon at the end of a line before one that starts with a
byte order mark. -/
def IsBeforeMark (source : Text) (t : Token) : Prop :=
  t.isAutomatic = true ∧ ∃ u v, source = u ++ '\n' :: '\uFEFF' :: v ∧ t.StandsAfter u

/-- Behind such a semicolon the reader comes to the mark. -/
theorem isBeforeMark_next {source : Text} {l : Lexer} (hPlace : l.StandsIn source)
    (hAutomatic : l.next.1.isAutomatic = true) :
    IsBeforeMark source l.next.1 ↔ l.next.2.rest.head? = some '\uFEFF' := by
  obtain ⟨before, rfl, hPosition⟩ := hPlace
  obtain ⟨-, gap, rest, hRest, hEnds, hNext⟩ := exists_semicolon hAutomatic
  have hStands : l.next.1.StandsAfter (before ++ gap) := by
    rw [hNext, Token.StandsAfter, ← Position.after_atEnd, ← hPosition]
    rfl
  have hAfter : l.next.2.rest = if rest.head? = some '\n' then rest.tail else rest := by
    rw [hNext]
    rfl
  rw [IsBeforeMark, and_iff_right hAutomatic, hRest, hAfter]
  constructor
  · rintro ⟨u, v, hSource, hOther⟩
    rw [← List.append_assoc] at hSource
    have hSame : before ++ gap = u :=
      eq_of_atEnd hSource (position_eq_of_startingAt (hStands.symm.trans hOther))
    rw [hSame] at hSource
    rw [List.append_cancel_left hSource]
    rfl
  · intro hMark
    by_cases hFeed : rest.head? = some '\n'
    · obtain ⟨u, rfl⟩ := List.head?_eq_some_iff.1 hFeed
      rw [if_pos hFeed] at hMark
      obtain ⟨v, rfl⟩ := List.head?_eq_some_iff.1 hMark
      exact ⟨before ++ gap, v, (List.append_assoc _ _ _).symm, hStands⟩
    · rw [if_neg hFeed] at hMark
      obtain ⟨v, rfl⟩ := List.head?_eq_some_iff.1 hMark
      cases hEnds

/-- A gap that starts with a byte order mark is not empty. -/
theorem gap_ne_nil {mode : LexerMode} {t gap rest : Text}
    (h : Skips mode false ('\uFEFF' :: t) gap rest) : gap ≠ [] := by
  generalize hDue : false = due, hText : '\uFEFF' :: t = u at h
  cases h with
  | stop =>
      subst hText
      simp [splitGap]
  | comment =>
      subst hText
      simp [splitGap]

/-- Where a byte order mark is skipped, the first token stands behind it. -/
theorem span_ne_of_mark {source : Text} {l : Lexer} (hPlace : l.StandsIn source)
    (hDue : l.semicolonDue = false) (hMark : l.rest.head? = some '\uFEFF') {t : Token}
    {ts : List Token} (hTokens : l.run.tokens.filter (!·.isAutomatic) = t :: ts) :
    t.span ≠ .startingAt l.position 3 := by
  have hNotAutomatic : l.next.1.isAutomatic = false := by
    by_contra hAutomatic
    have hBefore := (exists_semicolon (by simpa using hAutomatic)).1
    rw [hDue] at hBefore
    cases hBefore
  obtain rfl : l.next.1 = t := by
    rw [run_eq] at hTokens
    split at hTokens
    · cases hTokens
    · rw [List.filter_cons_of_pos (by simpa using hNotAutomatic)] at hTokens
      exact (List.cons_eq_cons.1 hTokens).1
  obtain ⟨before, -, hPosition⟩ := hPlace
  obtain ⟨u, hRest⟩ := List.head?_eq_some_iff.1 hMark
  obtain ⟨gap, rest, hSkips, hNext⟩ := l.exists_skips
  rw [hDue, hRest] at hSkips
  obtain ⟨used, -, -, hSpan, -⟩ := (l.moveOn gap rest).exists_nextHere
  rw [hNext, hSpan]
  intro hSame
  apply gap_ne_nil hSkips
  apply eq_nil_of_atEnd (t := before)
  rw [← Position.after_atEnd, ← hPosition]
  exact position_eq_of_startingAt hSame

/-! ## Runs -/

/-- Whether a run without semicolons finds what is left of a run when its automatic semicolons are
taken away. -/
def AgreesWithout (l : Lexer) : Prop :=
  l.run.tokens.filter (!·.isAutomatic) = l.withoutSemicolons.run.tokens ∧
    l.run.stop = l.withoutSemicolons.run.stop ∧
      l.run.after.errors = l.withoutSemicolons.run.after.errors

theorem agreesWithout_iff {source : Text} (l : Lexer) : l.StandsIn source →
    (l.AgreesWithout ↔ ∀ t ∈ l.run.tokens, ¬IsBeforeMark source t) := by
  unfold AgreesWithout
  fun_induction run l with
  | case1 l token after hNext hEnd =>
      intro hPlace
      have hStep := l.next_withoutSemicolons
      rw [hNext, if_neg (by simp [Token.isAutomatic, hEnd])] at hStep
      rw [run_eq, hStep, if_pos hEnd]
      exact iff_of_true ⟨rfl, rfl, rfl⟩ (by simp)
  | case2 l token after hNext hEnd others ih =>
      intro hPlace
      have hAfter : after.StandsIn source := by
        have hStands := hPlace.next
        rwa [hNext] at hStands
      have hStep := l.next_withoutSemicolons
      rw [hNext] at hStep
      dsimp only at hStep ⊢
      by_cases hAutomatic : token.isAutomatic = true
      · have hBefore : IsBeforeMark source token ↔ after.rest.head? = some '\uFEFF' := by
          have hBefore := isBeforeMark_next hPlace (by rw [hNext]; exact hAutomatic)
          rwa [hNext] at hBefore
        rw [if_pos hAutomatic] at hStep
        rw [List.filter_cons_of_neg (by simp [hAutomatic]), List.forall_mem_cons, hBefore]
        by_cases hMark : after.rest.head? = some '\uFEFF'
        · rw [if_pos hMark] at hStep
          refine iff_of_false ?_ fun h => h.1 hMark
          rintro ⟨hTokens, -⟩
          have hDue : after.semicolonDue = false := by
            obtain ⟨-, gap, rest, -, -, hSemicolon⟩ := exists_semicolon (l := l) (by rwa [hNext])
            rw [hNext] at hSemicolon
            rw [(Prod.mk.inj hSemicolon).2]
          rw [run_eq l.withoutSemicolons, hStep, if_neg (by simp)] at hTokens
          exact span_ne_of_mark hAfter hDue hMark hTokens rfl
        · rw [if_neg hMark] at hStep
          have hRun : l.withoutSemicolons.run = after.withoutSemicolons.run := by
            rw [run_eq, hStep, ← run_eq]
          rw [hRun, ih hAfter, and_iff_right hMark]
      · have hToken : ¬IsBeforeMark source token := fun h => hAutomatic h.1
        rw [if_neg hAutomatic] at hStep
        rw [List.filter_cons_of_pos (by simpa using hAutomatic), List.forall_mem_cons,
          and_iff_right hToken, ← ih hAfter, l.withoutSemicolons.run_eq, hStep, if_neg hEnd]
        simp [others]

/-- What a reader finds without semicolons is what it finds with them and without the automatic ones,
tokens, end and faults, exactly if no automatic semicolon ends a line before one that starts with a
byte order mark. There the mark is skipped behind the semicolon, and is a fault without it. -/
theorem run_semicolons_iff (comments : Bool) (source : Text) :
    let full := (ofSource ⟨comments, true⟩ source).run
    let plain := (ofSource ⟨comments, false⟩ source).run
    (full.tokens.filter (!·.isAutomatic) = plain.tokens ∧ full.stop = plain.stop ∧
        full.after.takeErrors.1 = plain.after.takeErrors.1) ↔
      ¬∃ u v, source = u ++ '\n' :: '\uFEFF' :: v ∧
        ∃ t ∈ full.tokens, t.isAutomatic = true ∧ t.StandsAfter u := by
  intro full plain
  have hIff := (ofSource ⟨comments, true⟩ source).agreesWithout_iff (standsIn_ofSource _ source)
  refine hIff.trans ?_
  constructor
  · rintro h ⟨u, v, hSource, t, ht, hAutomatic, hPlace⟩
    exact h t ht ⟨hAutomatic, u, v, hSource, hPlace⟩
  · rintro h t ht ⟨hAutomatic, u, v, hSource, hPlace⟩
    exact h ⟨u, v, hSource, t, ht, hAutomatic, hPlace⟩

/-- A line that starts with a byte order mark. -/
theorem run_semicolons_mark :
    let full := (ofSource ⟨false, true⟩ "x\n\uFEFFy".toList).run
    let plain := (ofSource ⟨false, false⟩ "x\n\uFEFFy".toList).run
    full.tokens.filter (!·.isAutomatic) ≠ plain.tokens ∧
      full.after.takeErrors.1 = [] ∧
      plain.after.takeErrors.1 = [⟨.unexpectedCharacter '\uFEFF', ⟨2, 1, 3⟩⟩] := by
  decide +kernel

end GoTemplate.Lexer
