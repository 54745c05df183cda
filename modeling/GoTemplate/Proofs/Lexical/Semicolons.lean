import GoTemplate.Proofs.Lexical.Tiling
import Mathlib.Data.List.Chain

/-!
Automatic semicolons. Between two tokens of the text there is one exactly if the first ends a
statement and a line feed, or nothing more of the source, comes between them. The reader decides
this before it has seen the whole gap, from a blank line end or from the next comment alone.
-/

namespace GoTemplate

/-! ## Line feeds in gaps -/

namespace Comment

/-- A comment after which the line goes on holds no line feed. -/
theorem lineFeed_not_mem_of_lineEnds {c : Char} {t : Text}
    (hScan : (Lexeme.scan c t).reading = .ok .comment) (hGoesOn : lineEnds (c :: t) = false) :
    '\n' ∉ (Lexeme.scan c t).text := by
  obtain ⟨rfl, ⟨u, rfl, hLine⟩ | ⟨u, body, rest, rfl, hClose, hBlock⟩⟩ := Lexeme.scan_of_comment hScan
  · cases hGoesOn
  · rw [hBlock]
    simp only [lineEnds, hClose, List.contains_eq_mem, decide_eq_false_iff_not] at hGoesOn
    simpa using hGoesOn

/-- How a line can be over: in four ways, by what stands there. -/
theorem of_lineEnds {t : Text} (h : lineEnds t = true) :
    t = [] ∨ (∃ u, t = '\n' :: u) ∨ (∃ u, t = '/' :: '/' :: u) ∨
      ∃ u, t = '/' :: '*' :: u ∧ ∀ split, splitClose? u = some split → '\n' ∈ split.1 := by
  unfold lineEnds at h
  split at h
  · exact .inl rfl
  · exact .inr (.inl ⟨_, rfl⟩)
  · exact .inr (.inr (.inl ⟨_, rfl⟩))
  · rename_i u
    refine .inr (.inr (.inr ⟨u, rfl, fun split hClose => ?_⟩))
    rw [hClose] at h
    simpa using h
  · cases h

end Comment

namespace Lexer

theorem splitGap_slash (due : Bool) (t : Text) : splitGap due ('/' :: t) = ([], '/' :: t) := by
  simp [splitGap, isBlank]

theorem lineFeed_mem_splitGap {t : Text} (h : ∃ u, t = '\n' :: u ∨ t = '\r' :: '\n' :: u) :
    '\n' ∈ (splitGap false t).1 := by
  obtain ⟨u, rfl | rfl⟩ := h
  · simp [splitGap, isBlank]
  · simp [splitGap, isBlank]

end Lexer

namespace Skips

variable {mode : LexerMode} {due : Bool} {t gap rest : Text}

/-- Where a semicolon is due no line feed is skipped. -/
theorem lineFeed_not_mem (h : Skips mode true t gap rest) : '\n' ∉ gap := by
  generalize hDue : true = due at h
  induction h with
  | stop =>
      rw [← hDue]
      exact Lexer.lineFeed_not_mem_splitGap _
  | comment _ hGoesOn hScan _ _ ih =>
      rw [← hDue, Bool.true_and] at hGoesOn
      rw [List.mem_append, List.mem_append, not_or, not_or]
      refine ⟨?_, Comment.lineFeed_not_mem_of_lineEnds hScan hGoesOn, ih⟩
      rw [← hDue]
      exact Lexer.lineFeed_not_mem_splitGap _

/-- What is not skipped is no comment, unless comments are tokens or a semicolon comes first. -/
theorem reading_ne_comment {c : Char} {u : Text} (h : Skips mode due t gap (c :: u))
    (hGoesOn : (due && Comment.lineEnds (c :: u)) = false) (hMode : mode.comments = false) :
    (Lexeme.scan c u).reading ≠ .ok .comment := by
  generalize hRest : c :: u = rest at h
  induction h with
  | stop hStop =>
      rcases hStop with hEnds | hToken
      · rw [hRest, hEnds] at hGoesOn
        cases hGoesOn
      · intro hScan
        have hComments := hToken c u hRest.symm hScan
        rw [hMode] at hComments
        cases hComments
  | comment _ _ _ _ _ ih => exact ih hRest

/-- Where a line is over, a line feed is skipped before anything else than a comment that never
ends. -/
theorem lineFeed_mem (h : Skips mode false t gap rest) (hMode : mode.comments = false)
    (hOver : Comment.lineEnds t = true ∨ ∃ u, t = '\r' :: '\n' :: u) :
    '\n' ∈ gap ∨ rest = [] ∨
      ∃ c u fault, rest = c :: u ∧ (Lexeme.scan c u).reading = .error fault := by
  generalize hDue : false = due at h
  induction h with
  | @stop t hStop =>
      subst hDue
      have hNoComment : ∀ u, t = '/' :: u → (Lexeme.scan '/' u).reading ≠ .ok .comment := by
        rintro u rfl hScan
        rcases hStop with hEnds | hToken
        · cases hEnds
        · have hComments := hToken '/' u (by rw [Lexer.splitGap_slash]) hScan
          rw [hMode] at hComments
          cases hComments
      rcases hOver with hEnds | ⟨u, hReturn⟩
      · rcases Comment.of_lineEnds hEnds with rfl | ⟨u, rfl⟩ | ⟨u, rfl⟩ | ⟨u, rfl, hClose⟩
        · exact .inr (.inl rfl)
        · exact .inl (Lexer.lineFeed_mem_splitGap ⟨u, .inl rfl⟩)
        · exact absurd rfl (hNoComment _ rfl)
        · refine .inr (.inr ⟨'/', '*' :: u, .unterminatedComment, by rw [Lexer.splitGap_slash], ?_⟩)
          have hScan : Lexeme.scan '/' ('*' :: u) = Comment.block u := rfl
          have hOpen := hNoComment _ rfl
          rw [hScan, Comment.block] at hOpen ⊢
          split
          · rename_i hSplit
            rw [hSplit] at hOpen
            exact absurd rfl hOpen
          · rfl
      · exact .inl (Lexer.lineFeed_mem_splitGap ⟨u, .inr hReturn⟩)
  | @comment t v gap rest c hGap hGoesOn hScan hSkipped hRest ih =>
      subst hDue
      rcases hOver with hEnds | ⟨u, hReturn⟩
      · rcases Comment.of_lineEnds hEnds with rfl | ⟨u, rfl⟩ | ⟨u, rfl⟩ | ⟨u, rfl, hClose⟩
        · cases hGap
        · exact .inl (List.mem_append_left _ (Lexer.lineFeed_mem_splitGap ⟨u, .inl rfl⟩))
        · rw [Lexer.splitGap_slash] at hGap
          cases hGap
          have hOver : Comment.lineEnds (Comment.line u).rest = true ∨
              ∃ w, (Comment.line u).rest = '\r' :: '\n' :: w := by
            rcases Comment.splitLine_snd u with hNil | ⟨w, hFeed | hReturn⟩
            · exact .inl (by rw [Comment.line, hNil]; rfl)
            · exact .inl (by rw [Comment.line, hFeed]; rfl)
            · exact .inr ⟨w, hReturn⟩
          rcases ih hOver with hFeed | hEnd
          · exact .inl (List.mem_append_right _ (List.mem_append_right _ hFeed))
          · exact .inr hEnd
        · rw [Lexer.splitGap_slash] at hGap
          cases hGap
          obtain ⟨-, ⟨w, hText, -⟩ | ⟨w, body, after, hText, hBody, hBlock⟩⟩ :=
            Lexeme.scan_of_comment hScan
          · cases hText
          · cases hText
            have hFeed : '\n' ∈ body := hClose _ hBody
            refine .inl (List.mem_append_right _ (List.mem_append_left _ ?_))
            rw [hBlock]
            exact List.mem_cons_of_mem _ (List.mem_cons_of_mem _ hFeed)
      · exact .inl (List.mem_append_left _ (Lexer.lineFeed_mem_splitGap ⟨u, .inr hReturn⟩))

end Skips

/-! ## Tokens with the semicolons between them -/

/-- A text after `before` starts with the tokens, each in its place; an automatic semicolon stands
before a token just where one is due and a line feed, or the end of the source, comes next. -/
inductive Spaced : Bool → Text → List Token → Text → Prop where
  | nil {due : Bool} {before rest : Text} : Spaced due before [] rest
  | cons {due : Bool} {before gap rest : Text} {semicolons ts : List Token} {t : Token}
      (hGap : IsGap .statements gap) (hSemicolons : ∀ s ∈ semicolons, s.isAutomatic = true)
      (hCount : semicolons.length =
        (due && (gap.contains '\n' || t.kind == .endOfSource)).toNat)
      (hToken : t.isAutomatic = false) (hPlace : t.StandsAfter (before ++ gap))
      (hRest : Spaced t.kind.endsStatement (before ++ (gap ++ t.lexeme)) ts rest) :
      Spaced due before (semicolons ++ t :: ts) (gap ++ (t.lexeme ++ rest))

namespace Spaced

variable {due : Bool} {before gap rest : Text} {ts : List Token}

/-- A gap without line feeds makes no difference to the semicolons. -/
theorem prepend (hGap : IsGap .statements gap) (hFeed : '\n' ∉ gap)
    (h : Spaced due (before ++ gap) ts rest) : Spaced due before ts (gap ++ rest) := by
  cases h with
  | nil => exact .nil
  | @cons _ _ gap' rest semicolons ts t hGap' hSemicolons hCount hToken hPlace hRest =>
      have hSame : (gap ++ gap').contains '\n' = gap'.contains '\n' := by simp [hFeed]
      rw [List.append_assoc] at hPlace hRest
      rw [← List.append_assoc gap gap']
      refine .cons (hGap.append hGap') hSemicolons ?_ hToken hPlace ?_
      · rw [hSame]
        exact hCount
      · rw [List.append_assoc gap gap']
        exact hRest

/-- A semicolon that is due comes before a gap with a line feed. -/
theorem semicolon {s t : Token} (hGap : IsGap .statements gap) (hFeed : '\n' ∈ gap)
    (hSemicolon : s.isAutomatic = true) (h : Spaced false (before ++ gap) (t :: ts) rest) :
    Spaced true before (s :: t :: ts) (gap ++ rest) := by
  generalize hTokens : t :: ts = tokens at h ⊢
  cases h with
  | nil => cases hTokens
  | @cons _ _ gap' rest semicolons ts t hGap' hSemicolons hCount hToken hPlace hRest =>
      obtain rfl : semicolons = [] := List.eq_nil_of_length_eq_zero hCount
      rw [List.append_assoc] at hPlace hRest
      rw [← List.append_assoc gap gap']
      change Spaced true before ([s] ++ t :: ts) _
      refine .cons (hGap.append hGap') (by simpa using hSemicolon) ?_ hToken hPlace ?_
      · simp [hFeed]
      · rw [List.append_assoc gap gap']
        exact hRest

end Spaced

namespace Lexer

/-- What a reader of statements takes at its place, where no fault and no automatic semicolon
comes next. -/
theorem nextHere_of_goesOn {l : Lexer} (hMode : l.mode = .statements)
    (hErrors : l.nextHere.2.errors = [])
    (hGoesOn : (l.semicolonDue && Comment.lineEnds l.rest) = false)
    (hComment : ∀ c u, l.rest = c :: u → (Lexeme.scan c u).reading ≠ .ok .comment) :
    l.nextHere.1.isAutomatic = false ∧
      l.nextHere.2.semicolonDue = l.nextHere.1.kind.endsStatement ∧
      (l.nextHere.1.kind = .endOfSource ↔ l.rest = []) ∧
      ∀ c u fault, l.rest = c :: u → (Lexeme.scan c u).reading ≠ .error fault := by
  have hGoesOn' : ¬(l.semicolonDue && Comment.lineEnds l.rest) = true := by
    rw [hGoesOn]
    exact Bool.false_ne_true
  unfold nextHere at hErrors ⊢
  rw [if_neg hGoesOn'] at hErrors ⊢
  split
  · rename_i hRest
    rw [hRest] at hGoesOn
    have hDue : l.semicolonDue = false := by simpa [Comment.lineEnds] using hGoesOn
    exact ⟨rfl, hDue, ⟨fun _ => hRest, fun _ => rfl⟩, by simp [hRest]⟩
  · rename_i c t hRest
    rw [hRest] at hErrors
    change (l.accept (Lexeme.scan c t)).errors = [] at hErrors
    cases hScan : (Lexeme.scan c t).reading with
    | error fault =>
        simp only [accept, hScan] at hErrors
        simp at hErrors
    | ok kind =>
        have hKind : kind ≠ .comment := by
          rintro rfl
          exact hComment c t hRest hScan
        have hFound : (l.token (Lexeme.scan c t)).kind = kind := by rw [token, hScan]
        refine ⟨isAutomatic_token l c t, ?_, ?_, ?_⟩
        · rw [accept_semicolonDue_of_ok hScan hKind, hFound, hMode]
          rfl
        · rw [hFound]
          constructor
          · rintro rfl
            exact absurd hScan (Lexeme.reading_ne_endOfSource c t)
          · intro hNil
            rw [hRest] at hNil
            cases hNil
        · intro d u fault hCons hFault
          rw [hRest] at hCons
          cases hCons
          rw [hScan] at hFault
          cases hFault

/-- One step of a reader of statements without faults: an automatic semicolon, or a token after a
gap with a line feed only where none was due. -/
theorem next_of_ok {l : Lexer} (hMode : l.mode = .statements) (hErrors : l.next.2.errors = []) :
    ∃ gap rest, IsGap .statements gap ∧ l.rest = gap ++ rest ∧
      (l.semicolonDue = true → '\n' ∉ gap) ∧
      ((l.semicolonDue = true ∧ Comment.lineEnds rest = true ∧
          l.next = (l.moveOn gap rest).semicolon) ∨
        (l.next.1.isAutomatic = false ∧ rest = l.next.1.lexeme ++ l.next.2.rest ∧
          l.next.1.span = .startingAt (l.position.after gap) l.next.1.source.byteSize ∧
          l.next.2.position = (l.position.after gap).after l.next.1.lexeme ∧
          l.next.2.semicolonDue = l.next.1.kind.endsStatement ∧
          (l.semicolonDue = true → l.next.1.kind ≠ .endOfSource) ∧
          (l.semicolonDue = false → Comment.lineEnds l.rest = true →
            '\n' ∈ gap ∨ l.next.1.kind = .endOfSource))) := by
  obtain ⟨gap, rest, hSkips, hNext⟩ := l.exists_skips
  have hGap := hSkips.isGap
  rw [hMode] at hGap
  refine ⟨gap, rest, hGap, hSkips.append_eq.symm, ?_, ?_⟩
  · intro hDue
    rw [hDue] at hSkips
    exact hSkips.lineFeed_not_mem
  rw [hNext] at hErrors ⊢
  cases hEnds : l.semicolonDue && Comment.lineEnds rest with
  | true =>
      rw [Bool.and_eq_true] at hEnds
      refine .inl ⟨hEnds.1, hEnds.2, ?_⟩
      rw [nextHere, if_pos]
      exact Bool.and_eq_true_iff.2 hEnds
  | false =>
      have hComment : ∀ c u, rest = c :: u → (Lexeme.scan c u).reading ≠ .ok .comment := by
        rintro c u rfl
        exact hSkips.reading_ne_comment hEnds (by rw [hMode]; rfl)
      obtain ⟨hToken, hDue, hStop, hFault⟩ :=
        nextHere_of_goesOn (l := l.moveOn gap rest) hMode hErrors hEnds hComment
      obtain ⟨used, hUsed, hRest, hSpan, hPosition⟩ := (l.moveOn gap rest).exists_nextHere
      have hSource := Token.source_of_not_automatic hToken
      obtain rfl : used = [] := by
        rcases hUsed with hNil | ⟨-, hAutomatic⟩
        · exact hNil
        · rw [hToken] at hAutomatic
          cases hAutomatic
      refine .inr ⟨hToken, ?_, hSpan, ?_, hDue, ?_, ?_⟩
      · rw [hSource] at hRest
        exact hRest
      · rw [hSource] at hPosition
        exact hPosition
      · intro hBefore hKind
        obtain rfl : rest = [] := hStop.1 hKind
        rw [hBefore] at hEnds
        cases hEnds
      · intro hBefore hOver
        rw [hBefore] at hSkips
        rcases hSkips.lineFeed_mem (by rw [hMode]; rfl) (.inl hOver) with hFeed | hNil | hOpen
        · exact .inl hFeed
        · exact .inr (hStop.2 hNil)
        · obtain ⟨c, u, fault, hCons, hScan⟩ := hOpen
          exact absurd hScan (hFault c u fault hCons)

/-- The automatic semicolon at a place where the line is over is the one that the gap there asks
for: either it uses up the line feed itself, or the gap goes on with one. -/
theorem spaced_semicolon {l : Lexer} {before : Text} {ts : List Token} (hTokens : ts ≠ [])
    (hPosition : l.position = .atEnd before) (hEnds : Comment.lineEnds l.rest = true)
    (hAfter : ∀ before', l.semicolon.2.position = .atEnd before' →
      Spaced false before' ts l.semicolon.2.rest ∧
        (Comment.lineEnds l.semicolon.2.rest = true →
          Spaced true before' (l.semicolon.1 :: ts) l.semicolon.2.rest)) :
    Spaced true before (l.semicolon.1 :: ts) l.rest := by
  by_cases hHead : l.rest.head? = some '\n'
  · obtain ⟨u, hRest⟩ := List.head?_eq_some_iff.1 hHead
    have hPlace : l.semicolon.2.position = .atEnd (before ++ ['\n']) := by
      rw [← Position.advance_atEnd, ← hPosition]
      exact if_pos hHead
    have hTail : l.semicolon.2.rest = u := by
      refine (if_pos hHead).trans ?_
      rw [hRest]
      rfl
    have hGap : IsGap .statements ['\n'] := .of_isBlank (by simp [IsBlank, isBlank])
    obtain ⟨hSpaced, -⟩ := hAfter _ hPlace
    obtain ⟨t, ts, rfl⟩ := List.exists_cons_of_ne_nil hTokens
    rw [hTail] at hSpaced
    rw [hRest]
    exact Spaced.semicolon hGap (by simp) rfl hSpaced
  · have hPlace : l.semicolon.2.position = .atEnd before := by
      rw [← hPosition]
      exact if_neg hHead
    have hSame : l.semicolon.2.rest = l.rest := if_neg hHead
    obtain ⟨-, hSpaced⟩ := hAfter _ hPlace
    rw [hSame] at hSpaced
    exact hSpaced hEnds

/-- A run without faults finds its tokens spaced. Where the line is over at the reader's place, a
semicolon that was given out just before is the one that the gap asks for. -/
theorem spaced_run (l : Lexer) : l.mode = .statements → l.run.after.errors = [] →
    ∀ before, l.position = .atEnd before →
      Spaced l.semicolonDue before (l.run.tokens ++ [l.run.stop]) l.rest ∧
        (l.semicolonDue = false → Comment.lineEnds l.rest = true →
          ∀ s : Token, s.isAutomatic = true →
            Spaced true before (s :: (l.run.tokens ++ [l.run.stop])) l.rest) := by
  fun_induction run l with
  | case1 l token after hNext hEnd =>
      intro hMode hErrors before hPosition
      obtain ⟨gap, rest, hGap, hRest, -, hStep⟩ :=
        next_of_ok hMode (by rw [hNext]; exact hErrors)
      rw [hNext] at hStep
      rcases hStep with ⟨-, -, hSemicolon⟩ | ⟨hToken, hText, hSpan, -, -, hDue, -⟩
      · rw [Prod.mk.injEq] at hSemicolon
        rw [hSemicolon.1] at hEnd
        cases hEnd
      · have hNotDue : l.semicolonDue = false := by
          cases hBefore : l.semicolonDue with
          | false => rfl
          | true => exact absurd hEnd (hDue hBefore)
        rw [hPosition, Position.after_atEnd] at hSpan
        have hKind : (token.kind == .endOfSource) = true := by simp [hEnd]
        rw [hRest, hText, hNotDue]
        refine ⟨?_, fun _ _ s hs => ?_⟩
        · change Spaced false before ([] ++ token :: []) _
          exact .cons hGap (by simp) rfl hToken hSpan .nil
        · change Spaced true before ([s] ++ token :: []) _
          exact .cons hGap (by simpa using hs) (by simp [hKind]) hToken hSpan .nil
  | case2 l token after hNext hEnd others ih =>
      intro hMode hErrors before hPosition
      have hAfterMode : after.mode = .statements := by rw [← hMode, ← next_mode l, hNext]
      have hAfterErrors : after.errors = [] := (bareTokens_run hAfterMode hErrors).1
      have hRun := ih hAfterMode hErrors
      obtain ⟨gap, rest, hGap, hRest, hFeed, hStep⟩ :=
        next_of_ok hMode (by rw [hNext]; exact hAfterErrors)
      rw [hNext] at hStep
      rcases hStep with ⟨hDue, hEnds, hSemicolon⟩ |
        ⟨hToken, hText, hSpan, hAfter, hAfterDue, hDue, hOver⟩
      · rw [Prod.mk.injEq] at hSemicolon
        obtain ⟨rfl, rfl⟩ := hSemicolon
        refine ⟨?_, fun hNotDue => ?_⟩
        · rw [hDue, hRest]
          have hPlace : (l.moveOn gap rest).position = .atEnd (before ++ gap) := by
            rw [← Position.after_atEnd, ← hPosition]
            rfl
          refine (spaced_semicolon (by simp) hPlace hEnds fun before' h => ?_).prepend hGap (hFeed hDue)
          exact ⟨(hRun before' h).1, fun hLine => (hRun before' h).2 rfl hLine _ rfl⟩
        · rw [hDue] at hNotDue
          cases hNotDue
      · rw [hPosition, Position.after_atEnd] at hSpan hAfter
        rw [Position.after_atEnd, List.append_assoc] at hAfter
        obtain ⟨hSpaced, -⟩ := hRun _ hAfter
        rw [hAfterDue] at hSpaced
        have hKind : (token.kind == .endOfSource) = false := by simp [hEnd]
        refine ⟨?_, fun hNotDue hLine s hs => ?_⟩
        · rw [hRest, hText]
          change Spaced _ before ([] ++ token :: (others.tokens ++ [others.stop])) _
          refine .cons hGap (by simp) ?_ hToken hSpan hSpaced
          cases hBefore : l.semicolonDue with
          | false => rfl
          | true => simp [hFeed hBefore, hKind]
        · rcases hOver hNotDue hLine with hMem | hStop
          · rw [hRest, hText]
            change Spaced true before ([s] ++ token :: (others.tokens ++ [others.stop])) _
            exact .cons hGap (by simpa using hs) (by simp [hMem]) hToken hSpan hSpaced
          · exact absurd hStop hEnd

end Lexer

/-! ## Consecutive tokens -/

namespace Spaced

variable {due : Bool} {before rest : Text} {semicolons ts : List Token} {t : Token}

/-- Where automatic semicolons end in a list, if a token that is none comes after them. -/
theorem eq_of_append_cons {semicolons' ts' : List Token} {t' : Token}
    (hSemicolons : ∀ s ∈ semicolons, s.isAutomatic = true) (hToken : t.isAutomatic = false)
    (hSemicolons' : ∀ s ∈ semicolons', s.isAutomatic = true) (hToken' : t'.isAutomatic = false)
    (h : semicolons ++ t :: ts = semicolons' ++ t' :: ts') :
    semicolons = semicolons' ∧ t = t' ∧ ts = ts' := by
  rcases List.append_eq_append_iff.1 h with ⟨between, hLonger, hTail⟩ | ⟨between, hLonger, hTail⟩
  · cases between with
    | nil =>
        obtain ⟨rfl, rfl⟩ := List.cons_eq_cons.1 hTail
        exact ⟨by simpa using hLonger.symm, rfl, rfl⟩
    | cons s between =>
        obtain ⟨rfl, -⟩ := List.cons_eq_cons.1 hTail
        rw [hSemicolons' t (by simp [hLonger])] at hToken
        cases hToken
  · cases between with
    | nil =>
        obtain ⟨rfl, rfl⟩ := List.cons_eq_cons.1 hTail
        exact ⟨by simpa using hLonger, rfl, rfl⟩
    | cons s between =>
        obtain ⟨rfl, -⟩ := List.cons_eq_cons.1 hTail
        rw [hSemicolons t' (by simp [hLonger])] at hToken'
        cases hToken'

/-- What stands before the next token that is no automatic semicolon. -/
theorem head (h : Spaced due before (semicolons ++ t :: ts) rest)
    (hSemicolons : ∀ s ∈ semicolons, s.isAutomatic = true) (hToken : t.isAutomatic = false) :
    ∃ gap after, rest = gap ++ (t.lexeme ++ after) ∧ IsGap .statements gap ∧
      semicolons.length = (due && (gap.contains '\n' || t.kind == .endOfSource)).toNat ∧
      t.StandsAfter (before ++ gap) ∧
      Spaced t.kind.endsStatement (before ++ (gap ++ t.lexeme)) ts after := by
  generalize hTokens : semicolons ++ t :: ts = tokens at h
  cases h with
  | nil => simp at hTokens
  | @cons _ _ gap rest semicolons' ts' t' hGap hSemicolons' hCount hToken' hPlace hRest =>
      obtain ⟨rfl, rfl, rfl⟩ :=
        eq_of_append_cons hSemicolons hToken hSemicolons' hToken' hTokens
      exact ⟨gap, rest, rfl, hGap, hCount, hPlace, hRest⟩

theorem isAutomatic_head? (h : Spaced false before ts rest) :
    ∀ t ∈ ts.head?, t.isAutomatic = false := by
  cases h with
  | nil => simp
  | cons _ _ hCount hToken =>
      obtain rfl := List.eq_nil_of_length_eq_zero hCount
      simpa using hToken

theorem isChain (h : Spaced due before ts rest) :
    ts.IsChain fun s t => s.isAutomatic = true → t.isAutomatic = false := by
  induction h with
  | nil => exact .nil
  | @cons due _ gap _ semicolons ts t _ hSemicolons hCount hToken _ _ ih =>
      have hTail : (t :: ts).IsChain fun s t => s.isAutomatic = true → t.isAutomatic = false :=
        List.isChain_cons.2 ⟨fun _ _ hs => by simp [hToken] at hs, ih⟩
      match semicolons with
      | [] => exact hTail
      | [s] => exact List.isChain_cons_cons.2 ⟨fun _ => hToken, hTail⟩
      | s :: s' :: _ =>
        have hOne := Bool.toNat_le (due && (gap.contains '\n' || t.kind == .endOfSource))
        simp only [List.length_cons] at hCount
        omega

/-- The automatic semicolons between two tokens of the text, by the text between them. -/
theorem between (h : Spaced due before ts rest) :
    ∀ (as : List Token) (first : Token) (semicolons : List Token) (second : Token) (bs : List Token),
      ts = as ++ first :: (semicolons ++ second :: bs) →
      first.isAutomatic = false → second.isAutomatic = false →
      (∀ s ∈ semicolons, s.isAutomatic = true) →
      ∃ u gap v, rest = u ++ (first.lexeme ++ (gap ++ (second.lexeme ++ v))) ∧
        first.StandsAfter (before ++ u) ∧
        second.StandsAfter (before ++ (u ++ (first.lexeme ++ gap))) ∧ IsGap .statements gap ∧
        semicolons.length = (first.kind.endsStatement &&
          (gap.contains '\n' || second.kind == .endOfSource)).toNat := by
  induction h with
  | nil =>
      intro as first semicolons second bs hTokens
      simp at hTokens
  | @cons due before gap rest skipped ts t hGap hSkipped _ hToken hPlace hRest ih =>
      intro as first semicolons second bs hTokens hFirst hSecond hSemicolons
      have hHere : t :: ts = first :: (semicolons ++ second :: bs) →
          ∃ u gap' v, gap ++ (t.lexeme ++ rest) =
              u ++ (first.lexeme ++ (gap' ++ (second.lexeme ++ v))) ∧
            first.StandsAfter (before ++ u) ∧
            second.StandsAfter (before ++ (u ++ (first.lexeme ++ gap'))) ∧
            IsGap .statements gap' ∧
            semicolons.length = (first.kind.endsStatement &&
              (gap'.contains '\n' || second.kind == .endOfSource)).toNat := by
        intro hSame
        obtain ⟨rfl, rfl⟩ := List.cons_eq_cons.1 hSame
        obtain ⟨gap', after, rfl, hGap', hCount, hPlace', -⟩ := hRest.head hSemicolons hSecond
        simp only [List.append_assoc] at hPlace'
        exact ⟨gap, gap', after, rfl, hPlace, hPlace', hGap', hCount⟩
      rcases List.append_eq_append_iff.1 hTokens with ⟨more, hLonger, hTail⟩ | ⟨more, hLonger, hTail⟩
      · cases more with
        | nil => exact hHere hTail
        | cons s more =>
            obtain ⟨rfl, hOthers⟩ := List.cons_eq_cons.1 hTail
            obtain ⟨u, gap', v, rfl, hPlaceFirst, hPlaceSecond, hGap', hCount⟩ :=
              ih more first semicolons second bs hOthers hFirst hSecond hSemicolons
            refine ⟨gap ++ (t.lexeme ++ u), gap', v, ?_, ?_, ?_, hGap', hCount⟩
            · simp only [List.append_assoc]
            · simpa only [List.append_assoc] using hPlaceFirst
            · simpa only [List.append_assoc] using hPlaceSecond
      · cases more with
        | nil => exact hHere hTail.symm
        | cons s more =>
            obtain ⟨rfl, -⟩ := List.cons_eq_cons.1 hTail
            rw [hSkipped first (by simp [hLonger])] at hFirst
            cases hFirst

end Spaced

namespace Lexer

/-- The rule for automatic semicolons, in a source that is read without a fault. The first token is
none, and no two come in a row. Between two other tokens with no other between them, of which the
second may be the end of the source, there is one if the first ends a statement and the second is on
a later line or is the end of the source, and otherwise there is none. A comment with a line feed in
it ends the line. -/
theorem automatic_semicolons {source : Text}
    (hErrors : (ofSource .statements source).run.after.errors = []) :
    let tokens := (ofSource .statements source).run.tokens ++ [(ofSource .statements source).run.stop]
    (∀ t ∈ tokens.head?, t.isAutomatic = false) ∧
      (tokens.IsChain fun s t => s.isAutomatic = true → t.isAutomatic = false) ∧
      ∀ as first semicolons second bs,
        tokens = as ++ first :: (semicolons ++ second :: bs) →
        first.isAutomatic = false → second.isAutomatic = false →
        (∀ s ∈ semicolons, s.isAutomatic = true) →
        ∃ u gap v, source = u ++ (first.lexeme ++ (gap ++ (second.lexeme ++ v))) ∧
          first.StandsAfter u ∧ second.StandsAfter (u ++ (first.lexeme ++ gap)) ∧
          IsGap .statements gap ∧
          semicolons.length =
            if first.kind.endsStatement ∧ ('\n' ∈ gap ∨ second.kind = .endOfSource) then 1 else 0 := by
  intro tokens
  obtain ⟨hSpaced, -⟩ :=
    (ofSource .statements source).spaced_run rfl hErrors [] Position.start_eq_atEnd
  refine ⟨hSpaced.isAutomatic_head?, hSpaced.isChain, ?_⟩
  intro as first semicolons second bs hTokens hFirst hSecond hSemicolons
  obtain ⟨u, gap, v, hSource, hPlaceFirst, hPlaceSecond, hGap, hCount⟩ :=
    hSpaced.between as first semicolons second bs hTokens hFirst hSecond hSemicolons
  refine ⟨u, gap, v, hSource, hPlaceFirst, hPlaceSecond, hGap, hCount.trans ?_⟩
  have hCases : ∀ b : Bool, b.toNat = if b = true then 1 else 0 := by decide
  rw [hCases]
  simp

/-- A semicolon that only a comment asks for. -/
theorem automatic_semicolons_comment : ∃ u gap v,
    "x /*\n*/ y".toList = u ++ (['x'] ++ (gap ++ (['y'] ++ v))) ∧ '\n' ∈ gap := by
  let run := (ofSource .statements "x /*\n*/ y".toList).run
  have hErrors : run.after.errors = [] := by decide +kernel
  obtain ⟨-, -, hBetween⟩ := automatic_semicolons hErrors
  have hTokens : run.tokens ++ [run.stop] =
      [] ++ ⟨.identifier, ['x'], ⟨1, 1, 1⟩⟩ :: ([⟨.semicolon, ['\n'], ⟨1, 3, 0⟩⟩] ++
        ⟨.identifier, ['y'], ⟨2, 4, 1⟩⟩ :: [⟨.semicolon, ['\n'], ⟨2, 5, 0⟩⟩, run.stop]) := by
    decide +kernel
  obtain ⟨u, gap, v, hSource, -, -, -, hCount⟩ := hBetween _ _ _ _ _ hTokens rfl rfl (by decide)
  refine ⟨u, gap, v, hSource, ?_⟩
  by_contra hFeed
  simp [hFeed] at hCount

end Lexer

end GoTemplate
