import GoTemplate.Proofs.Syntax.Reduction

/-!
Groups: an opening bracket, a balanced word and the closing bracket that matches. A skip takes exactly a
group. Where the tokens do not start with one, the first closing bracket that does not match is to blame,
and if there is none, the innermost bracket that is open at the end of the tokens.
-/

namespace GoTemplate

namespace Brackets

/-- Of the brackets that are open behind the word, `innermost` is the innermost one. The bracket `first` is
open before the word and stays open, and each closing bracket in the word matches. -/
inductive Innermost : Opened → List Token → Opened → Prop where
  | self {first : Opened} {word : List Token} (hWord : Balanced word) : Innermost first word first
  | within {first innermost : Opened} {before word : List Token} {opener : Token} {b : Bracket}
      (hBefore : Balanced before) (hOpener : opener.kind = .opening b)
      (hWord : Innermost ⟨b, opener.span⟩ word innermost) :
      Innermost first (before ++ opener :: word) innermost

theorem Innermost.append_left {first innermost : Opened} {u v : List Token} (hu : Balanced u)
    (hv : Innermost first v innermost) : Innermost first (u ++ v) innermost := by
  cases hv with
  | self hWord => exact .self (hu.append hWord)
  | within hBefore hOpener hWord =>
      rw [← List.append_assoc]
      exact .within (hu.append hBefore) hOpener hWord

/-- How a skip ends that starts with the bracket `first` open: behind the group, or with a fault. -/
inductive SkipsTo (first : Opened) : List Token → Except SyntaxError (Span × List Token) → Prop where
  | closed {inner rest : List Token} {closer : Token} (hInner : Balanced inner)
      (hCloser : closer.kind = .closing first.bracket) :
      SkipsTo first (inner ++ closer :: rest) (.ok (closer.span, rest))
  | mismatched {word after : List Token} {innermost : Opened} {found : Token} {b : Bracket}
      (hWord : Innermost first word innermost) (hFound : found.kind = .closing b)
      (hOther : b ≠ innermost.bracket) :
      SkipsTo first (word ++ found :: after) (.error ⟨.mismatchedBracket innermost.bracket b, found.span⟩)
  | unclosed {tokens : List Token} {innermost : Opened} (hTokens : Innermost first tokens innermost) :
      SkipsTo first tokens (.error ⟨.unclosedBracket innermost.bracket, innermost.span⟩)

theorem SkipsTo.append_left {first : Opened} {u tokens : List Token}
    {result : Except SyntaxError (Span × List Token)} (hu : Balanced u) (h : SkipsTo first tokens result) :
    SkipsTo first (u ++ tokens) result := by
  cases h with
  | closed hInner hCloser =>
      rw [← List.append_assoc]
      exact .closed (hu.append hInner) hCloser
  | mismatched hWord hFound hOther =>
      rw [← List.append_assoc]
      exact .mismatched (hWord.append_left hu) hFound hOther
  | unclosed hTokens => exact .unclosed (hTokens.append_left hu)

/-- Every skip ends in one of the three ways. -/
theorem exists_skipsTo (first : Opened) (tokens : List Token) : ∃ result, SkipsTo first tokens result := by
  match tokens with
  | [] => exact ⟨_, .unclosed (.self .nil)⟩
  | t :: tokens =>
    rcases isPlain_or_bracket t with hPlain | ⟨b, hOpening⟩ | ⟨b, hClosing⟩
    · obtain ⟨result, hSkips⟩ := exists_skipsTo first tokens
      exact ⟨result, hSkips.append_left (.singleton hPlain)⟩
    · -- The new bracket comes first: the skip goes on behind its group, or its fault is the fault.
      obtain ⟨_, hGroup⟩ := exists_skipsTo ⟨b, t.span⟩ tokens
      cases hGroup with
      | @closed inner rest closer hInner hCloser =>
          obtain ⟨result, hSkips⟩ := exists_skipsTo first rest
          refine ⟨result, ?_⟩
          rw [show t :: (inner ++ closer :: rest) = (t :: (inner ++ [closer])) ++ rest by simp]
          exact hSkips.append_left (.group hOpening hInner hCloser .nil)
      | mismatched hWord hFound hOther =>
          exact ⟨_, .mismatched (.within .nil hOpening hWord) hFound hOther⟩
      | unclosed hTokens => exact ⟨_, .unclosed (.within .nil hOpening hTokens)⟩
    · by_cases hSame : b = first.bracket
      · exact ⟨_, .closed .nil (hSame ▸ hClosing)⟩
      · exact ⟨_, .mismatched (.self .nil) hClosing hSame⟩
  termination_by tokens.length
  decreasing_by
    all_goals simp_all
    omega

/-- A word that leaves brackets open puts them on the stack. -/
theorem Innermost.close_append {first innermost : Opened} {word : List Token}
    (h : Innermost first word innermost) (outer : List Opened) (start : Span) (others : List Token) :
    ∃ between last, close (first :: outer) start (word ++ others) =
      close (innermost :: between) last others := by
  induction h generalizing outer start with
  | self hWord =>
      obtain ⟨last, hClose⟩ := Brackets.close_append hWord _ outer start others
      exact ⟨outer, last, hClose⟩
  | @within first innermost before word opener b hBefore hOpener _ ih =>
      obtain ⟨last, hClose⟩ := Brackets.close_append hBefore first outer start (opener :: (word ++ others))
      obtain ⟨between, last', hInner⟩ := ih (first :: outer) opener.span
      refine ⟨between, last', ?_⟩
      rw [List.append_assoc, List.cons_append, hClose, close, hOpener]
      exact hInner

/-- A skip ends as it should. -/
theorem SkipsTo.close_eq {first : Opened} {tokens : List Token}
    {result : Except SyntaxError (Span × List Token)} (h : SkipsTo first tokens result) (start : Span) :
    close [first] start tokens = result := by
  cases h with
  | closed hInner hCloser =>
      obtain ⟨last, hClose⟩ := close_append hInner first [] start _
      rw [hClose]
      simp only [close, hCloser, if_true]
  | mismatched hWord hFound hOther =>
      obtain ⟨between, last, hClose⟩ := hWord.close_append [] start _
      rw [hClose, close, hFound]
      exact if_neg hOther
  | unclosed hTokens =>
      obtain ⟨between, last, hClose⟩ := hTokens.close_append [] start []
      rw [← List.append_nil tokens, hClose, close]

end Brackets

namespace Parser

open Brackets

section

variable {c : Cursor} {opener : Token} {tokens : List Token} {b : Bracket}

theorem group_eq_map (hRest : c.rest = opener :: tokens) (hOpener : opener.kind = .opening b) :
    group b c = (close [⟨b, opener.span⟩] opener.span tokens).map
      fun (last, rest) => ((), { c with previous := last, rest }) := by
  have hOpened : expect (.opening b) c = .ok (opener, ⟨opener.span, tokens, c.stop⟩) := by
    have hCurrent : c.current = opener := by rw [Cursor.current, hRest]; rfl
    have hAdvance : c.advance = ⟨opener.span, tokens, c.stop⟩ := by rw [Cursor.advance, hRest]
    have hKind : c.kind = .opening b := (congrArg Token.kind hCurrent).trans hOpener
    change (if c.kind = .opening b then take else unexpected _) c = _
    rw [if_pos hKind, ← hAdvance, ← hCurrent]
    rfl
  refine (bind_ok hOpened).trans ?_
  rw [groupEnd]
  cases close [⟨b, opener.span⟩] opener.span tokens with
  | error e => rfl
  | ok closed => rfl

theorem group_of_skipsTo {result : Except SyntaxError (Span × List Token)} (hRest : c.rest = opener :: tokens)
    (hOpener : opener.kind = .opening b) (hSkips : SkipsTo ⟨b, opener.span⟩ tokens result) :
    group b c = result.map fun (last, rest) => ((), { c with previous := last, rest }) := by
  rw [group_eq_map hRest hOpener, hSkips.close_eq]

theorem group_eq_ok_iff (hRest : c.rest = opener :: tokens) (hOpener : opener.kind = .opening b) {d : Cursor} :
    group b c = .ok ((), d) ↔ ∃ inner closer, tokens = inner ++ closer :: d.rest ∧ Balanced inner ∧
      closer.kind = .closing b ∧ d.previous = closer.span ∧ d.stop = c.stop := by
  constructor
  · intro h
    obtain ⟨result, hSkips⟩ := exists_skipsTo ⟨b, opener.span⟩ tokens
    rw [group_of_skipsTo hRest hOpener hSkips] at h
    cases hSkips with
    | closed hInner hCloser =>
        cases h
        exact ⟨_, _, rfl, hInner, hCloser, rfl, rfl⟩
    | mismatched => cases h
    | unclosed => cases h
  · rintro ⟨inner, closer, rfl, hInner, hCloser, hPrevious, hStop⟩
    rw [group_of_skipsTo hRest hOpener (.closed hInner hCloser), ← hPrevious, ← hStop]
    rfl

/-- A group is skipped up to the place behind its closing bracket. If the tokens do not start with a group,
the fault is the first closing bracket that does not match the innermost open one, or else the innermost
bracket that is open where the tokens end. -/
theorem group_outcome (hRest : c.rest = opener :: tokens) (hOpener : opener.kind = .opening b) :
    (∀ d, group b c = .ok ((), d) ↔ ∃ inner closer, tokens = inner ++ closer :: d.rest ∧
      Balanced inner ∧ closer.kind = .closing b ∧ d.previous = closer.span ∧ d.stop = c.stop) ∧
    ∀ e, group b c = .error e ↔
      (e.fault.kind = .mismatchedDelimiter ∧ ∃ word found after innermost other,
        tokens = word ++ found :: after ∧ Innermost ⟨b, opener.span⟩ word innermost ∧
          found.kind = .closing other ∧ other ≠ innermost.bracket ∧
            e = ⟨.mismatchedBracket innermost.bracket other, found.span⟩) ∨
      e.fault.kind = .unexpectedEnd ∧ ∃ innermost, Innermost ⟨b, opener.span⟩ tokens innermost ∧
        e = ⟨.unclosedBracket innermost.bracket, innermost.span⟩ := by
  refine ⟨fun d => group_eq_ok_iff hRest hOpener, fun e => ⟨fun h => ?_, ?_⟩⟩
  · obtain ⟨result, hSkips⟩ := exists_skipsTo ⟨b, opener.span⟩ tokens
    rw [group_of_skipsTo hRest hOpener hSkips] at h
    cases hSkips with
    | closed => cases h
    | mismatched hWord hFound hOther =>
        cases h
        exact .inl ⟨rfl, _, _, _, _, _, rfl, hWord, hFound, hOther, rfl⟩
    | unclosed hTokens =>
        cases h
        exact .inr ⟨rfl, _, hTokens, rfl⟩
  · rintro (⟨-, word, found, after, innermost, other, rfl, hWord, hFound, hOther, rfl⟩ |
      ⟨-, innermost, hTokens, rfl⟩)
    · rw [group_of_skipsTo hRest hOpener (.mismatched hWord hFound hOther)]
      rfl
    · rw [group_of_skipsTo hRest hOpener (.unclosed hTokens)]
      rfl

end

/-- In `{ f(a[1)] }` the square bracket is the innermost one where the round one closes. -/
theorem group_outcome_crossed : ∃ opener tokens,
    (Cursor.ofRun (Lexer.ofSource .statements "{ f(a[1)] }".toList).run).rest = opener :: tokens ∧
      opener.kind = .opening .curly ∧
        group .curly (.ofRun (Lexer.ofSource .statements "{ f(a[1)] }".toList).run) =
          .error ⟨.mismatchedBracket .square .round, ⟨1, 8, 1⟩⟩ := by
  have hTokens : (Cursor.ofRun (Lexer.ofSource .statements "{ f(a[1)] }".toList).run).rest =
      ⟨.opening .curly, ['{'], ⟨1, 1, 1⟩⟩ :: (([⟨.identifier, ['f'], ⟨1, 3, 1⟩⟩] ++
        ⟨.opening .round, ['('], ⟨1, 4, 1⟩⟩ :: ([⟨.identifier, ['a'], ⟨1, 5, 1⟩⟩] ++
          ⟨.opening .square, ['['], ⟨1, 6, 1⟩⟩ :: [⟨.literal .int, ['1'], ⟨1, 7, 1⟩⟩])) ++
        ⟨.closing .round, [')'], ⟨1, 8, 1⟩⟩ :: [⟨.closing .square, [']'], ⟨1, 9, 1⟩⟩,
          ⟨.closing .curly, ['}'], ⟨1, 11, 1⟩⟩, ⟨.semicolon, ['\n'], ⟨1, 12, 0⟩⟩]) := by
    decide +kernel
  refine ⟨_, _, hTokens, rfl, ((group_outcome hTokens rfl).2 _).2 (.inl ⟨rfl, _, _, _,
    ⟨.square, ⟨1, 6, 1⟩⟩, .round, rfl, ?_, rfl, by decide, rfl⟩)⟩
  exact .within (by decide) rfl (.within (by decide) rfl (.self (by decide)))

end Parser

end GoTemplate
