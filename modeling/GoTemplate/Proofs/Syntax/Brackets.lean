import GoTemplate.Syntax.Cursor

/-!
Words of tokens in which the brackets match, and what skips and look-aheads do on them. Matching is
said once as a grammar and once by the brackets that are open after a word.
-/

namespace GoTemplate.Brackets

/-- A token that is no bracket. -/
def IsPlain (t : Token) : Prop := (∀ b, t.kind ≠ .opening b) ∧ ∀ b, t.kind ≠ .closing b

/-- The kind of the first of the tokens, and the end of the source where there is none. -/
def nextKind (tokens : List Token) : TokenKind := (tokens.head?.map Token.kind).getD .endOfSource

/-- Words in which each opening bracket is closed by a bracket of its shape. -/
inductive Balanced : List Token → Prop where
  | nil : Balanced []
  | plain {t : Token} {rest : List Token} (hPlain : IsPlain t) (hRest : Balanced rest) :
      Balanced (t :: rest)
  | group {opener closer : Token} {b : Bracket} {inner rest : List Token}
      (hOpener : opener.kind = .opening b) (hInner : Balanced inner)
      (hCloser : closer.kind = .closing b) (hRest : Balanced rest) :
      Balanced (opener :: (inner ++ closer :: rest))

/-- Words in which some opening bracket has no closing one, while all closing ones match. -/
inductive Unclosed : List Token → Prop where
  | innermost {before inner : List Token} {opener : Token} {b : Bracket}
      (hBefore : Balanced before) (hOpener : opener.kind = .opening b) (hInner : Balanced inner) :
      Unclosed (before ++ opener :: inner)
  | outer {before inner : List Token} {opener : Token} {b : Bracket}
      (hBefore : Balanced before) (hOpener : opener.kind = .opening b) (hInner : Unclosed inner) :
      Unclosed (before ++ opener :: inner)

/-- The brackets that are open after the tokens, the innermost first, where those in the stack are
open before them. There is no answer where a closing bracket does not match. -/
def openAfter : List Bracket → List Token → Option (List Bracket)
  | stack, [] => some stack
  | stack, t :: rest =>
    match t.kind with
    | .opening b => openAfter (b :: stack) rest
    | .closing b =>
      match stack with
      | inner :: outer => if b = inner then openAfter outer rest else none
      | [] => none
    | _ => openAfter stack rest

theorem isPlain_iff (t : Token) :
    IsPlain t ↔ ¬(∃ b, t.kind = .opening b) ∧ ¬∃ b, t.kind = .closing b := by
  simp [IsPlain]

/-- A token is plain, or an opening or a closing bracket. -/
theorem isPlain_or_bracket (t : Token) :
    IsPlain t ∨ (∃ b, t.kind = .opening b) ∨ ∃ b, t.kind = .closing b := by
  rw [isPlain_iff]
  by_cases hOpening : ∃ b, t.kind = .opening b
  · exact .inr (.inl hOpening)
  · by_cases hClosing : ∃ b, t.kind = .closing b
    · exact .inr (.inr hClosing)
    · exact .inl ⟨hOpening, hClosing⟩

/-! ## The brackets open after a word -/

section

variable {stack outer : List Bracket} {b : Bracket} {t : Token} {rest : List Token}

@[simp] theorem openAfter_nil : openAfter stack [] = some stack := by
  rw [openAfter]

theorem openAfter_opening (h : t.kind = .opening b) :
    openAfter stack (t :: rest) = openAfter (b :: stack) rest := by
  simp only [openAfter, h]

theorem openAfter_closing (h : t.kind = .closing b) :
    openAfter (b :: outer) (t :: rest) = openAfter outer rest := by
  simp only [openAfter, h, if_true]

theorem openAfter_plain (h : IsPlain t) : openAfter stack (t :: rest) = openAfter stack rest := by
  rw [openAfter]
  split
  · exact absurd ‹_› (h.1 _)
  · exact absurd ‹_› (h.2 _)
  · rfl

/-- A closing bracket that can be read closes the innermost open one. -/
theorem stack_of_openAfter_closing {final : List Bracket} (h : t.kind = .closing b)
    (hRead : openAfter stack (t :: rest) = some final) : ∃ outer, stack = b :: outer := by
  cases stack with
  | nil => simp [openAfter, h] at hRead
  | cons inner outer =>
      by_cases hSame : b = inner
      · exact ⟨outer, by rw [hSame]⟩
      · simp [openAfter, h, hSame] at hRead

end

/-- Which brackets are open is a matter of the kinds of the tokens. -/
theorem openAfter_congr {us vs : List Token} (h : us.map Token.kind = vs.map Token.kind)
    (stack : List Bracket) : openAfter stack us = openAfter stack vs := by
  induction us generalizing vs stack with
  | nil =>
      obtain rfl := List.map_eq_nil_iff.1 h.symm
      rfl
  | cons u us ih =>
      obtain ⟨v, vs, rfl, hKind, hKinds⟩ := List.map_eq_cons_iff.1 h.symm
      rw [openAfter, openAfter, hKind]
      split
      · exact ih hKinds.symm _
      · split
        · split
          · exact ih hKinds.symm _
          · rfl
        · rfl
      · exact ih hKinds.symm _

theorem openAfter_append (stack : List Bracket) (u v : List Token) :
    openAfter stack (u ++ v) = (openAfter stack u).bind (openAfter · v) := by
  fun_induction openAfter stack u <;> simp_all [openAfter]

/-- Brackets that stay open below the word do not matter to it. -/
theorem openAfter_below {stack final : List Bracket} {word : List Token} (below : List Bracket)
    (h : openAfter stack word = some final) :
    openAfter (stack ++ below) word = some (final ++ below) := by
  fun_induction openAfter stack word <;> simp_all [openAfter]

/-- A bracket that is open before a word is closed somewhere in it, or is still open after it. -/
theorem openAfter_cases {b : Bracket} {outer final : List Bracket} {word : List Token}
    (h : openAfter (b :: outer) word = some final) :
    (∃ inner closer rest, word = inner ++ closer :: rest ∧ openAfter [] inner = some [] ∧
      closer.kind = .closing b ∧ openAfter outer rest = some final) ∨
    ∃ opened, final = opened ++ b :: outer ∧ openAfter [] word = some opened := by
  match word with
  | [] => exact .inr ⟨[], by simpa using h.symm, by simp⟩
  | t :: word =>
    rcases isPlain_or_bracket t with hPlain | ⟨c, hOpening⟩ | ⟨c, hClosing⟩
    · rw [openAfter_plain hPlain] at h
      rcases openAfter_cases h with ⟨inner, closer, rest, rfl, hInner, hCloser, hRest⟩ | hOpen
      · exact .inl ⟨t :: inner, closer, rest, rfl, by rwa [openAfter_plain hPlain], hCloser, hRest⟩
      · rw [openAfter_plain hPlain]
        exact .inr hOpen
    · rw [openAfter_opening hOpening] at h
      rcases openAfter_cases h with ⟨group, closer, word, rfl, hGroup, hCloser, hRest⟩ | hOpen
      · -- The new bracket is closed, so that the older one is looked for behind its group.
        have hSkip : ∀ tail, openAfter [] (t :: (group ++ closer :: tail)) = openAfter [] tail := by
          intro tail
          have hInner : openAfter [c] group = some [c] := openAfter_below [c] hGroup
          rw [openAfter_opening hOpening, openAfter_append, hInner]
          exact openAfter_closing hCloser
        rcases openAfter_cases hRest with
          ⟨inner, last, rest, rfl, hInner, hLast, hFinal⟩ | ⟨opened, hFinal, hOpened⟩
        · refine .inl ⟨t :: (group ++ closer :: inner), last, rest, by simp, ?_, hLast, hFinal⟩
          rw [hSkip, hInner]
        · exact .inr ⟨opened, hFinal, by rw [hSkip, hOpened]⟩
      · obtain ⟨opened, hFinal, hOpened⟩ := hOpen
        refine .inr ⟨opened ++ [c], by simp [hFinal], ?_⟩
        rw [openAfter_opening hOpening]
        exact openAfter_below [c] hOpened
    · obtain ⟨_, hStack⟩ := stack_of_openAfter_closing hClosing h
      obtain ⟨rfl, -⟩ := List.cons_eq_cons.1 hStack
      rw [openAfter_closing hClosing] at h
      exact .inl ⟨[], t, word, rfl, openAfter_nil, hClosing, h⟩
  termination_by word.length

/-! ## The grammar and the open brackets -/

theorem Balanced.openAfter_eq {word : List Token} (h : Balanced word) (stack : List Bracket) :
    openAfter stack word = some stack := by
  induction h generalizing stack with
  | nil => exact openAfter_nil
  | plain hPlain _ ih => rw [openAfter_plain hPlain, ih]
  | group hOpener _ hCloser _ ihInner ihRest =>
      rw [openAfter_opening hOpener, openAfter_append, ihInner]
      change openAfter _ _ = _
      rw [openAfter_closing hCloser, ihRest]

theorem balanced_of_openAfter {word : List Token} (h : openAfter [] word = some []) :
    Balanced word := by
  match word with
  | [] => exact .nil
  | t :: word =>
    rcases isPlain_or_bracket t with hPlain | ⟨b, hOpening⟩ | ⟨b, hClosing⟩
    · rw [openAfter_plain hPlain] at h
      exact .plain hPlain (balanced_of_openAfter h)
    · rw [openAfter_opening hOpening] at h
      rcases openAfter_cases h with ⟨inner, closer, rest, rfl, hInner, hCloser, hRest⟩ | hOpen
      · exact .group hOpening (balanced_of_openAfter hInner) hCloser (balanced_of_openAfter hRest)
      · obtain ⟨opened, hFinal, -⟩ := hOpen
        simp at hFinal
    · obtain ⟨_, hStack⟩ := stack_of_openAfter_closing hClosing h
      cases hStack
  termination_by word.length

theorem balanced_iff_openAfter {word : List Token} :
    Balanced word ↔ openAfter [] word = some [] :=
  ⟨fun h => h.openAfter_eq [], balanced_of_openAfter⟩

theorem Balanced.of_kinds {us vs : List Token} (h : Balanced us)
    (hKinds : us.map Token.kind = vs.map Token.kind) : Balanced vs :=
  balanced_of_openAfter ((openAfter_congr hKinds []).symm.trans (h.openAfter_eq []))

namespace Balanced

theorem append {u v : List Token} (hu : Balanced u) (hv : Balanced v) : Balanced (u ++ v) := by
  rw [balanced_iff_openAfter, openAfter_append, hu.openAfter_eq]
  exact hv.openAfter_eq []

/-- What follows a balanced word within a balanced word is balanced. -/
theorem of_append_left {u v : List Token} (hu : Balanced u) (h : Balanced (u ++ v)) :
    Balanced v := by
  rw [balanced_iff_openAfter, openAfter_append, hu.openAfter_eq] at h
  exact balanced_of_openAfter h

theorem singleton {t : Token} (h : IsPlain t) : Balanced [t] := .plain h .nil

theorem of_plain {t : Token} {v : List Token} (h : IsPlain t) (hv : Balanced (t :: v)) :
    Balanced v :=
  of_append_left (.singleton h) hv

/-- What stands before a last token that is no bracket is balanced. -/
theorem of_append_plain {u : List Token} {t : Token} (ht : IsPlain t) (h : Balanced (u ++ [t])) :
    Balanced u := by
  rw [balanced_iff_openAfter, openAfter_append] at h
  cases hOpen : openAfter [] u with
  | none =>
      rw [hOpen] at h
      cases h
  | some stack =>
      rw [hOpen] at h
      have hStack : stack = [] := by simpa [openAfter_plain ht] using h
      exact balanced_of_openAfter (hStack ▸ hOpen)

end Balanced

theorem Unclosed.append_left {u v : List Token} (hu : Balanced u) (hv : Unclosed v) :
    Unclosed (u ++ v) := by
  cases hv with
  | innermost hBefore hOpener hInner =>
      rw [← List.append_assoc]
      exact .innermost (hu.append hBefore) hOpener hInner
  | outer hBefore hOpener hInner =>
      rw [← List.append_assoc]
      exact .outer (hu.append hBefore) hOpener hInner

/-- After a word with unclosed brackets some bracket is open. -/
theorem Unclosed.openAfter_eq {word : List Token} (h : Unclosed word) :
    ∃ b outer, openAfter [] word = some (b :: outer) := by
  induction h with
  | @innermost before inner opener b hBefore hOpener hInner =>
      refine ⟨b, [], ?_⟩
      rw [openAfter_append, hBefore.openAfter_eq]
      change openAfter [] (opener :: inner) = _
      rw [openAfter_opening hOpener, hInner.openAfter_eq]
  | @outer before inner opener b hBefore hOpener _ ih =>
      obtain ⟨c, rest, hInner⟩ := ih
      refine ⟨c, rest ++ [b], ?_⟩
      rw [openAfter_append, hBefore.openAfter_eq]
      change openAfter [] (opener :: inner) = _
      rw [openAfter_opening hOpener]
      exact openAfter_below [b] hInner

theorem unclosed_of_openAfter {word : List Token} {b : Bracket} {outer : List Bracket}
    (h : openAfter [] word = some (b :: outer)) : Unclosed word := by
  match word with
  | [] => simp at h
  | t :: word =>
    rcases isPlain_or_bracket t with hPlain | ⟨c, hOpening⟩ | ⟨c, hClosing⟩
    · rw [openAfter_plain hPlain] at h
      exact Unclosed.append_left (.singleton hPlain) (unclosed_of_openAfter h)
    · rw [openAfter_opening hOpening] at h
      rcases openAfter_cases h with ⟨inner, closer, rest, rfl, hInner, hCloser, hRest⟩ | hOpen
      · rw [show t :: (inner ++ closer :: rest) = (t :: (inner ++ [closer])) ++ rest by simp]
        exact Unclosed.append_left (.group hOpening (balanced_of_openAfter hInner) hCloser .nil)
          (unclosed_of_openAfter hRest)
      · obtain ⟨opened, -, hOpened⟩ := hOpen
        cases opened with
        | nil => exact @Unclosed.innermost [] _ _ _ .nil hOpening (balanced_of_openAfter hOpened)
        | cons d opened => exact @Unclosed.outer [] _ _ _ .nil hOpening (unclosed_of_openAfter hOpened)
    · obtain ⟨_, hStack⟩ := stack_of_openAfter_closing hClosing h
      cases hStack
  termination_by word.length

theorem Unclosed.not_balanced {word : List Token} (h : Unclosed word) : ¬Balanced word := by
  intro hBalanced
  obtain ⟨b, outer, hOpen⟩ := h.openAfter_eq
  rw [hBalanced.openAfter_eq] at hOpen
  cases hOpen

/-! ## Skips -/

/-- Words that close all brackets of a stack, the innermost first, and end there. -/
def Closing : List Bracket → List Token → Prop
  | [], word => word = []
  | b :: outer, word => ∃ inner closer rest, word = inner ++ closer :: rest ∧ Balanced inner ∧
      closer.kind = .closing b ∧ Closing outer rest

namespace Closing

variable {b c : Bracket} {outer : List Bracket} {t : Token} {word : List Token}

theorem plain (ht : IsPlain t) (h : Closing (b :: outer) word) : Closing (b :: outer) (t :: word) := by
  obtain ⟨inner, closer, rest, rfl, hInner, hCloser, hRest⟩ := h
  exact ⟨t :: inner, closer, rest, rfl, .plain ht hInner, hCloser, hRest⟩

theorem opening (ht : t.kind = .opening c) (h : Closing (c :: b :: outer) word) :
    Closing (b :: outer) (t :: word) := by
  obtain ⟨group, closer, rest, rfl, hGroup, hCloser, hRest⟩ := h
  obtain ⟨inner, last, rest, rfl, hInner, hLast, hOuter⟩ := hRest
  exact ⟨t :: (group ++ closer :: inner), last, rest, by simp, .group ht hGroup hCloser hInner,
    hLast, hOuter⟩

theorem closing (ht : t.kind = .closing b) (h : Closing outer word) :
    Closing (b :: outer) (t :: word) :=
  ⟨[], t, word, rfl, .nil, ht, h⟩

end Closing

/-- A skip takes a word that closes the open brackets, and nothing after that word matters. -/
theorem close_eq_ok {stack : List Opened} {start last : Span} {tokens rest : List Token}
    (h : close stack start tokens = .ok (last, rest)) :
    ∃ word, tokens = word ++ rest ∧ Closing (stack.map Opened.bracket) word ∧
      ∀ others, close stack start (word ++ others) = .ok (last, others) := by
  fun_induction close stack start tokens with
  | case1 start tokens =>
      cases h
      exact ⟨[], rfl, rfl, fun others => by simp [close]⟩
  | case2 => cases h
  | case3 _ inner outer t tokens b hKind ih =>
      obtain ⟨word, rfl, hWord, hOthers⟩ := ih h
      refine ⟨t :: word, rfl, Closing.opening hKind hWord, fun others => ?_⟩
      simpa [close, hKind] using hOthers others
  | case4 _ inner outer t tokens hKind ih =>
      obtain ⟨word, rfl, hWord, hOthers⟩ := ih h
      refine ⟨t :: word, rfl, Closing.closing hKind hWord, fun others => ?_⟩
      simpa [close, hKind] using hOthers others
  | case5 => cases h
  | case6 _ inner outer t tokens hOpening hClosing ih =>
      obtain ⟨word, rfl, hWord, hOthers⟩ := ih h
      refine ⟨t :: word, rfl, Closing.plain ⟨hOpening, hClosing⟩ hWord, fun others => ?_⟩
      rw [List.cons_append, close]
      split
      · exact absurd ‹_› (hOpening _)
      · exact absurd ‹_› (hClosing _)
      · exact hOthers others

section

variable {stops : TokenKind → Bool} {stack outer : List Bracket} {b : Bracket} {t : Token}
  {tokens taken rest : List Token}

private theorem bind_takeToken (result : Except SyntaxError (List Token × List Token)) :
    (do let (taken, rest) ← result; return (t :: taken, rest)) =
      result.map fun split => (t :: split.1, split.2) := by
  cases result with
  | error e => rfl
  | ok split => rfl

theorem splitExpression_opening (hOpening : t.kind = .opening b)
    (hGo : stack = [] → stops t.kind = false) :
    splitExpression stops stack (t :: tokens) =
      (splitExpression stops (b :: stack) tokens).map fun split => (t :: split.1, split.2) := by
  cases stack with
  | nil =>
      rw [splitExpression, hGo rfl]
      simp only [hOpening, Bool.false_eq_true, if_false]
      exact bind_takeToken _
  | cons inner outer =>
      simp only [splitExpression, hOpening]
      exact bind_takeToken _

theorem splitExpression_closing (hClosing : t.kind = .closing b) :
    splitExpression stops (b :: outer) (t :: tokens) =
      (splitExpression stops outer tokens).map fun split => (t :: split.1, split.2) := by
  simp only [splitExpression, hClosing, if_true]
  exact bind_takeToken _

theorem splitExpression_plain (hPlain : IsPlain t) (hGo : stack = [] → stops t.kind = false) :
    splitExpression stops stack (t :: tokens) =
      (splitExpression stops stack tokens).map fun split => (t :: split.1, split.2) := by
  cases stack with
  | nil =>
      rw [splitExpression, hGo rfl, if_neg Bool.false_ne_true]
      split
      · exact absurd ‹_› (hPlain.1 _)
      · exact absurd ‹_› (hPlain.2 _)
      · exact bind_takeToken _
  | cons inner outer =>
      rw [splitExpression]
      split
      · exact absurd ‹_› (hPlain.1 _)
      · exact absurd ‹_› (hPlain.2 _)
      · exact bind_takeToken _

theorem splitExpression_stop (hStop : stops t.kind = true ∨ ∃ b, t.kind = .closing b) :
    splitExpression stops [] (t :: tokens) = .ok ([], t :: tokens) := by
  rw [splitExpression]
  split
  · rfl
  · rename_i hGo
    obtain ⟨b, hClosing⟩ := hStop.resolve_left hGo
    rw [hClosing]

/-- What an expression does at a token of the kind `k`: it ends before the token, it takes the
token and goes on with the brackets that are open then, or it rejects the token. -/
theorem splitExpression_step (stops : TokenKind → Bool) (stack : List Bracket) (k : TokenKind) :
    (stack = [] ∧ ∀ t tokens, t.kind = k →
      splitExpression stops stack (t :: tokens) = .ok ([], t :: tokens)) ∨
    (∃ next, (stack = [] → stops k = false) ∧ ∀ t, t.kind = k →
      (∀ word, openAfter stack (t :: word) = openAfter next word) ∧
      ∀ tokens, splitExpression stops stack (t :: tokens) =
        (splitExpression stops next tokens).map fun split => (t :: split.1, split.2)) ∨
    ∃ inner b, ∀ t tokens, t.kind = k →
      splitExpression stops stack (t :: tokens) = .error ⟨.mismatchedBracket inner b, t.span⟩ := by
  by_cases hEnd : stack = [] ∧ (stops k = true ∨ ∃ b, k = .closing b)
  · obtain ⟨rfl, hStop⟩ := hEnd
    left
    refine ⟨rfl, ?_⟩
    rintro t tokens rfl
    exact splitExpression_stop hStop
  · right
    have hGo : stack = [] → stops k = false := by
      intro hNil
      cases hStops : stops k with
      | false => rfl
      | true => exact absurd ⟨hNil, .inl hStops⟩ hEnd
    rcases isPlain_or_bracket ⟨k, [], .none⟩ with hPlain | ⟨b, hOpening⟩ | ⟨b, hClosing⟩
    · refine .inl ⟨stack, hGo, ?_⟩
      rintro t rfl
      exact ⟨fun _ => openAfter_plain hPlain, fun _ => splitExpression_plain hPlain hGo⟩
    · refine .inl ⟨b :: stack, hGo, ?_⟩
      rintro t rfl
      exact ⟨fun _ => openAfter_opening hOpening, fun _ => splitExpression_opening hOpening hGo⟩
    · cases stack with
      | nil => exact absurd ⟨rfl, .inr ⟨b, hClosing⟩⟩ hEnd
      | cons inner outer =>
          by_cases hSame : b = inner
          · subst hSame
            refine .inl ⟨outer, hGo, ?_⟩
            rintro t rfl
            exact ⟨fun _ => openAfter_closing hClosing, fun _ => splitExpression_closing hClosing⟩
          · refine .inr ⟨inner, b, ?_⟩
            rintro t tokens rfl
            have hKind : t.kind = .closing b := hClosing
            simp only [splitExpression, hKind, if_neg hSame]

end

/-- An expression takes a word whose closing brackets match, and it ends where none of its own
brackets is open or at the end of the tokens. Outside of brackets it holds no token that would have
ended it, and of what comes after it only the next token matters. -/
theorem splitExpression_eq_ok {stops : TokenKind → Bool} {stack : List Bracket}
    {tokens taken rest : List Token} (h : splitExpression stops stack tokens = .ok (taken, rest)) :
    tokens = taken ++ rest ∧
      (∃ final, openAfter stack taken = some final ∧ (final ≠ [] → rest = [])) ∧
      (∀ before t after, taken = before ++ t :: after → openAfter stack before = some [] →
        stops t.kind = false) ∧
      ∀ t others, rest.head? = some t →
        splitExpression stops stack (taken ++ t :: others) = .ok (taken, t :: others) := by
  induction tokens generalizing stack taken with
  | nil =>
      have hNil : splitExpression stops stack [] = .ok ([], []) := by cases stack <;> rfl
      rw [hNil] at h
      cases h
      exact ⟨rfl, ⟨stack, openAfter_nil, fun _ => rfl⟩, by simp, by simp⟩
  | cons t tokens ih =>
      rcases splitExpression_step stops stack t.kind with
        ⟨rfl, hStop⟩ | ⟨next, hGo, hTake⟩ | ⟨inner, b, hReject⟩
      · rw [hStop t tokens rfl] at h
        cases h
        refine ⟨rfl, ⟨[], openAfter_nil, by simp⟩, by simp, ?_⟩
        intro u others hHead
        cases hHead
        exact hStop t others rfl
      · obtain ⟨hOpen, hSplit⟩ := hTake t rfl
        rw [hSplit] at h
        cases hTail : splitExpression stops next tokens with
        | error e => rw [hTail] at h; cases h
        | ok split =>
            obtain ⟨tail, last⟩ := split
            rw [hTail] at h
            cases h
            obtain ⟨rfl, ⟨final, hFinal, hEnd⟩, hStops, hAfter⟩ := ih hTail
            refine ⟨rfl, ⟨final, by rw [hOpen, hFinal], hEnd⟩, ?_, ?_⟩
            · intro before u after hWord hBefore
              cases before with
              | nil =>
                  cases hWord
                  exact hGo (by simpa using hBefore)
              | cons v before =>
                  cases hWord
                  exact hStops before u after rfl (by rw [← hOpen, hBefore])
            · intro u others hHead
              rw [List.cons_append, hSplit, hAfter u others hHead]
              rfl
      · rw [hReject t tokens rfl] at h
        cases h

/-! ## Look-ahead -/

theorem kindAfter_append {word : List Token} (h : Balanced word) (depth : Nat)
    (others : List Token) :
    kindAfter (depth + 1) (word ++ others) = kindAfter (depth + 1) others := by
  induction h generalizing depth others with
  | nil => rfl
  | @plain t word hPlain _ ih =>
      rw [List.cons_append, kindAfter]
      split
      · exact absurd ‹_› (hPlain.1 _)
      · exact absurd ‹_› (hPlain.2 _)
      · exact ih depth others
  | @group opener closer b inner word hOpener _ hCloser _ ihInner ihRest =>
      have hOpen : ∀ tail, kindAfter (depth + 1) (opener :: tail) = kindAfter (depth + 2) tail := by
        intro tail
        simp only [kindAfter, hOpener]
      have hClose : ∀ tail, kindAfter (depth + 2) (closer :: tail) = kindAfter (depth + 1) tail := by
        intro tail
        simp [kindAfter, hCloser]
      rw [List.cons_append, List.append_assoc, List.cons_append, hOpen, ihInner, hClose, ihRest]

/-- Behind a group the look-ahead sees the next token, whatever the shapes of the brackets. -/
theorem kindAfter_group {opener closer : Token} {b c : Bracket} {inner : List Token}
    (hOpener : opener.kind = .opening b) (hInner : Balanced inner)
    (hCloser : closer.kind = .closing c) (others : List Token) :
    kindAfter 0 (opener :: (inner ++ closer :: others)) = nextKind others := by
  have hOpen : kindAfter 0 (opener :: (inner ++ closer :: others)) =
      kindAfter 1 (inner ++ closer :: others) := by
    simp only [kindAfter, hOpener]
  rw [hOpen, kindAfter_append hInner]
  simp [kindAfter, hCloser, nextKind]

/-- A balanced word does not hide from the search for a comma what comes after it. -/
theorem hasComma_append_congr {word : List Token} (h : Balanced word) {depth : Nat}
    {others others' : List Token} (hOthers : hasComma depth others = hasComma depth others') :
    hasComma depth (word ++ others) = hasComma depth (word ++ others') := by
  induction h generalizing depth others others' with
  | nil => exact hOthers
  | @plain t word hPlain _ ih =>
      rw [List.cons_append, List.cons_append, hasComma, hasComma]
      split
      · exact absurd ‹_› (hPlain.1 _)
      · exact absurd ‹_› (hPlain.2 _)
      · rw [ih hOthers]
      · exact ih hOthers
  | @group opener closer b inner word hOpener _ hCloser _ ihInner ihRest =>
      simp only [List.cons_append, List.append_assoc, hasComma, hOpener]
      refine ihInner ?_
      simp only [hasComma, hCloser, Nat.add_sub_cancel]
      rw [ihRest hOthers]

end GoTemplate.Brackets
