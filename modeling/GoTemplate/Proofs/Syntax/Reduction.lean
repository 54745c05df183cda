import GoTemplate.Proofs.Syntax.Balance
import GoTemplate.Proofs.Syntax.Sequence

/-!
Tokens from which statements are taken out. Wherever a statement may start, which is behind a
semicolon and behind an opening round or curly bracket, complete tokens may be missing, and the
tokens that are left may be others of the same kinds. The questions that a grammar asks about the
tokens to come keep their answers.
-/

namespace GoTemplate

/-- Whether a statement may start behind a token of the kind. -/
def TokenKind.opensStatement : TokenKind → Bool
  | .semicolon | .opening .round | .opening .curly => true
  | _ => false

/-- What is left of tokens: behind a token that opens a statement complete tokens may be missing. -/
inductive Reduces : List Token → List Token → Prop where
  | nil : Reduces [] []
  | cons {t u : Token} {word ts us : List Token} (hKind : t.kind = u.kind) (hWord : Complete word)
      (hPlace : word ≠ [] → t.kind.opensStatement = true) (hRest : Reduces ts us) :
      Reduces (t :: (word ++ ts)) (u :: us)

/-- What is left of tokens at a place where a statement may start. -/
def ReducesAtStatement (ts us : List Token) : Prop :=
  ∃ word rest, ts = word ++ rest ∧ Complete word ∧ Reduces rest us

namespace Brackets

/-! ## Balanced words in front -/

section

variable {word : List Token} (hWord : Balanced word)

include hWord

/-- No bracket that is open before a word is closed by the word. -/
theorem Balanced.eq_nil_of_closing {rest : List Token} {b : Bracket}
    (h : nextKind (word ++ rest) = .closing b) : word = [] := by
  cases word with
  | nil => rfl
  | cons t word => exact absurd h (hWord.head_ne_closing b)

/-- Within brackets a balanced word is the start of what they hold. -/
theorem Balanced.exists_inner {stack : List Bracket} {inner rest ts : List Token} {closer : Token}
    (hNe : stack ≠ []) (hOpen : openAfter stack inner = some [])
    (hClose : ∃ b, closer.kind = .closing b) (hSplit : inner ++ closer :: rest = word ++ ts) :
    ∃ later, inner = word ++ later ∧ ts = later ++ closer :: rest := by
  have hSame := hWord.openAfter_eq stack
  rcases List.append_eq_append_iff.1 hSplit with ⟨more, rfl, hMore⟩ | ⟨later, rfl, hLater⟩
  · rw [openAfter_append, hOpen] at hSame
    cases more with
    | nil => exact absurd (Option.some.inj hSame).symm hNe
    | cons t more =>
        obtain ⟨rfl, -⟩ := List.cons_eq_cons.1 hMore
        obtain ⟨b, hClosing⟩ := hClose
        obtain ⟨_, hStack⟩ := stack_of_openAfter_closing hClosing hSame
        cases hStack
  · exact ⟨later, rfl, hLater⟩

theorem hasComma_append_of_open (depth : Nat) (others : List Token) :
    hasComma (depth + 1) (word ++ others) = hasComma (depth + 1) others := by
  induction hWord generalizing depth others with
  | nil => rfl
  | @plain t word hPlain _ ih =>
      rw [List.cons_append, hasComma]
      split
      · exact absurd ‹_› (hPlain.1 _)
      · exact absurd ‹_› (hPlain.2 _)
      · simpa using ih depth others
      · exact ih depth others
  | @group opener closer b inner word hOpener _ hCloser _ ihInner ihRest =>
      simp only [List.cons_append, List.append_assoc, hasComma, hOpener]
      rw [ihInner]
      simpa [hasComma, hCloser] using ihRest depth others

/-- A comma behind a balanced word is found. -/
theorem hasComma_append {depth : Nat} {others : List Token} (h : hasComma depth others = true) :
    hasComma depth (word ++ others) = true := by
  induction hWord generalizing depth others with
  | nil => exact h
  | @plain t word hPlain _ ih =>
      rw [List.cons_append, hasComma]
      split
      · exact absurd ‹_› (hPlain.1 _)
      · exact absurd ‹_› (hPlain.2 _)
      · simp [ih h]
      · exact ih h
  | @group opener closer b inner word hOpener hInner hCloser _ _ ihRest =>
      simp only [List.cons_append, List.append_assoc, hasComma, hOpener]
      rw [hasComma_append_of_open hInner]
      simpa [hasComma, hCloser] using ihRest h

theorem close_append (inner : Opened) (outer : List Opened) (start : Span) (others : List Token) :
    ∃ last, close (inner :: outer) start (word ++ others) = close (inner :: outer) last others := by
  induction hWord generalizing inner outer start others with
  | nil => exact ⟨start, rfl⟩
  | @plain t word hPlain _ ih =>
      obtain ⟨last, hRest⟩ := ih inner outer t.span others
      refine ⟨last, ?_⟩
      rw [← hRest, List.cons_append, close]
      split
      · exact absurd ‹_› (hPlain.1 _)
      · exact absurd ‹_› (hPlain.2 _)
      · rfl
  | @group opener closer b group word hOpener _ hCloser _ ihInner ihRest =>
      obtain ⟨last, hInner⟩ := ihInner ⟨b, opener.span⟩ (inner :: outer) opener.span
        (closer :: (word ++ others))
      obtain ⟨last', hRest⟩ := ihRest inner outer closer.span others
      refine ⟨last', ?_⟩
      have hOpen : close (inner :: outer) start (opener :: (group ++ closer :: (word ++ others))) =
          close (⟨b, opener.span⟩ :: inner :: outer) opener.span
            (group ++ closer :: (word ++ others)) := by
        simp only [close, hOpener]
      have hClose : close (⟨b, opener.span⟩ :: inner :: outer) last (closer :: (word ++ others)) =
          close (inner :: outer) closer.span (word ++ others) := by
        simp only [close, hCloser, if_true]
      rw [List.cons_append, List.append_assoc, List.cons_append, hOpen, hInner, hClose, hRest]

/-- An expression that does not end within a balanced word goes on behind it. -/
theorem splitExpression_append {stops : TokenKind → Bool} {stack : List Bracket}
    (hGo : stack = [] → ∀ k, stops k = false) (others : List Token) :
    splitExpression stops stack (word ++ others) =
      (splitExpression stops stack others).map fun split => (word ++ split.1, split.2) := by
  have hMap {u : List Token} (result : Except SyntaxError (List Token × List Token)) (t : Token) :
      (result.map fun split => (u ++ split.1, split.2)).map (fun split => (t :: split.1, split.2)) =
        result.map fun split => (t :: (u ++ split.1), split.2) := by
    cases result <;> rfl
  induction hWord generalizing stack others with
  | nil =>
      rw [List.nil_append]
      cases splitExpression stops stack others <;> rfl
  | @plain t word hPlain _ ih =>
      rw [List.cons_append, splitExpression_plain hPlain fun hNil => hGo hNil _, ih hGo, hMap]
      rfl
  | @group opener closer b inner word hOpener _ hCloser _ ihInner ihRest =>
      rw [List.cons_append, List.append_assoc, List.cons_append,
        splitExpression_opening hOpener fun hNil => hGo hNil _, ihInner (by simp),
        splitExpression_closing hCloser, ihRest hGo]
      cases splitExpression stops stack others <;> simp [Except.map]

end

end Brackets

open Brackets

theorem complete_iff {word : List Token} :
    Complete word ↔ Balanced word ∧ word.getLast?.all (fun t => t.kind == .semicolon) = true := by
  rw [Option.all_eq_true]
  simp only [beq_iff_eq]
  exact ⟨fun h => ⟨h.balanced, h.semicolon⟩, fun h => ⟨h.1, h.2⟩⟩

instance (word : List Token) : Decidable (Complete word) := decidable_of_iff' _ complete_iff

theorem Complete.nil : Complete [] := ⟨.nil, by simp⟩

theorem Complete.append {u v : List Token} (hu : Complete u) (hv : Complete v) :
    Complete (u ++ v) where
  balanced := hu.balanced.append hv.balanced
  semicolon t ht := by
    rw [List.getLast?_append] at ht
    cases hLast : v.getLast? with
    | none =>
        rw [hLast] at ht
        exact hu.semicolon t ht
    | some last =>
        rw [hLast] at ht
        cases ht
        exact hv.semicolon _ hLast

theorem Complete.of_kinds {us vs : List Token} (h : Complete us)
    (hKinds : us.map Token.kind = vs.map Token.kind) : Complete vs where
  balanced := h.balanced.of_kinds hKinds
  semicolon v hv := by
    have hLast : us.getLast?.map Token.kind = some v.kind := by
      rw [← List.getLast?_map, hKinds, List.getLast?_map, hv]
      rfl
    obtain ⟨u, hu, hKind⟩ := Option.map_eq_some_iff.1 hLast
    exact hKind.symm.trans (h.semicolon u hu)

/-! ## What is left -/

/-- Where no statement may start, nothing is missing. -/
theorem eq_nil_of_inside {word : List Token} {k : TokenKind}
    (hPlace : word ≠ [] → k.opensStatement = true) (hInside : k.opensStatement = false) :
    word = [] := by
  by_contra hNe
  rw [hPlace hNe] at hInside
  cases hInside

namespace Reduces

variable {t : Token} {ts us : List Token}

theorem atStatement (h : Reduces ts us) : ReducesAtStatement ts us :=
  ⟨[], ts, rfl, .nil, h⟩

theorem keep {u : Token} (hKind : t.kind = u.kind) (h : Reduces ts us) :
    Reduces (t :: ts) (u :: us) :=
  @cons t u [] ts us hKind .nil (fun hNe => absurd rfl hNe) h

theorem refl : ∀ ts, Reduces ts ts
  | [] => .nil
  | _ :: ts => .keep rfl (refl ts)

theorem nextKind_eq (h : Reduces ts us) : nextKind ts = nextKind us := by
  cases h with
  | nil => rfl
  | cons hKind => exact hKind

/-- Behind the first token a statement is missing only where one may start. -/
theorem exists_cons (h : Reduces (t :: ts) us) :
    ∃ u us', us = u :: us' ∧ t.kind = u.kind ∧ ReducesAtStatement ts us' ∧
      (t.kind.opensStatement = false → Reduces ts us') := by
  generalize hTokens : t :: ts = tokens at h
  cases h with
  | nil => cases hTokens
  | @cons _ u word ts' us' hKind hWord hPlace hRest =>
      obtain ⟨rfl, rfl⟩ := List.cons_eq_cons.1 hTokens
      refine ⟨u, us', rfl, hKind, ⟨word, ts', rfl, hWord, hRest⟩, fun hInside => ?_⟩
      obtain rfl := eq_nil_of_inside hPlace hInside
      exact hRest

/-- What is left is a matter of the kinds of the tokens. -/
theorem of_kinds (h : Reduces ts us) {ts' us' : List Token}
    (hTs : ts.map Token.kind = ts'.map Token.kind) (hUs : us.map Token.kind = us'.map Token.kind) :
    Reduces ts' us' := by
  induction h generalizing ts' us' with
  | nil =>
      obtain rfl := List.map_eq_nil_iff.1 hTs.symm
      obtain rfl := List.map_eq_nil_iff.1 hUs.symm
      exact .nil
  | cons hKind hWord hPlace _ ih =>
      obtain ⟨t', tail, rfl, ht, hTail⟩ := List.map_eq_cons_iff.1 hTs.symm
      obtain ⟨u', us', rfl, hu, hRest⟩ := List.map_eq_cons_iff.1 hUs.symm
      rw [List.map_append] at hTail
      obtain ⟨word', ts', rfl, hWord', hTs'⟩ := List.map_eq_append_iff.1 hTail
      refine .cons (ht.trans (hKind.trans hu.symm)) (hWord.of_kinds hWord'.symm) (fun hNe => ?_)
        (ih hTs'.symm hRest.symm)
      rw [ht]
      refine hPlace fun hNil => hNe ?_
      rwa [hNil, List.map_nil, List.map_eq_nil_iff] at hWord'

theorem length_le (h : Reduces ts us) : us.length ≤ ts.length := by
  induction h with
  | nil => exact Nat.le_refl _
  | cons _ _ _ _ ih =>
      simp only [List.length_cons, List.length_append]
      omega

/-- As long as no statement may start, nothing is missing. -/
theorem drop (h : Reduces ts us) (i : Nat)
    (hInside : ∀ j < i, (nextKind (ts.drop j)).opensStatement = false) :
    Reduces (ts.drop i) (us.drop i) := by
  induction i with
  | zero => exact h
  | succ i ih =>
      have hBefore := ih fun j hj => hInside j (Nat.lt_succ_of_lt hj)
      have hStep {vs ws : List Token} (hSome : Reduces vs ws)
          (hNot : (nextKind vs).opensStatement = false) : Reduces (vs.drop 1) (ws.drop 1) := by
        cases vs with
        | nil =>
            cases hSome
            exact .nil
        | cons v vs =>
            obtain ⟨w, ws, rfl, -, -, hRest⟩ := hSome.exists_cons
            exact hRest hNot
      simpa only [List.drop_drop] using hStep hBefore (hInside i (Nat.lt_succ_self i))

end Reduces

namespace ReducesAtStatement

variable {ts us : List Token}

/-- Before a closing bracket nothing is missing. -/
theorem of_closing (h : ReducesAtStatement ts us) {b : Bracket} (hClosing : nextKind ts = .closing b) :
    Reduces ts us := by
  obtain ⟨word, rest, rfl, hWord, hRest⟩ := h
  obtain rfl := hWord.balanced.eq_nil_of_closing hClosing
  exact hRest

/-- Nothing is missing in front of a word without semicolon that a closing bracket follows. -/
theorem of_undivided (h : ReducesAtStatement ts us) {w rest : List Token} {b : Bracket}
    (hSplit : ts = w ++ rest) (hBalanced : Balanced w) (hUndivided : Undivided w)
    (hClosing : nextKind rest = .closing b) : Reduces ts us := by
  obtain ⟨word, others, rfl, hWord, hRest⟩ := h
  suffices hNil : word = [] by
    subst hNil
    exact hRest
  rcases List.append_eq_append_iff.1 hSplit with ⟨more, rfl, -⟩ | ⟨more, rfl, hMore⟩
  · exact hUndivided.eq_nil_of_complete hWord
  · obtain rfl : more = [] :=
      (hWord.of_append_left hBalanced).balanced.eq_nil_of_closing (hMore ▸ hClosing)
    rw [List.append_nil] at hWord ⊢
    exact (List.append_nil w ▸ hUndivided).eq_nil_of_complete hWord

theorem prepend {word : List Token} (hWord : Complete word) (h : ReducesAtStatement ts us) :
    ReducesAtStatement (word ++ ts) us := by
  obtain ⟨first, rest, rfl, hFirst, hRest⟩ := h
  exact ⟨word ++ first, rest, by simp, hWord.append hFirst, hRest⟩

end ReducesAtStatement

/-! ## Questions about the tokens to come -/

namespace Brackets

variable {ts us : List Token}

theorem IsPlain.semicolon_of_opensStatement {t : Token} (h : IsPlain t)
    (hOpens : t.kind.opensStatement = true) : t.kind = .semicolon := by
  unfold TokenKind.opensStatement at hOpens
  split at hOpens
  · assumption
  · exact absurd ‹_› (h.1 _)
  · exact absurd ‹_› (h.1 _)
  · cases hOpens

theorem kindAfter_reduces (h : Reduces ts us) (depth : Nat) :
    kindAfter (depth + 1) ts = kindAfter (depth + 1) us := by
  induction h generalizing depth with
  | nil => rfl
  | @cons t u word ts us hKind hWord hPlace hRest ih =>
      simp only [kindAfter, ← hKind]
      split
      · rw [kindAfter_append hWord.balanced, ih]
      · rename_i hClosing
        obtain rfl := eq_nil_of_inside hPlace (by rw [hClosing]; rfl)
        split
        · exact hRest.nextKind_eq
        · obtain ⟨below, rfl⟩ : ∃ below, depth = below + 1 := ⟨depth - 1, by omega⟩
          exact ih below
      · rw [kindAfter_append hWord.balanced, ih]

/-- The token behind a square bracket. -/
theorem kindAfter_square_reduces (h : Reduces ts us) (hSquare : nextKind ts = .opening .square) :
    kindAfter 0 ts = kindAfter 0 us := by
  cases ts with
  | nil => cases hSquare
  | cons t ts =>
      obtain ⟨u, us, rfl, hKind, -, hRest⟩ := h.exists_cons
      have hOpening : t.kind = .opening .square := hSquare
      simp only [kindAfter, ← hKind, hOpening]
      exact kindAfter_reduces (hRest (by rw [hOpening]; rfl)) 0

theorem hasComma_of_reduces (h : Reduces ts us) {depth : Nat} (hComma : hasComma depth us = true) :
    hasComma depth ts = true := by
  induction h generalizing depth with
  | nil => exact hComma
  | @cons t u word ts us hKind hWord hPlace hRest ih =>
      have hLater {n : Nat} (hRest : hasComma n us = true) : hasComma n (word ++ ts) = true :=
        hasComma_append hWord.balanced (ih hRest)
      revert hComma
      rw [hasComma, hasComma, hKind]
      split
      · exact hLater
      · simp only [Bool.and_eq_true]
        exact fun h => ⟨h.1, hLater h.2⟩
      · simp only [Bool.or_eq_true]
        exact Or.imp_right hLater
      · exact hLater

/-- Where no semicolon comes before the closing bracket, no comma is missing. `stack` are the
brackets that are open within the one that is closed. -/
theorem hasComma_reduces {stack : List Bracket} {inner rest : List Token} {closer : Token}
    (h : Reduces (inner ++ closer :: rest) us) (hOpen : openAfter stack inner = some [])
    (hClose : ∃ b, closer.kind = .closing b)
    (hUndivided : ∀ before t after, inner = before ++ t :: after →
      openAfter stack before = some [] → t.kind ≠ .semicolon)
    (hComma : hasComma stack.length (inner ++ closer :: rest) = true) :
    hasComma stack.length us = true := by
  generalize hTokens : inner ++ closer :: rest = tokens at h hComma
  induction h generalizing inner stack with
  | nil => simp at hTokens
  | @cons t u word ts us hKind hWord hPlace hRest ih =>
      cases inner with
      | nil =>
          obtain ⟨rfl, -⟩ := List.cons_eq_cons.1 hTokens
          obtain ⟨b, hClosing⟩ := hClose
          obtain rfl : stack = [] := by simpa using hOpen
          simp [hasComma, hClosing] at hComma
      | cons v inner =>
          obtain ⟨rfl, hSplit⟩ := List.cons_eq_cons.1 hTokens
          -- What is missing behind the token stands within brackets that the rest closes.
          have hLater {next : List Bracket} (hNext : openAfter stack [v] = some next)
              (hInside : word ≠ [] → next ≠ [])
              (hMore : hasComma next.length (word ++ ts) = true) :
              hasComma next.length us = true := by
            have hStep (w : List Token) : openAfter stack (v :: w) = openAfter next w := by
              rw [← List.singleton_append, openAfter_append, hNext]
              rfl
            rw [hStep] at hOpen
            have hUndivided' (later : List Token) (hLater : inner = word ++ later) :
                ∀ before t after, later = before ++ t :: after →
                  openAfter next before = some [] → t.kind ≠ .semicolon := by
              intro before t after hSplit' hBefore
              refine hUndivided (v :: (word ++ before)) t after (by simp [hLater, hSplit']) ?_
              rw [hStep, openAfter_append, hWord.balanced.openAfter_eq]
              exact hBefore
            by_cases hNil : word = []
            · subst hNil
              exact ih hOpen (hUndivided' inner rfl) hSplit hMore
            · have hNe := hInside hNil
              obtain ⟨later, hInner, hTs⟩ :=
                hWord.balanced.exists_inner hNe hOpen hClose hSplit
              obtain ⟨n, hLength⟩ : ∃ n, next.length = n + 1 :=
                Nat.exists_eq_succ_of_ne_zero fun hZero => hNe (List.length_eq_zero_iff.1 hZero)
              rw [hLength, hasComma_append_of_open hWord.balanced, ← hLength] at hMore
              refine ih ?_ (hUndivided' later hInner) hTs.symm hMore
              rw [hInner, openAfter_append, hWord.balanced.openAfter_eq] at hOpen
              exact hOpen
          have hPlain (hPlain : IsPlain v) (hMore : hasComma stack.length (word ++ ts) = true) :
              hasComma stack.length us = true := by
            refine hLater (openAfter_plain hPlain) (fun hNe hNil => ?_) hMore
            exact hUndivided [] v inner rfl (by simp [hNil]) (hPlain.semicolon_of_opensStatement (hPlace hNe))
          revert hComma
          rw [hasComma, hasComma, ← hKind]
          split
          · rename_i b hOpening
            exact hLater (openAfter_opening hOpening) fun _ => List.cons_ne_nil b stack
          · rename_i b hClosing
            obtain ⟨outer, rfl⟩ := stack_of_openAfter_closing hClosing hOpen
            have hNil := eq_nil_of_inside hPlace (by rw [hClosing]; rfl)
            simpa using hLater (openAfter_closing hClosing) (absurd hNil)
          · rename_i hKindComma
            simp only [Bool.or_eq_true]
            exact Or.imp_right (hPlain ⟨by simp [hKindComma], by simp [hKindComma]⟩)
          · rename_i hOpening hClosing _
            exact hPlain ⟨hOpening, hClosing⟩

/-- Brackets that are closed are closed by what is left. -/
theorem close_reduces {rest : List Token} {stack stack' : List Opened} {start last : Span}
    (h : Reduces ts us) (hStack : stack.map Opened.bracket = stack'.map Opened.bracket)
    (hRun : close stack start ts = .ok (last, rest)) (start' : Span) :
    ∃ last' rest', close stack' start' us = .ok (last', rest') ∧ Reduces rest rest' := by
  induction h generalizing stack stack' start start' with
  | nil =>
      cases stack with
      | cons inner outer => simp [close] at hRun
      | nil =>
          obtain rfl : stack' = [] := List.map_eq_nil_iff.1 hStack.symm
          simp only [close, Except.ok.injEq, Prod.mk.injEq] at hRun
          obtain ⟨-, rfl⟩ := hRun
          exact ⟨_, _, rfl, .nil⟩
  | @cons t u word ts us hKind hWord hPlace hRest ih =>
      cases stack with
      | nil =>
          obtain rfl : stack' = [] := List.map_eq_nil_iff.1 hStack.symm
          simp only [close, Except.ok.injEq, Prod.mk.injEq] at hRun
          obtain ⟨-, rfl⟩ := hRun
          exact ⟨_, _, rfl, .cons hKind hWord hPlace hRest⟩
      | cons inner outer =>
          cases stack' with
          | nil => simp at hStack
          | cons inner' outer' =>
              simp only [List.map_cons, List.cons.injEq] at hStack
              obtain ⟨hInner, hOuter⟩ := hStack
              -- The word is skipped, since a bracket is open.
              have hSkip {first first' : Opened} {others others' : List Opened} {s : Span}
                  (hSame : (first :: others).map Opened.bracket = (first' :: others').map Opened.bracket)
                  (hMore : close (first :: others) s (word ++ ts) = .ok (last, rest)) (s' : Span) :
                  ∃ last' rest', close (first' :: others') s' us = .ok (last', rest') ∧
                    Reduces rest rest' := by
                obtain ⟨middle, hSkipped⟩ := close_append hWord.balanced first others s ts
                rw [hSkipped] at hMore
                exact ih hSame hMore s'
              simp only [close, ← hKind, ← hInner] at hRun ⊢
              split at hRun
              · exact hSkip (by simp [hInner, hOuter]) hRun _
              · rename_i hClosing
                obtain rfl := eq_nil_of_inside hPlace (by rw [hClosing]; rfl)
                split at hRun
                · rw [if_pos ‹_›]
                  exact ih hOuter hRun _
                · cases hRun
              · exact hSkip (by simp [hInner, hOuter]) hRun _

/-- Where an expression ends, what is left of it ends. It stops at semicolons or at nothing, so that
a statement is missing only within its brackets or where it does not stop at all. -/
theorem splitExpression_reduces {stops : TokenKind → Bool}
    (hStops : stops .semicolon = true ∨ ∀ k, stops k = false) {stack : List Bracket}
    {taken rest : List Token} (h : Reduces ts us)
    (hRun : splitExpression stops stack ts = .ok (taken, rest)) :
    ∃ taken' rest', splitExpression stops stack us = .ok (taken', rest') ∧
      (taken' = [] → taken = []) ∧ Reduces rest rest' := by
  induction h generalizing stack taken with
  | nil =>
      have hNil : splitExpression stops stack [] = .ok ([], []) := by cases stack <;> rfl
      rw [hNil] at hRun ⊢
      cases hRun
      exact ⟨[], [], rfl, fun _ => rfl, .nil⟩
  | @cons t u word ts us hKind hWord hPlace hRest ih =>
      rcases splitExpression_step stops stack t.kind with
        ⟨-, hEnd⟩ | ⟨next, hGo, hTake⟩ | ⟨inner, b, hReject⟩
      · rw [hEnd t _ rfl] at hRun
        cases hRun
        exact ⟨[], u :: us, hEnd u us hKind.symm, fun _ => rfl, .cons hKind hWord hPlace hRest⟩
      · obtain ⟨hOpen, hSplit⟩ := hTake t rfl
        have hBehind : ∃ more, splitExpression stops next ts = .ok (more, rest) := by
          have hMap {result : Except SyntaxError (List Token × List Token)}
              {f : List Token → List Token} {taken : List Token}
              (h : result.map (fun split => (f split.1, split.2)) = .ok (taken, rest)) :
              ∃ more, result = .ok (more, rest) := by
            cases result with
            | error e => cases h
            | ok split =>
                cases h
                exact ⟨split.1, rfl⟩
          rw [hSplit] at hRun
          obtain ⟨tail, hTail⟩ := hMap hRun
          by_cases hNil : word = []
          · subst hNil
            exact ⟨tail, hTail⟩
          · have hInside : next = [] → ∀ k, stops k = false := by
              have hNext : openAfter stack [t] = some next := hOpen []
              rintro rfl
              rcases isPlain_or_bracket t with hPlain | ⟨b, hOpening⟩ | ⟨b, hClosing⟩
              · obtain rfl : stack = [] := by simpa [openAfter_plain hPlain] using hNext
                have hNot := hGo rfl
                rw [hPlain.semicolon_of_opensStatement (hPlace hNil)] at hNot
                exact hStops.resolve_left (by simp [hNot])
              · simp [openAfter_opening hOpening] at hNext
              · exact absurd (eq_nil_of_inside hPlace (by rw [hClosing]; rfl)) hNil
            rw [splitExpression_append hWord.balanced hInside] at hTail
            exact hMap hTail
        obtain ⟨more, hMore⟩ := hBehind
        obtain ⟨taken', rest', hOther, -, hLeft⟩ := ih hMore
        refine ⟨u :: taken', rest', ?_, by simp, hLeft⟩
        rw [(hTake u hKind.symm).2, hOther]
        rfl
      · rw [hReject t _ rfl] at hRun
        cases hRun

end Brackets

end GoTemplate
