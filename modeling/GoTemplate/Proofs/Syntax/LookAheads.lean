import GoTemplate.Proofs.Syntax.Groups
import Mathlib.Logic.Function.Iterate

/-!
Look-aheads over groups. They count how many brackets are open and do not ask for the shapes, as a skip
does. Where a skip would succeed they see the group that it would skip, and on any tokens they come to an
answer at the end of the source at the latest.
-/

namespace GoTemplate

namespace Brackets

/-- A comma stands in the word outside of its brackets. -/
def HasOuterComma (word : List Token) : Prop :=
  ∃ before comma after, word = before ++ comma :: after ∧ Balanced before ∧ comma.kind = .comma

theorem HasOuterComma.append_left {u v : List Token} (hu : Balanced u) (hv : HasOuterComma v) :
    HasOuterComma (u ++ v) := by
  obtain ⟨before, comma, after, rfl, hBefore, hComma⟩ := hv
  exact ⟨u ++ before, comma, after, by simp, hu.append hBefore, hComma⟩

/-- A comma that is found stands in the balanced word or behind it. -/
theorem hasOuterComma_or_of_hasComma {word others : List Token} (hWord : Balanced word)
    (h : hasComma 0 (word ++ others) = true) : HasOuterComma word ∨ hasComma 0 others = true := by
  induction hWord with
  | nil => exact .inr h
  | @plain t word hPlain _ ih =>
      by_cases hComma : t.kind = .comma
      · exact .inl ⟨[], t, word, rfl, .nil, hComma⟩
      · rw [List.cons_append, hasComma] at h
        refine (ih ?_).imp_left (HasOuterComma.append_left (.singleton hPlain))
        split at h
        · exact absurd ‹_› (hPlain.1 _)
        · exact absurd ‹_› (hPlain.2 _)
        · exact absurd ‹_› hComma
        · exact h
  | @group opener closer b inner word hOpener hInner hCloser _ _ ih =>
      have hGroup : Balanced (opener :: (inner ++ [closer])) := .group hOpener hInner hCloser .nil
      rw [show opener :: (inner ++ closer :: word) = (opener :: (inner ++ [closer])) ++ word by simp]
      refine (ih ?_).imp_left (HasOuterComma.append_left hGroup)
      simp only [List.cons_append, List.append_assoc, hasComma, hOpener] at h
      rw [hasComma_append_of_open hInner] at h
      simpa [hasComma, hCloser] using h

/-- Within brackets exactly the commas of the brackets themselves are found. -/
theorem hasComma_group {inner others : List Token} {closer : Token} {b : Bracket} (hInner : Balanced inner)
    (hCloser : closer.kind = .closing b) :
    hasComma 0 (inner ++ closer :: others) = true ↔ HasOuterComma inner := by
  constructor
  · intro h
    refine (hasOuterComma_or_of_hasComma hInner h).resolve_right ?_
    simp [hasComma, hCloser]
  · rintro ⟨before, comma, after, rfl, hBefore, hComma⟩
    rw [List.append_assoc, List.cons_append]
    refine hasComma_append hBefore ?_
    simp [hasComma, hComma]

end Brackets

/-! ## Loops over the tokens ahead -/

/-- A loop over the tokens ahead. At the token that `i` others separate from the place, where `depth`
brackets are open, `look` gives the answer or the number of brackets that are open at the next token. The
answer is given at the token that `last` others separate from the place. -/
inductive Looks {α : Type} (look : Nat → Nat → α ⊕ Nat) : Nat → Nat → Nat → α → Prop where
  | answer {i depth : Nat} {a : α} (hLook : look i depth = .inl a) : Looks look i depth i a
  | next {i depth depth' last : Nat} {a : α} (hLook : look i depth = .inr depth')
      (hNext : Looks look (i + 1) depth' last a) : Looks look i depth last a

namespace Cursor

variable {c : Cursor}

/-- A look for the token behind a group. -/
def lookBehind (c : Cursor) (i depth : Nat) : TokenKind ⊕ Nat :=
  match c.kindAt i with
  | .endOfSource => .inl .endOfSource
  | .opening _ => .inr (depth + 1)
  | .closing _ => if depth - 1 = 0 then .inl (c.kindAt (i + 1)) else .inr (depth - 1)
  | _ => .inr depth

/-- A look for a comma between brackets. -/
def lookForComma (c : Cursor) (i depth : Nat) : Bool ⊕ Nat :=
  match c.kindAt i with
  | .endOfSource => .inl false
  | .opening _ => .inr (depth + 1)
  | .closing _ => if depth = 0 then .inl false else .inr (depth - 1)
  | .comma => if depth = 0 then .inl true else .inr depth
  | _ => .inr depth

/-- A loop that answers at the end of the source ends there at the latest. -/
theorem exists_looks {α : Type} {look : Nat → Nat → α ⊕ Nat} {answer : Nat → List Token → α}
    (hEnd : ∀ i depth, c.rest.length ≤ i → look i depth = .inl (answer depth []))
    (hStep : ∀ i depth t rest, c.rest.drop i = t :: rest → look i depth = .inl (answer depth (t :: rest)) ∨
      ∃ depth', look i depth = .inr depth' ∧ answer depth' rest = answer depth (t :: rest))
    (i depth : Nat) :
    ∃ last ≤ max i c.rest.length, Looks look i depth last (answer depth (c.rest.drop i)) := by
  generalize hTokens : c.rest.drop i = tokens
  induction tokens generalizing i depth with
  | nil =>
      exact ⟨i, Nat.le_max_left _ _, .answer (hEnd i depth (List.drop_eq_nil_iff.1 hTokens))⟩
  | cons t rest ih =>
      rcases hStep i depth t rest hTokens with hAnswer | ⟨depth', hNext, hSame⟩
      · exact ⟨i, Nat.le_max_left _ _, .answer hAnswer⟩
      · have hRest : c.rest.drop (i + 1) = rest := by
          rw [← List.drop_drop, hTokens]
          rfl
        have hLess : i < c.rest.length := by
          by_contra hLe
          rw [List.drop_eq_nil_of_le (Nat.le_of_not_lt hLe)] at hTokens
          cases hTokens
        obtain ⟨last, hLast, hLooks⟩ := ih (i + 1) depth' hRest
        rw [← hSame]
        exact ⟨last, by omega, .next hNext hLooks⟩

theorem kindAt_of_drop {i : Nat} {t : Token} {rest : List Token} (h : c.rest.drop i = t :: rest) :
    c.kindAt i = t.kind := by
  have hToken : c.rest[i]? = some t := by
    rw [← List.head?_drop, h]
    rfl
  rw [kindAt, hToken]
  rfl

theorem kindAt_of_length_le (hc : c.IsProper) {i : Nat} (hi : c.rest.length ≤ i) :
    c.kindAt i = .endOfSource := by
  rw [kindAt, List.getElem?_eq_none hi]
  exact hc.stop_kind

/-- Both look-aheads are such loops. -/
theorem exists_looks_kindAfter (hc : c.IsProper) (i depth : Nat) :
    ∃ last ≤ max i c.rest.length,
      Looks c.lookBehind i depth last (Brackets.kindAfter depth (c.rest.drop i)) := by
  refine exists_looks (fun i depth hi => ?_) (fun i depth t rest hTokens => ?_) i depth
  · rw [lookBehind, kindAt_of_length_le hc hi]
    rfl
  · have hNext : c.kindAt (i + 1) = (rest.head?.map Token.kind).getD .endOfSource := by
      rw [Parser.kindAt_eq hc, ← List.drop_drop, hTokens]
      rfl
    rw [lookBehind, kindAt_of_drop hTokens, hNext]
    split
    · exact absurd ‹_› (hc.rest_kind t (List.mem_of_mem_drop (hTokens ▸ List.mem_cons_self)))
    · rename_i hKind
      simp [Brackets.kindAfter, hKind]
    · rename_i hKind
      by_cases hDepth : depth ≤ 1
      · simp [Brackets.kindAfter, hKind, hDepth]
      · have hOpen : depth - 1 ≠ 0 := by omega
        simp [Brackets.kindAfter, hKind, hDepth, hOpen]
    · simp [Brackets.kindAfter]

theorem exists_looks_hasComma (hc : c.IsProper) (i depth : Nat) :
    ∃ last ≤ max i c.rest.length,
      Looks c.lookForComma i depth last (Brackets.hasComma depth (c.rest.drop i)) := by
  refine exists_looks (fun i depth hi => ?_) (fun i depth t rest hTokens => ?_) i depth
  · rw [lookForComma, kindAt_of_length_le hc hi]
    rfl
  · rw [lookForComma, kindAt_of_drop hTokens]
    split
    · exact absurd ‹_› (hc.rest_kind t (List.mem_of_mem_drop (hTokens ▸ List.mem_cons_self)))
    · rename_i hKind
      simp [Brackets.hasComma, hKind]
    · rename_i hKind
      by_cases hDepth : depth = 0
      · simp [Brackets.hasComma, hKind, hDepth]
      · simp [Brackets.hasComma, hKind, hDepth]
    · rename_i hKind
      by_cases hDepth : depth = 0
      · simp [Brackets.hasComma, hKind, hDepth]
      · simp [Brackets.hasComma, hKind, hDepth]
    · simp [Brackets.hasComma]

/-! ## Places ahead -/

theorem rest_iterate_advance (c : Cursor) (n : Nat) : (advance^[n] c).rest = c.rest.drop n := by
  induction n with
  | zero => rfl
  | succ n ih =>
      have hAdvance (d : Cursor) : d.advance.rest = d.rest.drop 1 := by
        obtain ⟨previous, _ | ⟨t, rest⟩, stop⟩ := d <;> rfl
      rw [Function.iterate_succ_apply', hAdvance, ih, List.drop_drop]

theorem stop_iterate_advance (c : Cursor) (n : Nat) : (advance^[n] c).stop = c.stop := by
  induction n with
  | zero => rfl
  | succ n ih =>
      have hAdvance (d : Cursor) : d.advance.stop = d.stop := by
        obtain ⟨previous, _ | ⟨t, rest⟩, stop⟩ := d <;> rfl
      rw [Function.iterate_succ_apply', hAdvance, ih]

theorem IsProper.iterate_advance (hc : c.IsProper) (n : Nat) : (advance^[n] c).IsProper where
  stop_kind := by rw [stop_iterate_advance, hc.stop_kind]
  rest_kind t ht := by
    rw [rest_iterate_advance] at ht
    exact hc.rest_kind t (List.mem_of_mem_drop ht)

end Cursor

namespace Parser

open Brackets

variable {c d : Cursor} {b : Bracket}

/-- The tokens of a group that is skipped. -/
theorem exists_group (hc : c.IsProper) (h : group b c = .ok ((), d)) :
    ∃ opener inner closer, c.rest = opener :: (inner ++ closer :: d.rest) ∧ opener.kind = .opening b ∧
      Balanced inner ∧ closer.kind = .closing b ∧ d.IsProper := by
  obtain ⟨opened, c', hOpened, -⟩ := bind_eq_ok.1 h
  obtain ⟨opener, tokens, hRest, hOpener⟩ := exists_token hc (expect_eq_ok hOpened).1 (by simp)
  obtain ⟨inner, closer, rfl, hInner, hCloser, -, hStop⟩ := (group_eq_ok_iff hRest hOpener).1 h
  refine ⟨opener, inner, closer, hRest, hOpener, hInner, hCloser, hStop ▸ hc.stop_kind, fun t ht => ?_⟩
  exact hc.rest_kind t (by simp [hRest, ht])

/-- The look-aheads agree with skips. Where a skip would take a group `n` tokens ahead, the kind behind it
is that of the token at which the skip would end. A comma is found in square brackets where one stands in
them outside of other brackets. Whatever the tokens are, the look-aheads are loops that come to an answer
at the end of the source at the latest. -/
theorem lookAheads_of_group (hc : c.IsProper) :
    (∀ n b d, group b (Cursor.advance^[n] c) = .ok ((), d) → kindAfter 0 (c.rest.drop n) = d.kind) ∧
    (∀ d, group .square c = .ok ((), d) → ∃ inner closer, c.rest.drop 1 = inner ++ closer :: d.rest ∧
      closer.kind = .closing .square ∧ (hasComma 0 (c.rest.drop 1) = true ↔ HasOuterComma inner)) ∧
    (∀ n, ∃ last ≤ max n c.rest.length, Looks c.lookBehind n 0 last (kindAfter 0 (c.rest.drop n))) ∧
    ∃ last ≤ max 1 c.rest.length, Looks c.lookForComma 1 0 last (hasComma 0 (c.rest.drop 1)) := by
  refine ⟨fun n b d h => ?_, fun d h => ?_, fun n => c.exists_looks_kindAfter hc n 0,
    c.exists_looks_hasComma hc 1 0⟩
  · obtain ⟨opener, inner, closer, hRest, hOpener, hInner, hCloser, hd⟩ :=
      exists_group (hc.iterate_advance n) h
    rw [← Cursor.rest_iterate_advance, hRest, kindAfter_group hOpener hInner hCloser, ← kind_eq hd]
  · obtain ⟨opener, inner, closer, hRest, -, hInner, hCloser, -⟩ := exists_group hc h
    have hTokens : c.rest.drop 1 = inner ++ closer :: d.rest := by rw [hRest]; rfl
    refine ⟨inner, closer, hTokens, hCloser, ?_⟩
    rw [hTokens]
    exact hasComma_group hInner hCloser

/-- The brackets of `[P *C, Q[K, V]] x` hold a comma of their own, and a name stands behind them. -/
theorem lookAheads_of_group_nested :
    let c := Cursor.ofRun (Lexer.ofSource .statements "[P *C, Q[K, V]] x".toList).run
    c.IsProper ∧ ∃ d, group .square (Cursor.advance^[0] c) = .ok ((), d) ∧ d.kind = .identifier ∧
      kindAfter 0 (c.rest.drop 0) = d.kind ∧ ∃ inner closer, c.rest.drop 1 = inner ++ closer :: d.rest ∧
        HasOuterComma inner := by
  intro c
  have hProper : c.IsProper := Cursor.ofRun_isProper _
  obtain ⟨hBehind, hComma, -⟩ := lookAheads_of_group hProper
  have hKind : (group .square c).toOption.map (fun skipped => skipped.2.kind) = some .identifier := by
    decide +kernel
  cases hGroup : group .square c with
  | error e => rw [hGroup] at hKind; cases hKind
  | ok skipped =>
      obtain ⟨⟨⟩, d⟩ := skipped
      rw [hGroup] at hKind
      obtain ⟨inner, closer, hTokens, -, hFound⟩ := hComma d hGroup
      exact ⟨hProper, d, hGroup, Option.some.inj hKind, hBehind 0 .square d hGroup, inner, closer, hTokens,
        hFound.1 (by decide +kernel)⟩

end Parser

end GoTemplate
