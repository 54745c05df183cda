import GoTemplate.Proofs.Syntax.DeclarationWords
import Mathlib.Data.List.Forall2

/-!
Statements in a row. What a list of statements takes is their words with semicolons in between, and
outside of brackets there are no other semicolons. So the places behind such semicolons are the places
where statements start.
-/

namespace GoTemplate

open Brackets

/-! ## Depth -/

namespace Brackets

theorem nextKind_append {u : List Token} (v : List Token) (hu : u ≠ []) :
    nextKind (u ++ v) = nextKind u := by
  obtain ⟨t, u, rfl⟩ := List.exists_cons_of_ne_nil hu
  rfl

/-- Whether a token of the kind opens a bracket. -/
def opens : TokenKind → Bool
  | .opening _ => true
  | _ => false

/-- Whether a token of the kind closes a bracket. -/
def closes : TokenKind → Bool
  | .closing _ => true
  | _ => false

/-- How many more brackets the tokens open than they close. -/
def depth (tokens : List Token) : Int :=
  tokens.countP (opens ·.kind) - tokens.countP (closes ·.kind)

@[simp] theorem depth_nil : depth [] = 0 := rfl

theorem depth_append (u v : List Token) : depth (u ++ v) = depth u + depth v := by
  simp only [depth, List.countP_append]
  omega

theorem depth_cons (t : Token) (v : List Token) : depth (t :: v) = depth [t] + depth v :=
  depth_append [t] v

section

variable {t : Token} {b : Bracket}

theorem depth_opening (h : t.kind = .opening b) : depth [t] = 1 := by
  simp [depth, h, opens, closes]

theorem depth_closing (h : t.kind = .closing b) : depth [t] = -1 := by
  simp [depth, h, opens, closes]

theorem depth_plain (h : IsPlain t) : depth [t] = 0 := by
  have hOpens : opens t.kind = false := by
    unfold opens
    split
    · exact absurd ‹_› (h.1 _)
    · rfl
  have hCloses : closes t.kind = false := by
    unfold closes
    split
    · exact absurd ‹_› (h.2 _)
    · rfl
  simp [depth, hOpens, hCloses]

end

/-- The depth is the number of open brackets. -/
theorem length_of_openAfter {stack final : List Bracket} {word : List Token}
    (h : openAfter stack word = some final) : (final.length : Int) = stack.length + depth word := by
  induction word generalizing stack with
  | nil =>
      rw [openAfter_nil, Option.some.injEq] at h
      simp [h]
  | cons t word ih =>
      rw [depth_cons]
      rcases isPlain_or_bracket t with hPlain | ⟨b, hOpening⟩ | ⟨b, hClosing⟩
      · rw [openAfter_plain hPlain] at h
        rw [ih h, depth_plain hPlain]
        omega
      · rw [openAfter_opening hOpening] at h
        rw [ih h, depth_opening hOpening, List.length_cons]
        omega
      · obtain ⟨outer, rfl⟩ := stack_of_openAfter_closing hClosing h
        rw [openAfter_closing hClosing] at h
        rw [ih h, depth_closing hClosing, List.length_cons]
        omega

theorem Balanced.depth_eq {word : List Token} (h : Balanced word) : depth word = 0 := by
  have hLength := length_of_openAfter (h.openAfter_eq [])
  simpa using hLength.symm

end Brackets

/-! ## Statements -/

/-- What a statement takes: a phrase, or at the end of the source values in which a bracket stays
open. -/
def StatementWord (word rest : List Token) : Prop := Phrase word ∨ OpenValues word ∧ rest = []

namespace StatementWord

variable {word rest : List Token}

theorem exists_openAfter (h : StatementWord word rest) : ∃ final, openAfter [] word = some final := by
  rcases h with h | ⟨⟨⟨before, assign, value, rfl, hBefore, hAssign, hValue⟩, -⟩, -⟩
  · exact ⟨[], h.balanced.openAfter_eq []⟩
  · obtain ⟨b, outer, hOpen⟩ := hValue.openAfter_eq
    have hPlain : IsPlain assign := isPlain_of_isInner (by rw [hAssign]; rfl)
    refine ⟨b :: outer, ?_⟩
    rw [openAfter_append, hBefore.openAfter_eq]
    exact (openAfter_plain hPlain).trans hOpen

theorem undivided (h : StatementWord word rest) : Undivided word := by
  rcases h with h | ⟨h, -⟩
  · exact h.undivided
  · exact h.undivided

theorem ne_nil (h : StatementWord word rest) : word ≠ [] := by
  rcases h with h | ⟨h, -⟩
  · exact h.ne_nil
  · exact h.ne_nil

/-- A semicolon in a statement is in brackets. -/
theorem depth_ne_zero (h : StatementWord word rest) {before after : List Token} {t : Token}
    (hWord : word = before ++ t :: after) (ht : t.kind = .semicolon) : depth before ≠ 0 := by
  intro hDepth
  obtain ⟨final, hFinal⟩ := h.exists_openAfter
  rw [hWord, openAfter_append] at hFinal
  cases hBefore : openAfter [] before with
  | none =>
      rw [hBefore] at hFinal
      cases hFinal
  | some stack =>
      have hLength := length_of_openAfter hBefore
      have hStack : stack = [] := by simpa [hDepth] using hLength
      exact h.undivided before t after hWord (balanced_of_openAfter (hStack ▸ hBefore)) ht

/-- No statement starts with a closing bracket. -/
theorem head_not_closing (h : StatementWord word rest) {t : Token} {tail : List Token} {b : Bracket}
    (hWord : word = t :: tail) : t.kind ≠ .closing b := by
  intro hClosing
  obtain ⟨final, hFinal⟩ := h.exists_openAfter
  rw [hWord] at hFinal
  obtain ⟨_, hStack⟩ := stack_of_openAfter_closing hClosing hFinal
  cases hStack

end StatementWord

/-! ## Rows -/

/-- Statements in a row, each with what `W` says of it, of its word and of the tokens after that. -/
inductive Row {α : Type} (W : α → List Token → List Token → Prop) :
    List α → List Token → List Token → Prop where
  | nil {rest : List Token} : Row W [] [] rest
  | cons {a : α} {as : List α} {word ending later rest : List Token}
      (hWord : StatementWord word (ending ++ (later ++ rest)))
      (hW : W a word (ending ++ (later ++ rest))) (hEnd : EndsStatement ending (later ++ rest))
      (hRest : Row W as later rest) : Row W (a :: as) (word ++ (ending ++ later)) rest

/-- The tokens of a row before the start of a statement: there are none, or the last one is a semicolon
outside of brackets. -/
def IsStatementFront (u : List Token) : Prop :=
  u = [] ∨ ∃ v s, u = v ++ [s] ∧ s.kind = .semicolon ∧ depth v = 0

namespace Row

variable {α β : Type} {W : α → List Token → List Token → Prop} {as bs : List α}
  {u v rest : List Token}

theorem append (hu : Row W as u (v ++ rest)) (hv : Row W bs v rest) :
    Row W (as ++ bs) (u ++ v) rest := by
  induction as generalizing u with
  | nil =>
      cases hu
      exact hv
  | cons a as ih =>
      cases hu with
      | @cons _ _ word ending later _ hWord hW hEnd hRest =>
          have hLater := ih hRest
          have hSame : ending ++ (later ++ (v ++ rest)) = ending ++ ((later ++ v) ++ rest) := by
            rw [List.append_assoc later]
          rw [List.append_assoc, List.append_assoc]
          rw [hSame] at hWord hW
          rw [← List.append_assoc later] at hEnd
          exact cons hWord hW hEnd hLater

theorem map {V : β → List Token → List Token → Prop} (f : α → β)
    (h : ∀ a w r, W a w r → V (f a) w r) (hu : Row W as u rest) : Row V (as.map f) u rest := by
  induction hu with
  | nil => exact nil
  | cons hWord hW hEnd _ ih => exact cons hWord (h _ _ _ hW) hEnd ih

/-- A statement without a semicolon behind it is the last of its row. -/
theorem eq_nil_of_ending_nil (hEnd : EndsStatement [] (u ++ rest)) (h : Row W as u rest) :
    as = [] ∧ u = [] := by
  cases h with
  | nil => exact ⟨rfl, rfl⟩
  | @cons _ _ word ending later _ hWord =>
      obtain ⟨t, tail, rfl⟩ := List.exists_cons_of_ne_nil hWord.ne_nil
      rcases hEnd with ⟨s, hNil, -⟩ | ⟨-, hClosing⟩
      · cases hNil
      · rcases hClosing t rfl with hRound | hCurly
        · exact absurd hRound (hWord.head_not_closing rfl)
        · exact absurd hCurly (hWord.head_not_closing rfl)

/-- A semicolon outside of brackets stands behind the first statement of a row or later. -/
theorem split_semicolon {word ending later before after : List Token} {s : Token}
    (hWord : StatementWord word (ending ++ (later ++ rest))) (hEnd : EndsStatement ending (later ++ rest))
    (hRest : Row W as later rest) (h : word ++ (ending ++ later) = before ++ s :: after)
    (hs : s.kind = .semicolon) (hDepth : depth before = 0) :
    (before = word ∧ ending = [s] ∧ later = after) ∨
      ∃ more, before = word ++ (ending ++ more) ∧ later = more ++ s :: after ∧ depth more = 0 := by
  have hBehind : ∃ more, before = word ++ more ∧ ending ++ later = more ++ s :: after := by
    rcases List.append_eq_append_iff.1 h with hBehind | ⟨more, hFront, hTail⟩
    · exact hBehind
    · cases more with
      | nil => exact ⟨[], by simpa using hFront.symm, by simpa using hTail.symm⟩
      | cons d more =>
          obtain ⟨rfl, -⟩ := List.cons_eq_cons.1 hTail
          exact absurd hDepth (hWord.depth_ne_zero hFront hs)
  obtain ⟨more, rfl, hTail⟩ := hBehind
  have hPhrase : Phrase word := by
    rcases hWord with hWord | ⟨-, hNil⟩
    · exact hWord
    · rw [← List.append_assoc, hTail] at hNil
      simp at hNil
  rw [depth_append, hPhrase.balanced.depth_eq] at hDepth
  have hMore : depth more = 0 := by omega
  rcases hEnd with ⟨t, rfl, ht⟩ | ⟨rfl, hClosing⟩
  · cases more with
    | nil =>
        obtain ⟨rfl, rfl⟩ := List.cons_eq_cons.1 hTail
        exact .inl ⟨by simp, rfl, rfl⟩
    | cons d more =>
        obtain ⟨rfl, rfl⟩ := List.cons_eq_cons.1 hTail
        have hPlain : IsPlain t := ⟨by simp [ht], by simp [ht]⟩
        rw [depth_cons, depth_plain hPlain] at hMore
        exact .inr ⟨more, rfl, rfl, by omega⟩
  · obtain ⟨-, rfl⟩ := eq_nil_of_ending_nil (.inr ⟨rfl, hClosing⟩) hRest
    simp at hTail

/-- In front of further tokens all statements of a row are closed. -/
theorem balanced (h : Row W as u rest) (hRest : rest ≠ []) : Balanced u := by
  induction h with
  | nil => exact .nil
  | cons hWord _ hEnd _ ih =>
      rcases hWord with hWord | ⟨-, hNil⟩
      · exact hWord.balanced.append (hEnd.balanced.append (ih hRest))
      · exact absurd (List.append_eq_nil_iff.1 (List.append_eq_nil_iff.1 hNil).2).2 hRest

/-- Places in a row of statements. `Of` says which places belong to the start of a statement, `Stands` what
stands at a place, and `Here` where statements start. If each statement has its places, in the order of
what it consists of, the row has them one after the other, and it has no others. -/
theorem exists_places {γ : Type} (f : α → List γ) (Of : Nat → Nat → Prop)
    {Here : List Token → Prop} {Stands : γ → Nat → Prop} {tokens : List Token}
    (hHere : ∀ before word s, Here before → Balanced word → s.kind = .semicolon →
      Here (before ++ (word ++ [s])))
    (hLocal : ∀ before a word after, tokens = before ++ (word ++ after) → Here before →
      StatementWord word after → (∃ ending later, after = ending ++ later ∧ EndsStatement ending later) →
      W a word after → ∃ places : List Nat, places.Pairwise (· < ·) ∧
        (∀ i ∈ places, before.length ≤ i ∧ i < before.length + word.length) ∧
        List.Forall₂ Stands (f a) places ∧ ∀ i, Of before.length i → i ∈ places)
    (h : Row W as u rest) : ∀ before, tokens = before ++ (u ++ rest) → Here before →
      ∃ places : List Nat, places.Pairwise (· < ·) ∧
        (∀ i ∈ places, before.length ≤ i ∧ i < before.length + u.length) ∧
        List.Forall₂ Stands (as.flatMap f) places ∧
        ∀ front t back, u = front ++ t :: back → IsStatementFront front →
          ∀ i, Of (before.length + front.length) i → i ∈ places := by
  induction h with
  | nil =>
      intro before _ _
      exact ⟨[], .nil, by simp, .nil, by simp⟩
  | @cons a as word ending later rest hWord hW hEnd hRest ih =>
      intro before hTokens hBefore
      obtain ⟨places, hIncreasing, hBounds, hStands, hOf⟩ := hLocal before a word _
        (by rw [hTokens]; simp) hBefore hWord ⟨ending, later ++ rest, rfl, hEnd⟩ hW
      -- Behind the first statement a place is one in the later statements.
      have hSplit : ∀ front t back, word ++ (ending ++ later) = front ++ t :: back →
          IsStatementFront front → front = [] ∨ ∃ front', front = word ++ (ending ++ front') ∧ later = front' ++ t :: back ∧
            IsStatementFront front' := by
        rintro front t back hWhole (rfl | ⟨v, s, rfl, hs, hDepth⟩)
        · exact .inl rfl
        · rw [List.append_assoc] at hWhole
          rcases split_semicolon hWord hEnd hRest hWhole hs hDepth with
            ⟨rfl, rfl, rfl⟩ | ⟨more, rfl, rfl, hMore⟩
          · exact .inr ⟨[], by simp, rfl, .inl rfl⟩
          · exact .inr ⟨more ++ [s], by simp, by simp, .inr ⟨more, s, rfl, hs, hMore⟩⟩
      rcases hEnd with ⟨s, rfl, hs⟩ | ⟨rfl, hClosing⟩
      · have hBalanced : Balanced word := by
          rcases hWord with hWord | ⟨-, hNil⟩
          · exact hWord.balanced
          · cases hNil
        obtain ⟨others, hIncreasing', hBounds', hStands', hOf'⟩ := ih (before ++ (word ++ [s]))
          (by rw [hTokens]; simp) (hHere before word s hBefore hBalanced hs)
        simp only [List.length_append, List.length_singleton] at hBounds' hOf'
        refine ⟨places ++ others, ?_, ?_, ?_, ?_⟩
        · refine List.pairwise_append.2 ⟨hIncreasing, hIncreasing', fun i hi j hj => ?_⟩
          have := hBounds i hi
          have := hBounds' j hj
          omega
        · intro i hi
          simp only [List.length_append, List.length_singleton]
          rcases List.mem_append.1 hi with hi | hi
          · have := hBounds i hi
            omega
          · have := hBounds' i hi
            omega
        · exact List.rel_append hStands hStands'
        · intro front t back hWhole hFront i hi
          rcases hSplit front t back hWhole hFront with rfl | ⟨front', rfl, hLater, hFront'⟩
          · exact List.mem_append_left _ (hOf i hi)
          · refine List.mem_append_right _ (hOf' front' t back hLater hFront' i ?_)
            simpa only [List.length_append, List.length_singleton, Nat.add_assoc] using hi
      · obtain ⟨rfl, rfl⟩ := eq_nil_of_ending_nil (.inr ⟨rfl, hClosing⟩) hRest
        refine ⟨places, hIncreasing, by simpa using hBounds, by simpa using hStands, ?_⟩
        intro front t back hWhole hFront i hi
        rcases hSplit front t back hWhole hFront with rfl | ⟨front', -, hLater, -⟩
        · exact hOf i hi
        · simp at hLater

end Row

namespace Parser

/-- Items that each end as a statement are a row. -/
theorem reads_row {α : Type} {n : Nat} {more : TokenKind → Bool} {item : Parser α}
    {W : α → List Token → List Token → Prop}
    (hItem : ReadsFrom n (fun c => more c.kind) item fun a w r => StatementWord w r ∧ W a w r) :
    Reads n (manyWhile more (do let a ← item; statementEnd; return a)) fun as w r =>
      Row W as w r ∧ more (nextKind r) = false := by
  have hEnd (a : α) : Reads n (do statementEnd; return a) fun b w r => b = a ∧ EndsStatement w r := by
    refine reads_statementEnd.bind (fun _ => reads_pure a) ?_
    rintro _ _ u _ r hu ⟨rfl, rfl⟩
    simpa using hu
  have hStatement : ReadsFrom n (fun c => more c.kind) (do let a ← item; statementEnd; return a)
      fun a u r => ∃ word ending, u = word ++ ending ∧ StatementWord word (ending ++ r) ∧
        W a word (ending ++ r) ∧ EndsStatement ending r := by
    refine hItem.bind hEnd ?_
    rintro a _ word ending r ⟨hWord, hW⟩ ⟨rfl, hEnding⟩
    exact ⟨word, ending, rfl, hWord, hW, hEnding⟩
  refine reads_manyWhile hStatement ?_ (fun r hMore => ⟨.nil, hMore⟩) ?_
  · rintro a u r ⟨word, ending, rfl, hWord, -, -⟩
    exact List.append_ne_nil_of_left_ne_nil hWord.ne_nil ending
  · rintro a as u v r ⟨word, ending, rfl, hWord, hW, hEnding⟩ ⟨hRow, hMore⟩
    rw [List.append_assoc]
    exact ⟨.cons hWord hW hEnding hRow, hMore⟩

end Parser

end GoTemplate
