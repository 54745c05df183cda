import GoTemplate.Proofs.Syntax.Abreast

/-!
Readers of syntax that go in step: what one does at a place, the other does at the place with other
spans. They go abreast, and what they read differs by the change of spans.
-/

namespace GoTemplate

variable {f : Span → Span} {hf : Parser.Merges f}

theorem Token.goesWith_respan (t : Token) : t.GoesWith (.ofMerges hf) (respan f t) :=
  ⟨rfl, rfl, rfl⟩

theorem Token.GoesWith.eq_respan {t u : Token} (h : t.GoesWith (.ofMerges hf) u) :
    u = respan f t := by
  obtain ⟨kind, lexeme, span⟩ := u
  obtain ⟨rfl, rfl, rfl⟩ := h
  rfl

theorem Cursor.goesWith_respan (c : Cursor) : c.GoesWith (.ofMerges hf) (respan f c) where
  rest := List.forall₂_map_right_iff.2 (List.forall₂_same.2 fun t _ => t.goesWith_respan)
  stop := c.stop.goesWith_respan
  previous := rfl

theorem eq_respan_of_goesWith {ts us : List Token}
    (h : List.Forall₂ (Token.GoesWith (.ofMerges hf)) ts us) : us = respan f ts := by
  induction h with
  | nil => rfl
  | cons hHead _ ih => rw [respan_cons, ← hHead.eq_respan, ← ih]

theorem Cursor.GoesWith.eq_respan {c d : Cursor} (h : c.GoesWith (.ofMerges hf) d) :
    d = respan f c := by
  obtain ⟨previous, us, stop⟩ := d
  have hPrevious : previous = f c.previous := h.previous
  have hRest : us = respan f c.rest := eq_respan_of_goesWith h.rest
  have hStop : stop = respan f c.stop := h.stop.eq_respan
  rw [hPrevious, hRest, hStop]
  rfl

namespace Parser

variable {α : Type} [Spanned α] {n : Nat} {Start : Cursor → Prop} {p q : Parser α}

/-- From places that satisfy `Start`, with less than `n` tokens to come, `q` gives the result of
`p`, the spans apart, and no token is given back. -/
def InStepFrom (f : Span → Span) (n : Nat) (Start : Cursor → Prop) (p q : Parser α) : Prop :=
  ∀ c, c.stop.kind = .endOfSource → c.rest.length < n → Start c →
    q (respan f c) = respan f (p c) ∧
      ∀ a c', p c = .ok (a, c') → c'.stop = c.stop ∧ c'.rest.length ≤ c.rest.length

/-- As `InStepFrom`, from any place. -/
abbrev InStep (f : Span → Span) (n : Nat) (p q : Parser α) : Prop :=
  InStepFrom f n (fun _ => True) p q

/-- Readers that go abreast over tokens and the same tokens with other spans go in step. -/
theorem AbreastFrom.inStep (h : AbreastFrom (.ofMerges hf) n Start p q (EqUpTo (.ofMerges hf))) :
    InStepFrom f n Start p q := by
  intro c hStop hn hs
  have hBoth := h c (respan f c) c.goesWith_respan hStop hn hs
  generalize p c = r, q (respan f c) = r' at hBoth
  cases hBoth with
  | @ok result result' hResult =>
      obtain ⟨a, c'⟩ := result
      obtain ⟨b, d'⟩ := result'
      obtain ⟨hValue, hArrives⟩ := hResult
      have hSame : respan f a = b := hValue.trans (Spanned.respan_id b)
      have hPlace : d' = respan f c' := hArrives.place.eq_respan
      constructor
      · rw [← hSame, hPlace]
        rfl
      · rintro _ _ ⟨⟩
        exact ⟨hArrives.stop_eq, hArrives.length_le⟩
  | @error e e' hFault hSpan =>
      constructor
      · obtain ⟨fault, span⟩ := e'
        obtain rfl : e.fault = fault := hFault
        obtain rfl : span = f e.span := hSpan
        rfl
      · rintro _ _ ⟨⟩

end Parser

end GoTemplate
