import GoTemplate.Proofs.Syntax.Reading

/-!
What a reader of syntax gives, said by what holds of the place where it starts, and of its result and the
place where it ends. What goes from each place to the next one holds wherever a reader ends.
-/

namespace GoTemplate

open Brackets

namespace Parser

variable {α β : Type}

/-- Where the reader starts at a place with `Pre` and succeeds, `Post` holds of its result and of the
place where it ends. -/
def Ensures (Pre : Cursor → Prop) (p : Parser α) (Post : α → Cursor → Prop) : Prop :=
  ∀ c a c', Pre c → p c = .ok (a, c') → Post a c'

section

variable {Pre : Cursor → Prop} {p : Parser α} {f : α → Parser β} {Mid : α → Cursor → Prop}
  {Post : β → Cursor → Prop}

/-! ## Rules -/

theorem Ensures.bind (hp : Ensures Pre p Mid) (hf : ∀ a, Ensures (Mid a) (f a) Post) :
    Ensures Pre (p >>= f) Post := by
  intro c b c'' hPre hRun
  obtain ⟨a, c', hFirst, hSecond⟩ := bind_eq_ok.1 hRun
  exact hf a c' b c'' (hp c a c' hPre hFirst) hSecond

theorem Ensures.mono {Pre' : Cursor → Prop} {Post' : α → Cursor → Prop} (hp : Ensures Pre p Mid)
    (hPre : ∀ c, Pre' c → Pre c) (hPost : ∀ a c, Mid a c → Post' a c) : Ensures Pre' p Post' :=
  fun c a c' hStart hRun => hPost a c' (hp c a c' (hPre c hStart) hRun)

theorem Ensures.pre {Pre' : Cursor → Prop} (hp : Ensures Pre p Mid) (hPre : ∀ c, Pre' c → Pre c) :
    Ensures Pre' p Mid :=
  hp.mono hPre fun _ _ h => h

theorem Ensures.of_pre {P : Prop} (hPre : ∀ c, Pre c → P) (h : P → Ensures Pre p Mid) :
    Ensures Pre p Mid :=
  fun c a c' hStart hRun => h (hPre c hStart) c a c' hStart hRun

/-- What is known before holds behind. -/
theorem Ensures.keep {K : Prop} (hp : Ensures Pre p Mid) :
    Ensures (fun c => Pre c ∧ K) p fun a c => Mid a c ∧ K :=
  fun c a c' hStart hRun => ⟨hp c a c' hStart.1 hRun, hStart.2⟩

theorem Ensures.known {K : Prop} (h : K → Ensures Pre p Mid) : Ensures (fun c => Pre c ∧ K) p Mid :=
  fun c a c' hStart => h hStart.2 c a c' hStart.1

theorem Ensures.and {Mid' : α → Cursor → Prop} (hp : Ensures Pre p Mid) (hp' : Ensures Pre p Mid') :
    Ensures Pre p fun a c => Mid a c ∧ Mid' a c :=
  fun c a c' hStart hRun => ⟨hp c a c' hStart hRun, hp' c a c' hStart hRun⟩

theorem ensures_pure {b : β} (h : ∀ c, Pre c → Post b c) : Ensures Pre (pure b) Post := by
  rintro c _ _ hPre ⟨⟩
  exact h c hPre

theorem Ensures.map {g : α → β} (hp : Ensures Pre p Mid) (h : ∀ a c, Mid a c → Post (g a) c) :
    Ensures Pre (g <$> p) Post :=
  hp.bind fun a => ensures_pure (h a)

theorem ensures_any : Ensures Pre p fun _ _ => True := fun _ _ _ _ _ => trivial

theorem ensures_look {γ : Type} {g : Cursor → γ} {f : γ → Parser β}
    (hf : ∀ b, Ensures (fun c => Pre c ∧ g c = b) (f b) Post) : Ensures Pre (look g >>= f) Post := by
  intro c b c' hPre hRun
  exact hf (g c) c b c' ⟨hPre, rfl⟩ hRun

theorem ensures_kind {f : TokenKind → Parser β}
    (hf : ∀ k, Ensures (fun c => Pre c ∧ c.kind = k) (f k) Post) : Ensures Pre (kind >>= f) Post :=
  ensures_look hf

theorem ensures_here : Ensures Pre here fun _ c => Pre c := by
  rintro c _ _ hPre ⟨⟩
  exact hPre

theorem ensures_spanFrom (start : Span) : Ensures Pre (spanFrom start) fun _ c => Pre c := by
  rintro c _ _ hPre ⟨⟩
  exact hPre

theorem ensures_reject {fault : TokenKind → SyntaxFault} : Ensures Pre (reject fault) Post := by
  rintro c _ _ - ⟨⟩

end

/-! ## What is kept -/

/-- What holds of a place also holds behind the next token. -/
def Advances (Here : Cursor → Prop) : Prop := ∀ c, Here c → Here c.advance

section

variable {Here : Cursor → Prop} (hHere : Advances Here) {k : TokenKind}

include hHere

theorem ensures_take : Ensures Here take fun _ c => Here c := by
  rintro c _ _ hc ⟨⟩
  exact hHere c hc

theorem ensures_expect : Ensures Here (expect k) fun _ c => Here c := by
  refine ensures_kind fun found => ?_
  split
  · exact (ensures_take hHere).pre fun c hc => hc.1
  · exact ensures_reject

theorem ensures_eat : Ensures Here (eat k) fun eaten c => Here c ∧ (eaten = false → c.kind ≠ k) := by
  refine ensures_kind fun found => ?_
  by_cases hFound : found = k
  · rw [if_pos hFound]
    refine ((ensures_take hHere).pre fun c hc => hc.1).bind fun t => ?_
    exact ensures_pure fun c hc => ⟨hc, by simp⟩
  · rw [if_neg hFound]
    exact ensures_pure fun c hc => ⟨hc.1, fun _ hKind => hFound (hc.2.symm.trans hKind)⟩

theorem ensures_identifier : Ensures Here identifier fun _ c => Here c := by
  refine ensures_kind fun found => ?_
  split
  · exact ((ensures_take hHere).pre fun c hc => hc.1).bind fun t => ensures_pure fun c hc => hc
  · exact ensures_reject

omit hHere in
theorem ensures_ifNext {p : Parser α} {otherwise : α} {Q : α → Prop}
    (hp : Ensures Here p fun a c => Here c ∧ Q a) (hOtherwise : Q otherwise) :
    Ensures Here (ifNext k p otherwise) fun a c => Here c ∧ Q a := by
  refine ensures_kind fun found => ?_
  split
  · exact hp.pre fun c hc => hc.1
  · exact ensures_pure fun c hc => ⟨hc.1, hOtherwise⟩

/-- What holds of a place also holds behind tokens in a row. -/
theorem Advances.behind {word rest : List Token} {last : Token} {c : Cursor} (hc : Here c)
    (hRest : c.rest = word ++ rest) (hLast : word.getLast? = some last) :
    Here { c with previous := last.span, rest } := by
  induction word generalizing c with
  | nil => cases hLast
  | cons t word ih =>
      have hNext : Here ⟨t.span, word ++ rest, c.stop⟩ := by
        have hAdvance := hHere c hc
        rwa [Cursor.advance, hRest] at hAdvance
      cases word with
      | nil =>
          obtain rfl : t = last := Option.some.inj hLast
          exact hNext
      | cons u word =>
          have hLater := ih hNext rfl hLast
          exact hLater

end

/-! ## Lists -/

section

variable {Here : Cursor → Prop} (hHere : Advances Here) {item : Parser α} {Q : α → Prop}

include hHere

omit hHere in
theorem ensures_manyWhile {more : TokenKind → Bool}
    (hItem : Ensures Here item fun a c => Here c ∧ Q a) :
    Ensures Here (manyWhile more item) fun as c => Here c ∧ ∀ a ∈ as, Q a := by
  intro c as last hc hRun
  fun_induction manyWhile more item c generalizing as last with
  | case1 => cases hRun
  | case2 c hMore a next hFirst hLess ih =>
      obtain ⟨hNext, ha⟩ := hItem c a next hc hFirst
      cases hTail : manyWhile more item next with
      | error e => rw [hTail] at hRun; cases hRun
      | ok result =>
          rw [hTail] at hRun
          cases hRun
          obtain ⟨hLast, hAs⟩ := ih _ _ hNext hTail
          exact ⟨hLast, List.forall_mem_cons.2 ⟨ha, hAs⟩⟩
  | case3 c hMore a next hFirst hLess =>
      cases hRun
      obtain ⟨hNext, ha⟩ := hItem c a next hc hFirst
      exact ⟨hNext, by simpa using ha⟩
  | case4 =>
      cases hRun
      exact ⟨hc, by simp⟩

theorem ensures_sepBy {separator : TokenKind}
    (hItem : Ensures Here item fun a c => Here c ∧ Q a) :
    Ensures Here (sepBy separator item) fun as c =>
      Here c ∧ as ≠ [] ∧ ∀ a ∈ as, Q a := by
  have hMore : Ensures Here (do let _ ← take; item) fun a c => Here c ∧ Q a :=
    (ensures_take hHere).bind fun _ => hItem
  refine hItem.bind fun first => (ensures_manyWhile hMore).keep.bind fun others => ?_
  exact ensures_pure fun c ⟨⟨hc, hOthers⟩, hFirst⟩ =>
    ⟨hc, List.cons_ne_nil first others, List.forall_mem_cons.2 ⟨hFirst, hOthers⟩⟩

theorem ensures_commaList {close : TokenKind}
    (hItem : Ensures Here item fun a c => Here c ∧ Q a) :
    Ensures Here (commaList close item) fun as c => Here c ∧ ∀ a ∈ as, Q a := by
  intro c as last hc hRun
  fun_induction commaList close item c generalizing as last with
  | case1 => cases hRun
  | case2 c a next hFirst hComma hClose =>
      cases hRun
      obtain ⟨hNext, ha⟩ := hItem c a next hc hFirst
      exact ⟨hHere _ hNext, by simpa using ha⟩
  | case3 c a next hFirst hComma hClose hLess ih =>
      obtain ⟨hNext, ha⟩ := hItem c a next hc hFirst
      cases hTail : commaList close item next.advance with
      | error e => rw [hTail] at hRun; cases hRun
      | ok result =>
          rw [hTail] at hRun
          cases hRun
          obtain ⟨hLast, hAs⟩ := ih _ _ (hHere _ hNext) hTail
          exact ⟨hLast, List.forall_mem_cons.2 ⟨ha, hAs⟩⟩
  | case4 c a next hFirst hComma hClose hLess =>
      cases hRun
      obtain ⟨hNext, ha⟩ := hItem c a next hc hFirst
      exact ⟨hHere _ hNext, by simpa using ha⟩
  | case5 c a next hFirst hComma =>
      cases hRun
      obtain ⟨hNext, ha⟩ := hItem c a _ hc hFirst
      exact ⟨hNext, by simpa using ha⟩

theorem ensures_commaList? {close : TokenKind}
    (hItem : Ensures Here item fun a c => Here c ∧ Q a) :
    Ensures Here (commaList? close item) fun as c => Here c ∧ ∀ a ∈ as, Q a := by
  refine ensures_kind fun found => ?_
  by_cases hFound : found = close
  · rw [if_pos hFound]
    exact ensures_pure fun c hc => ⟨hc.1, by simp⟩
  · rw [if_neg hFound]
    exact (ensures_commaList hHere hItem).pre fun c hc => hc.1

theorem ensures_statementEnd : Ensures Here statementEnd fun _ c => Here c := by
  refine ensures_kind fun found => ?_
  split
  · exact ((ensures_take hHere).pre fun c hc => hc.1).bind fun _ => ensures_pure fun c hc => hc
  · exact ensures_pure fun c hc => hc.1
  · exact ensures_pure fun c hc => hc.1
  · exact ensures_pure fun c hc => hc.1
  · exact ensures_reject

theorem ensures_statements {close : TokenKind}
    (hItem : Ensures Here item fun a c => Here c ∧ Q a) :
    Ensures Here (statements close item) fun as c => Here c ∧ ∀ a ∈ as, Q a := by
  refine ensures_manyWhile (hItem.bind fun a => ?_)
  exact (ensures_statementEnd hHere).keep.bind fun _ => ensures_pure fun c hc => hc

end

end Parser

end GoTemplate
