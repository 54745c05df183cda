import GoTemplate.Proofs.Syntax.Reading
import GoTemplate.Proofs.Syntax.Respan
import Mathlib.Data.List.Forall2

/-!
Readers of syntax that go abreast: two runs over tokens of the same kinds and lexemes, which differ in
where these stand. Both give the same or fail in the same way, at corresponding tokens. Spans are
recorded and decide nothing, so that the grammar goes abreast with itself.
-/

namespace GoTemplate

/-! ## Corresponding spans -/

/-- How the spans of one run go with those of another. The spans that are recorded need not
correspond: they are compared after `left` and `right` have been applied to them. -/
structure SpanRelation where
  /-- The spans of corresponding tokens. -/
  token : Span → Span → Prop
  /-- The spans of what was taken last, which at the start is no token. -/
  previous : Span → Span → Prop
  left : Span → Span
  right : Span → Span
  previous_of_token : ∀ {s t}, token s t → previous s t
  left_eq : ∀ {s t}, token s t → left s = right t
  left_merge_eq : ∀ {s t s' t'}, token s t → previous s' t' → left (s.merge s') = right (t.merge t')

/-- Changes of spans that go well with putting spans together. -/
def Parser.Merges (f : Span → Span) : Prop := ∀ s t, f (s.merge t) = (f s).merge (f t)

/-- The second run is the first with other spans. -/
def SpanRelation.ofMerges {f : Span → Span} (hf : Parser.Merges f) : SpanRelation where
  token s t := t = f s
  previous s t := t = f s
  left := f
  right := id
  previous_of_token h := h
  left_eq h := h.symm
  left_merge_eq {s t s' t'} h h' := by rw [h, h', hf]; rfl

variable {V : SpanRelation}

/-- Values that are the same but for spans. -/
abbrev EqUpTo (V : SpanRelation) {α : Type} [Spanned α] (a b : α) : Prop :=
  respan V.left a = respan V.right b

/-- Tokens that are the same but for their places, which correspond. -/
structure Token.GoesWith (V : SpanRelation) (t u : Token) : Prop where
  kind_eq : t.kind = u.kind
  lexeme_eq : t.lexeme = u.lexeme
  span : V.token t.span u.span

/-- The same name at corresponding places. -/
structure Identifier.GoesWith (V : SpanRelation) (i j : Identifier) : Prop where
  name_eq : i.name = j.name
  span : V.token i.span j.span

/-- Places before corresponding tokens. -/
structure Cursor.GoesWith (V : SpanRelation) (c d : Cursor) : Prop where
  rest : List.Forall₂ (Token.GoesWith V) c.rest d.rest
  stop : c.stop.GoesWith V d.stop
  previous : V.previous c.previous d.previous

theorem Identifier.GoesWith.eqUpTo {i j : Identifier} (h : i.GoesWith V j) : EqUpTo V i j :=
  congrArg₂ Identifier.mk h.name_eq (V.left_eq h.span)

theorem eqUpTo_nil {α : Type} [Spanned α] : EqUpTo V ([] : List α) [] := rfl

theorem eqUpTo_none {α : Type} [Spanned α] : EqUpTo V (none : Option α) none := rfl

theorem eqUpTo_list {α : Type} [Spanned α] {as bs : List α} (h : List.Forall₂ (EqUpTo V) as bs) :
    EqUpTo V as bs := by
  induction h with
  | nil => rfl
  | cons hHead _ ih => exact congrArg₂ List.cons hHead ih

theorem Token.GoesWith.text_eq {t u : Token} (h : t.GoesWith V u) : t.text = u.text := by
  rw [Token.text, Token.text, Token.isAutomatic, Token.isAutomatic, h.kind_eq, h.lexeme_eq]

/-- Results that are related, or the same fault at corresponding tokens. -/
inductive Agree (V : SpanRelation) {α β : Type} (R : α → β → Prop) :
    Except SyntaxError α → Except SyntaxError β → Prop where
  | ok {a : α} {b : β} (h : R a b) : Agree V R (.ok a) (.ok b)
  | error {e e' : SyntaxError} (hFault : e.fault = e'.fault) (hSpan : V.token e.span e'.span) :
    Agree V R (.error e) (.error e')

namespace Agree

variable {α β γ δ : Type} {R : α → β → Prop} {S : γ → δ → Prop} {r : Except SyntaxError α}
  {r' : Except SyntaxError β}

theorem mono {R' : α → β → Prop} (h : Agree V R r r') (hR : ∀ a b, R a b → R' a b) :
    Agree V R' r r' := by
  cases h with
  | ok hab => exact .ok (hR _ _ hab)
  | error hFault hSpan => exact .error hFault hSpan

theorem map {f : α → γ} {g : β → δ} (h : Agree V R r r') (hS : ∀ a b, R a b → S (f a) (g b)) :
    Agree V S (r.map f) (r'.map g) := by
  cases h with
  | ok hab => exact .ok (hS _ _ hab)
  | error hFault hSpan => exact .error hFault hSpan

end Agree

/-! ## Look-ahead and brackets -/

section

variable {ts us : List Token} (h : List.Forall₂ (Token.GoesWith V) ts us)

include h

namespace Brackets

theorem kindAfter_eq (depth : Nat) : kindAfter depth ts = kindAfter depth us := by
  induction h generalizing depth with
  | nil => rfl
  | @cons t u ts us hHead hTail ih =>
      have hNext : (ts.head?.map Token.kind).getD .endOfSource =
          (us.head?.map Token.kind).getD .endOfSource := by
        cases hTail with
        | nil => rfl
        | cons hNext _ => exact hNext.kind_eq
      rw [kindAfter, kindAfter, hHead.kind_eq, ih, ih, ih, hNext]

theorem hasComma_eq (depth : Nat) : hasComma depth ts = hasComma depth us := by
  induction h generalizing depth with
  | nil => rfl
  | cons hHead _ ih => rw [hasComma, hasComma, hHead.kind_eq, ih, ih, ih]

/-- Brackets of the same shape, opened at corresponding tokens. -/
structure Opened.GoesWith (V : SpanRelation) (o o' : Opened) : Prop where
  bracket_eq : o.bracket = o'.bracket
  span : V.token o.span o'.span

theorem agree_close {stack stack' : List Opened} {last last' : Span}
    (hStack : List.Forall₂ (Opened.GoesWith V) stack stack') (hLast : V.previous last last') :
    Agree V (fun r r' => V.previous r.1 r'.1 ∧ List.Forall₂ (Token.GoesWith V) r.2 r'.2)
      (close stack last ts) (close stack' last' us) := by
  induction h generalizing stack stack' last last' with
  | nil =>
      cases hStack with
      | nil => exact .ok ⟨hLast, .nil⟩
      | cons hInner _ => exact .error (congrArg SyntaxFault.unclosedBracket hInner.bracket_eq) hInner.span
  | @cons t u ts us hHead hTail ih =>
      cases hStack with
      | nil => exact .ok ⟨hLast, .cons hHead hTail⟩
      | @cons inner inner' outer outer' hInner hOuter =>
          have hNext := V.previous_of_token hHead.span
          rw [close, close, ← hHead.kind_eq, ← hInner.bracket_eq]
          split
          · exact ih (.cons ⟨rfl, hHead.span⟩ (.cons hInner hOuter)) hNext
          · split
            · exact ih hOuter hNext
            · exact .error rfl hHead.span
          · exact ih (.cons hInner hOuter) hNext

theorem agree_splitExpression (stops : TokenKind → Bool) (stack : List Bracket) :
    Agree V (fun r r' => List.Forall₂ (Token.GoesWith V) r.1 r'.1 ∧
        List.Forall₂ (Token.GoesWith V) r.2 r'.2)
      (splitExpression stops stack ts) (splitExpression stops stack us) := by
  induction h generalizing stack with
  | nil =>
      cases stack with
      | nil => exact .ok ⟨.nil, .nil⟩
      | cons => exact .ok ⟨.nil, .nil⟩
  | @cons t u ts us hHead hTail ih =>
      rcases splitExpression_step stops stack t.kind with
        ⟨-, hStop⟩ | ⟨next, -, hTake⟩ | ⟨inner, b, hReject⟩
      · rw [hStop t ts rfl, hStop u us hHead.kind_eq.symm]
        exact .ok ⟨.nil, .cons hHead hTail⟩
      · rw [(hTake t rfl).2, (hTake u hHead.kind_eq.symm).2]
        exact (ih next).map fun _ _ hSplit => ⟨.cons hHead hSplit.1, hSplit.2⟩
      · rw [hReject t ts rfl, hReject u us hHead.kind_eq.symm]
        exact .error rfl hHead.span

end Brackets

end

namespace Cursor.GoesWith

variable {c d : Cursor}

theorem length_eq (h : c.GoesWith V d) : c.rest.length = d.rest.length := h.rest.length_eq

theorem drop (h : c.GoesWith V d) (i : Nat) :
    List.Forall₂ (Token.GoesWith V) (c.rest.drop i) (d.rest.drop i) := List.forall₂_drop i h.rest

theorem kindAt_eq (h : c.GoesWith V d) (i : Nat) : c.kindAt i = d.kindAt i := by
  have hDrop := h.drop i
  rw [kindAt, kindAt, ← List.head?_drop, ← List.head?_drop]
  generalize c.rest.drop i = ts at hDrop ⊢
  generalize d.rest.drop i = us at hDrop ⊢
  cases hDrop with
  | nil => exact h.stop.kind_eq
  | cons hHead _ => exact hHead.kind_eq

theorem current (h : c.GoesWith V d) : c.current.GoesWith V d.current := by
  obtain ⟨previous, ts, stop⟩ := c
  obtain ⟨previous', us, stop'⟩ := d
  obtain ⟨hRest, hStop, -⟩ := h
  cases hRest with
  | nil => exact hStop
  | cons hHead _ => exact hHead

theorem kind_eq (h : c.GoesWith V d) : c.kind = d.kind := h.current.kind_eq

theorem advance (h : c.GoesWith V d) : c.advance.GoesWith V d.advance := by
  obtain ⟨previous, ts, stop⟩ := c
  obtain ⟨previous', us, stop'⟩ := d
  obtain ⟨hRest, hStop, hPrevious⟩ := h
  cases hRest with
  | nil => exact ⟨.nil, hStop, hPrevious⟩
  | cons hHead hTail => exact ⟨hTail, hStop, V.previous_of_token hHead.span⟩

end Cursor.GoesWith

namespace Parser

open Cursor

/-! ## Readers side by side -/

/-- Where a reader has come to from `c`, and where the other one has come to. -/
structure Arrives (V : SpanRelation) (c c' d' : Cursor) : Prop where
  place : c'.GoesWith V d'
  stop_eq : c'.stop = c.stop
  length_le : c'.rest.length ≤ c.rest.length

/-- From corresponding places, of which the first satisfies `Start`, with less than `n` tokens to
come, the readers agree: they read what `R` relates, up to corresponding places, or fail alike. -/
def AbreastFrom (V : SpanRelation) (n : Nat) (Start : Cursor → Prop) {α β : Type} (p : Parser α)
    (q : Parser β) (R : α → β → Prop) : Prop :=
  ∀ c d, c.GoesWith V d → c.stop.kind = .endOfSource → c.rest.length < n → Start c →
    Agree V (fun r r' => R r.1 r'.1 ∧ Arrives V c r.2 r'.2) (p c) (q d)

/-- As `AbreastFrom`, from any place. -/
abbrev Abreast (V : SpanRelation) (n : Nat) {α β : Type} (p : Parser α) (q : Parser β)
    (R : α → β → Prop) : Prop :=
  AbreastFrom V n (fun _ => True) p q R

/-- The reader takes a token at least wherever it succeeds. -/
def TakesToken {α : Type} (Start : Cursor → Prop) (p : Parser α) : Prop :=
  ∀ c a c', c.stop.kind = .endOfSource → Start c → p c = .ok (a, c') →
    c'.rest.length < c.rest.length

theorem Arrives.refl {c d : Cursor} (h : c.GoesWith V d) : Arrives V c c d :=
  ⟨h, rfl, Nat.le_refl _⟩

theorem Arrives.trans {c c' d' c'' d'' : Cursor} (h : Arrives V c c' d')
    (h' : Arrives V c' c'' d'') : Arrives V c c'' d'' :=
  ⟨h'.place, h'.stop_eq.trans h.stop_eq, Nat.le_trans h'.length_le h.length_le⟩

theorem Arrives.advance {c d : Cursor} (h : c.GoesWith V d) : Arrives V c c.advance d.advance := by
  refine ⟨h.advance, ?_, ?_⟩
  · obtain ⟨previous, _ | ⟨t, rest⟩, stop⟩ := c <;> rfl
  · obtain ⟨previous, _ | ⟨t, rest⟩, stop⟩ := c
    · exact Nat.le_refl _
    · exact Nat.le_succ _

section

variable {α β γ δ : Type} {n : Nat} {Start : Cursor → Prop} {p : Parser α} {q : Parser β}
  {R : α → β → Prop} {S : γ → δ → Prop} {F : α → Parser γ} {G : β → Parser δ}

theorem bind_ok {c c' : Cursor} {a : α} (h : p c = .ok (a, c')) : (p >>= F) c = F a c' := by
  change (p c >>= fun result => F result.1 result.2) = _
  rw [h]
  rfl

theorem bind_error {c : Cursor} {e : SyntaxError} (h : p c = .error e) :
    (p >>= F) c = .error e := by
  change (p c >>= fun result => F result.1 result.2) = _
  rw [h]
  rfl

/-- Two readers in a row, of which the first says how many tokens are left to the second. -/
private theorem AbreastFrom.bind_of_length {m : Nat} (hp : AbreastFrom V m Start p q R)
    (hLength : ∀ c a c', c.stop.kind = .endOfSource → Start c → p c = .ok (a, c') →
      c'.rest.length ≤ c.rest.length → c.rest.length < m → c'.rest.length < n)
    (hF : ∀ a b, R a b → Abreast V n (F a) (G b) S) :
    AbreastFrom V m Start (p >>= F) (q >>= G) S := by
  intro c d hPlace hStop hm hs
  have hFirst := hp c d hPlace hStop hm hs
  generalize hRun : p c = r, hRun' : q d = r' at hFirst
  cases hFirst with
  | @ok result result' hResult =>
      obtain ⟨hValue, hArrives⟩ := hResult
      have hn := hLength c _ _ hStop hs hRun hArrives.length_le hm
      have hSecond := hF _ _ hValue _ _ hArrives.place (hArrives.stop_eq ▸ hStop) hn trivial
      rw [bind_ok hRun, bind_ok hRun']
      exact hSecond.mono fun _ _ h => ⟨h.1, hArrives.trans h.2⟩
  | error hFault hSpan =>
      rw [bind_error hRun, bind_error hRun']
      exact .error hFault hSpan

theorem AbreastFrom.bind (hp : AbreastFrom V n Start p q R)
    (hF : ∀ a b, R a b → Abreast V n (F a) (G b) S) :
    AbreastFrom V n Start (p >>= F) (q >>= G) S :=
  hp.bind_of_length (fun _ _ _ _ _ _ => Nat.lt_of_le_of_lt) hF

/-- After a token has been taken, there is one less to come. -/
theorem AbreastFrom.bind_takes (hp : AbreastFrom V (n + 1) Start p q R) (hTakes : TakesToken Start p)
    (hF : ∀ a b, R a b → Abreast V n (F a) (G b) S) :
    AbreastFrom V (n + 1) Start (p >>= F) (q >>= G) S := by
  apply hp.bind_of_length _ hF
  intro c a c' hStop hs hRun _ hn
  have hLess := hTakes c a c' hStop hs hRun
  omega

theorem AbreastFrom.mono {m : Nat} {Start' : Cursor → Prop} (h : AbreastFrom V n Start p q R)
    (hm : m ≤ n) (hStart : ∀ c, Start' c → Start c) : AbreastFrom V m Start' p q R :=
  fun c d hPlace hStop hn hs => h c d hPlace hStop (Nat.lt_of_lt_of_le hn hm) (hStart c hs)

theorem Abreast.from (h : Abreast V n p q R) : AbreastFrom V n Start p q R :=
  AbreastFrom.mono h (Nat.le_refl n) fun _ _ => trivial

theorem AbreastFrom.value {R' : α → β → Prop} (h : AbreastFrom V n Start p q R)
    (hR : ∀ a b, R a b → R' a b) : AbreastFrom V n Start p q R' :=
  fun c d hPlace hStop hn hs =>
    (h c d hPlace hStop hn hs).mono fun _ _ hResult => ⟨hR _ _ hResult.1, hResult.2⟩

theorem abreast_pure {a : α} {b : β} (h : R a b) : Abreast V n (pure a) (pure b) R :=
  fun _ _ hPlace _ _ _ => .ok ⟨h, .refl hPlace⟩

theorem AbreastFrom.map {f : α → γ} {g : β → δ} (h : AbreastFrom V n Start p q R)
    (hS : ∀ a b, R a b → S (f a) (g b)) : AbreastFrom V n Start (f <$> p) (g <$> q) S := by
  change AbreastFrom V n Start (p >>= fun a => pure (f a)) (q >>= fun b => pure (g b)) S
  exact h.bind fun a b hab => abreast_pure (hS a b hab)

/-- Readers that go by a look-ahead. -/
theorem abreast_look {ε : Type} {g : Cursor → ε} {F : ε → Parser α} {G : ε → Parser β}
    (hg : ∀ c d, c.GoesWith V d → g c = g d)
    (hF : ∀ e, AbreastFrom V n (fun c => Start c ∧ g c = e) (F e) (G e) R) :
    AbreastFrom V n Start (look g >>= F) (look g >>= G) R := by
  intro c d hPlace hStop hn hs
  have hLook := hF (g c) c d hPlace hStop hn ⟨hs, rfl⟩
  change Agree V _ (F (g c) c) (G (g d) d)
  rw [← hg c d hPlace]
  exact hLook

theorem abreast_kind_bind {F : TokenKind → Parser α} {G : TokenKind → Parser β}
    (hF : ∀ k, AbreastFrom V n (fun c => Start c ∧ c.kind = k) (F k) (G k) R) :
    AbreastFrom V n Start (kind >>= F) (kind >>= G) R :=
  abreast_look (fun _ _ hPlace => hPlace.kind_eq) hF

theorem abreast_here : Abreast V n here here V.token :=
  fun _ _ hPlace _ _ _ => .ok ⟨hPlace.current.span, .refl hPlace⟩

theorem abreast_spanFrom {start start' : Span} (h : V.token start start') :
    Abreast V n (spanFrom start) (spanFrom start') (EqUpTo V) :=
  fun _ _ hPlace _ _ _ => .ok ⟨V.left_merge_eq h hPlace.previous, .refl hPlace⟩

theorem abreast_reject (fault : TokenKind → SyntaxFault) :
    AbreastFrom V n Start (reject fault : Parser α) (reject fault : Parser β) R := by
  intro c d hPlace _ _ _
  exact .error (congrArg fault hPlace.kind_eq) hPlace.current.span

/-- A check that takes nothing. -/
theorem abreast_lift {r : Except SyntaxError α} {r' : Except SyntaxError β} (h : Agree V R r r') :
    Abreast V n (liftM r : Parser α) (liftM r' : Parser β) R := by
  intro c d hPlace _ _ _
  cases h with
  | ok hab => exact .ok ⟨hab, .refl hPlace⟩
  | error hFault hSpan => exact .error hFault hSpan

theorem abreast_throw {fault : SyntaxFault} {span span' : Span} (h : V.token span span') :
    Abreast V n (throw ⟨fault, span⟩ : Parser α) (throw ⟨fault, span'⟩ : Parser β) R :=
  fun _ _ _ _ _ _ => .error rfl h

end

/-! ## Readers of one token -/

section

variable {α β : Type} {n : Nat} {Start : Cursor → Prop} {k : TokenKind} {p : Parser α}
  {q : Parser β} {R : α → β → Prop}

theorem abreast_take : Abreast V n take take (Token.GoesWith V) :=
  fun _ _ hPlace _ _ _ => .ok ⟨hPlace.current, .advance hPlace⟩

theorem takesToken_take (hk : k ≠ .endOfSource) :
    TakesToken (fun c => Start c ∧ c.kind = k) take := by
  rintro ⟨previous, _ | ⟨t, rest⟩, stop⟩ _ _ hStop ⟨-, hKind⟩ ⟨⟩
  · exact absurd (hKind.symm.trans hStop) hk
  · exact Nat.lt_succ_self _

theorem takesToken_kind_bind {F : TokenKind → Parser α}
    (hF : ∀ k, TakesToken (fun c => Start c ∧ c.kind = k) (F k)) :
    TakesToken Start (kind >>= F) :=
  fun c a c' hStop hs hRun => hF c.kind c a c' hStop ⟨hs, rfl⟩ hRun

theorem takesToken_reject (fault : TokenKind → SyntaxFault) :
    TakesToken Start (reject fault : Parser α) := by
  rintro _ _ _ _ _ ⟨⟩

theorem abreast_expect : Abreast V n (expect k) (expect k) (Token.GoesWith V) := by
  apply abreast_kind_bind
  intro found
  split
  · exact abreast_take.from
  · exact abreast_reject _

theorem takesToken_expect (hk : k ≠ .endOfSource) : TakesToken Start (expect k) := by
  refine takesToken_kind_bind fun found => ?_
  split
  · exact takesToken_take (by rwa [‹found = k›])
  · exact takesToken_reject _

theorem abreast_eat : Abreast V n (eat k) (eat k) Eq := by
  apply abreast_kind_bind
  intro found
  split
  · exact abreast_take.from.bind fun _ _ _ => abreast_pure rfl
  · exact (abreast_pure rfl).from

theorem abreast_ifNext {otherwise : α} {otherwise' : β} (hp : Abreast V n p q R)
    (h : R otherwise otherwise') :
    Abreast V n (ifNext k p otherwise) (ifNext k q otherwise') R := by
  apply abreast_kind_bind
  intro found
  split
  · exact hp.from
  · exact (abreast_pure h).from

theorem abreast_identifier : Abreast V n identifier identifier (Identifier.GoesWith V) := by
  apply abreast_kind_bind
  intro found
  split
  · exact abreast_take.from.bind fun _ _ h => abreast_pure ⟨h.lexeme_eq, h.span⟩
  · exact abreast_reject _

theorem takesToken_identifier : TakesToken Start identifier := by
  refine takesToken_kind_bind fun found => ?_
  split
  · intro c a c' hStop hs hRun
    obtain ⟨t, d, hTake, hPure⟩ := bind_eq_ok.1 hRun
    cases hPure
    exact takesToken_take (k := found) (by rw [‹found = _›]; decide) c t _ hStop hs hTake
  · exact takesToken_reject _

theorem abreast_statementEnd : Abreast V n statementEnd statementEnd Eq := by
  apply abreast_kind_bind
  intro found
  split
  · exact abreast_take.from.bind fun _ _ _ => abreast_pure rfl
  · exact (abreast_pure rfl).from
  · exact (abreast_pure rfl).from
  · exact (abreast_pure rfl).from
  · exact abreast_reject _

end

/-! ## Loops -/

section

variable {α β : Type} {n : Nat} {item : Parser α} {item' : Parser β} {R : α → β → Prop}

theorem abreast_manyWhile (more : TokenKind → Bool) (hItem : Abreast V n item item' R) :
    Abreast V n (manyWhile more item) (manyWhile more item') (List.Forall₂ R) := by
  intro c d hPlace hStop hn _
  induction hLength : c.rest.length using Nat.strongRecOn generalizing c d with
  | ind m ih =>
      rw [manyWhile, manyWhile, ← hPlace.kind_eq]
      by_cases hMore : more c.kind = true
      · have hFirst := hItem c d hPlace hStop hn trivial
        rw [if_pos hMore, if_pos hMore]
        generalize item c = r, item' d = r' at hFirst
        cases hFirst with
        | error hFault hSpan => exact .error hFault hSpan
        | @ok result result' hResult =>
            obtain ⟨a, next⟩ := result
            obtain ⟨b, next'⟩ := result'
            obtain ⟨hValue, hArrives⟩ := hResult
            dsimp only
            rw [← hArrives.place.length_eq, ← hPlace.length_eq]
            by_cases hLess : next.rest.length < c.rest.length
            · have hOthers := ih _ (hLength ▸ hLess) next next' hArrives.place
                (hArrives.stop_eq ▸ hStop) (Nat.lt_trans hLess hn) rfl
              rw [dif_pos hLess, dif_pos hLess]
              exact hOthers.map fun _ _ h => ⟨.cons hValue h.1, hArrives.trans h.2⟩
            · rw [dif_neg hLess, dif_neg hLess]
              exact .ok ⟨.cons hValue .nil, hArrives⟩
      · rw [if_neg hMore, if_neg hMore]
        exact .ok ⟨.nil, .refl hPlace⟩

theorem abreast_sepBy (separator : TokenKind) (hItem : Abreast V n item item' R) :
    Abreast V n (sepBy separator item) (sepBy separator item') (List.Forall₂ R) :=
  hItem.bind fun _ _ hFirst =>
    (abreast_manyWhile _ (abreast_take.bind fun _ _ _ => hItem)).bind fun _ _ hOthers =>
      abreast_pure (.cons hFirst hOthers)

theorem abreast_commaList (close : TokenKind) (hItem : Abreast V n item item' R) :
    Abreast V n (commaList close item) (commaList close item') (List.Forall₂ R) := by
  intro c d hPlace hStop hn _
  induction hLength : c.rest.length using Nat.strongRecOn generalizing c d with
  | ind m ih =>
      have hFirst := hItem c d hPlace hStop hn trivial
      rw [commaList, commaList]
      generalize item c = r, item' d = r' at hFirst
      cases hFirst with
      | error hFault hSpan => exact .error hFault hSpan
      | @ok result result' hResult =>
          obtain ⟨a, next⟩ := result
          obtain ⟨b, next'⟩ := result'
          obtain ⟨hValue, hArrives⟩ := hResult
          have hPast := hArrives.trans (.advance hArrives.place)
          dsimp only at hPast ⊢
          rw [← hArrives.place.kind_eq, ← hPast.place.kind_eq, ← hPast.place.length_eq,
            ← hPlace.length_eq]
          by_cases hComma : next.kind = .comma
          · rw [if_pos hComma, if_pos hComma]
            by_cases hClose : next.advance.kind = close
            · rw [if_pos hClose, if_pos hClose]
              exact .ok ⟨.cons hValue .nil, hPast⟩
            · rw [if_neg hClose, if_neg hClose]
              by_cases hLess : next.advance.rest.length < c.rest.length
              · have hOthers := ih _ (hLength ▸ hLess) next.advance next'.advance hPast.place
                  (hPast.stop_eq ▸ hStop) (Nat.lt_trans hLess hn) rfl
                rw [dif_pos hLess, dif_pos hLess]
                exact hOthers.map fun _ _ h => ⟨.cons hValue h.1, hPast.trans h.2⟩
              · rw [dif_neg hLess, dif_neg hLess]
                exact .ok ⟨.cons hValue .nil, hPast⟩
          · rw [if_neg hComma, if_neg hComma]
            exact .ok ⟨.cons hValue .nil, hArrives⟩

theorem abreast_commaList? (close : TokenKind) (hItem : Abreast V n item item' R) :
    Abreast V n (commaList? close item) (commaList? close item') (List.Forall₂ R) := by
  apply abreast_kind_bind
  intro found
  split
  · exact (abreast_pure .nil).from
  · exact (abreast_commaList close hItem).from

theorem abreast_statements (close : TokenKind) (hItem : Abreast V n item item' R) :
    Abreast V n (statements close item) (statements close item') (List.Forall₂ R) :=
  abreast_manyWhile _ (hItem.bind fun _ _ h => abreast_statementEnd.bind fun _ _ _ => abreast_pure h)

end

/-! ## Bodies and expressions -/

section

variable {n : Nat}

theorem abreast_group (b : Bracket) : Abreast V n (group b) (group b) Eq := by
  apply abreast_expect.bind
  intro opened opened' hOpened c d hPlace _ _ _
  have hOpen : Brackets.Opened.GoesWith V ⟨b, opened.span⟩ ⟨b, opened'.span⟩ := ⟨rfl, hOpened.span⟩
  have hClose := Brackets.agree_close hPlace.rest (.cons hOpen .nil)
    (V.previous_of_token hOpened.span)
  change Agree V _ (groupEnd b opened.span c) (groupEnd b opened'.span d)
  rw [groupEnd, groupEnd]
  generalize hRun : Brackets.close _ _ c.rest = r, Brackets.close _ _ d.rest = r' at hClose
  cases hClose with
  | error hFault hSpan => exact .error hFault hSpan
  | ok hClosed =>
      obtain ⟨word, hRest, -⟩ := Brackets.close_eq_ok hRun
      refine .ok ⟨rfl, ⟨hClosed.2, hPlace.stop, hClosed.1⟩, rfl, ?_⟩
      simp [hRest]

private theorem map_text_eq {ts us : List Token} (h : List.Forall₂ (Token.GoesWith V) ts us) :
    ts.map Token.text = us.map Token.text := by
  induction h with
  | nil => rfl
  | cons hHead _ ih => rw [List.map_cons, List.map_cons, hHead.text_eq, ih]

theorem abreast_expression (stops : TokenKind → Bool) :
    Abreast V n (expression stops) (expression stops) Eq := by
  intro c d hPlace hStop hn _
  have hSplit := Brackets.agree_splitExpression hPlace.rest stops []
  rw [expression, expression]
  generalize hRun : Brackets.splitExpression stops [] c.rest = r,
    Brackets.splitExpression stops [] d.rest = r' at hSplit
  cases hSplit with
  | error hFault hSpan => exact .error hFault hSpan
  | @ok split split' hBoth =>
      obtain ⟨taken, rest⟩ := split
      obtain ⟨taken', rest'⟩ := split'
      obtain ⟨hTaken, hRest⟩ := hBoth
      have hLast := List.forall₂_reverse_iff.2 hTaken
      dsimp only
      rw [List.getLast?_eq_head?_reverse, List.getLast?_eq_head?_reverse, map_text_eq hTaken]
      generalize taken.reverse = last, taken'.reverse = last' at hLast
      cases hLast with
      | nil => exact (abreast_reject _ : Abreast V n _ _ Eq) c d hPlace hStop hn trivial
      | cons hHead _ =>
          obtain ⟨hTokens, -⟩ := Brackets.splitExpression_eq_ok hRun
          refine .ok ⟨rfl, ⟨hRest, hPlace.stop, V.previous_of_token hHead.span⟩, rfl, ?_⟩
          simp [hTokens]

end

end Parser

end GoTemplate
