import GoTemplate.Proofs.Syntax.Brackets
import GoTemplate.Syntax.Parser

/-!
What readers of syntax take. A reader that succeeds takes a word from the tokens, and what it makes
of the word depends on the word and on the next token only. For each small reader there is a rule
that says which words it takes.
-/

namespace GoTemplate

open Brackets

/-- The end of the source is where the tokens end, and nowhere before. -/
structure Cursor.IsProper (c : Cursor) : Prop where
  stop_kind : c.stop.kind = .endOfSource
  rest_kind : ∀ t ∈ c.rest, t.kind ≠ .endOfSource

theorem Cursor.kind_advance (c : Cursor) : c.advance.kind = c.kindAt 1 := by
  obtain ⟨previous, _ | ⟨t, _ | ⟨u, rest⟩⟩, stop⟩ := c <;> rfl

/-- The kinds that stand in a statement by themselves: no bracket and no end of anything. -/
def TokenKind.isInner : TokenKind → Bool
  | .opening _ | .closing _ | .semicolon | .endOfSource => false
  | _ => true

/-- Words without a semicolon outside of brackets. -/
def Undivided (word : List Token) : Prop :=
  ∀ before t after, word = before ++ t :: after → Balanced before → t.kind ≠ .semicolon

/-- Balanced words that may stand in a statement: there is a token in them, and no semicolon outside
of brackets. -/
structure Phrase (word : List Token) : Prop where
  balanced : Balanced word
  ne_nil : word ≠ []
  undivided : Undivided word

/-- A phrase, or nothing. -/
def OptPhrase (word : List Token) : Prop := word = [] ∨ Phrase word

/-- What is left of a bracket of shape `b` after its opening, and perhaps more. -/
def Tail (b : Bracket) (word : List Token) : Prop :=
  ∃ inner closer rest, word = inner ++ closer :: rest ∧ Balanced inner ∧
    closer.kind = .closing b ∧ OptPhrase rest

theorem isPlain_of_isInner {t : Token} (h : t.kind.isInner) : IsPlain t := by
  constructor
  · intro b hKind
    simp [hKind, TokenKind.isInner] at h
  · intro b hKind
    simp [hKind, TokenKind.isInner] at h

theorem ne_semicolon_of_isInner {k : TokenKind} (h : k.isInner) : k ≠ .semicolon := by
  rintro rfl
  cases h

namespace Undivided

theorem nil : Undivided [] := by
  intro before t after h
  exact absurd h.symm (List.append_ne_nil_of_right_ne_nil before (List.cons_ne_nil t after))

theorem singleton {t : Token} (h : t.kind ≠ .semicolon) : Undivided [t] := by
  intro before u after hWord _
  cases before with
  | nil =>
      obtain ⟨rfl, -⟩ := List.cons_eq_cons.1 hWord
      exact h
  | cons v before =>
      have hNil := (List.cons_eq_cons.1 hWord).2
      exact absurd hNil.symm (List.append_ne_nil_of_right_ne_nil before (List.cons_ne_nil u after))

theorem append {u v : List Token} (hBalanced : Balanced u) (hu : Undivided u) (hv : Undivided v) :
    Undivided (u ++ v) := by
  intro before t after hWord hBefore
  rcases List.append_eq_append_iff.1 hWord with ⟨more, rfl, hTail⟩ | ⟨more, hFront, hTail⟩
  · exact hv more t after hTail (hBalanced.of_append_left hBefore)
  · cases more with
    | nil =>
        rw [List.append_nil] at hFront
        exact hv [] t after hTail.symm .nil
    | cons w more =>
        obtain ⟨rfl, -⟩ := List.cons_eq_cons.1 hTail
        exact hu before t more hFront hBefore

/-- A semicolon between brackets does not count. -/
theorem group {opener closer : Token} {b : Bracket} {inner rest : List Token}
    (hOpener : opener.kind = .opening b) (hInner : Balanced inner)
    (hCloser : closer.kind = .closing b) (hRest : Undivided rest) :
    Undivided (opener :: (inner ++ closer :: rest)) := by
  intro before t after hWord hBefore
  cases before with
  | nil =>
      obtain ⟨rfl, -⟩ := List.cons_eq_cons.1 hWord
      rw [hOpener]
      simp
  | cons first before =>
      obtain ⟨rfl, hTokens⟩ := List.cons_eq_cons.1 hWord
      rcases List.append_eq_append_iff.1 hTokens with ⟨more, rfl, hTail⟩ | ⟨more, rfl, hTail⟩
      · cases more with
        | nil =>
            obtain ⟨rfl, -⟩ := List.cons_eq_cons.1 hTail
            rw [hCloser]
            simp
        | cons last more =>
            obtain ⟨rfl, rfl⟩ := List.cons_eq_cons.1 hTail
            have hGroup : Balanced (opener :: (inner ++ [closer])) :=
              .group hOpener hInner hCloser .nil
            have hMore : Balanced ((opener :: (inner ++ [closer])) ++ more) := by simpa using hBefore
            exact hRest more t after rfl (hGroup.of_append_left hMore)
      · -- Before its closing the bracket is open, so that what stands there is not balanced.
        have hOpen := hBefore.openAfter_eq []
        have hAll := hInner.openAfter_eq []
        rw [openAfter_opening hOpener] at hOpen
        rw [openAfter_append] at hAll
        cases hFront : openAfter [] before with
        | none =>
            rw [hFront] at hAll
            cases hAll
        | some stack =>
            have hBelow := openAfter_below [b] hFront
            rw [List.nil_append, hOpen] at hBelow
            have hNil := Option.some.inj hBelow
            exact absurd hNil.symm (List.append_ne_nil_of_right_ne_nil stack (List.cons_ne_nil b []))

end Undivided

namespace Phrase

/-- The last token of a phrase is no semicolon. -/
theorem last {word : List Token} (h : Phrase word) {t : Token} (hLast : word.getLast? = some t) :
    t.kind ≠ .semicolon := by
  obtain ⟨before, rfl⟩ := List.getLast?_eq_some_iff.1 hLast
  intro hKind
  have hPlain : IsPlain t := ⟨by simp [hKind], by simp [hKind]⟩
  exact h.undivided before t [] rfl (Balanced.of_append_plain hPlain h.balanced) hKind

theorem singleton {t : Token} (h : t.kind.isInner) : Phrase [t] where
  balanced := .singleton (isPlain_of_isInner h)
  ne_nil := List.cons_ne_nil t []
  undivided := .singleton (ne_semicolon_of_isInner h)

theorem append {u v : List Token} (hu : Phrase u) (hv : Phrase v) : Phrase (u ++ v) where
  balanced := hu.balanced.append hv.balanced
  ne_nil := List.append_ne_nil_of_right_ne_nil u hv.ne_nil
  undivided := .append hu.balanced hu.undivided hv.undivided

theorem cons {t : Token} {v : List Token} (ht : t.kind.isInner) (hv : Phrase v) : Phrase (t :: v) :=
  append (.singleton ht) hv

theorem append_opt {u v : List Token} (hu : Phrase u) (hv : OptPhrase v) : Phrase (u ++ v) := by
  rcases hv with rfl | hv
  · simpa using hu
  · exact append hu hv

theorem opt_append {u v : List Token} (hv : Phrase v) (hu : OptPhrase u) : Phrase (u ++ v) := by
  rcases hu with rfl | hu
  · exact hv
  · exact append hu hv

/-- A bracket from its opening on. -/
theorem cons_tail {t : Token} {b : Bracket} {word : List Token} (ht : t.kind = .opening b)
    (h : Tail b word) : Phrase (t :: word) := by
  obtain ⟨inner, closer, rest, rfl, hInner, hCloser, hRest⟩ := h
  have hGroup : Phrase (t :: (inner ++ [closer])) :=
    ⟨.group ht hInner hCloser .nil, List.cons_ne_nil _ _, .group ht hInner hCloser .nil⟩
  simpa using hGroup.append_opt hRest

end Phrase

namespace OptPhrase

theorem nil : OptPhrase [] := .inl rfl

theorem balanced {word : List Token} (h : OptPhrase word) : Balanced word := by
  rcases h with rfl | h
  · exact .nil
  · exact h.balanced

theorem append {u v : List Token} (hu : OptPhrase u) (hv : OptPhrase v) : OptPhrase (u ++ v) := by
  rcases hu with rfl | hu
  · exact hv
  · exact .inr (hu.append_opt hv)

end OptPhrase

namespace Parser

variable {α β γ : Type}

theorem bind_eq_ok {p : Parser α} {f : α → Parser β} {c c'' : Cursor} {b : β} :
    (p >>= f) c = .ok (b, c'') ↔ ∃ a c', p c = .ok (a, c') ∧ f a c' = .ok (b, c'') := by
  change (p c >>= fun result => f result.1 result.2) = _ ↔ _
  cases p c with
  | error e => simp [Bind.bind, Except.bind]
  | ok result =>
      obtain ⟨a, c'⟩ := result
      constructor
      · intro h
        exact ⟨a, c', rfl, h⟩
      · rintro ⟨_, _, ⟨⟩, h⟩
        exact h

/-- A name is the identifier at its place. -/
theorem identifier_eq_ok {c c' : Cursor} {name : Identifier} (h : identifier c = .ok (name, c')) :
    c.kind = .identifier ∧ name = ⟨c.current.lexeme, c.current.span⟩ ∧ c' = c.advance := by
  obtain ⟨k, d, hKind, h⟩ := bind_eq_ok.1 h
  cases hKind
  split at h
  · cases h
    exact ⟨‹_›, rfl, rfl⟩
  · cases h

theorem eat_eq_ok {c c' : Cursor} {k : TokenKind} {eaten : Bool} (h : eat k c = .ok (eaten, c')) :
    (eaten = true ↔ c.kind = k) ∧ c' = if eaten then c.advance else c := by
  obtain ⟨found, d, hKind, h⟩ := bind_eq_ok.1 h
  cases hKind
  split at h
  · cases h
    exact ⟨iff_of_true rfl ‹_›, rfl⟩
  · cases h
    exact ⟨iff_of_false Bool.false_ne_true ‹_›, rfl⟩

theorem expect_eq_ok {c c' : Cursor} {k : TokenKind} {t : Token} (h : expect k c = .ok (t, c')) :
    c.kind = k ∧ t = c.current ∧ c' = c.advance := by
  obtain ⟨found, d, hKind, h⟩ := bind_eq_ok.1 h
  cases hKind
  split at h
  · cases h
    exact ⟨‹_›, rfl, rfl⟩
  · cases h

/-- From `c` on the reader takes `word`, and it does so whatever comes after the next token. -/
structure Takes (p : Parser α) (c : Cursor) (a : α) (c' : Cursor) (word : List Token) : Prop where
  rest_eq : c.rest = word ++ c'.rest
  stop_eq : c'.stop = c.stop
  run_eq : ∀ t others, c'.rest.head? = some t →
    p { c with rest := word ++ t :: others } = .ok (a, { c' with rest := t :: others })

/-- Where the reader succeeds from a place that satisfies `Start`, with less than `n` tokens to
come, `Word` holds of its result, of the word that it takes and of the tokens after that. -/
def ReadsFrom (n : Nat) (Start : Cursor → Prop) (p : Parser α)
    (Word : α → List Token → List Token → Prop) : Prop :=
  ∀ c a c', c.IsProper → c.rest.length < n → Start c → p c = .ok (a, c') →
    ∃ word, Takes p c a c' word ∧ Word a word c'.rest

/-- As `ReadsFrom`, from any place. -/
abbrev Reads (n : Nat) (p : Parser α) (Word : α → List Token → List Token → Prop) : Prop :=
  ReadsFrom n (fun _ => True) p Word

theorem Takes.isProper {p : Parser α} {c c' : Cursor} {a : α} {word : List Token}
    (h : Takes p c a c' word) (hc : c.IsProper) : c'.IsProper where
  stop_kind := h.stop_eq ▸ hc.stop_kind
  rest_kind t ht := hc.rest_kind t (h.rest_eq ▸ List.mem_append_right word ht)

theorem Takes.length_eq {p : Parser α} {c c' : Cursor} {a : α} {word : List Token}
    (h : Takes p c a c' word) : c.rest.length = word.length + c'.rest.length := by
  rw [h.rest_eq, List.length_append]

theorem kindAt_eq {c : Cursor} (hc : c.IsProper) (i : Nat) :
    c.kindAt i = nextKind (c.rest.drop i) := by
  rw [Cursor.kindAt, nextKind, List.head?_drop]
  cases c.rest[i]? with
  | none => exact hc.stop_kind
  | some t => rfl

theorem kind_eq {c : Cursor} (hc : c.IsProper) : c.kind = nextKind c.rest := by
  obtain ⟨previous, _ | ⟨t, rest⟩, stop⟩ := c
  · exact hc.stop_kind
  · rfl

/-- At the end of the source there are no tokens to come. -/
theorem rest_eq_nil {c : Cursor} (hc : c.IsProper) (hKind : c.kind = .endOfSource) :
    c.rest = [] := by
  obtain ⟨previous, _ | ⟨t, rest⟩, stop⟩ := c
  · rfl
  · exact absurd hKind (hc.rest_kind t List.mem_cons_self)

/-- Before the end of the source there is a token. -/
theorem exists_token {c : Cursor} {k : TokenKind} (hc : c.IsProper) (hKind : c.kind = k)
    (hk : k ≠ .endOfSource) : ∃ t rest, c.rest = t :: rest ∧ t.kind = k := by
  cases hRest : c.rest with
  | nil =>
      refine absurd ?_ hk
      rw [← hKind, ← hc.stop_kind, Cursor.kind, Cursor.current, hRest]
      rfl
  | cons t rest =>
      refine ⟨t, rest, rfl, ?_⟩
      rw [← hKind, Cursor.kind, Cursor.current, hRest]
      rfl

/-- The next token of a place stays the same if the tokens change behind it. -/
theorem current_eq_of_head {c : Cursor} {word rest : List Token} {t : Token} (others : List Token)
    (hRest : c.rest = word ++ rest) (hHead : rest.head? = some t) :
    ({ c with rest := word ++ t :: others } : Cursor).current = c.current := by
  cases word with
  | nil => simp [Cursor.current, List.headD_eq_head?_getD, hRest, hHead]
  | cons u word => simp [Cursor.current, hRest]

theorem kind_eq_of_head {c : Cursor} {word rest : List Token} {t : Token} (others : List Token)
    (hRest : c.rest = word ++ rest) (hHead : rest.head? = some t) :
    ({ c with rest := word ++ t :: others } : Cursor).kind = c.kind :=
  congrArg Token.kind (current_eq_of_head others hRest hHead)

/-! ## Rules -/

section

variable {n m : Nat} {Start : Cursor → Prop} {p : Parser α} {f : α → Parser β}

theorem ReadsFrom.mono {U W : α → List Token → List Token → Prop} {Start' : Cursor → Prop}
    (h : ReadsFrom n Start p U) (hStart : ∀ c, Start' c → Start c)
    (hWord : ∀ a w r, U a w r → W a w r) : ReadsFrom n Start' p W := by
  intro c a c' hc hn hs hp
  obtain ⟨word, hTakes, hU⟩ := h c a c' hc hn (hStart c hs) hp
  exact ⟨word, hTakes, hWord a word _ hU⟩

theorem ReadsFrom.word {U W : α → List Token → List Token → Prop} (h : ReadsFrom n Start p U)
    (hWord : ∀ a w r, U a w r → W a w r) : ReadsFrom n Start p W :=
  h.mono (fun _ hs => hs) hWord

theorem Reads.from {U : α → List Token → List Token → Prop} (h : Reads n p U) :
    ReadsFrom n Start p U :=
  h.mono (fun _ _ => trivial) fun _ _ _ hU => hU

/-- A reader takes its word also where the tokens change behind a longer word. -/
theorem Takes.run_append {c c' : Cursor} {a : α} {u v rest : List Token} {t : Token}
    (hu : Takes p c a c' u) (hRest : c'.rest = v ++ rest) (hHead : rest.head? = some t)
    (others : List Token) :
    p { c with rest := (u ++ v) ++ t :: others } = .ok (a, { c' with rest := v ++ t :: others }) := by
  obtain ⟨next, tail, hNext⟩ : ∃ next tail, v ++ t :: others = next :: tail :=
    List.exists_cons_of_ne_nil (by simp)
  have hSame : (v ++ rest).head? = (v ++ t :: others).head? := by
    cases v with
    | nil => simpa using hHead
    | cons => rfl
  have hNextHead : c'.rest.head? = some next := by
    rw [hRest, hSame, hNext]
    rfl
  rw [List.append_assoc, hNext]
  exact hu.run_eq next tail hNextHead

/-- Readers in a row take words in a row. -/
theorem Takes.bind {c c' c'' : Cursor} {a : α} {b : β} {u v : List Token} (hu : Takes p c a c' u)
    (hv : Takes (f a) c' b c'' v) : Takes (p >>= f) c b c'' (u ++ v) where
  rest_eq := by rw [hu.rest_eq, hv.rest_eq, List.append_assoc]
  stop_eq := hv.stop_eq.trans hu.stop_eq
  run_eq t others hHead :=
    bind_eq_ok.2 ⟨a, _, hu.run_append hv.rest_eq hHead others, hv.run_eq t others hHead⟩

/-- Two readers in a row. The second may count on fewer tokens by those that the first takes. -/
theorem ReadsFrom.bind' {U : α → List Token → List Token → Prop}
    {V : α → β → List Token → List Token → Prop} {W : β → List Token → List Token → Prop}
    (hp : ReadsFrom m Start p U) (hf : ∀ a, Reads n (f a) (V a))
    (hLength : ∀ a u r, U a u r → m ≤ n + u.length)
    (hWord : ∀ a b u v r, U a u (v ++ r) → V a b v r → W b (u ++ v) r) :
    ReadsFrom m Start (p >>= f) W := by
  intro c b c'' hc hm hs hRun
  obtain ⟨a, c', hFirst, hSecond⟩ := bind_eq_ok.1 hRun
  obtain ⟨u, hu, hU⟩ := hp c a c' hc hm hs hFirst
  have hn : c'.rest.length < n := by
    have := hu.length_eq
    have := hLength a u _ hU
    omega
  obtain ⟨v, hv, hV⟩ := hf a c' b c'' (hu.isProper hc) hn trivial hSecond
  exact ⟨u ++ v, hu.bind hv, hWord a b u v _ (hv.rest_eq ▸ hU) hV⟩

theorem ReadsFrom.bind {U : α → List Token → List Token → Prop}
    {V : α → β → List Token → List Token → Prop} {W : β → List Token → List Token → Prop}
    (hp : ReadsFrom n Start p U) (hf : ∀ a, Reads n (f a) (V a))
    (hWord : ∀ a b u v r, U a u (v ++ r) → V a b v r → W b (u ++ v) r) :
    ReadsFrom n Start (p >>= f) W :=
  hp.bind' hf (fun _ _ _ _ => Nat.le_add_right _ _) hWord

/-- A reader that takes one token, and behind it another reader. -/
theorem ReadsFrom.bind_token {P : α → Token → Prop} {V : α → β → List Token → List Token → Prop}
    {W : β → List Token → List Token → Prop}
    (hp : ReadsFrom (n + 1) Start p fun a w _ => ∃ t, w = [t] ∧ P a t)
    (hf : ∀ a, Reads n (f a) (V a))
    (hWord : ∀ a b t v r, P a t → V a b v r → W b (t :: v) r) :
    ReadsFrom (n + 1) Start (p >>= f) W := by
  refine hp.bind' hf ?_ ?_
  · rintro _ _ _ ⟨t, rfl, -⟩
    exact Nat.le_refl _
  · rintro a b _ v r ⟨t, rfl, ht⟩ hv
    exact hWord a b t v r ht hv

/-- Where the first of two readers takes nothing. -/
theorem Reads.skip {W : β → List Token → List Token → Prop} (hp : Reads n p fun _ w _ => w = [])
    (hf : ∀ a, Reads n (f a) W) : ReadsFrom n Start (p >>= f) W := by
  refine hp.from.bind hf ?_
  rintro a b u v r rfl hv
  exact hv

theorem ReadsFrom.phrase_opt (hp : ReadsFrom n Start p fun _ w _ => Phrase w)
    (hf : ∀ a, Reads n (f a) fun _ w _ => OptPhrase w) :
    ReadsFrom n Start (p >>= f) fun _ w _ => Phrase w :=
  hp.bind hf fun _ _ _ _ _ hu hv => hu.append_opt hv

theorem ReadsFrom.opt_phrase (hp : ReadsFrom n Start p fun _ w _ => OptPhrase w)
    (hf : ∀ a, Reads n (f a) fun _ w _ => Phrase w) :
    ReadsFrom n Start (p >>= f) fun _ w _ => Phrase w :=
  hp.bind hf fun _ _ _ _ _ hu hv => hv.opt_append hu

theorem ReadsFrom.opt_opt (hp : ReadsFrom n Start p fun _ w _ => OptPhrase w)
    (hf : ∀ a, Reads n (f a) fun _ w _ => OptPhrase w) :
    ReadsFrom n Start (p >>= f) fun _ w _ => OptPhrase w :=
  hp.bind hf fun _ _ _ _ _ hu hv => hu.append hv

theorem ReadsFrom.opt (hp : ReadsFrom n Start p fun _ w _ => Phrase w) :
    ReadsFrom n Start p fun _ w _ => OptPhrase w :=
  hp.word fun _ _ _ hu => .inr hu

theorem ReadsFrom.bind_pure {U : α → List Token → List Token → Prop}
    {W : β → List Token → List Token → Prop} {g : α → β} (hp : ReadsFrom n Start p U)
    (hWord : ∀ a w r, U a w r → W (g a) w r) :
    ReadsFrom n Start (p >>= fun a => pure (g a)) W := by
  intro c b c' hc hn hs hRun
  obtain ⟨a, d, hFirst, hSecond⟩ := bind_eq_ok.1 hRun
  cases hSecond
  obtain ⟨word, hTakes, hU⟩ := hp c a _ hc hn hs hFirst
  refine ⟨word, ⟨hTakes.rest_eq, hTakes.stop_eq, ?_⟩, hWord a word _ hU⟩
  intro t others hHead
  rw [bind_eq_ok]
  exact ⟨a, _, hTakes.run_eq t others hHead, rfl⟩

theorem ReadsFrom.map {U : α → List Token → List Token → Prop}
    {W : β → List Token → List Token → Prop} {g : α → β} (hp : ReadsFrom n Start p U)
    (hWord : ∀ a w r, U a w r → W (g a) w r) : ReadsFrom n Start (g <$> p) W :=
  hp.bind_pure hWord

end

/-! ## Readers that take nothing -/

section

variable {n : Nat} {Start : Cursor → Prop}

theorem reads_pure (a : α) : Reads n (pure a) fun b w _ => b = a ∧ w = [] := by
  rintro c _ _ - - - ⟨⟩
  exact ⟨[], ⟨rfl, rfl, fun _ _ _ => rfl⟩, rfl, rfl⟩

theorem reads_pure_opt (a : α) : Reads n (pure a) fun _ w _ => OptPhrase w :=
  (reads_pure a).word fun _ _ _ h => .inl h.2

theorem reads_spanFrom (start : Span) : Reads n (spanFrom start) fun _ w _ => w = [] := by
  rintro c _ _ - - - ⟨⟩
  exact ⟨[], ⟨rfl, rfl, fun _ _ _ => rfl⟩, rfl⟩

theorem reads_here : Reads n here fun _ w _ => w = [] := by
  rintro c _ _ - - - ⟨⟩
  refine ⟨[], ⟨rfl, rfl, ?_⟩, rfl⟩
  intro t others hHead
  have hSame := @current_eq_of_head c [] _ t others rfl hHead
  change Except.ok (({ c with rest := [] ++ t :: others } : Cursor).current.span, _) = _
  rw [hSame]
  rfl

theorem reads_lift (r : Except SyntaxError α) : Reads n (liftM r : Parser α) fun _ w _ => w = [] := by
  intro c a c' _ _ _ hRun
  cases r with
  | error e => cases hRun
  | ok b =>
      cases hRun
      exact ⟨[], ⟨rfl, rfl, fun _ _ _ => rfl⟩, rfl⟩

theorem reads_throw (e : SyntaxError) (W : α → List Token → List Token → Prop) :
    ReadsFrom n Start (throw e : Parser α) W := by
  rintro c _ _ - - - ⟨⟩

theorem reads_reject (fault : TokenKind → SyntaxFault) (W : α → List Token → List Token → Prop) :
    ReadsFrom n Start (reject fault : Parser α) W := by
  rintro c _ _ - - - ⟨⟩

/-- A reader that goes by a look-ahead. The look-ahead must not go beyond the word that is taken
and the next token. -/
theorem reads_look {g : Cursor → β} {f : β → Parser α} {U : β → α → List Token → List Token → Prop}
    {W : α → List Token → List Token → Prop}
    (hf : ∀ b, ReadsFrom n (fun c => Start c ∧ g c = b) (f b) (U b))
    (hLook : ∀ c a word rest, Start c → c.rest = word ++ rest → U (g c) a word rest → ∀ t others,
      rest.head? = some t → g { c with rest := word ++ t :: others } = g c)
    (hWord : ∀ b a w r, U b a w r → W a w r) :
    ReadsFrom n Start (look g >>= f) W := by
  intro c a c' hc hn hs hRun
  obtain ⟨word, hTakes, hU⟩ := hf (g c) c a c' hc hn ⟨hs, rfl⟩ hRun
  refine ⟨word, ⟨hTakes.rest_eq, hTakes.stop_eq, ?_⟩, hWord _ a word _ hU⟩
  intro t others hHead
  change f (g _) _ = _
  rw [hLook c a word _ hs hTakes.rest_eq hU t others hHead]
  exact hTakes.run_eq t others hHead

theorem reads_kind_bind {f : TokenKind → Parser α} {W : α → List Token → List Token → Prop}
    (hf : ∀ k, ReadsFrom n (fun c => Start c ∧ c.kind = k) (f k) W) :
    ReadsFrom n Start (kind >>= f) W :=
  reads_look hf (fun _ _ _ _ _ hRest _ _ others => kind_eq_of_head others hRest) fun _ _ _ _ hW => hW

end

/-! ## Readers of one token -/

section

variable {n : Nat} {Start : Cursor → Prop} {k : TokenKind}

theorem reads_take (hk : k ≠ .endOfSource) :
    ReadsFrom n (fun c => Start c ∧ c.kind = k) take fun a w _ => w = [a] ∧ a.kind = k := by
  rintro c _ _ hc - ⟨-, hKind⟩ ⟨⟩
  obtain ⟨t, rest, hRest, ht⟩ := exists_token hc hKind hk
  have hCurrent : c.current = t := by rw [Cursor.current, hRest]; rfl
  have hAdvance : c.advance = { c with previous := t.span, rest } := by
    rw [Cursor.advance, hRest]
  rw [hCurrent, hAdvance]
  exact ⟨[t], ⟨hRest, rfl, fun _ _ _ => rfl⟩, rfl, ht⟩

theorem reads_take_token (hk : k ≠ .endOfSource) :
    ReadsFrom n (fun c => Start c ∧ c.kind = k) take fun _ w _ => ∃ t, w = [t] ∧ t.kind = k :=
  (reads_take hk).word fun t _ _ h => ⟨t, h⟩

theorem reads_expect (hk : k ≠ .endOfSource) :
    Reads n (expect k) fun a w _ => w = [a] ∧ a.kind = k := by
  refine reads_kind_bind fun found => ?_
  by_cases hFound : found = k
  · subst hFound
    rw [if_pos rfl]
    exact reads_take hk
  · rw [if_neg hFound]
    exact reads_reject _ _

theorem reads_expect_token (hk : k ≠ .endOfSource) :
    Reads n (expect k) fun _ w _ => ∃ t, w = [t] ∧ t.kind = k :=
  (reads_expect hk).word fun t _ _ h => ⟨t, h⟩

theorem reads_eat (hk : k ≠ .endOfSource) :
    Reads n (eat k) fun eaten w _ => if eaten then ∃ t, w = [t] ∧ t.kind = k else w = [] := by
  refine reads_kind_bind fun found => ?_
  by_cases hFound : found = k
  · subst hFound
    rw [if_pos rfl]
    refine (reads_take hk).bind (fun t => reads_pure true) ?_
    rintro t _ _ _ _ ⟨rfl, ht⟩ ⟨rfl, rfl⟩
    exact ⟨t, rfl, ht⟩
  · rw [if_neg hFound]
    refine (reads_pure false).from.word ?_
    rintro _ _ _ ⟨rfl, rfl⟩
    rfl

/-- At the end of the source nothing is taken. -/
theorem reads_take_any : Reads n take fun _ _ _ => True := by
  intro c t d hc hn _ hRun
  by_cases hEnd : c.kind = .endOfSource
  · have hRest := rest_eq_nil hc hEnd
    have hAdvance : c.advance = c := by rw [Cursor.advance, hRest]
    cases hRun
    rw [hAdvance]
    refine ⟨[], ⟨rfl, rfl, ?_⟩, trivial⟩
    rw [hRest]
    rintro t others ⟨⟩
  · obtain ⟨word, hTakes, -⟩ := @reads_take n (fun _ => True) _ hEnd c t d hc hn ⟨trivial, rfl⟩ hRun
    exact ⟨word, hTakes, trivial⟩

theorem reads_eat_any (k : TokenKind) : Reads n (eat k) fun _ _ _ => True := by
  refine reads_kind_bind fun found => ?_
  split
  · exact reads_take_any.from.bind_pure fun _ _ _ h => h
  · exact (reads_pure false).from.word fun _ _ _ _ => trivial

theorem reads_expect_any (k : TokenKind) :
    Reads n (expect k) fun _ w _ => k ≠ .endOfSource → w ≠ [] := by
  by_cases hk : k = .endOfSource
  · refine reads_kind_bind fun found => ?_
    split
    · exact reads_take_any.from.word fun _ _ _ _ hNot => absurd hk hNot
    · exact reads_reject _ _
  · refine (reads_expect hk).word ?_
    rintro t _ _ ⟨rfl, -⟩ -
    exact List.cons_ne_nil t []

theorem ne_endOfSource_of_isInner (hk : k.isInner) : k ≠ .endOfSource := by
  rintro rfl
  cases hk

theorem reads_expect_phrase (hk : k.isInner) : Reads n (expect k) fun _ w _ => Phrase w := by
  refine (reads_expect (ne_endOfSource_of_isInner hk)).word ?_
  rintro t _ _ ⟨rfl, ht⟩
  exact .singleton (ht ▸ hk)

theorem reads_eat_opt (hk : k.isInner) : Reads n (eat k) fun _ w _ => OptPhrase w := by
  refine (reads_eat (ne_endOfSource_of_isInner hk)).word fun eaten w _ hw => ?_
  cases eaten with
  | false => exact .inl hw
  | true =>
      obtain ⟨t, rfl, ht⟩ := hw
      exact .inr (.singleton (ht ▸ hk))

theorem reads_identifier :
    Reads n identifier fun _ w _ => ∃ t, w = [t] ∧ t.kind = .identifier := by
  refine reads_kind_bind fun found => ?_
  by_cases hFound : found = .identifier
  · subst hFound
    rw [if_pos rfl]
    refine (reads_take (by decide)).bind (fun t => reads_pure _) ?_
    rintro t _ _ _ _ ⟨rfl, ht⟩ ⟨rfl, rfl⟩
    exact ⟨t, rfl, ht⟩
  · rw [if_neg hFound]
    exact reads_reject _ _

theorem reads_identifier_phrase : Reads n identifier fun _ w _ => Phrase w := by
  refine reads_identifier.word ?_
  rintro _ _ _ ⟨t, rfl, ht⟩
  exact Phrase.singleton (by rw [ht]; rfl)

end

end Parser

end GoTemplate
