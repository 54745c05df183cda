import GoTemplate.Proofs.Syntax.TypeReading

/-!
Where types end. The tokens of a type are read as this type wherever they stand: nothing of what may stand
behind a type makes it another one, and a type at the end of the tokens is complete.
-/

namespace GoTemplate

open Brackets TokenKind

namespace Parser

variable {α β : Type}

/-- Where the reader succeeds from a place that satisfies `Start`, with less than `n` tokens to come, it
takes a word that satisfies `Word`. It takes this word whatever comes that may stand behind a type. -/
def EndsFrom (n : Nat) (Start : Cursor → Prop) (p : Parser α) (Word : List Token → Prop) : Prop :=
  ∀ c a c', c.IsProper → c.rest.length < n → Start c → p c = .ok (a, c') →
    ∃ word, Takes p c a c' word ∧ Word word ∧ ∀ rest, (nextKind rest).endsType = true →
      p { c with rest := word ++ rest } = .ok (a, { c' with rest })

/-- As `EndsFrom`, from any place. -/
abbrev Ends (n : Nat) (p : Parser α) (Word : List Token → Prop) : Prop :=
  EndsFrom n (fun _ => True) p Word

/-! ## Rules -/

section

variable {n m : Nat} {Start : Cursor → Prop} {p : Parser α} {f : α → Parser β} {U V W : List Token → Prop}

theorem Ends.from (h : Ends n p U) : EndsFrom n Start p U :=
  fun c a c' hc hn _ hRun => h c a c' hc hn trivial hRun

theorem EndsFrom.word (h : EndsFrom n Start p U) (hWord : ∀ w, U w → W w) : EndsFrom n Start p W := by
  intro c a c' hc hn hs hRun
  obtain ⟨word, hTakes, hU, hEnds⟩ := h c a c' hc hn hs hRun
  exact ⟨word, hTakes, hWord word hU, hEnds⟩

theorem EndsFrom.reads (h : EndsFrom n Start p U) : ReadsFrom n Start p fun _ w _ => U w := by
  intro c a c' hc hn hs hRun
  obtain ⟨word, hTakes, hU, -⟩ := h c a c' hc hn hs hRun
  exact ⟨word, hTakes, hU⟩

/-- Two readers in a row. The first one has to be complete only where the second may take nothing. -/
private theorem ends_bind {R : α → List Token → List Token → Prop} (hp : ReadsFrom m Start p R)
    (hf : ∀ a, Ends n (f a) V) (hLength : ∀ a u r, R a u r → m ≤ n + u.length)
    (hNone : EndsFrom m Start p (fun _ => True) ∨ ∀ v, V v → v ≠ [])
    (hWord : ∀ a u r v, R a u r → V v → W (u ++ v)) : EndsFrom m Start (p >>= f) W := by
  intro c b c'' hc hm hs hRun
  obtain ⟨a, c', hFirst, hSecond⟩ := bind_eq_ok.1 hRun
  obtain ⟨u, hu, hR⟩ := hp c a c' hc hm hs hFirst
  have hn : c'.rest.length < n := by
    have := hu.length_eq
    have := hLength a u _ hR
    omega
  obtain ⟨v, hv, hV, hEnds⟩ := hf a c' b c'' (hu.isProper hc) hn trivial hSecond
  refine ⟨u ++ v, hu.bind hv, hWord a u _ v hR hV, fun rest hRest => ?_⟩
  refine bind_eq_ok.2 ⟨a, { c' with rest := v ++ rest }, ?_, hEnds rest hRest⟩
  rw [List.append_assoc]
  cases v with
  | cons t v => exact hu.run_eq t (v ++ rest) (by rw [hv.rest_eq]; rfl)
  | nil =>
      rcases hNone with hFirstEnds | hNe
      · obtain ⟨u', hu', -, hEnds'⟩ := hFirstEnds c a c' hc hm hs hFirst
        obtain rfl : u' = u := List.append_cancel_right (hu'.rest_eq.symm.trans hu.rest_eq)
        exact hEnds' rest hRest
      · exact absurd rfl (hNe [] hV)

/-- Behind any reader one that takes a token and is complete. -/
theorem ReadsFrom.ends {R : α → List Token → List Token → Prop} (hp : ReadsFrom n Start p R)
    (hf : ∀ a, Ends n (f a) (· ≠ [])) : EndsFrom n Start (p >>= f) (· ≠ []) :=
  ends_bind hp hf (fun _ _ _ _ => Nat.le_add_right _ _) (.inr fun _ => id)
    fun _ u _ _ _ => List.append_ne_nil_of_right_ne_nil u

/-- As `ReadsFrom.ends`, behind a token. -/
theorem ReadsFrom.ends_token {P : α → Token → Prop}
    (hp : ReadsFrom (n + 1) Start p fun a w _ => ∃ t, w = [t] ∧ P a t)
    (hf : ∀ a, Ends n (f a) (· ≠ [])) : EndsFrom (n + 1) Start (p >>= f) (· ≠ []) := by
  refine ends_bind hp hf ?_ (.inr fun _ => id) fun _ u _ _ _ => List.append_ne_nil_of_right_ne_nil u
  rintro _ _ _ ⟨t, rfl, -⟩
  exact Nat.le_refl _

/-- Two complete readers. -/
theorem EndsFrom.bind (hp : EndsFrom n Start p U) (hf : ∀ a, Ends n (f a) V) :
    EndsFrom n Start (p >>= f) fun _ => True :=
  ends_bind hp.reads hf (fun _ _ _ _ => Nat.le_add_right _ _) (.inl (hp.word fun _ _ => trivial))
    fun _ _ _ _ _ _ => trivial

/-- Two complete readers of which the first takes a token. -/
theorem EndsFrom.bind_left (hp : EndsFrom n Start p (· ≠ [])) (hf : ∀ a, Ends n (f a) V) :
    EndsFrom n Start (p >>= f) (· ≠ []) :=
  ends_bind hp.reads hf (fun _ _ _ _ => Nat.le_add_right _ _) (.inl (hp.word fun _ _ => trivial))
    fun _ _ _ v hu _ => List.append_ne_nil_of_left_ne_nil hu v

/-- As `EndsFrom.bind_left`, where the second may count on one token less. -/
theorem EndsFrom.bind_token {P : α → Token → Prop} (hp : EndsFrom (n + 1) Start p U)
    (hToken : ReadsFrom (n + 1) Start p fun a w _ => ∃ t, w = [t] ∧ P a t)
    (hf : ∀ a, Ends n (f a) V) : EndsFrom (n + 1) Start (p >>= f) (· ≠ []) := by
  refine ends_bind hToken hf ?_ (.inl (hp.word fun _ _ => trivial)) ?_
  · rintro _ _ _ ⟨t, rfl, -⟩
    exact Nat.le_refl _
  · rintro _ _ _ v ⟨t, rfl, -⟩ -
    exact List.cons_ne_nil t v

/-! ## Small readers -/

theorem ends_pure (a : α) : Ends n (pure a) fun _ => True := by
  rintro c _ _ - - - ⟨⟩
  exact ⟨[], ⟨rfl, rfl, fun _ _ _ => rfl⟩, trivial, fun _ _ => rfl⟩

theorem ends_spanFrom (start : Span) : Ends n (spanFrom start) fun _ => True := by
  rintro c _ _ - - - ⟨⟩
  exact ⟨[], ⟨rfl, rfl, fun _ _ _ => rfl⟩, trivial, fun _ _ => rfl⟩

theorem ends_lift (r : Except SyntaxError α) : Ends n (liftM r : Parser α) fun _ => True := by
  intro c a c' _ _ _ hRun
  cases r with
  | error e => cases hRun
  | ok b =>
      cases hRun
      exact ⟨[], ⟨rfl, rfl, fun _ _ _ => rfl⟩, trivial, fun _ _ => rfl⟩

theorem ends_reject {fault : TokenKind → SyntaxFault} : EndsFrom n Start (reject fault : Parser α) U := by
  rintro c _ _ - - - ⟨⟩

/-- A reader that goes by the kind of the next token. Where it takes nothing, it has to do the same before
all that may stand behind a type. -/
theorem ends_kind {f : TokenKind → Parser α} {U : TokenKind → List Token → Prop}
    (hf : ∀ k, EndsFrom n (fun c => Start c ∧ c.kind = k) (f k) (U k))
    (hNone : ∀ k, U k [] → ∀ k', k'.endsType = true → f k' = f k) (hWord : ∀ k w, U k w → W w) :
    EndsFrom n Start (kind >>= f) W := by
  intro c a c' hc hn hs hRun
  obtain ⟨word, hTakes, hU, hEnds⟩ := hf c.kind c a c' hc hn ⟨hs, rfl⟩ hRun
  refine ⟨word, ⟨hTakes.rest_eq, hTakes.stop_eq, fun t others hHead => ?_⟩, hWord _ word hU,
    fun rest hRest => ?_⟩
  · change f (Cursor.kind _) _ = _
    rw [kind_eq_of_head others hTakes.rest_eq hHead]
    exact hTakes.run_eq t others hHead
  · have hSame : f ({ c with rest := word ++ rest } : Cursor).kind = f c.kind := by
      cases word with
      | cons t word =>
          rw [Cursor.kind, Cursor.kind, Cursor.current, Cursor.current, hTakes.rest_eq]
          rfl
      | nil =>
          refine hNone _ hU _ ?_
          cases rest with
          | nil =>
              change c.stop.kind.endsType = true
              rw [hc.stop_kind]
              rfl
          | cons t rest => exact hRest
    change f (Cursor.kind _) _ = _
    rw [hSame]
    exact hEnds rest hRest

/-- As `ends_kind`, where always a token is taken. -/
theorem ends_kind_bind {f : TokenKind → Parser α}
    (hf : ∀ k, EndsFrom n (fun c => Start c ∧ c.kind = k) (f k) (· ≠ [])) :
    EndsFrom n Start (kind >>= f) (· ≠ []) :=
  ends_kind hf (fun _ hNil => absurd rfl hNil) fun _ _ => id

variable {k : TokenKind}

theorem ends_take (hk : k ≠ .endOfSource) : EndsFrom n (fun c => Start c ∧ c.kind = k) take (· ≠ []) := by
  rintro c _ _ hc - ⟨-, hKind⟩ ⟨⟩
  obtain ⟨t, rest, hRest, -⟩ := exists_token hc hKind hk
  have hCurrent : c.current = t := by rw [Cursor.current, hRest]; rfl
  have hAdvance : c.advance = { c with previous := t.span, rest } := by rw [Cursor.advance, hRest]
  rw [hCurrent, hAdvance]
  exact ⟨[t], ⟨hRest, rfl, fun _ _ _ => rfl⟩, List.cons_ne_nil t [], fun _ _ => rfl⟩

theorem ends_expect (hk : k ≠ .endOfSource) : EndsFrom n Start (expect k) (· ≠ []) := by
  refine ends_kind_bind fun found => ?_
  by_cases hFound : found = k
  · rw [if_pos hFound]
    exact ends_take (hFound ▸ hk)
  · rw [if_neg hFound]
    exact ends_reject

theorem ends_identifier : EndsFrom n Start identifier (· ≠ []) := by
  refine ends_kind_bind fun found => ?_
  by_cases hFound : found = .identifier
  · rw [if_pos hFound]
    exact (ends_take (by rw [hFound]; decide)).bind_left fun _ => ends_pure _
  · rw [if_neg hFound]
    exact ends_reject

/-- What does not stand behind a type may be read there or not. -/
theorem ends_ifNext {otherwise : α} (hk : k.endsType = false)
    (hp : EndsFrom n (fun c => Start c ∧ c.kind = k) p (· ≠ [])) :
    EndsFrom n Start (ifNext k p otherwise) fun _ => True := by
  refine ends_kind (U := fun found w => found = k → w ≠ []) (fun found => ?_) (fun found hNone => ?_)
    fun _ _ _ => trivial
  · by_cases hFound : found = k
    · rw [if_pos hFound, hFound]
      exact hp.word fun _ hw _ => hw
    · rw [if_neg hFound]
      exact (ends_pure _).from.word fun _ _ hSame => absurd hSame hFound
  · intro k' hk'
    rw [if_neg fun hFound => hNone hFound rfl, if_neg (TokenKind.ne_of_endsType hk' hk)]

theorem ends_eat (hk : k.endsType = false) : EndsFrom n Start (eat k) fun _ => True := by
  refine ends_ifNext (p := do let _ ← take; return true) hk ?_
  exact (ends_take (by rintro rfl; cases hk)).bind_left fun _ => ends_pure _

/-- What stands in brackets ends with them. -/
theorem ends_bracket {γ : Type} {b : Bracket} {p : Token → Parser α} {f : Token → α → Token → Parser γ}
    {R : α → List Token → List Token → Prop} (hp : ∀ t, Reads n (p t) R)
    (hf : ∀ opened a closed, Ends n (f opened a closed) U) : EndsFrom n Start (do
      let opened ← expect (.opening b)
      let a ← p opened
      let closed ← expect (.closing b)
      f opened a closed) (· ≠ []) :=
  (reads_expect (by simp)).from.ends fun opened => (hp opened).ends fun a =>
    (ends_expect (by simp)).bind_left (hf opened a)

end

/-! ## Forms of types -/

section

variable {n : Nat} {type : Parser GoType} {Start : Cursor → Prop}
  (hType : Reads n type fun _ w r => TypeWord w r) (hEnds : Ends n type (· ≠ []))

include hType

theorem ends_typeArgs : EndsFrom n Start (typeArgs type) (· ≠ []) :=
  ends_bracket (fun _ => reads_commaList? (reads_type_phrase hType)) fun _ _ _ => ends_pure _

theorem ends_params : EndsFrom n Start (params type) (· ≠ []) :=
  ends_bracket (fun _ => reads_commaList? (reads_paramEntry hType)) fun _ _ _ => ends_lift _

omit hType in
theorem ends_memberName : Ends n memberName fun _ => True := by
  refine (ends_eat rfl).bind (V := fun _ => True) fun dot => ?_
  cases dot with
  | false => exact ends_pure none
  | true => exact ends_identifier.bind fun _ => ends_pure _

theorem ends_namedType : EndsFrom (n + 1) Start (namedType type) (· ≠ []) := by
  refine ends_identifier.bind_token reads_identifier.from (V := fun _ => True) fun first => ?_
  refine ends_memberName.bind (V := fun _ => True) fun second => ?_
  refine (ends_ifNext rfl (ends_typeArgs hType)).bind (V := fun _ => True) fun args => ?_
  refine (ends_spanFrom _).bind (V := fun _ => True) fun span => ?_
  cases second with
  | none => exact ends_pure _
  | some name => exact ends_pure _

omit hType in
include hEnds in
/-- A type at the end of another. -/
theorem ends_elem {make : GoType → Span → GoType} {start : Span} : Ends n (do
    let elem ← type
    return make elem (← spanFrom start)) (· ≠ []) :=
  hEnds.bind_left fun _ => (ends_spanFrom start).bind fun _ => ends_pure _

omit hType in
include hEnds in
theorem ends_sequenceType (start : Span) : Ends n (sequenceType type start) (· ≠ []) := by
  refine (reads_eat (by simp)).ends fun empty => ?_
  cases empty with
  | true => exact ends_elem hEnds
  | false => exact reads_arrayLength.ends fun length => (reads_expect (by simp)).ends fun _ => ends_elem hEnds

include hEnds

theorem ends_results : Ends n (results type) fun _ => True := by
  have hSingle : Ends n (do return [(⟨none, ← type, false⟩ : Param GoType)]) (· ≠ []) :=
    hEnds.bind_left fun _ => ends_pure _
  refine ends_kind (U := fun k w => k.opensType = true → w ≠ []) (fun k => ?_) (fun k hNone => ?_)
    fun _ _ _ => trivial
  · split
    case h_1 => exact (ends_params hType).word fun _ hw _ => hw
    case h_11 =>
      -- No type starts with any other token.
      refine (ends_pure _).from.word fun w _ hk => ?_
      cases k <;> simp_all [TokenKind.opensType]
    all_goals exact hSingle.from.word fun _ hw _ => hw
  · intro k' hk'
    have hk : k.opensType = false := by simpa using hNone
    split
    case h_11 =>
      split
      case h_11 => rfl
      all_goals cases hk
    all_goals cases hk'

theorem ends_signature : Ends n (signature type) (· ≠ []) :=
  reads_here.ends fun start => (ends_params hType).bind_left fun _ =>
    (ends_results hType hEnds).bind fun _ => (ends_spanFrom start).bind fun _ => ends_pure _

/-- Each form of a type ends if the types within it do. -/
theorem ends_typeForm : Ends (n + 1) (typeForm type) (· ≠ []) := by
  have hTake {k : TokenKind} {f : Token → Parser GoType} (hk : k ≠ .endOfSource)
      (hf : ∀ t, Ends n (f t) (· ≠ [])) :
      EndsFrom (n + 1) (fun c => True ∧ c.kind = k) (take >>= f) (· ≠ []) :=
    (reads_take_token hk).ends_token hf
  have hBlock {β : Type} {keyword : TokenKind} (hk : keyword ≠ .endOfSource) {line : Parser β}
      (hLine : Reads n line fun _ w _ => Phrase w) {make : List β → Span → GoType} :
      Ends (n + 1) (do
        let keyword ← expect keyword
        let _ ← expect (.opening .curly)
        let lines ← statements (.closing .curly) line
        let _ ← expect (.closing .curly)
        return make lines (← spanFrom keyword.span)) (· ≠ []) :=
    (reads_expect_token hk).ends_token fun keyword =>
      ends_bracket (fun _ => reads_statements_balanced hLine) fun _ _ _ =>
        (ends_spanFrom _).bind fun _ => ends_pure _
  refine reads_here.ends fun start => ends_kind_bind fun k => ?_
  split
  case h_1 => exact ends_namedType hType
  case h_2 => exact hTake (by simp) fun _ => ends_elem hEnds
  case h_3 => exact hTake (by simp) fun _ => ends_sequenceType hEnds start
  case h_4 =>
    exact hTake (by simp) fun _ => (reads_expect (by simp)).ends fun _ => (reads_type_phrase hType).ends
      fun _ => (reads_expect (by simp)).ends fun _ => ends_elem hEnds
  case h_5 => exact hTake (by simp) fun _ => (reads_eat (by simp)).ends fun _ => ends_elem hEnds
  case h_6 => exact hTake (by simp) fun _ => (reads_expect (by simp)).ends fun _ => ends_elem hEnds
  case h_7 => exact hTake (by simp) fun _ => (ends_signature hType hEnds).bind_left fun _ => ends_pure _
  case h_8 => exact (hBlock (by simp) (reads_field hType)).from
  case h_9 => exact (hBlock (by simp) (reads_interfaceElement hType)).from
  case h_10 =>
    exact hTake (by simp) fun _ => (reads_type_phrase hType).ends fun _ =>
      (ends_expect (by simp)).bind_left fun _ => (ends_spanFrom start).bind fun _ => ends_pure _
  case h_11 => exact ends_reject

end

/-! ## The reader of types -/

theorem ends_goType (n : Nat) : Ends n goType (· ≠ []) := by
  induction n with
  | zero => exact fun c _ _ _ hn => absurd hn (Nat.not_lt_zero _)
  | succ n ih =>
      intro c type c' hc hn hs hRun
      obtain ⟨word, hTakes, hWord⟩ := reads_goType (n + 1) c type c' hc hn hs hRun
      rw [goType_eq hc.stop_kind] at hRun
      obtain ⟨word', hTakes', -, hEnds⟩ := ends_typeForm (reads_goType n) ih c type c' hc hn hs hRun
      obtain rfl : word' = word := List.append_cancel_right (hTakes'.rest_eq.symm.trans hTakes.rest_eq)
      refine ⟨word', hTakes, hWord.phrase.ne_nil, fun rest hRest => ?_⟩
      rw [goType_eq (c := { c with rest := word' ++ rest }) hc.stop_kind]
      exact hEnds rest hRest

end Parser

end GoTemplate
