import GoTemplate.Proofs.Syntax.LegibleType
import GoTemplate.Proofs.Syntax.TypeEnds

/-!
Where the types within a type stand. Each was read by the reader of types at a place behind the one where
the whole type starts, also where its name stands in a list of parameters and could have been that of a
parameter. Its span reaches from the first of its tokens to the last one, for a function type from the
first token behind the keyword.
-/

namespace GoTemplate

open Brackets

/-! ## Places behind others -/

/-- From the place `c` the place `d` is reached when tokens are taken. -/
def Cursor.Reaches (c d : Cursor) : Prop :=
  ∃ word rest, c.rest = word ++ rest ∧ d = ⟨(word.getLast?.map Token.span).getD c.previous, rest, c.stop⟩

namespace Cursor

variable {c d : Cursor}

theorem reaches_self (c : Cursor) : c.Reaches c := ⟨[], c.rest, rfl, rfl⟩

theorem advances_reaches (c : Cursor) : Parser.Advances c.Reaches := by
  rintro _ ⟨word, rest, hRest, rfl⟩
  cases rest with
  | nil => exact ⟨word, [], hRest, rfl⟩
  | cons t rest =>
      refine ⟨word ++ [t], rest, by rw [hRest, List.append_assoc]; rfl, ?_⟩
      rw [List.getLast?_concat]
      rfl

theorem current_eq_of_head? {us rest : List Token} {first : Token} (hRest : c.rest = us ++ rest)
    (hFirst : us.head? = some first) : c.current = first := by
  obtain ⟨others, rfl⟩ := List.head?_eq_some_iff.1 hFirst
  rw [current, hRest]
  rfl

namespace Reaches

theorem stop_eq (h : c.Reaches d) : d.stop = c.stop := by
  obtain ⟨word, rest, -, rfl⟩ := h
  rfl

theorem exists_word (h : c.Reaches d) : ∃ word, c.rest = word ++ d.rest := by
  obtain ⟨word, rest, hRest, rfl⟩ := h
  exact ⟨word, hRest⟩

theorem isProper (h : c.Reaches d) (hc : c.IsProper) : d.IsProper := by
  obtain ⟨word, hRest⟩ := h.exists_word
  exact ⟨h.stop_eq ▸ hc.stop_kind, fun t ht => hc.rest_kind t (hRest ▸ List.mem_append_right word ht)⟩

/-- Behind a word the token before is its last one. -/
theorem previous_eq (h : c.Reaches d) {word : List Token} {last : Token} (hRest : c.rest = word ++ d.rest)
    (hLast : word.getLast? = some last) : d.previous = last.span := by
  obtain ⟨word', rest, hRest', rfl⟩ := h
  obtain rfl : word' = word := List.append_cancel_right (hRest'.symm.trans hRest)
  rw [hLast]
  rfl

end Reaches

end Cursor

/-! ## Types within types -/

/-- The types that stand anywhere in a type, itself among them. -/
inductive GoType.IsNodeOf (node : GoType) : GoType → Prop where
  | self : IsNodeOf node node
  | part {type part : GoType} (hPart : part ∈ type.parts) (hNode : IsNodeOf node part) : IsNodeOf node type

/-- The place where the span of a type starts that is read from `c` on. -/
def GoType.start (type : GoType) (c : Cursor) : Cursor :=
  match type with
  | .func _ => c.advance
  | _ => c

theorem Span.merge_self (s : Span) : s.merge s = s := by
  rw [merge, if_pos rfl, Nat.min_self, Nat.max_self]
  simp only [Nat.add_sub_cancel_left]

namespace Parser

variable {Here : Cursor → Prop} {P : GoType → Prop}

/-- What holds of a type if it holds of its parts holds of all types that are read. A name in a list of
parameters may turn out to be a type, which the reader of types has not read. -/
theorem ensures_goType (hHere : Advances Here)
    (hName : ∀ c, Here c → entryForm c = .bareName → P (.ofName ⟨c.current.lexeme, c.current.span⟩))
    (hForm : ∀ c found c', Here c → goType c = .ok (found, c') → (∀ part ∈ found.parts, P part) → P found) :
    Ensures Here goType fun found c => Here c ∧ P found := by
  intro c found c' hc hRun
  generalize hn : c.rest.length = n
  induction n using Nat.strong_induction_on generalizing c found c' with
  | h n ih =>
      have hGoType := hRun
      rw [goType] at hRun
      have hParts := ensures_typeForm hHere (P := P) (fun inner part d hInner hPart => ?_) hName
        c found c' hc hRun
      · exact ⟨hParts.1, hForm c found c' hc hGoType hParts.2⟩
      · by_cases hLess : inner.rest.length < c.rest.length
        · rw [dif_pos hLess] at hPart
          exact ih _ (hn ▸ hLess) inner part d hInner hPart rfl
        · rw [dif_neg hLess] at hPart
          cases hPart

theorem reaches_of_goType {c c' : Cursor} {found : GoType} (h : goType c = .ok (found, c')) :
    c.Reaches c' :=
  (ensures_goType (P := fun _ => True) c.advances_reaches (fun _ _ _ => trivial)
    (fun _ _ _ _ _ _ => trivial) c found c' c.reaches_self h).1

theorem kind_bind {α : Type} {f : TokenKind → Parser α} {c : Cursor} {k : TokenKind} (hKind : c.kind = k) :
    (kind >>= f) c = f k c := by
  subst hKind
  rfl

/-- A single name between the commas of a list of parameters would be read as a type. -/
theorem goType_of_bareName {c : Cursor} (hc : c.IsProper) (h : entryForm c = .bareName) :
    goType c = .ok (.ofName ⟨c.current.lexeme, c.current.span⟩, c.advance) := by
  obtain ⟨hKind, hNext⟩ := kinds_of_bareName h
  have hNot {k : TokenKind} (hk : k.endsType = false) : c.advance.kind ≠ k := by
    rw [Cursor.kind_advance]
    rcases hNext with hNext | hNext
    · exact TokenKind.ne_of_endsType (by rw [hNext]; rfl) hk
    · exact TokenKind.ne_of_endsType (by rw [hNext]; rfl) hk
  have hFirst : identifier c = .ok (⟨c.current.lexeme, c.current.span⟩, c.advance) := by
    refine (kind_bind hKind).trans ?_
    rw [if_pos rfl]
    rfl
  have hDot : eat .dot c.advance = .ok (false, c.advance) := by
    refine (kind_bind rfl).trans ?_
    rw [if_neg (hNot rfl)]
    rfl
  have hSecond : memberName c.advance = .ok (none, c.advance) := (bind_ok hDot).trans rfl
  have hArgs : ifNext (.opening .square) (typeArgs goType) [] c.advance = .ok ([], c.advance) := by
    refine (kind_bind rfl).trans ?_
    rw [if_neg (hNot rfl)]
    rfl
  have hSpan : c.current.span.merge c.advance.previous = c.current.span := by
    obtain ⟨t, rest, hRest, -⟩ := exists_token hc hKind (by decide)
    rw [Cursor.advance, Cursor.current, hRest]
    exact Span.merge_self t.span
  rw [goType_eq hc.stop_kind]
  have hHere : here c = .ok (c.current.span, c) := rfl
  refine (bind_ok hHere).trans ((kind_bind hKind).trans ?_)
  refine (bind_ok hFirst).trans ((bind_ok hSecond).trans ((bind_ok hArgs).trans ?_))
  change Except.ok (GoType.named none _ [] (c.current.span.merge c.advance.previous), _) = _
  rw [hSpan]
  rfl

/-- Each type that stands in a type was read at a place behind the start of the whole. -/
theorem exists_place_of_isNodeOf {c c' : Cursor} {type node : GoType} (hc : c.IsProper)
    (h : goType c = .ok (type, c')) (hNode : node.IsNodeOf type) :
    ∃ d d', c.Reaches d ∧ goType d = .ok (node, d') := by
  have hAll := ensures_goType (P := fun found => ∀ node, node.IsNodeOf found →
    ∃ d d', c.Reaches d ∧ goType d = .ok (node, d')) c.advances_reaches (fun d hd hForm node hNode => ?_)
    (fun d found d' hd hRun hParts node hNode => ?_) c type c' c.reaches_self h
  · exact hAll.2 node hNode
  · cases hNode with
    | self => exact ⟨d, d.advance, hd, goType_of_bareName (hd.isProper hc) hForm⟩
    | part hPart => cases hPart
  · cases hNode with
    | self => exact ⟨d, d', hd, hRun⟩
    | part hPart hNode => exact hParts _ hPart node hNode

/-! ## Spans -/

theorem ensures_spanFrom_eq {Pre : Cursor → Prop} (start : Span) :
    Ensures Pre (spanFrom start) fun span c => span = start.merge c.previous := by
  rintro c _ _ - ⟨⟩
  rfl

/-- The span of the type reaches from its start to the token before the second place. -/
def SpansFrom (c : Cursor) (found : GoType) (c' : Cursor) : Prop :=
  found.span = (found.start c).current.span.merge c'.previous

section

variable {Pre : Cursor → Prop} {c : Cursor}

theorem ensures_spans {make : Span → GoType}
    (hMake : ∀ span, (make span).span = span ∧ (make span).start c = c) :
    Ensures Pre (do return make (← spanFrom c.current.span)) (SpansFrom c) :=
  (ensures_spanFrom_eq _).bind fun span => ensures_pure fun c' hSpan => by
    rw [SpansFrom, (hMake span).1, (hMake span).2, hSpan]

theorem ensures_spans_block {β : Type} {k : TokenKind} {line : Parser β} {make : List β → Span → GoType}
    (hMake : ∀ lines span, (make lines span).span = span ∧ (make lines span).start c = c) :
    Ensures (· = c) (do
      let keyword ← expect k
      let _ ← expect (.opening .curly)
      let lines ← statements (.closing .curly) line
      let _ ← expect (.closing .curly)
      return make lines (← spanFrom keyword.span)) (SpansFrom c) := by
  have hKeyword : Ensures (· = c) (expect k) fun keyword _ => True ∧ keyword.span = c.current.span := by
    rintro _ keyword _ rfl hRun
    exact ⟨trivial, congrArg Token.span (expect_eq_ok hRun).2.1⟩
  refine hKeyword.bind fun keyword => .known fun hSpan => ?_
  rw [hSpan]
  exact ensures_any.bind fun _ => ensures_any.bind fun lines => ensures_any.bind fun _ =>
    ensures_spans (hMake lines)

theorem ensures_span_signature (type : Parser GoType) :
    Ensures (· = c) (signature type) fun signature d => signature.span = c.current.span.merge d.previous := by
  have hHere : Ensures (· = c) here fun start _ => True ∧ start = c.current.span := by
    rintro _ _ _ rfl ⟨⟩
    exact ⟨trivial, rfl⟩
  refine hHere.bind fun start => .known fun hStart => ?_
  rw [hStart]
  exact ensures_any.bind fun _ => ensures_any.bind fun _ => (ensures_spanFrom_eq _).bind fun span =>
    ensures_pure fun _ hSpan => hSpan

theorem ensures_spans_named (type : Parser GoType) :
    Ensures (· = c) (namedType type) (SpansFrom c) := by
  have hName : Ensures (· = c) identifier fun name _ => True ∧ name.span = c.current.span := by
    rintro _ name _ rfl hRun
    obtain ⟨-, rfl, -⟩ := identifier_eq_ok hRun
    exact ⟨trivial, rfl⟩
  refine hName.bind fun first => .known fun hFirst => ensures_any.bind fun second => ?_
  rw [hFirst]
  refine ensures_any.bind fun args => (ensures_spanFrom_eq _).bind fun span => ?_
  cases second with
  | none => exact ensures_pure fun c' hSpan => hSpan
  | some name => exact ensures_pure fun c' hSpan => hSpan

end

/-- The span of a type of any form ends with the last token that is taken. -/
theorem span_typeForm {type : Parser GoType} {c c' : Cursor} {found : GoType}
    (h : typeForm type c = .ok (found, c')) : SpansFrom c found c' := by
  obtain ⟨start, c₁, hStart, h⟩ := bind_eq_ok.1 h
  cases hStart
  obtain ⟨k, c₁, hKind, h⟩ := bind_eq_ok.1 h
  cases hKind
  refine (?_ : Ensures (· = c) _ (SpansFrom c)) c found c' rfl h
  -- Each form ends with the span from its start; a name and a keyword have been taken by then.
  split
  case h_1 => exact ensures_spans_named type
  case h_2 =>
    exact ensures_any.bind fun _ => ensures_any.bind fun _ => ensures_spans fun _ => ⟨rfl, rfl⟩
  case h_3 =>
    refine ensures_any.bind fun _ => ensures_any.bind fun empty => ?_
    cases empty with
    | true => exact ensures_any.bind fun _ => ensures_spans fun _ => ⟨rfl, rfl⟩
    | false =>
        exact ensures_any.bind fun _ => ensures_any.bind fun _ => ensures_any.bind fun _ =>
          ensures_spans fun _ => ⟨rfl, rfl⟩
  case h_4 =>
    exact ensures_any.bind fun _ => ensures_any.bind fun _ => ensures_any.bind fun _ =>
      ensures_any.bind fun _ => ensures_any.bind fun _ => ensures_spans fun _ => ⟨rfl, rfl⟩
  case h_5 =>
    exact ensures_any.bind fun _ => ensures_any.bind fun _ => ensures_any.bind fun _ =>
      ensures_spans fun _ => ⟨rfl, rfl⟩
  case h_6 =>
    exact ensures_any.bind fun _ => ensures_any.bind fun _ => ensures_any.bind fun _ =>
      ensures_spans fun _ => ⟨rfl, rfl⟩
  case h_7 =>
    have hTake : Ensures (· = c) take fun _ d => d = c.advance := by
      rintro _ _ _ rfl ⟨⟩
      rfl
    exact hTake.bind fun _ => (ensures_span_signature type).bind fun signature =>
      ensures_pure fun _ hSpan => hSpan
  case h_8 => exact ensures_spans_block fun _ _ => ⟨rfl, rfl⟩
  case h_9 => exact ensures_spans_block fun _ _ => ⟨rfl, rfl⟩
  case h_10 =>
    exact ensures_any.bind fun _ => ensures_any.bind fun _ => ensures_any.bind fun _ =>
      ensures_spans fun _ => ⟨rfl, rfl⟩
  case h_11 => exact ensures_reject

/-! ## Tokens -/

/-- A function type is read from its keyword and its signature. -/
theorem signature_of_goType {c c' : Cursor} {found : GoType} (hc : c.stop.kind = .endOfSource)
    (hKind : c.kind = .keyword .func) (h : goType c = .ok (found, c')) :
    ∃ s, signature goType c.advance = .ok (s, c') := by
  rw [goType_eq hc] at h
  obtain ⟨start, c₁, hStart, h⟩ := bind_eq_ok.1 h
  cases hStart
  rw [kind_bind hKind] at h
  obtain ⟨_, c₁, hTake, h⟩ := bind_eq_ok.1 h
  cases hTake
  obtain ⟨s, c₁, hSignature, h⟩ := bind_eq_ok.1 h
  cases h
  exact ⟨s, hSignature⟩

theorem kind_of_signature {c c' : Cursor} {type : Parser GoType} {s : Signature GoType}
    (h : signature type c = .ok (s, c')) : c.kind = .opening .round := by
  obtain ⟨start, c₁, hStart, h⟩ := bind_eq_ok.1 h
  cases hStart
  obtain ⟨params, c₁, hParams, -⟩ := bind_eq_ok.1 h
  obtain ⟨opened, c₂, hOpened, -⟩ := bind_eq_ok.1 hParams
  exact (expect_eq_ok hOpened).1

end Parser

/-- The tokens in front of those of the span: none but the keyword of a function type, behind which a
bracket opens. -/
def GoType.OpensWith (type : GoType) (opener tokens : List Token) : Prop :=
  match type with
  | .func _ => (∃ t, opener = [t] ∧ t.kind = .keyword .func) ∧ nextKind tokens = .opening .round
  | _ => opener = []

/-- From the place `c` to the place `c'` a type was read that starts with `opener`. The span covers the
tokens behind it. -/
structure ReadFrom (type : GoType) (c c' : Cursor) (opener tokens : List Token) : Prop where
  rest_eq : c.rest = opener ++ tokens ++ c'.rest
  phrase : Phrase (opener ++ tokens)
  opensWith : type.OpensWith opener tokens
  ne_nil : tokens ≠ []
  span_eq : ∀ first last, tokens.head? = some first → tokens.getLast? = some last →
    type.span = first.span.merge last.span
  /-- The tokens are read as this type wherever they stand. -/
  run_eq : ∀ rest, (nextKind rest).endsType = true →
    Parser.goType { c with rest := opener ++ tokens ++ rest } = .ok (type, { c' with rest })

theorem exists_readFrom {type : GoType} {c c' : Cursor} (hc : c.IsSpelled)
    (h : Parser.goType c = .ok (type, c')) : ∃ opener tokens, ReadFrom type c c' opener tokens := by
  have hProper := hc.isProper
  obtain ⟨word, hTakes, hWord⟩ := Parser.reads_goType _ c type c' hProper (Nat.lt_succ_self _) trivial h
  obtain ⟨word', hTakes', -, hRun⟩ := Parser.ends_goType _ c type c' hProper (Nat.lt_succ_self _) trivial h
  obtain rfl : word' = word := List.append_cancel_right (hTakes'.rest_eq.symm.trans hTakes.rest_eq)
  have hReaches := Parser.reaches_of_goType h
  have hFirst := (Parser.givesLegible_goType c.kind c type c' ⟨hc, rfl⟩ h).2.2
  have hSpan := h
  rw [Parser.goType_eq hProper.stop_kind] at hSpan
  replace hSpan := Parser.span_typeForm hSpan
  by_cases hFunc : type.firstKind = .keyword .func
  · obtain ⟨s, rfl⟩ : ∃ s, type = .func s := by
      cases type with
      | func s => exact ⟨s, rfl⟩
      | chan direction => cases direction <;> cases hFunc
      | _ => cases hFunc
    have hKind := hFirst.symm.trans hFunc
    obtain ⟨t, rest, hRest, ht⟩ := Parser.exists_token hProper hKind (by decide)
    have hAdvance : c.advance = { c with previous := t.span, rest } := by rw [Cursor.advance, hRest]
    have hNext : c.advance.IsProper := (c.advances_reaches c c.reaches_self).isProper hProper
    obtain ⟨s', hSignature⟩ := Parser.signature_of_goType hProper.stop_kind hKind h
    obtain ⟨us, hus, hPhrase⟩ := Parser.reads_signature (Parser.reads_goType _) c.advance s' c' hNext
      (Nat.lt_succ_self _) trivial hSignature
    have hBehind : rest = us ++ c'.rest := by
      rw [← hus.rest_eq, hAdvance]
    have hWhole : c.rest = [t] ++ us ++ c'.rest := by
      rw [hRest, hBehind]
      rfl
    obtain rfl : word' = [t] ++ us := List.append_cancel_right (hTakes.rest_eq.symm.trans hWhole)
    refine ⟨[t], us, hWhole, hWord.phrase, ⟨⟨t, rfl, ht⟩, ?_⟩, hPhrase.ne_nil,
      fun first last hHead hLast => ?_, hRun⟩
    · rw [← nextKind_append c'.rest hPhrase.ne_nil, ← hus.rest_eq, ← Parser.kind_eq hNext]
      exact Parser.kind_of_signature hSignature
    · have hLast' : ([t] ++ us).getLast? = some last := by
        rw [List.singleton_append, List.getLast?_cons, hLast]
        rfl
      rw [hSpan, hReaches.previous_eq hWhole hLast']
      congr 2
      exact Cursor.current_eq_of_head? hus.rest_eq hHead
  · have hOpens : type.OpensWith [] word' := by
      cases type with
      | func s => exact absurd rfl hFunc
      | _ => rfl
    have hStart : type.start c = c := by
      cases type with
      | func s => exact absurd rfl hFunc
      | _ => rfl
    refine ⟨[], word', hTakes.rest_eq, hWord.phrase, hOpens, hWord.phrase.ne_nil,
      fun first last hHead hLast => ?_, hRun⟩
    rw [hSpan, hStart, hReaches.previous_eq hTakes.rest_eq hLast,
      Cursor.current_eq_of_head? hTakes.rest_eq hHead]

end GoTemplate
