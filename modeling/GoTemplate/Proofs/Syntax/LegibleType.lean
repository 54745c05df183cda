import GoTemplate.Proofs.Syntax.Rows
import GoTemplate.Proofs.Syntax.SpecWords
import GoTemplate.Proofs.Syntax.TypeParts

/-!
Types that were read are legible. The look-aheads of the grammar see to it that lists of parameters are
of one kind, that only names and pointers are embedded, and that a channel type without an arrow is not
followed by one.
-/

namespace GoTemplate

open Brackets

/-- Only a semicolon may be written out as another text than its own. -/
theorem Token.text_eq_lexeme (t : Token) (h : t.kind ≠ .semicolon) : t.text = t.lexeme := by
  have hAutomatic : t.isAutomatic = false := by simp [isAutomatic, h]
  rw [text, hAutomatic]
  rfl

/-- The tokens to come are spelled, as those of a source are. -/
structure Cursor.IsSpelled (c : Cursor) : Prop where
  stop_kind : c.stop.kind = .endOfSource
  rest : ∀ t ∈ c.rest, t.kind ≠ .endOfSource ∧ t.kind ≠ .comment ∧ Lexeme.Spells t.kind t.text

theorem Cursor.IsSpelled.isProper {c : Cursor} (h : c.IsSpelled) : c.IsProper :=
  ⟨h.stop_kind, fun t ht => (h.rest t ht).1⟩

theorem Cursor.IsSpelled.of_rest {c d : Cursor} (word : List Token) (h : c.IsSpelled)
    (hRest : c.rest = word ++ d.rest) (hStop : d.stop = c.stop) : d.IsSpelled :=
  ⟨hStop ▸ h.stop_kind, fun t ht => h.rest t (hRest ▸ List.mem_append_right word ht)⟩

theorem Cursor.advances_isSpelled : Parser.Advances Cursor.IsSpelled := by
  rintro ⟨previous, rest, stop⟩ hc
  cases rest with
  | nil => exact hc
  | cons t rest => exact hc.of_rest [t] rfl rfl

open Cursor (advances_isSpelled)

namespace Parser

variable {α : Type}

/-! ## Names -/

section

variable {Pre : Cursor → Prop} {k : TokenKind}

/-- What holds of a token that was taken, and of the place after it. -/
def TakesSpelled (k : TokenKind) (t : Token) (c : Cursor) : Prop :=
  c.IsSpelled ∧ t.kind = k ∧ Lexeme.Spells k t.text

theorem ensures_token (hk : k ≠ .endOfSource) (hPre : ∀ c, Pre c → c.IsSpelled ∧ c.kind = k) :
    Ensures Pre take (TakesSpelled k) := by
  rintro c _ _ hStart ⟨⟩
  obtain ⟨hSpelled, hKind⟩ := hPre c hStart
  obtain ⟨t, rest, hRest, ht⟩ := exists_token hSpelled.isProper hKind hk
  have hCurrent : c.current = t := by rw [Cursor.current, hRest]; rfl
  rw [hCurrent]
  refine ⟨advances_isSpelled c hSpelled, ht, ?_⟩
  rw [← ht]
  exact (hSpelled.rest t (hRest ▸ List.mem_cons_self)).2.2

theorem ensures_isName :
    Ensures Cursor.IsSpelled identifier fun name c => c.IsSpelled ∧ IsName name.name := by
  refine ensures_kind fun found => ?_
  by_cases hFound : found = .identifier
  · rw [if_pos hFound]
    refine (ensures_token (by decide) fun c hc => ⟨hc.1, hc.2.trans hFound⟩).bind fun t => ?_
    refine ensures_pure fun c ⟨hc, hKind, hSpells⟩ => ⟨hc, ?_⟩
    rwa [t.text_eq_lexeme (by simp [hKind])] at hSpells
  · rw [if_neg hFound]
    exact ensures_reject

theorem ensures_memberName_isName : Ensures Cursor.IsSpelled memberName fun second c =>
    c.IsSpelled ∧ ∀ name ∈ second, IsName name.name := by
  refine (ensures_eat advances_isSpelled).bind fun dot => ?_
  cases dot with
  | false => exact ensures_pure fun c hc => ⟨hc.1, by simp⟩
  | true =>
      refine Ensures.map (ensures_isName.pre fun c hc => hc.1) fun name c hc => ⟨hc.1, ?_⟩
      simpa using hc.2

theorem ensures_tag_isTag : Ensures Cursor.IsSpelled tag fun found c =>
    c.IsSpelled ∧ ∀ text ∈ found, IsTag text := by
  have hTag {l : Literal} (hl : l = .string ∨ l = .rawString) :
      Ensures (fun c => c.IsSpelled ∧ c.kind = .literal l) (do return some (← take).lexeme)
        fun found c => c.IsSpelled ∧ ∀ text ∈ found, IsTag text := by
    refine (ensures_token (by simp) fun c hc => hc).bind fun t => ?_
    refine ensures_pure fun c ⟨hc, hKind, hSpells⟩ => ⟨hc, ?_⟩
    rw [t.text_eq_lexeme (by simp [hKind])] at hSpells
    rintro _ ⟨⟩
    rcases hl with rfl | rfl
    · exact .inl hSpells
    · exact .inr hSpells
  refine ensures_kind fun found => ?_
  split
  · exact hTag (.inl rfl)
  · exact hTag (.inr rfl)
  · exact ensures_pure fun c hc => ⟨hc.1, by simp⟩

end

/-! ## Lengths -/

/-- The token as it is written out. -/
def writtenOut (t : Token) : Token := ⟨t.kind, t.text, .none⟩

theorem isLength_of_spelled {ws : List Token} (hNe : ws ≠ []) (hBalanced : Balanced ws)
    (hSpelled : ∀ t ∈ ws, t.kind ≠ .endOfSource ∧ t.kind ≠ .comment ∧ Lexeme.Spells t.kind t.text)
    (hEllipsis : nextKind ws = .operator .ellipsis → ∃ t, ws = [t]) :
    IsLength (Text.joinWithSpaces (ws.map Token.text)) := by
  refine ⟨ws.map writtenOut, ?_, by simpa using hNe, ?_, ?_, ?_⟩
  · rw [Token.row, List.map_map]
    rfl
  · refine hBalanced.of_kinds ?_
    rw [List.map_map]
    rfl
  · intro w hw
    obtain ⟨t, ht, rfl⟩ := List.mem_map.1 hw
    exact (hSpelled t ht).2
  · intro hKind
    have hFirst : nextKind ws = .operator .ellipsis := by
      rw [← hKind]
      cases ws <;> rfl
    obtain ⟨t, rfl⟩ := hEllipsis hFirst
    exact ⟨writtenOut t, rfl⟩

theorem ensures_expression_isLength : Ensures (fun c => c.IsSpelled ∧ c.kind ≠ .operator .ellipsis)
    (expression fun _ => false) fun length c => c.IsSpelled ∧ (c.rest ≠ [] → IsLength length) := by
  rintro c length c' ⟨hc, hKind⟩ hRun
  rw [expression] at hRun
  cases hSplit : splitExpression (fun _ => false) [] c.rest with
  | error e => rw [hSplit] at hRun; cases hRun
  | ok split =>
      obtain ⟨taken, rest⟩ := split
      rw [hSplit] at hRun
      dsimp only at hRun
      cases hLast : taken.getLast? with
      | none => rw [hLast] at hRun; cases hRun
      | some last =>
          rw [hLast] at hRun
          cases hRun
          obtain ⟨hRest, ⟨final, hFinal, hEnd⟩, -, -⟩ := splitExpression_eq_ok hSplit
          refine ⟨hc.of_rest taken hRest rfl, fun hMore => ?_⟩
          have hNe : taken ≠ [] := by
            rintro rfl
            cases hLast
          have hClosed : final = [] := by
            by_contra hOpen
            exact hMore (hEnd hOpen)
          refine isLength_of_spelled hNe (balanced_of_openAfter (hClosed ▸ hFinal))
            (fun t ht => hc.rest t (hRest ▸ List.mem_append_left rest ht)) fun hFirst => ?_
          rw [kind_eq hc.isProper, hRest, nextKind_append rest hNe] at hKind
          exact absurd hFirst hKind

theorem ensures_arrayLength_isLength : Ensures Cursor.IsSpelled arrayLength fun length c =>
    c.IsSpelled ∧ (c.rest ≠ [] → IsLength length) := by
  refine ensures_kind fun found => ?_
  by_cases hFound : found = .operator .ellipsis
  · rw [if_pos hFound]
    refine (ensures_token (by decide) fun c hc => ⟨hc.1, hc.2.trans hFound⟩).bind fun t => ?_
    refine ensures_pure fun c ⟨hc, hKind, hSpells⟩ => ⟨hc, fun _ => ?_⟩
    have hText : t.text = t.lexeme := t.text_eq_lexeme (by simp [hKind])
    have hPlain : IsPlain t := isPlain_of_isInner (by rw [hKind]; rfl)
    have hLength := isLength_of_spelled (List.cons_ne_nil t []) (.singleton hPlain)
      (by simpa [hKind] using hSpells) fun _ => ⟨t, rfl⟩
    rwa [List.map_singleton, Text.joinWithSpaces_singleton, hText] at hLength
  · rw [if_neg hFound]
    exact ensures_expression_isLength.pre fun c hc => ⟨hc.1, fun hKind => hFound (hc.2.symm.trans hKind)⟩

/-- Before a token that is expected, there is a token. -/
theorem ensures_expect_rest {k : TokenKind} (hk : k ≠ .endOfSource) {P : Prop} :
    Ensures (fun c => c.IsSpelled ∧ (c.rest ≠ [] → P)) (expect k) fun _ c => c.IsSpelled ∧ P := by
  rintro c t c' ⟨hc, hP⟩ hRun
  refine ⟨ensures_expect advances_isSpelled c t c' hc hRun, hP fun hNil => ?_⟩
  obtain ⟨word, hRest, -, rfl, -⟩ := exists_rest (fun _ => reads_expect hk) hc.isProper hRun
  rw [hNil] at hRest
  cases hRest

/-! ## Forms of types -/

/-- The reader of types gives legible ones, and the first token of their texts is of the kind of the
token at which the reader starts. -/
def GivesLegible (type : Parser GoType) : Prop :=
  ∀ k, Ensures (fun c => c.IsSpelled ∧ c.kind = k) type fun found c =>
    c.IsSpelled ∧ found.IsLegible ∧ found.firstKind = k

/-- What is read is formed, and the first token of its text is of the kind `k`. -/
def GivesFormed (k : TokenKind) (type : Parser GoType) : Prop :=
  Ensures Cursor.IsSpelled type fun found _ => found.IsFormed ∧ found.firstKind = k

section

variable {type : Parser GoType} (hType : GivesLegible type)

include hType

theorem ensures_type_kind {P : TokenKind → Prop} :
    Ensures (fun c => c.IsSpelled ∧ P c.kind) type fun found c =>
      (c.IsSpelled ∧ found.IsLegible) ∧ P found.firstKind := by
  rintro c found c' ⟨hc, hKind⟩ hRun
  obtain ⟨hc', hFound, hFirst⟩ := hType c.kind c found c' ⟨hc, rfl⟩ hRun
  exact ⟨⟨hc', hFound⟩, hFirst ▸ hKind⟩

theorem ensures_type : Ensures Cursor.IsSpelled type fun found c => c.IsSpelled ∧ found.IsLegible :=
  (ensures_type_kind hType (P := fun _ => True)).mono (fun _ hc => ⟨hc, trivial⟩) fun _ _ h => h.1

theorem ensures_type_isSpelled : Ensures Cursor.IsSpelled type fun _ c => c.IsSpelled :=
  (ensures_type hType).mono (fun _ hc => hc) fun _ _ h => h.1

omit hType in
theorem givesFormed_namedType : GivesFormed .identifier (namedType type) := by
  refine ensures_isName.bind fun first => ensures_memberName_isName.keep.bind fun second => ?_
  refine .known fun hName => .known fun hMember => ?_
  refine ensures_any.bind fun args => ensures_any.bind fun span => ?_
  cases second with
  | none => exact ensures_pure fun _ _ => ⟨⟨by simp, hName⟩, rfl⟩
  | some name => exact ensures_pure fun _ _ => ⟨⟨by simpa using hName, hMember name rfl⟩, rfl⟩

/-! ### Parameters -/

theorem ensures_entry_isName : Ensures Cursor.IsSpelled (paramEntry type) fun entry c =>
    c.IsSpelled ∧ ∀ name ∈ entry.name?, IsName name.name := by
  have hOnly {make : GoType → ParamEntry} {K : Prop}
      (hMake : ∀ found, K → ∀ name ∈ (make found).name?, IsName name.name) :
      Ensures (fun c => c.IsSpelled ∧ K) (do return make (← type)) fun entry c =>
        c.IsSpelled ∧ ∀ name ∈ entry.name?, IsName name.name :=
    (ensures_type_isSpelled hType).keep.bind fun found => ensures_pure fun c hc => ⟨hc.1, hMake found hc.2⟩
  refine ensures_look fun form => ?_
  cases form with
  | ellipsis =>
      refine ((ensures_take advances_isSpelled).pre fun c hc => hc.1).bind fun _ => ?_
      exact (hOnly (K := True) fun _ _ => by simp [ParamEntry.name?]).pre fun c hc => ⟨hc, trivial⟩
  | bareName =>
      refine (ensures_isName.pre fun c hc => hc.1).bind fun name => ?_
      exact ensures_pure fun c hc => ⟨hc.1, by simpa [ParamEntry.name?] using hc.2⟩
  | type => exact (hOnly (K := True) fun _ _ => by simp [ParamEntry.name?]).pre fun c hc => ⟨hc.1, trivial⟩
  | nameAndType =>
      refine (ensures_isName.pre fun c hc => hc.1).bind fun name => ?_
      refine (ensures_eat advances_isSpelled).keep.bind fun variadic => ?_
      exact (hOnly fun _ hName => by simpa [ParamEntry.name?] using hName).pre fun c hc => ⟨hc.1.1, hc.2⟩

omit hType in
theorem isParamList_of_resolve {opened : Span} {entries : List ParamEntry} {params : List (Param GoType)}
    (hEntries : ∀ entry ∈ entries, ∀ name ∈ entry.name?, IsName name.name)
    (h : ParamEntry.resolve opened entries = .ok params) : IsParamList params := by
  rw [ParamEntry.resolve] at h
  split at h
  · cases hNamed : ParamEntry.toNamed opened entries with
    | error e => rw [hNamed] at h; cases h
    | ok result =>
        rw [hNamed] at h
        cases h
        exact .inr (((ParamEntry.toNamed_eq_ok_iff ..).1 hNamed).1.exists_isName hEntries)
  · rename_i hNone
    cases h
    refine .inl (List.forall_mem_map.2 fun entry hEntry => ?_)
    cases entry with
    | bare | unnamed => rfl
    | named => exact absurd (List.any_eq_true.2 ⟨_, hEntry, rfl⟩) hNone

theorem ensures_params_isParamList : Ensures Cursor.IsSpelled (params type) fun params c =>
    c.IsSpelled ∧ IsParamList params := by
  refine (ensures_expect advances_isSpelled).bind fun opened => ?_
  refine (ensures_commaList? advances_isSpelled (ensures_entry_isName hType)).bind fun entries => ?_
  refine (ensures_expect advances_isSpelled).keep.bind fun _ => ?_
  rintro c found c' ⟨hc, hEntries⟩ hRun
  cases hResolve : ParamEntry.resolve opened.span entries with
  | error e => rw [hResolve] at hRun; cases hRun
  | ok params =>
      rw [hResolve] at hRun
      cases hRun
      exact ⟨hc, isParamList_of_resolve hEntries hResolve⟩

theorem ensures_results_isParamList : Ensures Cursor.IsSpelled (results type) fun params c =>
    c.IsSpelled ∧ IsParamList params := by
  have hSingle : Ensures Cursor.IsSpelled (do return [(⟨none, ← type, false⟩ : Param GoType)])
      fun params c => c.IsSpelled ∧ IsParamList params :=
    (ensures_type_isSpelled hType).bind fun found => ensures_pure fun c hc => ⟨hc, .inl (by simp)⟩
  refine ensures_kind fun found => ?_
  split
  case h_1 => exact (ensures_params_isParamList hType).pre fun c hc => hc.1
  case h_11 => exact ensures_pure fun c hc => ⟨hc.1, .inl (by simp)⟩
  all_goals exact hSingle.pre fun c hc => hc.1

theorem ensures_signature_isLegible : Ensures Cursor.IsSpelled (signature type) fun signature c =>
    c.IsSpelled ∧ signature.IsLegible := by
  refine ensures_here.bind fun start => (ensures_params_isParamList hType).bind fun params => ?_
  refine (ensures_results_isParamList hType).keep.bind fun results => (ensures_spanFrom start).bind fun span => ?_
  exact ensures_pure fun c ⟨⟨hc, hResults⟩, hParams⟩ => ⟨hc, hParams, hResults⟩

/-! ### Fields and elements -/

omit hType in
theorem ensures_fieldNames_isName :
    Ensures (fun c => c.IsSpelled ∧ (c.kind = .identifier ∨ c.kind = .operator .mul)) fieldNames
      fun names c => (c.IsSpelled ∧ (names = [] → c.kind = .identifier ∨ c.kind = .operator .mul)) ∧
        ∀ name ∈ names, IsName name.name := by
  refine ensures_look fun embedded => ?_
  cases embedded with
  | true => exact ensures_pure fun c hc => ⟨⟨hc.1.1, fun _ => hc.1.2⟩, by simp⟩
  | false =>
      refine (ensures_sepBy advances_isSpelled ensures_isName).mono (fun c hc => hc.1.1) fun names c hc => ?_
      exact ⟨⟨hc.1, fun hNil => absurd hNil hc.2.1⟩, hc.2.2⟩

theorem ensures_field_isLegible : Ensures Cursor.IsSpelled (field type) fun found c =>
    c.IsSpelled ∧ found.IsLegible := by
  have hStart : Ensures Cursor.IsSpelled fieldStart fun _ c =>
      c.IsSpelled ∧ (c.kind = .identifier ∨ c.kind = .operator .mul) := by
    refine ensures_kind fun found => ?_
    split
    · exact ensures_pure fun c hc => ⟨hc.1, .inr hc.2⟩
    · exact ensures_pure fun c hc => ⟨hc.1, .inl hc.2⟩
    · exact ensures_reject
  refine hStart.bind fun _ => ensures_fieldNames_isName.bind fun names => ?_
  refine (ensures_type_kind hType (P := fun k => names = [] → k = .identifier ∨ k = .operator .mul)).keep.bind
    fun fieldType => ?_
  refine .known fun hNames => .known fun hFirst => (ensures_tag_isTag.pre fun c hc => hc.1).bind fun text => ?_
  exact ensures_pure fun c ⟨hc, hText⟩ => ⟨hc, hNames, hFirst, hText⟩

theorem ensures_element_isLegible : Ensures Cursor.IsSpelled (interfaceElement type) fun element c =>
    c.IsSpelled ∧ element.IsLegible := by
  refine ensures_kind fun found => ensures_look fun next => ?_
  split
  · refine (ensures_isName.pre fun c hc => hc.1.1).bind fun name => ?_
    refine (ensures_signature_isLegible hType).keep.bind fun signature => ?_
    exact ensures_pure fun c ⟨⟨hc, hShape⟩, hName⟩ => ⟨hc, hName, hShape⟩
  · refine ((ensures_constraint advances_isSpelled (ensures_type hType)).pre fun c hc => hc.1.1).bind
      fun terms => ?_
    exact ensures_pure fun c ⟨hc, hNe, _⟩ => ⟨hc, hNe⟩

/-! ### All forms -/

omit hType in
theorem givesFormed_sequenceType (start : Span) :
    GivesFormed (.opening .square) (sequenceType type start) := by
  refine (ensures_eat advances_isSpelled).bind fun empty => ?_
  cases empty with
  | true =>
      exact ensures_any.bind fun elem => ensures_any.bind fun span => ensures_pure fun _ _ => ⟨trivial, rfl⟩
  | false =>
      refine (ensures_arrayLength_isLength.pre fun c hc => hc.1).bind fun length => ?_
      refine (ensures_expect_rest (by decide)).bind fun _ => .known fun hLength => ?_
      exact ensures_any.bind fun elem => ensures_any.bind fun span => ensures_pure fun _ _ => ⟨hLength, rfl⟩

/-- A type of any form is formed, and starts as it was told by. -/
theorem ensures_typeForm_isFormed (k : TokenKind) :
    Ensures (fun c => c.IsSpelled ∧ c.kind = k) (typeForm type) fun found _ =>
      found.IsFormed ∧ found.firstKind = k := by
  refine ensures_here.bind fun start => ensures_kind fun found => ?_
  refine Ensures.of_pre (fun c hc => hc.2.symm.trans hc.1.2) fun (hFound : found = k) => ?_
  subst hFound
  suffices h : GivesFormed found _ from h.pre fun c hc => hc.1.1
  have hElem {make : GoType → Span → GoType}
      (hMake : ∀ elem span, (make elem span).IsFormed ∧ (make elem span).firstKind = found) :
      GivesFormed found (do let elem ← type; return make elem (← spanFrom start)) :=
    ensures_any.bind fun elem => ensures_any.bind fun span => ensures_pure fun _ _ => hMake elem span
  have hTake {f : Token → Parser GoType} (hf : ∀ t, GivesFormed found (f t)) :
      GivesFormed found (take >>= f) :=
    (ensures_take advances_isSpelled).bind hf
  split
  case h_1 => exact givesFormed_namedType
  case h_2 => exact hTake fun _ => hElem fun _ _ => ⟨trivial, rfl⟩
  case h_3 => exact hTake fun _ => givesFormed_sequenceType start
  case h_4 =>
    exact hTake fun _ => ensures_any.bind fun _ => ensures_any.bind fun key => ensures_any.bind fun _ =>
      ensures_any.bind fun value => ensures_any.bind fun span => ensures_pure fun _ _ => ⟨trivial, rfl⟩
  case h_5 =>
    refine hTake fun _ => (ensures_eat advances_isSpelled).bind fun sends => ?_
    refine (ensures_type_kind hType (P := fun k => sends = false → k ≠ .operator .arrow)).bind
      fun elem => (ensures_spanFrom start).bind fun span => ensures_pure fun c ⟨_, hFirst⟩ => ?_
    cases sends with
    | false => exact ⟨fun _ => hFirst rfl, rfl⟩
    | true => exact ⟨by rintro ⟨⟩, rfl⟩
  case h_6 =>
    exact hTake fun _ => (ensures_expect advances_isSpelled).bind fun _ =>
      hElem fun _ _ => ⟨by rintro ⟨⟩, rfl⟩
  case h_7 =>
    exact hTake fun _ => (ensures_signature_isLegible hType).bind fun signature =>
      ensures_pure fun _ hc => ⟨hc.2, rfl⟩
  case h_8 =>
    have hStruct : Ensures Cursor.IsSpelled (structType type) fun found c =>
        c.IsSpelled ∧ found.IsFormed ∧ found.firstKind = .keyword .struct :=
      ensures_block advances_isSpelled (.keyword .struct) .struct (ensures_field_isLegible hType)
        fun _ _ hFields => ⟨hFields, rfl⟩
    exact hStruct.mono (fun _ hc => hc) fun _ _ h => h.2
  case h_9 =>
    have hInterface : Ensures Cursor.IsSpelled (interfaceType type) fun found c =>
        c.IsSpelled ∧ found.IsFormed ∧ found.firstKind = .keyword .interface :=
      ensures_block advances_isSpelled (.keyword .interface) .interface (ensures_element_isLegible hType)
        fun _ _ hElements => ⟨hElements, rfl⟩
    exact hInterface.mono (fun _ hc => hc) fun _ _ h => h.2
  case h_10 =>
    exact hTake fun _ => ensures_any.bind fun inner => ensures_any.bind fun _ => ensures_any.bind fun span =>
      ensures_pure fun _ _ => ⟨trivial, rfl⟩
  case h_11 => exact ensures_reject

omit hType in
/-- A name alone in a list of parameters is a legible type. -/
theorem isLegible_of_bareName {c : Cursor} (hc : c.IsSpelled) (hForm : entryForm c = .bareName) :
    (GoType.ofName ⟨c.current.lexeme, c.current.span⟩).IsLegible := by
  obtain ⟨t, rest, hRest, ht⟩ := exists_token hc.isProper (kinds_of_bareName hForm).1 (by decide)
  have hSpells := (hc.rest t (hRest ▸ List.mem_cons_self)).2.2
  rw [t.text_eq_lexeme (by simp [ht]), ht] at hSpells
  have hCurrent : c.current = t := by rw [Cursor.current, hRest]; rfl
  rw [hCurrent]
  exact .intro ⟨by simp, hSpells⟩ (List.forall_mem_nil _)

theorem givesLegible_typeForm : GivesLegible (typeForm type) := by
  intro k
  have hParts : Ensures (fun c => c.IsSpelled ∧ c.kind = k) (typeForm type) fun found c =>
      c.IsSpelled ∧ ∀ part ∈ found.parts, part.IsLegible :=
    (ensures_typeForm advances_isSpelled (ensures_type hType) fun _ => isLegible_of_bareName).pre
      fun c hc => hc.1
  exact (hParts.and (ensures_typeForm_isFormed hType k)).mono (fun _ hc => hc)
    fun _ _ ⟨⟨hc, hLegible⟩, hFormed, hFirst⟩ => ⟨hc, .intro hFormed hLegible, hFirst⟩

end

/-- Types that were read are legible. -/
theorem givesLegible_goType : GivesLegible goType := by
  intro k c found c' hc hRun
  generalize hn : c.rest.length = n
  induction n using Nat.strong_induction_on generalizing k c found c' with
  | h n ih =>
      rw [goType] at hRun
      refine givesLegible_typeForm (fun k inner part d hInner hPart => ?_) k c found c' hc hRun
      by_cases hLess : inner.rest.length < c.rest.length
      · rw [dif_pos hLess] at hPart
        exact ih _ (hn ▸ hLess) k inner part d hInner hPart rfl
      · rw [dif_neg hLess] at hPart
        cases hPart

end Parser

end GoTemplate
