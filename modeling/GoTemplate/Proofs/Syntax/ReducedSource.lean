import GoTemplate.Proofs.Syntax.Tracking

/-!
What is left of a source file is a source file. Statements may be taken out wherever one may start: of
groups of declarations and of the file itself, of struct and interface types and of the bodies of
functions. The other tokens may be any of the same kinds.
-/

namespace GoTemplate

open Brackets

/-! ## Parameters -/

namespace ParamEntry

/-- Entries of parameter lists that are written in the same form. -/
inductive SameForm : ParamEntry → ParamEntry → Prop where
  | bare (name name' : Identifier) : SameForm (.bare name) (.bare name')
  | unnamed (type type' : GoType) (variadic variadic' : Bool) :
      SameForm (.unnamed type variadic) (.unnamed type' variadic')
  | named (name name' : Identifier) (type type' : GoType) (variadic variadic' : Bool) :
      SameForm (.named name type variadic) (.named name' type' variadic')

variable {entries entries' : List ParamEntry} {opened : Span}

theorem any_isNamed_sameForm (h : List.Forall₂ SameForm entries entries') :
    entries.any isNamed = entries'.any isNamed := by
  induction h with
  | nil => rfl
  | cons hEntry _ ih => cases hEntry <;> simp [isNamed, ih]

/-- Whether names go with types depends on the forms of the entries. -/
theorem toNamed_sameForm {params : List (Param GoType)} {next : Option GoType}
    (h : List.Forall₂ SameForm entries entries') (opened' : Span)
    (hNamed : toNamed opened entries = .ok (params, next)) :
    ∃ params' next', toNamed opened' entries' = .ok (params', next') ∧
      params.length = params'.length ∧ next.isSome = next'.isSome := by
  induction h generalizing params next with
  | nil =>
      cases hNamed
      exact ⟨[], none, rfl, rfl, rfl⟩
  | @cons entry entry' entries entries' hEntry _ ih =>
      rw [toNamed] at hNamed
      cases hTail : toNamed opened entries with
      | error e => rw [hTail] at hNamed; cases hNamed
      | ok tail =>
          obtain ⟨others, later⟩ := tail
          obtain ⟨others', later', hTail', hLength, hSome⟩ := ih hTail
          rw [hTail] at hNamed
          cases hEntry with
          | named name name' type type' variadic variadic' =>
              cases hNamed
              refine ⟨⟨some name', type', variadic'⟩ :: others', some type', ?_, by simp [hLength], rfl⟩
              rw [toNamed, hTail']
              rfl
          | unnamed => cases hNamed
          | bare name name' =>
              cases later with
              | none => cases hNamed
              | some type =>
                  cases hNamed
                  obtain ⟨type', rfl⟩ := Option.isSome_iff_exists.1 hSome.symm
                  refine ⟨⟨some name', type', false⟩ :: others', some type', ?_, by simp [hLength],
                    rfl⟩
                  rw [toNamed, hTail']
                  rfl

theorem resolve_sameForm {params : List (Param GoType)}
    (h : List.Forall₂ SameForm entries entries') (opened' : Span)
    (hResolve : resolve opened entries = .ok params) :
    ∃ params', resolve opened' entries' = .ok params' ∧ params.length = params'.length := by
  unfold resolve at hResolve ⊢
  rw [← any_isNamed_sameForm h]
  split at hResolve
  · rw [if_pos ‹_›]
    cases hNamed : toNamed opened entries with
    | error e => rw [hNamed] at hResolve; cases hResolve
    | ok result =>
        rw [hNamed] at hResolve
        cases hResolve
        obtain ⟨params', next', hNamed', hLength, -⟩ := toNamed_sameForm h opened' hNamed
        exact ⟨params', by rw [hNamed']; rfl, hLength⟩
  · cases hResolve
    rw [if_neg ‹_›]
    exact ⟨_, rfl, by simp [h.length_eq]⟩

end ParamEntry

/-! ## Types -/

namespace Parser

open Cursor

/-! ### Look-aheads -/

section

variable {c d : Cursor}

theorem lookAhead_alike (h : c.Alike d) (hName : c.kind = .identifier) :
    c.kindAt 1 = d.kindAt 1 ∧ (d.kindAt 1 = .opening .square →
      kindAfter 0 (c.rest.drop 1) = kindAfter 0 (d.rest.drop 1)) := by
  have hInside : ∀ j < 1, (nextKind (c.rest.drop j)).opensStatement = false := by
    intro j hj
    obtain rfl : j = 0 := by omega
    rw [List.drop_zero, ← kind_eq h.left, hName]
    rfl
  have hDrop := h.reduces.drop 1 hInside
  rw [kindAt_eq h.left, kindAt_eq h.right, hDrop.nextKind_eq]
  refine ⟨rfl, fun hSquare => kindAfter_square_reduces hDrop ?_⟩
  rw [hDrop.nextKind_eq, hSquare]

theorem entryForm_alike (h : c.Alike d) : entryForm c = entryForm d := by
  by_cases hName : c.kind = .identifier
  · obtain ⟨hNext, hAfter⟩ := lookAhead_alike h hName
    exact entryForm_congr h.kind_eq hNext hAfter
  · have hOnly : ∀ e : Cursor, e.kind ≠ .identifier →
        entryForm e = if e.kind = .operator .ellipsis then .ellipsis else .type := by
      intro e he
      rw [entryForm]
      split <;> simp_all
    rw [hOnly c hName, hOnly d (h.kind_eq ▸ hName), h.kind_eq]

theorem isEmbeddedField_alike (h : c.Alike d) (hStart : c.kind = .operator .mul ∨ c.kind = .identifier) :
    isEmbeddedField c = isEmbeddedField d := by
  rcases hStart with hPointer | hName
  · have hPointer' : d.kind = .operator .mul := h.kind_eq ▸ hPointer
    simp [isEmbeddedField, hPointer, hPointer']
  · obtain ⟨hNext, hAfter⟩ := lookAhead_alike h hName
    exact isEmbeddedField_congr h.kind_eq hNext hAfter

end

/-! ### Forms of types -/

section

variable {n : Nat} {type : Parser GoType} (hReads : Reads n type fun _ w r => TypeWord w r)
  (hType : Follows n type type)

include hReads hType

theorem follows_typeArgs : Follows n (typeArgs type) (typeArgs type) :=
  (follows_expect rfl).bind fun _ _ _ =>
    (tracks_commaList? _ (reads_type_phrase hReads) hType).bind fun _ _ _ =>
      (follows_expect rfl).bind fun _ _ _ => tracks_pure trivial

omit hReads hType in
theorem tracks_memberName :
    Tracks n Alike memberName memberName (fun name name' => name.isSome = name'.isSome) Alike := by
  apply (tracks_eat rfl).bind
  rintro dot _ rfl
  cases dot with
  | false => exact tracks_pure rfl
  | true => exact follows_identifier.map fun _ _ _ => rfl

theorem follows_namedType :
    Tracks (n + 1) (fun c d => c.Alike d ∧ c.kind = .identifier) (namedType type) (namedType type) (fun _ _ => True) Alike := by
  apply follows_identifier.from.bind_takes (fun c d h => ⟨h.1.left.stop_kind, trivial⟩)
    takesToken_identifier
  intro first first' _
  apply tracks_memberName.bind
  intro second second' hSome
  apply (tracks_ifNext (follows_typeArgs hReads hType) trivial).bind
  intro args args' _
  apply (tracks_spanFrom first.span first'.span).bind
  intro span span' _
  cases second with
  | none =>
      obtain rfl : second' = none := by simpa using hSome.symm
      exact tracks_pure trivial
  | some name =>
      obtain ⟨name', rfl⟩ := Option.isSome_iff_exists.1 hSome.symm
      exact tracks_pure trivial

omit hReads in
theorem tracks_paramEntry :
    Tracks n Alike (paramEntry type) (paramEntry type) ParamEntry.SameForm Alike := by
  apply tracks_look fun c d h => entryForm_alike h
  intro form
  cases form with
  | ellipsis =>
      refine ((tracks_take rfl).pre fun c d h => ⟨h.1, kind_of_entryForm h.2⟩).bind fun _ _ _ =>
        hType.bind fun _ _ _ => tracks_pure (.unnamed _ _ _ _)
  | bareName => exact follows_identifier.from.bind fun _ _ _ => tracks_pure (.bare _ _)
  | type => exact hType.from.bind fun _ _ _ => tracks_pure (.unnamed _ _ _ _)
  | nameAndType =>
      exact follows_identifier.from.bind fun _ _ _ => (tracks_eat rfl).bind fun _ _ _ =>
        hType.bind fun _ _ _ => tracks_pure (.named _ _ _ _ _ _)

theorem tracks_params :
    Tracks n Alike (params type) (params type) (fun params params' => params.length = params'.length)
      Alike := by
  apply tracks_expect_statement.bind
  intro opened opened' _
  apply tracks_closing (reads_commaList? (reads_paramEntry hReads))
  exact (tracks_commaList? _ (reads_paramEntry hReads) (tracks_paramEntry hType)).bind
    fun _ _ hEntries => (follows_expect rfl).bind fun _ _ _ =>
      tracks_lift fun _ => ParamEntry.resolve_sameForm hEntries opened'.span

theorem follows_results : Follows n (results type) (results type) := by
  have hSingle : Follows n (do return [(⟨none, ← type, false⟩ : Param GoType)])
      (do return [(⟨none, ← type, false⟩ : Param GoType)]) :=
    hType.bind fun _ _ _ => tracks_pure trivial
  have hParams : Follows n (params type) (params type) :=
    (tracks_params hReads hType).post (fun _ _ _ => trivial) fun _ _ h => h
  have hNothing : Follows n (pure ([] : List (Param GoType))) (pure ([] : List (Param GoType))) :=
    tracks_pure trivial
  apply tracks_kind_bind
  intro k
  split
  case h_1 => exact hParams.from
  case h_11 => exact hNothing.from
  all_goals exact hSingle.from

theorem follows_signature : Follows n (signature type) (signature type) :=
  tracks_here.bind fun start start' _ => (tracks_params hReads hType).bind fun _ _ _ =>
    (follows_results hReads hType).bind fun _ _ _ => (tracks_spanFrom start start').bind
      fun _ _ _ => tracks_pure trivial

theorem follows_constraint : Follows n (constraint type) (constraint type) := by
  have hTerm : Follows n (term type) (term type) :=
    (tracks_eat rfl).bind fun _ _ _ => hType.bind fun _ _ _ => tracks_pure trivial
  exact follows_sepBy rfl (reads_term hReads) hTerm

omit hReads hType in
theorem follows_tag : Follows n tag tag := by
  apply tracks_kind_bind
  intro k
  split
  · exact (tracks_take rfl).bind fun _ _ _ => tracks_pure trivial
  · exact (tracks_take rfl).bind fun _ _ _ => tracks_pure trivial
  · exact (tracks_pure trivial).from

omit hReads in
theorem follows_field : Follows n (field type) (field type) := by
  have hNamed : Tracks n (fun c d => c.Alike d ∧ (c.kind = .operator .mul ∨ c.kind = .identifier)) (do
      let names ← fieldNames
      let fieldType ← type
      return (⟨names, fieldType, ← tag⟩ : Field GoType)) (do
      let names ← fieldNames
      let fieldType ← type
      return (⟨names, fieldType, ← tag⟩ : Field GoType)) (fun _ _ => True) Alike := by
    have hNames : Tracks n (fun c d => c.Alike d ∧ (c.kind = .operator .mul ∨ c.kind = .identifier))
        fieldNames fieldNames (fun _ _ => True) Alike := by
      apply tracks_look fun c d h => isEmbeddedField_alike h.1 h.2
      intro embedded
      cases embedded with
      | true => exact (tracks_pure trivial).post (fun _ _ h => h) fun _ _ h => h.1.1
      | false => exact (follows_sepBy rfl reads_identifier_phrase follows_identifier).pre fun _ _ h => h.1.1
    exact hNames.bind fun _ _ _ => hType.bind fun _ _ _ => follows_tag.bind fun _ _ _ =>
      tracks_pure trivial
  rw [field_eq]
  apply tracks_kind_bind
  intro k
  split
  · exact hNamed.pre fun _ _ h => ⟨h.1, .inl h.2⟩
  · exact hNamed.pre fun _ _ h => ⟨h.1, .inr h.2⟩
  · rintro c _ _ _ _ _ ⟨⟩

omit hReads hType in
/-- Statements in curly brackets, with the span of the whole. -/
private theorem follows_block {item : Parser α} (hItemReads : Reads n item fun _ w _ => Phrase w) (hItem : Follows n item item)
    (start start' : Span) (make : List α → Span → GoType) :
    Follows n (do
      let _ ← expect (.opening .curly)
      let items ← statements (.closing .curly) item
      let _ ← expect (.closing .curly)
      return make items (← spanFrom start)) (do
      let _ ← expect (.opening .curly)
      let items ← statements (.closing .curly) item
      let _ ← expect (.closing .curly)
      return make items (← spanFrom start')) :=
  tracks_expect_statement.bind fun _ _ _ =>
    (tracks_statements (.inl ⟨_, rfl⟩) (hItemReads.word fun _ _ r hw => hw.itemWord r) hItem).bind fun _ _ _ =>
      (follows_expect rfl).bind fun _ _ _ => (tracks_spanFrom start start').bind fun _ _ _ =>
        tracks_pure trivial

theorem follows_structType :
    Tracks (n + 1) (fun c d => c.Alike d ∧ c.kind = .keyword .struct) (structType type)
      (structType type) (fun _ _ => True) Alike := by
  apply (follows_expect rfl).from.bind_takes (fun c d h => ⟨h.1.left.stop_kind, trivial⟩)
    (takesToken_expect (by decide))
  intro keyword keyword' _
  exact follows_block (reads_field hReads) (follows_field hType) keyword.span keyword'.span _

theorem follows_interfaceElement :
    Follows n (interfaceElement type) (interfaceElement type) := by
  have hMethod : Follows n (do
      let name ← identifier
      return InterfaceElement.method name (← signature type)) (do
      let name ← identifier
      return InterfaceElement.method name (← signature type)) :=
    follows_identifier.bind fun _ _ _ => (follows_signature hReads hType).bind fun _ _ _ =>
      tracks_pure trivial
  have hUnion : Follows n (InterfaceElement.union <$> constraint type)
      (InterfaceElement.union <$> constraint type) :=
    (follows_constraint hReads hType).map fun _ _ _ => trivial
  apply tracks_kind_bind
  intro k
  by_cases hName : k = .identifier
  · subst hName
    apply tracks_look fun c d h => (lookAhead_alike h.1 h.2).1
    intro next
    split
    · exact hMethod.pre fun _ _ h => h.1.1
    · exact hUnion.pre fun _ _ h => h.1.1
  · -- Without a name the token after the next one is looked at in vain.
    simp only [hName, decide_false, Bool.false_and, Bool.false_eq_true, if_false]
    exact fun c d a c' hPre => hUnion c d a c' hPre.1

theorem follows_interfaceType :
    Tracks (n + 1) (fun c d => c.Alike d ∧ c.kind = .keyword .interface) (interfaceType type)
      (interfaceType type) (fun _ _ => True) Alike := by
  apply (follows_expect rfl).from.bind_takes (fun c d h => ⟨h.1.left.stop_kind, trivial⟩)
    (takesToken_expect (by decide))
  intro keyword keyword' _
  exact follows_block (reads_interfaceElement hReads) (follows_interfaceElement hReads hType)
    keyword.span keyword'.span _

omit hReads hType in
theorem follows_arrayLength : Follows n arrayLength arrayLength := by
  apply tracks_kind_bind
  intro k
  split
  · rename_i hEllipsis
    exact (tracks_take (hEllipsis ▸ rfl)).bind fun _ _ _ => tracks_pure trivial
  · exact (follows_expression (.inr fun _ => rfl)).from

omit hReads in
theorem follows_sequenceType (start start' : Span) :
    Follows n (sequenceType type start) (sequenceType type start') := by
  apply (tracks_eat rfl).bind
  rintro empty _ rfl
  cases empty with
  | true =>
      exact hType.bind fun _ _ _ => (tracks_spanFrom start start').bind fun _ _ _ =>
        tracks_pure trivial
  | false =>
      exact follows_arrayLength.bind fun _ _ _ => (follows_expect rfl).bind fun _ _ _ =>
        hType.bind fun _ _ _ => (tracks_spanFrom start start').bind fun _ _ _ =>
          tracks_pure trivial

/-- A type of any form takes its first token before it reads a type within it. -/
theorem follows_typeForm : Follows (n + 1) (typeForm type) (typeForm type) := by
  apply tracks_here.bind
  intro start start' _
  apply tracks_kind_bind
  intro k
  have hTake {F G : Token → Parser GoType} (hk : k ≠ .endOfSource)
      (hInside : k.opensStatement = false) (hF : ∀ t u, Follows n (F t) (G u)) :
      Tracks (n + 1) (fun c d => c.Alike d ∧ c.kind = k) (take >>= F) (take >>= G)
        (fun _ _ => True) Alike :=
    (tracks_take hInside).bind_takes (fun c d h => ⟨h.1.left.stop_kind, trivial, h.2⟩)
      (takesToken_take hk) fun t u _ => hF t u
  have hSpan : Follows n (spanFrom start) (spanFrom start') := tracks_spanFrom start start'
  split
  case h_1 => exact follows_namedType hReads hType
  case h_2 =>
    exact hTake (by decide) rfl fun _ _ => hType.bind fun _ _ _ => hSpan.bind fun _ _ _ =>
      tracks_pure trivial
  case h_3 => exact hTake (by decide) rfl fun _ _ => follows_sequenceType hType start start'
  case h_4 =>
    exact hTake (by decide) rfl fun _ _ => (follows_expect rfl).bind fun _ _ _ =>
      hType.bind fun _ _ _ => (follows_expect rfl).bind fun _ _ _ => hType.bind fun _ _ _ =>
        hSpan.bind fun _ _ _ => tracks_pure trivial
  case h_5 =>
    exact hTake (by decide) rfl fun _ _ => (tracks_eat rfl).bind fun _ _ _ => hType.bind fun _ _ _ =>
      hSpan.bind fun _ _ _ => tracks_pure trivial
  case h_6 =>
    exact hTake (by decide) rfl fun _ _ => (follows_expect rfl).bind fun _ _ _ =>
      hType.bind fun _ _ _ => hSpan.bind fun _ _ _ => tracks_pure trivial
  case h_7 =>
    exact hTake (by decide) rfl fun _ _ => (follows_signature hReads hType).bind fun _ _ _ =>
      tracks_pure trivial
  case h_8 => exact follows_structType hReads hType
  case h_9 => exact follows_interfaceType hReads hType
  case h_10 =>
    have hRound : TakesToken (fun c => True ∧ c.kind = .opening .round) take :=
      takesToken_take (by decide)
    refine tracks_take_statement.from.bind_takes
      (fun c d h => ⟨h.1.left.stop_kind, trivial, h.2⟩) hRound fun _ _ _ => ?_
    apply tracks_closing ((reads_type_phrase hReads).word fun _ _ _ hw => .inr hw)
    exact hType.bind fun _ _ _ => (follows_expect rfl).bind fun _ _ _ => hSpan.bind fun _ _ _ =>
      tracks_pure trivial
  case h_11 => exact tracks_reject _ _

end

theorem follows_goType (n : Nat) : Follows n goType goType := by
  induction n with
  | zero => exact fun c d a c' _ hn => absurd hn (Nat.not_lt_zero _)
  | succ n ih =>
      intro c d a c' hAlike hn hRun
      rw [goType_eq hAlike.left.stop_kind] at hRun
      rw [goType_eq hAlike.right.stop_kind]
      exact follows_typeForm (reads_goType n) ih c d a c' hAlike hn hRun

/-! ## Declarations -/

variable {n : Nat}

theorem follows_typeParams : Follows n typeParams typeParams := by
  have hParam : Follows n typeParam typeParam :=
    (follows_sepBy rfl reads_identifier_phrase follows_identifier).bind fun _ _ _ =>
      (follows_constraint (reads_goType n) (follows_goType n)).bind fun _ _ _ => tracks_pure trivial
  exact (follows_expect rfl).bind fun _ _ _ =>
    (tracks_commaList _ reads_typeParam hParam).bind fun _ _ _ =>
      (follows_expect rfl).bind fun _ _ _ => tracks_pure trivial

/-- Where type parameters are read, no comma between them is missing. -/
theorem hasComma_of_typeParams {c d c' : Cursor} {params : List TypeParam} (h : c.Alike d)
    (hRun : typeParams c = .ok (params, c')) (hComma : hasComma 0 (c.rest.drop 1) = true) :
    hasComma 0 (d.rest.drop 1) = true := by
  obtain ⟨opener, c₁, hOpen, hRest⟩ := bind_eq_ok.1 hRun
  obtain ⟨params', c₂, hParams, hRest⟩ := bind_eq_ok.1 hRest
  obtain ⟨closer, c₃, hClose, -⟩ := bind_eq_ok.1 hRest
  obtain ⟨w, hOpenTakes, rfl, hOpener⟩ := reads_expect (k := .opening .square) (by rintro ⟨⟩) c
    opener c₁ h.left (Nat.lt_succ_self _) trivial hOpen
  have hc₁ := hOpenTakes.isProper h.left
  obtain ⟨inner, hTakes, hInner⟩ :=
    reads_commaList reads_typeParam c₁ params' c₂ hc₁ (Nat.lt_succ_self _) trivial hParams
  obtain ⟨v, hCloseTakes, rfl, hCloser⟩ := reads_expect (k := .closing .square) (by rintro ⟨⟩) c₂
    closer c₃ (hTakes.isProper hc₁) (Nat.lt_succ_self _) trivial hClose
  have hTokens : c.rest = opener :: (inner ++ closer :: c₃.rest) := by
    rw [hOpenTakes.rest_eq, hTakes.rest_eq, hCloseTakes.rest_eq]
    rfl
  have hReduces := h.reduces
  rw [hTokens] at hReduces hComma
  obtain ⟨u, us, hUs, -, -, hInside⟩ := hReduces.exists_cons
  rw [hUs]
  have hUndivided : ∀ before t after, inner = before ++ t :: after →
      openAfter [] before = some [] → t.kind ≠ .semicolon := by
    intro before t after hSplit hBefore
    exact hInner.undivided before t after hSplit (balanced_of_openAfter hBefore)
  exact hasComma_reduces (hInside (by rw [hOpener]; rfl)) (hInner.balanced.openAfter_eq [])
    ⟨_, hCloser⟩ hUndivided hComma

/-- Only the search for a comma can tell type parameters from the length of an array otherwise than
before. -/
theorem exists_opensTypeParams {c d : Cursor} (h : c.Alike d) :
    ∃ x y : Bool, (opensTypeParams c = true ↔ x = true ∨ y = true ∧ hasComma 0 (c.rest.drop 1) = true) ∧
      (opensTypeParams d = true ↔ x = true ∨ y = true ∧ hasComma 0 (d.rest.drop 1) = true) ∧
      (y = true → hasComma 0 (d.rest.drop 1) = true → hasComma 0 (c.rest.drop 1) = true) := by
  have hFirst := h.kindAt_eq 0 (by simp)
  by_cases hSquare : c.kindAt 0 = .opening .square
  case neg =>
    refine ⟨false, false, ?_, ?_, by simp⟩
    · simp [opensTypeParams, hSquare]
    · simp [opensTypeParams, ← hFirst, hSquare]
  have hSecond := h.kindAt_eq 1 fun j hj => by
    obtain rfl : j = 0 := by omega
    rw [hSquare]
    rfl
  by_cases hName : c.kindAt 1 = .identifier
  case neg =>
    refine ⟨false, false, ?_, ?_, by simp⟩
    · simp [opensTypeParams, hName]
    · simp [opensTypeParams, ← hSecond, hName]
  have hThird := h.kindAt_eq 2 fun j hj => by
    obtain rfl | rfl : j = 0 ∨ j = 1 := by omega
    · rw [hSquare]
      rfl
    · rw [hName]
      rfl
  by_cases hPointer : c.kindAt 2 = .operator .mul
  case neg =>
    refine ⟨opensTypeParams c, false, by simp, ?_, by simp⟩
    unfold opensTypeParams
    rw [← hFirst, ← hSecond, ← hThird]
    split <;> simp_all
  have hFourth := h.kindAt_eq 3 fun j hj => by
    obtain rfl | rfl | rfl : j = 0 ∨ j = 1 ∨ j = 2 := by omega
    · rw [hSquare]
      rfl
    · rw [hName]
      rfl
    · rw [hPointer]
      rfl
  have hDrop := h.reduces.drop 1 fun j hj => by
    obtain rfl : j = 0 := by omega
    rw [← kindAt_eq h.left, hSquare]
    rfl
  refine ⟨startsTypeLiteral (c.kindAt 3), true, ?_, ?_, fun _ => hasComma_of_reduces hDrop⟩
  · simp [opensTypeParams, hSquare, hName, hPointer]
  · simp [opensTypeParams, ← hFirst, ← hSecond, ← hThird, ← hFourth, hSquare, hName, hPointer]

theorem follows_specTypeParams : Follows n specTypeParams specTypeParams := by
  intro c d params c' hAlike hn hRun
  obtain ⟨x, y, hOpensC, hOpensD, hBack⟩ := exists_opensTypeParams hAlike
  change (if opensTypeParams c then typeParams else return []) c = _ at hRun
  change ∃ b d', (if opensTypeParams d then typeParams else return []) d = _ ∧ _
  cases hOpens : opensTypeParams c with
  | true =>
      rw [hOpens, if_pos rfl] at hRun
      have hComma := hasComma_of_typeParams hAlike hRun
      have hSame : opensTypeParams d = true :=
        hOpensD.2 ((hOpensC.1 hOpens).imp_right fun hRest => ⟨hRest.1, hComma hRest.2⟩)
      rw [hSame, if_pos rfl]
      exact follows_typeParams c d params c' hAlike hn hRun
  | false =>
      rw [hOpens, if_neg Bool.false_ne_true] at hRun
      have hSame : opensTypeParams d = false := by
        rw [Bool.eq_false_iff]
        intro hOpens'
        have hBoth : x = true ∨ y = true ∧ hasComma 0 (c.rest.drop 1) = true :=
          (hOpensD.1 hOpens').imp_right fun hRest => ⟨hRest.1, hBack hRest.1 hRest.2⟩
        rw [hOpensC.2 hBoth] at hOpens
        cases hOpens
      rw [hSame, if_neg Bool.false_ne_true]
      cases hRun
      exact ⟨[], d, rfl, trivial, hAlike, Nat.le_refl _⟩

theorem follows_typeSpec : Follows n typeSpec typeSpec :=
  follows_identifier.bind fun name name' _ => follows_specTypeParams.bind fun _ _ _ =>
    (tracks_eat rfl).bind fun _ _ _ => (follows_goType n).bind fun _ _ _ =>
      (tracks_spanFrom name.span name'.span).bind fun _ _ _ => tracks_pure trivial

theorem follows_valueType : Follows n valueType valueType := by
  have hNothing : Follows n (pure (none : Option GoType)) (pure (none : Option GoType)) :=
    tracks_pure trivial
  apply tracks_kind_bind
  intro k
  split
  case h_5 => exact (follows_goType n).from.map fun _ _ _ => trivial
  all_goals exact hNothing.from

theorem follows_values : Follows n values values := by
  apply (tracks_eat rfl).bind
  rintro equals _ rfl
  cases equals with
  | true => exact (follows_expression (.inl rfl)).bind fun _ _ _ => tracks_pure trivial
  | false => exact tracks_pure trivial

theorem follows_valueSpec : Follows n valueSpec valueSpec :=
  tracks_here.bind fun start start' _ =>
    (follows_sepBy rfl reads_identifier_phrase follows_identifier).bind fun _ _ _ =>
      follows_valueType.bind fun _ _ _ => follows_values.bind fun _ _ _ =>
        (tracks_spanFrom start start').bind fun _ _ _ => tracks_pure trivial

theorem follows_specGroup {spec : Parser α} {k : TokenKind} (hk : k.opensStatement = false)
    (hReads : Reads n spec fun _ w r => ItemWord w r) (hSpec : Follows n spec spec) :
    Tracks n (fun c d => c.Alike d ∧ c.kind = k) (specGroup spec) (specGroup spec)
      (fun _ _ => True) Alike := by
  have hEq : specs spec = kind >>= fun k => if k = .opening .round then (do
      let _ ← take
      let specs ← statements (.closing .round) spec
      let _ ← expect (.closing .round)
      return (true, specs)) else do return (false, [← spec]) := by
    rw [specs, eat, bind_assoc]
    congr 1
    funext k
    split
    · simp only [bind_assoc, pure_bind, if_true]
    · simp only [pure_bind, Bool.false_eq_true, if_false]
  have hSpecs : Follows n (specs spec) (specs spec) := by
    rw [hEq]
    apply tracks_kind_bind
    intro k
    split
    · exact tracks_take_statement.from.bind fun _ _ _ =>
        (tracks_statements (.inl ⟨_, rfl⟩) hReads hSpec).bind fun _ _ _ =>
          (follows_expect rfl).bind fun _ _ _ => tracks_pure trivial
    · exact hSpec.from.bind fun _ _ _ => tracks_pure trivial
  exact (tracks_take hk).bind fun keyword keyword' _ => hSpecs.bind fun _ _ _ =>
    (tracks_spanFrom keyword.span keyword'.span).bind fun _ _ _ => tracks_pure trivial

theorem follows_receiver : Follows n receiver receiver := by
  apply tracks_here.bind
  intro start start' _
  apply (tracks_params (reads_goType n) (follows_goType n)).bind
  intro params params' hLength c d a c' hAlike hn hRun
  -- Only a list of one parameter is a receiver.
  match params with
  | [] => cases hRun
  | _ :: _ :: _ => cases hRun
  | [param] =>
      obtain ⟨param', rfl⟩ := List.length_eq_one_iff.1 hLength.symm
      cases hRun
      exact ⟨_, d, rfl, trivial, hAlike, Nat.le_refl _⟩

theorem follows_body : Follows n body body :=
  tracks_ifNext ((follows_group .curly).bind fun _ _ _ => tracks_pure trivial) trivial

theorem follows_funcDecl : Follows n funcDecl funcDecl := by
  have hReceiver : Follows n (some <$> receiver) (some <$> receiver) :=
    follows_receiver.map fun _ _ _ => trivial
  exact (follows_expect rfl).bind fun keyword keyword' _ => (tracks_ifNext hReceiver trivial).bind
    fun _ _ _ => follows_identifier.bind fun _ _ _ =>
      (tracks_ifNext follows_typeParams trivial).bind fun _ _ _ =>
        (follows_signature (reads_goType n) (follows_goType n)).bind fun _ _ _ =>
          follows_body.bind fun _ _ _ => (tracks_spanFrom keyword.span keyword'.span).bind
            fun _ _ _ => tracks_pure trivial

theorem follows_importSpec : Follows n importSpec importSpec := by
  have hName : Follows n importName importName := by
    apply tracks_kind_bind
    intro k
    split
    · exact follows_identifier.from.map fun _ _ _ => trivial
    · exact (tracks_take rfl).bind fun _ _ _ => tracks_pure trivial
    · exact (tracks_pure trivial).from
  apply tracks_here.bind
  intro start start' _
  apply hName.bind
  intro name name' _
  apply tracks_kind_bind
  intro k
  split
  · exact (tracks_take rfl).bind fun _ _ _ => (tracks_spanFrom start start').bind fun _ _ _ =>
      tracks_pure trivial
  · exact (tracks_take rfl).bind fun _ _ _ => (tracks_spanFrom start start').bind fun _ _ _ =>
      tracks_pure trivial
  · exact tracks_reject _ _

theorem follows_importDecl :
    Tracks n (fun c d => c.Alike d ∧ c.kind = .keyword .import) importDecl importDecl
      (fun _ _ => True) Alike :=
  (follows_specGroup rfl (reads_importSpec.word fun _ _ r hw => hw.itemWord r)
    follows_importSpec).map fun _ _ _ => trivial

theorem reads_valueSpec_item : Reads n valueSpec fun _ w r => ItemWord w r := by
  apply reads_valueSpec.word
  rintro _ _ _ (hw | ⟨⟨-, hw⟩, rfl⟩)
  · exact hw.itemWord _
  · exact hw.itemWord

theorem follows_declaration : Follows n declaration declaration := by
  apply tracks_kind_bind
  intro k
  split
  · exact (follows_specGroup rfl reads_valueSpec_item follows_valueSpec).map fun _ _ _ => trivial
  · exact (follows_specGroup rfl reads_valueSpec_item follows_valueSpec).map fun _ _ _ => trivial
  · exact (follows_specGroup rfl (reads_typeSpec.word fun _ _ r hw => hw.itemWord r)
      follows_typeSpec).map fun _ _ _ => trivial
  · exact follows_funcDecl.from.map fun _ _ _ => trivial
  · exact tracks_reject _ _
  · exact tracks_reject _ _

theorem follows_packageClause : Follows n packageClause packageClause := by
  apply tracks_kind_bind
  intro k
  split
  · rename_i hPackage
    exact (tracks_take (hPackage ▸ rfl)).bind fun _ _ _ => follows_identifier
  · exact tracks_reject _ _

/-! ## Source files -/

theorem declaration_of_import {c c' : Cursor} {decl : Declaration} (hKind : c.kind = .keyword .import)
    (h : declaration c = .ok (decl, c')) : False := by
  obtain ⟨k, d, hLook, hRest⟩ := bind_eq_ok.1 h
  cases hLook
  rw [hKind] at hRest
  cases hRest

/-- No list of declarations starts with an import. -/
theorem kind_of_declarations {c c' : Cursor} {decls : List Declaration}
    (h : declarations c = .ok (decls, c')) : c.kind ≠ .keyword .import := by
  intro hImport
  unfold declarations statements at h
  rw [manyWhile, if_pos (by simp [hImport])] at h
  cases hFirst : (do let a ← declaration; statementEnd; return a : Parser Declaration) c with
  | error e => rw [hFirst] at h; cases h
  | ok result =>
      obtain ⟨decl, hDecl⟩ := item_of_statement hFirst
      exact declaration_of_import hImport hDecl

/-- Where the imports end, those that are left end. A missing declaration hides no import behind
it, since no import comes after another declaration. -/
theorem exists_sections {c d c₁ c₂ : Cursor} {imports others : List Declaration}
    (hAlike : c.AlikeAtStatement d) (hn : c.rest.length < n)
    (hImports : importSection c = .ok (imports, c₁)) (hOthers : declarations c₁ = .ok (others, c₂)) :
    ∃ imports' d₁ others' d₂, importSection d = .ok (imports', d₁) ∧
      declarations d₁ = .ok (others', d₂) ∧ c₂.Alike d₂ ∧ c₂.rest.length ≤ c.rest.length := by
  have hReads : ReadsFrom n (fun c => decide (c.kind = .keyword .import) = true) importDecl
      fun _ w r => ItemWord w r :=
    reads_importDecl.mono (fun _ hKind => ⟨trivial, of_decide_eq_true hKind⟩)
      fun _ _ r hw => hw.itemWord r
  unfold importSection at hImports
  fun_induction manyWhile (· = .keyword .import) (do let decl ← importDecl; statementEnd; return decl) c
    generalizing d imports with
  | case1 => cases hImports
  | case2 c hMore a next hFirst hLess ih =>
      cases hTail : manyWhile (· = .keyword .import)
        (do let decl ← importDecl; statementEnd; return decl) next with
      | error e => rw [hTail] at hImports; cases hImports
      | ok result =>
          rw [hTail] at hImports
          cases hImports
          by_cases hSame : c.Alike d
          · obtain ⟨b, next', hFirst', -, hAfter, -⟩ := tracks_statement follows_importDecl c d a next
              ⟨hSame, of_decide_eq_true hMore⟩ hn hFirst
            obtain ⟨imports', d₁, others', d₂, hTail', hOthers', hLast, hLastLess⟩ :=
              ih hAfter (Nat.lt_trans hLess hn) hTail
            have hMore' : decide (d.kind = .keyword .import) = true := by rwa [← hSame.kind_eq]
            have hLess' : next'.rest.length < d.rest.length :=
              statement_length_lt hReads hAlike.right (Nat.lt_of_le_of_lt hAlike.length_le hn) hMore'
                hFirst'
            refine ⟨b :: imports', d₁, others', d₂, ?_, hOthers', hLast, Nat.le_trans hLastLess hLess.le⟩
            rw [importSection, manyWhile, if_pos hMore', hFirst']
            dsimp only
            rw [dif_pos hLess', show manyWhile _ _ next' = _ from hTail']
            rfl
          · obtain ⟨imports', d₁, others', d₂, hTail', hOthers', hLast, hLastLess⟩ :=
              ih (statement_alike hReads hAlike hn hMore hSame hFirst) (Nat.lt_trans hLess hn) hTail
            exact ⟨imports', d₁, others', d₂, hTail', hOthers', hLast, Nat.le_trans hLastLess hLess.le⟩
  | case3 c hMore a next hFirst hLess =>
      exact absurd (statement_length_lt hReads hAlike.left hn hMore hFirst) hLess
  | case4 c hMore =>
      cases hImports
      obtain ⟨others', d₂, hOthers', -, hLast, hLess⟩ :=
        tracks_statements (.inr rfl) reads_declaration_item follows_declaration _ d others c₂ hAlike
          hn hOthers
      have hNoImport := kind_of_declarations hOthers'
      refine ⟨[], d, others', d₂, ?_, hOthers', hLast, hLess⟩
      rw [importSection, manyWhile, if_neg (by simpa using hNoImport)]

theorem follows_sourceFile : Follows n sourceFile sourceFile := by
  refine tracks_here.bind fun start start' _ => follows_packageClause.bind fun package package' _ =>
    tracks_statementEnd.bind fun _ _ _ => ?_
  intro c d file c' hAlike hn hRun
  obtain ⟨imports, c₁, hImports, hRest⟩ := bind_eq_ok.1 hRun
  obtain ⟨others, c₂, hOthers, hRest⟩ := bind_eq_ok.1 hRest
  cases hRest
  obtain ⟨imports', d₁, others', d₂, hImports', hOthers', hLast, hLess⟩ :=
    exists_sections hAlike hn hImports hOthers
  exact ⟨_, d₂, bind_eq_ok.2 ⟨imports', d₁, hImports', bind_eq_ok.2 ⟨others', d₂, hOthers', rfl⟩⟩,
    trivial, hLast, hLess⟩

/-- What is left of a source file is a source file. -/
theorem sourceFile_of_reduces {ts us : List Token} {file : SourceFile} {c : Cursor}
    (hTs : IsBare ts) (hUs : IsBare us) (hReduces : Reduces ts us)
    (h : sourceFile (.ofTokens ts) = .ok (file, c)) :
    ∃ file' c', sourceFile (.ofTokens us) = .ok (file', c') := by
  have hAlike : (ofTokens ts).Alike (ofTokens us) :=
    ⟨hReduces, isProper_ofTokens hTs, isProper_ofTokens hUs⟩
  obtain ⟨file', c', hRun, -⟩ := follows_sourceFile _ _ file c hAlike (Nat.lt_succ_self _) h
  exact ⟨file', c', hRun⟩

end Parser

end GoTemplate
