import GoTemplate.Proofs.Syntax.ReadingLists
import GoTemplate.Proofs.Syntax.TypeSteps

/-!
What the grammar of types takes. A type is a phrase, and the look-aheads in the grammar go no
farther than the phrase and the token after it.
-/

namespace GoTemplate

open Brackets

/-- Words that do not end with the square bracket that opens them. -/
def GoesOn (word : List Token) : Prop :=
  ∀ t tail, word = t :: tail → t.kind = .opening .square →
    ∃ inner closer more, tail = inner ++ closer :: more ∧ Balanced inner ∧
      closer.kind = .closing .square ∧ more ≠ []

theorem GoesOn.append {u v : List Token} (hu : Phrase u) (hv : v ≠ []) : GoesOn (u ++ v) := by
  intro t tail hWord hSquare
  cases hu.balanced with
  | nil => exact absurd rfl hu.ne_nil
  | plain hPlain =>
      obtain ⟨rfl, -⟩ := List.cons_eq_cons.1 hWord
      exact absurd hSquare (hPlain.1 _)
  | @group opener closer b inner more hOpener hInner hCloser =>
      obtain ⟨rfl, rfl⟩ := List.cons_eq_cons.1 hWord
      obtain rfl : b = .square := by simpa [hOpener] using hSquare
      exact ⟨inner, closer, more ++ v, by simp, hInner, hCloser,
        List.append_ne_nil_of_right_ne_nil more hv⟩

/-- What a type takes: a phrase. A name alone ends only where no type arguments come, and more
than the brackets follows on a bracket that opens the type. -/
structure TypeWord (word rest : List Token) : Prop where
  phrase : Phrase word
  alone : ∀ t, word = [t] → t.kind = .identifier → nextKind rest ≠ .opening .square
  goesOn : GoesOn word

theorem TypeWord.of_ne {word rest : List Token} (hPhrase : Phrase word)
    (hName : ∀ t tail, word = t :: tail → t.kind ≠ .identifier ∧ t.kind ≠ .opening .square) :
    TypeWord word rest where
  phrase := hPhrase
  alone t hWord hKind := absurd hKind (hName t [] hWord).1
  goesOn t tail hWord hKind := absurd hKind (hName t tail hWord).2

namespace Parser

/-! ## Look-aheads -/

section

variable {c : Cursor} {word rest : List Token} {t : Token}

/-- A token in the word or next to it. -/
theorem kindAt_eq_of_head {i : Nat} (others : List Token) (hi : i ≤ word.length)
    (hRest : c.rest = word ++ rest) (hHead : rest.head? = some t) :
    ({ c with rest := word ++ t :: others } : Cursor).kindAt i = c.kindAt i := by
  obtain ⟨next, tail, rfl⟩ : ∃ next tail, rest = next :: tail :=
    List.exists_cons_of_ne_nil (by rintro rfl; cases hHead)
  obtain rfl : next = t := by simpa using hHead
  simp only [Cursor.kindAt, hRest]
  rcases Nat.lt_or_eq_of_le hi with hLess | rfl
  · rw [List.getElem?_append_left hLess, List.getElem?_append_left hLess]
  · rw [List.getElem?_append_right (Nat.le_refl _), List.getElem?_append_right (Nat.le_refl _)]
    simp

/-- The token behind a group that starts after the first token of the word. -/
theorem kindAfter_eq_of_head {first : Token} {tail : List Token} (others : List Token)
    (hTail : Balanced tail) (hNe : tail = [] → t.kind ≠ .opening .square)
    (hRest : c.rest = first :: tail ++ rest) (hHead : rest.head? = some t)
    (hOpens : c.kindAt 1 = .opening .square) :
    kindAfter 0 ((first :: tail ++ t :: others).drop 1) = kindAfter 0 (c.rest.drop 1) := by
  obtain ⟨next, behind, rfl⟩ : ∃ next behind, rest = next :: behind :=
    List.exists_cons_of_ne_nil (by rintro rfl; cases hHead)
  obtain rfl : next = t := by simpa using hHead
  rw [hRest]
  change kindAfter 0 (tail ++ next :: others) = kindAfter 0 (tail ++ next :: behind)
  rw [Cursor.kindAt, hRest] at hOpens
  cases hTail with
  | nil => exact absurd hOpens (hNe rfl)
  | @plain u _ hPlain => exact absurd hOpens (hPlain.1 _)
  | @group opener closer b inner more hOpener hInner hCloser hMore =>
      simp only [List.cons_append, List.append_assoc]
      rw [kindAfter_group hOpener hInner hCloser, kindAfter_group hOpener hInner hCloser]
      cases more <;> rfl

/-- The look-aheads at a name ask for the token after it and, where that opens a square bracket,
for the token behind the bracket. They stay within the word that starts with the name. -/
theorem lookAhead_eq_of_head {α : Type} {g : Cursor → α} {first : Token} {tail : List Token}
    (others : List Token) (hg : ∀ c d : Cursor, c.kind = d.kind → c.kindAt 1 = d.kindAt 1 →
      (d.kindAt 1 = .opening .square →
        kindAfter 0 (c.rest.drop 1) = kindAfter 0 (d.rest.drop 1)) → g c = g d)
    (hTail : Balanced tail) (hNe : tail = [] → t.kind ≠ .opening .square)
    (hRest : c.rest = first :: tail ++ rest) (hHead : rest.head? = some t) :
    g { c with rest := first :: tail ++ t :: others } = g c := by
  apply hg
  · exact kind_eq_of_head others hRest hHead
  · exact kindAt_eq_of_head others (by simp) hRest hHead
  · exact kindAfter_eq_of_head others hTail hNe hRest hHead

end

section

variable {c d : Cursor}

theorem entryForm_congr (hKind : c.kind = d.kind) (hNext : c.kindAt 1 = d.kindAt 1)
    (hAfter : d.kindAt 1 = .opening .square →
      kindAfter 0 (c.rest.drop 1) = kindAfter 0 (d.rest.drop 1)) : entryForm c = entryForm d := by
  unfold entryForm
  rw [hKind, hNext]
  split
  · rfl
  · split
    · rfl
    · rfl
    · rfl
    · rw [hAfter ‹_›]
    · rfl
  · rfl

theorem isEmbeddedField_congr (hKind : c.kind = d.kind) (hNext : c.kindAt 1 = d.kindAt 1)
    (hAfter : d.kindAt 1 = .opening .square →
      kindAfter 0 (c.rest.drop 1) = kindAfter 0 (d.rest.drop 1)) :
    isEmbeddedField c = isEmbeddedField d := by
  unfold isEmbeddedField
  rw [hKind, hNext]
  congr 1
  split
  · rfl
  · rw [hAfter ‹_›]
  · rfl

end

/-! ## Forms of types -/

section

variable {α : Type} {n : Nat} {type : Parser GoType} {Start : Cursor → Prop}
  (hType : Reads n type fun _ w r => TypeWord w r)

include hType

theorem reads_type_phrase : Reads n type fun _ w _ => Phrase w :=
  hType.word fun _ _ _ h => h.phrase

theorem reads_typeArgs : Reads n (typeArgs type) fun _ w _ => Phrase w :=
  reads_bracket fun _ => reads_tail
    ((reads_commaList? (reads_type_phrase hType)).word fun _ _ _ h => h.balanced)
    fun _ _ => reads_pure_opt _

omit hType in
theorem reads_memberName : Reads n memberName fun _ w _ => OptPhrase w := by
  refine (reads_eat (by decide)).bind (V := fun dot _ w _ => if dot then Phrase w else w = [])
    (fun dot => ?_) ?_
  · cases dot with
    | false => exact (reads_pure _).word fun _ _ _ h => h.2
    | true => exact reads_identifier_phrase.map fun _ _ _ h => h
  · intro dot _ u v r hu hv
    cases dot with
    | false =>
        obtain rfl : u = [] := hu
        obtain rfl : v = [] := hv
        exact .nil
    | true =>
        obtain ⟨t, rfl, ht⟩ := hu
        exact .inr (Phrase.cons (by rw [ht]; rfl) hv)

theorem reads_namedType : ReadsFrom (n + 1) Start (namedType type) fun _ w r => TypeWord w r := by
  have hArgs : Reads n (ifNext (.opening .square) (typeArgs type) []) fun _ w r =>
      OptPhrase w ∧ (w = [] → nextKind r ≠ .opening .square) := by
    refine reads_ifNext ((reads_typeArgs hType).from.word fun _ w _ hw => ?_) fun r hr => ?_
    · exact ⟨.inr hw, fun hNil => absurd hNil hw.ne_nil⟩
    · exact ⟨.nil, fun _ => hr⟩
  refine reads_identifier.from.bind_token (V := fun _ _ w r =>
    OptPhrase w ∧ (w = [] → nextKind r ≠ .opening .square)) (fun first => ?_) ?_
  · refine reads_memberName.bind (fun second => hArgs.bind (V := fun _ _ w _ => w = [])
      (W := fun _ w r => OptPhrase w ∧ (w = [] → nextKind r ≠ .opening .square))
      (fun args => (reads_spanFrom _).skip fun span => ?_) ?_) ?_
    · cases second with
      | none => exact (reads_pure _).word fun _ _ _ h => h.2
      | some name => exact (reads_pure _).word fun _ _ _ h => h.2
    · rintro _ _ u _ r hu rfl
      simpa using hu
    · rintro _ _ u v r hu ⟨hv, hNext⟩
      exact ⟨hu.append hv, fun hNil => hNext (List.append_eq_nil_iff.1 hNil).2⟩
  · rintro _ _ t v r ht ⟨hv, hNext⟩
    have hName : Phrase [t] := .singleton (by rw [ht]; rfl)
    refine ⟨hName.append_opt hv, ?_, ?_⟩
    · rintro u hWord -
      exact hNext (by simpa using congrArg List.tail hWord)
    · rintro u tail hWord hKind
      obtain ⟨rfl, -⟩ := List.cons_eq_cons.1 hWord
      rw [ht] at hKind
      cases hKind

omit hType in
/-- The form of an entry shows within the entry and at the token after it. -/
theorem entryForm_eq_of_head {c : Cursor} {word rest : List Token} {t : Token}
    (others : List Token) (hWord : Phrase word)
    (hAlone : ∀ u, word = [u] → u.kind = .identifier →
      entryForm c = .bareName ∨ nextKind rest ≠ .opening .square)
    (hRest : c.rest = word ++ rest) (hHead : rest.head? = some t) :
    entryForm { c with rest := word ++ t :: others } = entryForm c := by
  obtain ⟨first, tail, rfl⟩ := List.exists_cons_of_ne_nil hWord.ne_nil
  have hKind : c.kind = first.kind := by rw [Cursor.kind, Cursor.current, hRest]; rfl
  have hNext : nextKind rest = t.kind := by rw [nextKind, hHead]; rfl
  by_cases hName : first.kind = .identifier
  · have hPlain : IsPlain first := isPlain_of_isInner (by rw [hName]; rfl)
    refine lookAhead_eq_of_head others (fun _ _ => entryForm_congr)
      (hWord.balanced.of_plain hPlain) ?_ hRest hHead
    rintro rfl hSquare
    rcases hAlone first rfl hName with hBare | hOther
    · have hAfter : c.kindAt 1 = .opening .square := by
        rw [← kindAt_eq_of_head others (Nat.le_refl 1) hRest hHead]
        exact hSquare
      rw [entryForm, hKind, hName, hAfter] at hBare
      dsimp only at hBare
      split at hBare <;> cases hBare
    · exact hOther (hNext.trans hSquare)
  · have hSame := kind_eq_of_head others hRest hHead
    have hOnly : ∀ d : Cursor, d.kind ≠ .identifier →
        entryForm d = if d.kind = .operator .ellipsis then .ellipsis else .type := by
      intro d hd
      rw [entryForm]
      split <;> simp_all
    rw [hOnly _ (by rwa [hSame, hKind]), hOnly c (by rwa [hKind]), hSame]

omit hType in
theorem kind_of_entryForm {c : Cursor} (h : entryForm c = .ellipsis) :
    c.kind = .operator .ellipsis := by
  unfold entryForm at h
  split at h
  · assumption
  · split at h
    · cases h
    · cases h
    · cases h
    · split at h <;> cases h
    · cases h
  · cases h

theorem reads_paramEntry : Reads n (paramEntry type) fun _ w _ => Phrase w := by
  have hBare {β : Type} (g : GoType → β) : Reads n (do return g (← type)) fun _ w _ => Phrase w :=
    ReadsFrom.bind_pure hType fun _ _ _ hw => hw.phrase
  refine reads_look (U := fun form _ w r => Phrase w ∧ ∀ u, w = [u] → u.kind = .identifier →
    form = .bareName ∨ nextKind r ≠ .opening .square) (fun form => ?_)
    (fun c a word rest _ hRest hU t others hHead =>
      entryForm_eq_of_head others hU.1 hU.2 hRest hHead) fun _ _ _ _ h => h.1
  cases form with
  | ellipsis =>
      refine ReadsFrom.bind ((@reads_take n (fun _ => True) _ (by rintro ⟨⟩)).mono
        (fun c h => ⟨trivial, kind_of_entryForm h.2⟩) fun _ _ _ h => h) (fun _ => hBare _) ?_
      rintro t _ _ v _ ⟨rfl, ht⟩ hv
      refine ⟨Phrase.cons (by rw [ht]; rfl) hv, ?_⟩
      rintro u hWord -
      exact absurd (by simpa using congrArg List.tail hWord) hv.ne_nil
  | bareName =>
      exact reads_identifier_phrase.from.bind_pure fun _ _ _ hw => ⟨hw, fun _ _ _ => .inl rfl⟩
  | type =>
      refine (Reads.from hType).bind_pure fun _ _ _ hw => ⟨hw.phrase, ?_⟩
      exact fun u hu hName => .inr (hw.alone u hu hName)
  | nameAndType =>
      have hRest (name : Identifier) : Reads n (do
          let variadic ← eat (.operator .ellipsis)
          return ParamEntry.named name (← type) variadic) fun _ w _ => Phrase w :=
        ReadsFrom.opt_phrase (reads_eat_opt rfl) fun variadic => hBare _
      refine reads_identifier.from.bind hRest ?_
      rintro _ _ _ v _ ⟨t, rfl, ht⟩ hv
      refine ⟨Phrase.cons (by rw [ht]; rfl) hv, ?_⟩
      rintro u hWord -
      exact absurd (by simpa using congrArg List.tail hWord) hv.ne_nil

theorem reads_params : Reads n (params type) fun _ w _ => Phrase w :=
  reads_bracket fun _ => reads_tail
    ((reads_commaList? (reads_paramEntry hType)).word fun _ _ _ h => h.balanced)
    fun _ _ => (reads_lift _).word fun _ _ _ h => .inl h

theorem reads_results : Reads n (results type) fun _ w _ => OptPhrase w := by
  have hSingle : Reads n (do return [(⟨none, ← type, false⟩ : Param GoType)])
      fun _ w _ => OptPhrase w := ReadsFrom.bind_pure hType fun _ _ _ hw => .inr hw.phrase
  refine reads_kind_bind fun k => ?_
  split
  case h_1 => exact (reads_params hType).from.opt
  case h_11 => exact (reads_pure_opt _).from
  all_goals exact hSingle.from

theorem reads_signature : Reads n (signature type) fun _ w _ => Phrase w :=
  reads_here.skip fun start => ReadsFrom.phrase_opt (reads_params hType) fun _ =>
    ReadsFrom.opt_opt (reads_results hType) fun _ => (reads_spanFrom start).skip fun _ =>
      reads_pure_opt _

theorem reads_term : Reads n (term type) fun _ w _ => Phrase w :=
  ReadsFrom.opt_phrase (reads_eat_opt rfl) fun _ =>
    ReadsFrom.bind_pure hType fun _ _ _ hw => hw.phrase

theorem reads_constraint : Reads n (constraint type) fun _ w _ => Phrase w :=
  reads_sepBy rfl (reads_term hType)

omit hType in
theorem reads_tag : Reads n tag fun _ w _ => OptPhrase w := by
  have hString {k : TokenKind} (hk : k.isInner) :
      ReadsFrom n (fun c => True ∧ c.kind = k) (do return some (← take).lexeme)
        fun _ w _ => OptPhrase w := by
    refine (reads_take (ne_endOfSource_of_isInner hk)).bind_pure ?_
    rintro t _ _ ⟨rfl, ht⟩
    exact .inr (.singleton (ht ▸ hk))
  refine reads_kind_bind fun k => ?_
  split
  · exact hString rfl
  · exact hString rfl
  · exact (reads_pure_opt _).from

omit hType in
/-- Whether a field has no names shows within the field and at the token after it. -/
theorem isEmbeddedField_eq_of_head {c : Cursor} {word rest : List Token} {t : Token}
    (others : List Token) (hStart : c.kind = .operator .mul ∨ c.kind = .identifier)
    (hWord : Phrase word)
    (hAlone : ∀ u, word = [u] → u.kind = .identifier → nextKind rest ≠ .opening .square)
    (hRest : c.rest = word ++ rest) (hHead : rest.head? = some t) :
    isEmbeddedField { c with rest := word ++ t :: others } = isEmbeddedField c := by
  obtain ⟨first, tail, rfl⟩ := List.exists_cons_of_ne_nil hWord.ne_nil
  have hKind : c.kind = first.kind := by rw [Cursor.kind, Cursor.current, hRest]; rfl
  have hNext : nextKind rest = t.kind := by rw [nextKind, hHead]; rfl
  rcases hStart with hPointer | hName
  · have hSame := kind_eq_of_head others hRest hHead
    have hPointer' : ∀ d : Cursor, d.kind = .operator .mul → isEmbeddedField d = true := by
      intro d hd
      simp [isEmbeddedField, hd]
    rw [hPointer' c hPointer, hPointer' _ (hSame.trans hPointer)]
  · have hPlain : IsPlain first := isPlain_of_isInner (by rw [← hKind, hName]; rfl)
    refine lookAhead_eq_of_head others (fun _ _ => isEmbeddedField_congr)
      (hWord.balanced.of_plain hPlain) ?_ hRest hHead
    rintro rfl hSquare
    exact hAlone first rfl (hKind.symm.trans hName) (hNext.trans hSquare)

omit hType in
/-- A field is told by its first token. -/
theorem field_eq : field type = kind >>= fun k => (match k with
    | .operator .mul | .identifier => return
    | _ => reject .expectedField) >>= fun _ => do
      let names ← fieldNames
      let fieldType ← type
      return ⟨names, fieldType, ← tag⟩ := rfl

theorem reads_field : Reads n (field type) fun _ w _ => Phrase w := by
  have hTyped (names : List Identifier) : Reads n (do
      let fieldType ← type
      return (⟨names, fieldType, ← tag⟩ : Field GoType)) fun _ w r =>
        Phrase w ∧ ∀ u, w = [u] → u.kind = .identifier → nextKind r ≠ .opening .square := by
    refine ReadsFrom.bind hType (fun fieldType => ReadsFrom.bind_pure
      (W := fun _ w _ => OptPhrase w) reads_tag fun _ _ _ hw => hw) ?_
    intro _ _ u v r hu hv
    refine ⟨hu.phrase.append_opt hv, ?_⟩
    intro t hWord hName
    rcases hv with rfl | hv
    · exact hu.alone t (by simpa using hWord) hName
    · have hLength := congrArg List.length hWord
      have hPosU := List.length_pos_iff.2 hu.phrase.ne_nil
      have hPosV := List.length_pos_iff.2 hv.ne_nil
      simp only [List.length_append, List.length_singleton] at hLength
      omega
  have hNamed : ReadsFrom n (fun c => c.kind = .operator .mul ∨ c.kind = .identifier) (do
      let names ← fieldNames
      let fieldType ← type
      return (⟨names, fieldType, ← tag⟩ : Field GoType)) fun _ w _ => Phrase w := by
    change ReadsFrom n _ (look isEmbeddedField >>= fun embedded =>
      (if embedded then return [] else sepBy .comma identifier) >>= fun names => do
        let fieldType ← type
        return (⟨names, fieldType, ← tag⟩ : Field GoType)) _
    refine reads_look (U := fun _ _ w r => Phrase w ∧
      ∀ u, w = [u] → u.kind = .identifier → nextKind r ≠ .opening .square) (fun embedded => ?_)
      (fun c a word rest hStart hRest hU t others hHead => isEmbeddedField_eq_of_head others hStart hU.1 hU.2 hRest hHead) fun _ _ _ _ h => h.1
    cases embedded with
    | true => exact Reads.from (hTyped [])
    | false =>
        refine (reads_sepBy rfl reads_identifier_phrase).from.bind hTyped ?_
        rintro _ _ u v _ hu ⟨hv, -⟩
        refine ⟨Phrase.append hu hv, ?_⟩
        rintro t hWord -
        have hLength := congrArg List.length hWord
        have hPosU := List.length_pos_iff.2 hu.ne_nil
        have hPosV := List.length_pos_iff.2 hv.ne_nil
        simp only [List.length_append, List.length_singleton] at hLength
        omega
  rw [field_eq]
  refine reads_kind_bind fun k => ?_
  split
  · exact hNamed.mono (fun _ h => .inl h.2) fun _ _ _ h => h
  · exact hNamed.mono (fun _ h => .inr h.2) fun _ _ _ h => h
  · rintro c _ _ _ _ _ ⟨⟩

omit hType in
/-- Statements in curly brackets, with the span of the whole. -/
private theorem reads_block {item : Parser α} (hItem : Reads n item fun _ w _ => Phrase w)
    (start : Span) (make : List α → Span → GoType) : Reads n (do
      let _ ← expect (.opening .curly)
      let items ← statements (.closing .curly) item
      let _ ← expect (.closing .curly)
      return make items (← spanFrom start)) fun _ w _ => Phrase w :=
  reads_bracket fun _ => reads_tail (reads_statements_balanced hItem) fun _ _ =>
    (reads_spanFrom start).bind_pure fun _ _ _ hw => .inl hw

omit hType in
/-- A type that starts with a token that no other type starts with. -/
private theorem reads_after_token {k : TokenKind} {p : Parser α} {f : α → Parser GoType}
    (hk : k.isInner) (hName : k ≠ .identifier)
    (hp : ReadsFrom (n + 1) Start p fun _ w _ => ∃ t, w = [t] ∧ t.kind = k)
    (hf : ∀ a, Reads n (f a) fun _ w _ => Phrase w) :
    ReadsFrom (n + 1) Start (p >>= f) fun _ w r => TypeWord w r := by
  refine hp.bind_token hf ?_
  rintro _ _ t v _ rfl hv
  refine .of_ne (Phrase.cons hk hv) ?_
  intro u tail hWord
  obtain ⟨rfl, -⟩ := List.cons_eq_cons.1 hWord
  refine ⟨hName, ?_⟩
  intro hSquare
  rw [hSquare] at hk
  cases hk

theorem reads_structType : ReadsFrom (n + 1) Start (structType type) fun _ w r => TypeWord w r :=
  reads_after_token (k := .keyword .struct) rfl (by rintro ⟨⟩)
    (reads_expect_token (by rintro ⟨⟩)).from fun keyword =>
      reads_block (reads_field hType) keyword.span .struct

theorem reads_interfaceElement : Reads n (interfaceElement type) fun _ w _ => Phrase w := by
  refine reads_kind_bind fun k => ?_
  refine reads_look (U := fun _ _ w _ => Phrase w) (fun next => ?_)
    (fun c a word rest _ hRest hWord t others hHead =>
      kindAt_eq_of_head others (List.length_pos_iff.2 hWord.ne_nil) hRest hHead) fun _ _ _ _ h => h
  split
  · exact reads_identifier_phrase.from.phrase_opt fun name =>
      ReadsFrom.bind_pure (reads_signature hType) fun _ _ _ hw => .inr hw
  · exact (reads_constraint hType).from.bind_pure fun _ _ _ hw => hw

theorem reads_interfaceType :
    ReadsFrom (n + 1) Start (interfaceType type) fun _ w r => TypeWord w r :=
  reads_after_token (k := .keyword .interface) rfl (by rintro ⟨⟩)
    (reads_expect_token (by rintro ⟨⟩)).from fun keyword =>
      reads_block (reads_interfaceElement hType) keyword.span .interface

omit hType in
theorem reads_arrayLength : Reads n arrayLength fun _ w r => Balanced w ∨ Unclosed w ∧ r = [] := by
  refine reads_kind_bind fun k => ?_
  split
  · rename_i hKind
    subst hKind
    refine (reads_take (by rintro ⟨⟩)).bind_pure ?_
    rintro t _ _ ⟨rfl, ht⟩
    exact .inl (.singleton (isPlain_of_isInner (by rw [ht]; rfl)))
  · refine (reads_expression _).from.word ?_
    rintro _ _ _ (⟨hw, -⟩ | ⟨⟨hw, -⟩, hEnd⟩)
    · exact .inl hw
    · exact .inr ⟨hw, hEnd⟩

/-- Behind the opening bracket of a slice or an array comes the rest of the bracket, and then the
type of the elements. -/
theorem reads_sequenceType (start : Span) : Reads n (sequenceType type start) fun _ w _ =>
    ∃ inner closer more, w = inner ++ closer :: more ∧ Balanced inner ∧
      closer.kind = .closing .square ∧ Phrase more := by
  have hElem (make : GoType → Span → GoType) : Reads n (do
      let elem ← type
      return make elem (← spanFrom start)) fun _ w _ => Phrase w :=
    ReadsFrom.phrase_opt (reads_type_phrase hType) fun _ =>
      (reads_spanFrom start).bind_pure fun _ _ _ hw => .inl hw
  refine ReadsFrom.bind (reads_eat (by rintro ⟨⟩)) (V := fun empty _ w _ =>
    if empty then Phrase w else ∃ inner closer more, w = inner ++ closer :: more ∧
      Balanced inner ∧ closer.kind = .closing .square ∧ Phrase more) (fun empty => ?_) ?_
  · cases empty with
    | true => exact hElem .slice
    | false =>
        refine ReadsFrom.bind reads_arrayLength (V := fun _ _ w _ => ∃ closer more,
          w = closer :: more ∧ closer.kind = .closing .square ∧ Phrase more) (fun length => ?_) ?_
        · refine ReadsFrom.bind (reads_expect (by rintro ⟨⟩)) (fun _ => hElem (.array length)) ?_
          rintro closer _ _ more _ ⟨rfl, hCloser⟩ hMore
          exact ⟨closer, more, rfl, hCloser, hMore⟩
        · rintro _ _ inner _ r hInner ⟨closer, more, rfl, hCloser, hMore⟩
          rcases hInner with hInner | ⟨-, hEnd⟩
          · exact ⟨inner, closer, more, rfl, hInner, hCloser, hMore⟩
          · cases hEnd
  · intro empty _ u v _ hu hv
    cases empty with
    | true =>
        obtain ⟨closer, rfl, hCloser⟩ := hu
        exact ⟨[], closer, v, rfl, .nil, hCloser, hv⟩
    | false =>
        obtain rfl : u = [] := hu
        exact hv

/-- Each form takes a type word from the types within it. -/
theorem reads_typeForm : Reads (n + 1) (typeForm type) fun _ w r => TypeWord w r := by
  have hTake {k : TokenKind} {f : Token → Parser GoType} (hk : k.isInner)
      (hName : k ≠ .identifier) (hf : ∀ t, Reads n (f t) fun _ w _ => Phrase w) :
      ReadsFrom (n + 1) (fun c => True ∧ c.kind = k) (take >>= f) fun _ w r => TypeWord w r :=
    reads_after_token hk hName (reads_take_token (ne_endOfSource_of_isInner hk)) hf
  refine reads_here.skip fun start => reads_kind_bind fun k => ?_
  have hElem {make : GoType → Span → GoType} : Reads n (do
      let elem ← type
      return make elem (← spanFrom start)) fun _ w _ => Phrase w :=
    ReadsFrom.phrase_opt (reads_type_phrase hType) fun _ =>
      (reads_spanFrom start).bind_pure fun _ _ _ hw => .inl hw
  split
  case h_1 => exact reads_namedType hType
  case h_2 => exact hTake rfl (by rintro ⟨⟩) fun _ => hElem
  case h_3 =>
    refine (reads_take_token (by rintro ⟨⟩)).bind_token (fun _ => reads_sequenceType hType start) ?_
    rintro _ _ opener _ _ hOpener ⟨inner, closer, more, rfl, hInner, hCloser, hMore⟩
    refine ⟨Phrase.cons_tail hOpener ⟨inner, closer, more, rfl, hInner, hCloser, .inr hMore⟩, ?_, ?_⟩
    · rintro t hWord hName
      obtain ⟨rfl, -⟩ := List.cons_eq_cons.1 hWord
      rw [hOpener] at hName
      cases hName
    · rintro t tail hWord -
      obtain ⟨rfl, rfl⟩ := List.cons_eq_cons.1 hWord
      exact ⟨inner, closer, more, rfl, hInner, hCloser, hMore.ne_nil⟩
  case h_4 =>
    refine hTake rfl (by rintro ⟨⟩) fun _ => ?_
    refine reads_bracket fun _ => reads_tail ((reads_type_phrase hType).word fun _ _ _ h => h.balanced)
      fun _ _ => hElem.opt
  case h_5 =>
    exact hTake rfl (by rintro ⟨⟩) fun _ => ReadsFrom.opt_phrase (reads_eat_opt rfl) fun _ => hElem
  case h_6 =>
    refine hTake rfl (by rintro ⟨⟩) fun _ => ?_
    exact ReadsFrom.phrase_opt (reads_expect_phrase rfl) fun _ => hElem.opt
  case h_7 =>
    refine hTake rfl (by rintro ⟨⟩) fun _ => ?_
    exact ReadsFrom.bind_pure (reads_signature hType) fun _ _ _ hw => hw
  case h_8 => exact reads_structType hType
  case h_9 => exact reads_interfaceType hType
  case h_10 =>
    have hInner : Reads n (do
        let inner ← type
        let _ ← expect (.closing .round)
        return GoType.paren inner (← spanFrom start)) fun _ w _ => Tail .round w :=
      reads_tail ((reads_type_phrase hType).word fun _ _ _ h => h.balanced) fun _ _ =>
        (reads_spanFrom start).bind_pure fun _ _ _ hw => .inl hw
    refine (reads_take_token (by rintro ⟨⟩)).bind_token (fun _ => hInner) ?_
    rintro _ _ opener v _ hOpener hTail
    refine .of_ne (Phrase.cons_tail hOpener hTail) ?_
    rintro t tail hWord
    obtain ⟨rfl, -⟩ := List.cons_eq_cons.1 hWord
    rw [hOpener]
    exact ⟨by rintro ⟨⟩, by rintro ⟨⟩⟩
  case h_11 => exact reads_reject _ _

end

/-! ## The reader of types -/

theorem reads_goType (n : Nat) : Reads n goType fun _ w r => TypeWord w r := by
  induction n with
  | zero => exact fun c _ _ _ hn => absurd hn (Nat.not_lt_zero _)
  | succ n ih =>
      intro c type c' hc hn hs hRun
      rw [goType_eq hc.stop_kind] at hRun
      obtain ⟨word, hTakes, hWord⟩ := reads_typeForm ih c type c' hc hn hs hRun
      refine ⟨word, ⟨hTakes.rest_eq, hTakes.stop_eq, ?_⟩, hWord⟩
      intro t others hHead
      rw [goType_eq (c := { c with rest := word ++ t :: others }) hc.stop_kind]
      exact hTakes.run_eq t others hHead

theorem reads_goType_phrase (n : Nat) : Reads n goType fun _ w _ => Phrase w :=
  reads_type_phrase (reads_goType n)

end Parser

end GoTemplate
