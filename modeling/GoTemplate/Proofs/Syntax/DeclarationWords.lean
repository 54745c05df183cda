import GoTemplate.Proofs.Syntax.TypeWords
import GoTemplate.Syntax.Declaration.Parser

/-!
What the grammar of declarations takes. A declaration is a phrase, unless it ends with values that
go on to the end of the source with some bracket open.
-/

namespace GoTemplate

open Brackets

/-- Words that end with values in which a bracket stays open. -/
def ValuesUnclosed (word : List Token) : Prop :=
  ∃ before assign value, word = before ++ assign :: value ∧ Balanced before ∧
    assign.kind = .operator .assign ∧ Unclosed value

theorem ValuesUnclosed.append_left {u v : List Token} (hu : Balanced u) (hv : ValuesUnclosed v) :
    ValuesUnclosed (u ++ v) := by
  obtain ⟨before, assign, value, rfl, hBefore, hAssign, hValue⟩ := hv
  exact ⟨u ++ before, assign, value, by simp, hu.append hBefore, hAssign, hValue⟩

theorem ValuesUnclosed.not_balanced {word : List Token} (h : ValuesUnclosed word) :
    ¬Balanced word := by
  obtain ⟨before, assign, value, rfl, hBefore, hAssign, hValue⟩ := h
  have hPlain : IsPlain assign := isPlain_of_isInner (by rw [hAssign]; rfl)
  intro hBalanced
  exact hValue.not_balanced ((hBefore.of_append_left hBalanced).of_plain hPlain)

/-- Words that end with values in which a bracket stays open, with no semicolon outside of
brackets. -/
structure OpenValues (word : List Token) : Prop where
  unclosed : ValuesUnclosed word
  undivided : Undivided word

theorem OpenValues.ne_nil {word : List Token} (h : OpenValues word) : word ≠ [] := by
  rintro rfl
  exact h.unclosed.not_balanced .nil

theorem OpenValues.append_left {u v : List Token} (hu : OptPhrase u) (hv : OpenValues v) :
    OpenValues (u ++ v) := by
  rcases hu with rfl | hu
  · exact hv
  · exact ⟨hv.unclosed.append_left hu.balanced, .append hu.balanced hu.undivided hv.undivided⟩

/-- Whether a declaration is one of constants or variables, without brackets around it, that ends
with values. -/
def Declaration.endsWithValues : Declaration → Bool
  | .consts ⟨false, [spec], _⟩ | .vars ⟨false, [spec], _⟩ => spec.hasValues
  | _ => false

/-- The last declaration of the file is one of constants or variables without brackets around it,
and in its values a bracket stays open. -/
def SourceFile.EndsInOpenValues (file : SourceFile) (tokens : List Token) : Prop :=
  (∃ before last, file.declarations = before ++ [last] ∧ last.endsWithValues = true) ∧
    ValuesUnclosed tokens

/-- What a source file takes. -/
def FileWord (file : SourceFile) (word rest : List Token) : Prop :=
  nextKind rest = .endOfSource ∧ (Balanced word ∨ file.EndsInOpenValues word)

theorem FileWord.append {file : SourceFile} {u v rest : List Token} (hu : Balanced u)
    (hv : FileWord file v rest) : FileWord file (u ++ v) rest := by
  obtain ⟨hEnd, hv | ⟨hLast, hv⟩⟩ := hv
  · exact ⟨hEnd, .inl (hu.append hv)⟩
  · exact ⟨hEnd, .inr ⟨hLast, hv.append_left hu⟩⟩

namespace Parser

variable {α : Type} {n : Nat} {Start : Cursor → Prop}

/-! ## Declarations of types -/

theorem reads_typeParam : Reads n typeParam fun _ w _ => Phrase w :=
  (reads_sepBy rfl reads_identifier_phrase).phrase_opt fun _ =>
    (reads_constraint (reads_goType n)).bind_pure fun _ _ _ hw => .inr hw

theorem reads_typeParams : Reads n typeParams fun _ w _ => Phrase w :=
  reads_bracket fun _ => reads_tail
    ((reads_commaList reads_typeParam).word fun _ _ _ h => h.balanced) fun _ _ => reads_pure_opt _

theorem opensTypeParams_congr {c d : Cursor} (hFirst : c.kindAt 0 = d.kindAt 0)
    (hRest : d.kindAt 0 = .opening .square → (∀ i ≤ 3, c.kindAt i = d.kindAt i) ∧
      hasComma 0 (c.rest.drop 1) = hasComma 0 (d.rest.drop 1)) :
    opensTypeParams c = opensTypeParams d := by
  unfold opensTypeParams
  by_cases hSquare : d.kindAt 0 = .opening .square
  · obtain ⟨hKinds, hComma⟩ := hRest hSquare
    rw [hFirst, hKinds 1 (by omega), hKinds 2 (by omega), hKinds 3 (by omega), hComma]
  · simp [hFirst, hSquare]

/-- Whether type parameters come shows within the brackets and the type behind them. -/
theorem opensTypeParams_eq_of_head {c : Cursor} {word rest : List Token} {t : Token}
    (others : List Token) (hNe : word ≠ []) (hGoesOn : GoesOn word) (hRest : c.rest = word ++ rest)
    (hHead : rest.head? = some t) :
    opensTypeParams { c with rest := word ++ t :: others } = opensTypeParams c := by
  refine opensTypeParams_congr (kindAt_eq_of_head others (Nat.zero_le _) hRest hHead) fun hSquare => ?_
  obtain ⟨first, tail, rfl⟩ := List.exists_cons_of_ne_nil hNe
  have hKind : first.kind = .opening .square := by
    rw [← hSquare, Cursor.kindAt, hRest]
    rfl
  obtain ⟨inner, closer, more, rfl, hInner, hCloser, hMore⟩ := hGoesOn first tail rfl hKind
  have hPos := List.length_pos_iff.2 hMore
  refine ⟨fun i hi => kindAt_eq_of_head others ?_ hRest hHead, ?_⟩
  · simp only [List.length_cons, List.length_append]
    omega
  · have hStop : ∀ v, hasComma 0 (closer :: v) = false := by
      intro v
      simp [hasComma, hCloser]
    rw [hRest]
    change hasComma 0 ((inner ++ closer :: more) ++ t :: others) =
      hasComma 0 ((inner ++ closer :: more) ++ rest)
    simp only [List.append_assoc, List.cons_append]
    exact hasComma_append_congr hInner (by rw [hStop, hStop])

theorem reads_typeSpec : Reads n typeSpec fun _ w _ => Phrase w := by
  have hType (name : Identifier) (params : List TypeParam) : Reads n (do
      let isAlias ← eat (.operator .assign)
      let type ← goType
      return (⟨name, params, isAlias, type, ← spanFrom name.span⟩ : TypeSpec)) fun _ w _ =>
        Phrase w ∧ GoesOn w := by
    refine ReadsFrom.bind (reads_eat (by rintro ⟨⟩)) (V := fun _ _ w _ => Phrase w ∧ GoesOn w)
      (fun isAlias => ?_) ?_
    · refine ReadsFrom.bind (reads_goType n) (V := fun _ _ w _ => w = []) (fun type =>
        (reads_spanFrom _).bind_pure fun _ _ _ hw => hw) ?_
      rintro _ _ u _ _ hu rfl
      rw [List.append_nil]
      exact ⟨hu.phrase, hu.goesOn⟩
    · rintro isAlias _ u v _ hu ⟨hv, hGoesOn⟩
      cases isAlias with
      | false =>
          obtain rfl : u = [] := hu
          exact ⟨hv, hGoesOn⟩
      | true =>
          obtain ⟨t, rfl, ht⟩ := hu
          refine ⟨Phrase.cons (by rw [ht]; rfl) hv, ?_⟩
          rintro u tail hWord hSquare
          obtain ⟨rfl, -⟩ := List.cons_eq_cons.1 hWord
          rw [ht] at hSquare
          cases hSquare
  refine reads_identifier_phrase.bind (V := fun _ _ w _ => Phrase w) (fun name => ?_)
    fun _ _ _ _ _ hu hv => Phrase.append hu hv
  change Reads n (look opensTypeParams >>= fun opens =>
    (if opens then typeParams else return []) >>= fun params => do
      let isAlias ← eat (.operator .assign)
      let type ← goType
      return (⟨name, params, isAlias, type, ← spanFrom name.span⟩ : TypeSpec)) _
  refine reads_look (U := fun _ _ w _ => Phrase w ∧ GoesOn w) (fun opens => ?_)
    (fun c a word rest _ hRest hU t others hHead =>
      opensTypeParams_eq_of_head others hU.1.ne_nil hU.2 hRest hHead) fun _ _ _ _ h => h.1
  cases opens with
  | false => exact Reads.from (hType name [])
  | true =>
      refine reads_typeParams.from.bind (fun params => hType name params) ?_
      rintro _ _ u v _ hu ⟨hv, -⟩
      exact ⟨Phrase.append hu hv, .append hu hv.ne_nil⟩

/-! ## Declarations of values -/

theorem reads_valueType : Reads n valueType fun _ w _ => OptPhrase w := by
  refine reads_kind_bind fun k => ?_
  split
  case h_5 => exact (reads_goType_phrase n).from.map fun _ _ _ hw => .inr hw
  all_goals exact (reads_pure_opt _).from

theorem reads_values : Reads n values fun hasValues w r =>
    OptPhrase w ∨ (hasValues = true ∧ OpenValues w) ∧ r = [] := by
  refine ReadsFrom.bind (reads_eat (by rintro ⟨⟩)) (V := fun equals b w r =>
    if equals then b = true ∧ Expression (· = .semicolon) w r else w = []) (fun equals => ?_) ?_
  · cases equals with
    | false => exact (reads_pure _).word fun _ _ _ h => h.2
    | true => exact (reads_expression _).bind_pure fun _ _ _ hw => ⟨rfl, hw⟩
  · intro equals hasValues u v r hu hv
    cases equals with
    | false =>
        obtain rfl : u = [] := hu
        obtain rfl : v = [] := hv
        exact .inl .nil
    | true =>
        obtain ⟨assign, rfl, hAssign⟩ := hu
        have hInner : assign.kind.isInner := by rw [hAssign]; rfl
        obtain ⟨rfl, ⟨-, hv⟩ | ⟨⟨hv, hUndivided⟩, rfl⟩⟩ := hv
        · exact .inl (.inr (Phrase.cons hInner (hv rfl)))
        · have hAssigned : Phrase [assign] := .singleton hInner
          exact .inr ⟨⟨rfl, ⟨[], assign, v, rfl, .nil, hAssign, hv⟩,
            .append hAssigned.balanced hAssigned.undivided (hUndivided rfl)⟩, rfl⟩

theorem reads_valueSpec : Reads n valueSpec fun spec w r =>
    Phrase w ∨ (spec.hasValues = true ∧ OpenValues w) ∧ r = [] := by
  have hValues (names : List Identifier) (type : Option GoType) (start : Span) : Reads n (do
      let hasValues ← values
      return (⟨names, type, hasValues, ← spanFrom start⟩ : ValueSpec)) fun spec w r =>
        OptPhrase w ∨ (spec.hasValues = true ∧ OpenValues w) ∧ r = [] := by
    refine ReadsFrom.bind reads_values (V := fun hasValues spec w _ =>
      w = [] ∧ spec.hasValues = hasValues) (fun hasValues => ?_) ?_
    · exact (reads_spanFrom start).bind_pure fun _ _ _ hw => ⟨hw, rfl⟩
    · rintro _ spec u _ r hu ⟨rfl, rfl⟩
      simpa using hu
  refine reads_here.skip fun start => ?_
  refine (reads_sepBy rfl reads_identifier_phrase).bind (fun names => reads_valueType.bind
    (fun type => hValues names type start)
    (W := fun spec w r => OptPhrase w ∨ (spec.hasValues = true ∧ OpenValues w) ∧ r = []) ?_) ?_
  · rintro _ _ u v r hu (hv | ⟨⟨hHas, hv⟩, hEnd⟩)
    · exact .inl (hu.append hv)
    · exact .inr ⟨⟨hHas, .append_left hu hv⟩, hEnd⟩
  · rintro _ _ u v r hu (hv | ⟨⟨hHas, hv⟩, hEnd⟩)
    · exact .inl (hu.append_opt hv)
    · exact .inr ⟨⟨hHas, .append_left (.inr hu) hv⟩, hEnd⟩

/-! ## Groups of declarations -/

/-- Within brackets nothing stays open. -/
theorem reads_specs {spec : Parser α} {U : α → List Token → Prop} (hU : ∀ a, ¬U a [])
    (hSpec : Reads n spec fun a w r => Phrase w ∨ U a w ∧ r = []) :
    Reads n (specs spec) fun group w r =>
      Phrase w ∨ (∃ a, group = (false, [a]) ∧ U a w) ∧ r = [] := by
  refine ReadsFrom.bind (reads_eat (by rintro ⟨⟩)) (V := fun grouped group w r =>
    if grouped then Tail .round w else Phrase w ∨ (∃ a, group = (false, [a]) ∧ U a w) ∧ r = [])
    (fun grouped => ?_) ?_
  · cases grouped with
    | true =>
        have hClose (as : List α) : Reads n (do
            let _ ← expect (.closing .round)
            return (true, as)) fun _ w _ => ∃ closer, w = [closer] ∧ closer.kind = .closing .round :=
          (reads_expect_token (by rintro ⟨⟩)).bind_pure fun _ _ _ hw => hw
        refine ReadsFrom.bind (reads_statements hU hSpec) hClose ?_
        rintro _ _ u _ r ⟨hu | ⟨hEnd, -⟩, -⟩ ⟨closer, rfl, hCloser⟩
        · exact ⟨u, closer, [], rfl, hu, hCloser, .nil⟩
        · cases hEnd
    | false =>
        refine ReadsFrom.bind_pure hSpec ?_
        rintro a w r (hw | ⟨hw, hEnd⟩)
        · exact .inl hw
        · exact .inr ⟨⟨a, rfl, hw⟩, hEnd⟩
  · intro grouped group u v r hu hv
    cases grouped with
    | true =>
        obtain ⟨opener, rfl, hOpener⟩ := hu
        exact .inl (Phrase.cons_tail hOpener hv)
    | false =>
        obtain rfl : u = [] := hu
        exact hv

theorem reads_specGroup {spec : Parser α} {U : α → List Token → Prop} {k : TokenKind}
    (hk : k.isInner) (hU : ∀ a, ¬U a []) (hAppend : ∀ a u v, Phrase u → U a v → U a (u ++ v))
    (hSpec : Reads n spec fun a w r => Phrase w ∨ U a w ∧ r = []) :
    ReadsFrom n (fun c => Start c ∧ c.kind = k) (specGroup spec) fun group w r =>
      Phrase w ∨ (group.grouped = false ∧ ∃ a, group.specs = [a] ∧ U a w) ∧ r = [] := by
  have hSpecs (keyword : Token) : Reads n (do
      let found ← specs spec
      return (⟨found.1, found.2, ← spanFrom keyword.span⟩ : SpecGroup α)) fun group w r =>
        Phrase w ∨ (group.grouped = false ∧ ∃ a, group.specs = [a] ∧ U a w) ∧ r = [] := by
    refine ReadsFrom.bind (reads_specs hU hSpec) (V := fun found group w _ =>
      w = [] ∧ group.grouped = found.1 ∧ group.specs = found.2) (fun found => ?_) ?_
    · exact (reads_spanFrom _).bind_pure fun _ _ _ hw => ⟨hw, rfl, rfl⟩
    · rintro found group u _ r hu ⟨rfl, hGrouped, hFound⟩
      rw [List.append_nil]
      rcases hu with hu | ⟨⟨a, rfl, hu⟩, hEnd⟩
      · exact .inl hu
      · exact .inr ⟨⟨hGrouped, a, hFound, hu⟩, hEnd⟩
  refine (reads_take_token (ne_endOfSource_of_isInner hk)).bind hSpecs ?_
  rintro _ _ _ v r ⟨t, rfl, ht⟩ (hv | ⟨⟨hGrouped, a, hFound, hv⟩, hEnd⟩)
  · exact .inl (Phrase.cons (ht ▸ hk) hv)
  · refine .inr ⟨⟨hGrouped, a, hFound, ?_⟩, hEnd⟩
    exact hAppend a [t] v (.singleton (ht ▸ hk)) hv

/-- Groups of declarations that all are phrases. -/
theorem reads_specGroup_phrase {spec : Parser α} {k : TokenKind} (hk : k.isInner)
    (hSpec : Reads n spec fun _ w _ => Phrase w) :
    ReadsFrom n (fun c => Start c ∧ c.kind = k) (specGroup spec) fun _ w _ => Phrase w := by
  refine (reads_specGroup (U := fun _ _ => False) hk (fun _ h => h) (fun _ _ _ _ h => h)
    (hSpec.word fun _ _ _ => .inl)).word ?_
  rintro _ _ _ (hw | ⟨⟨-, _, -, hFalse⟩, -⟩)
  · exact hw
  · exact hFalse.elim

/-- Behind its keyword a group of declarations takes a token at least. -/
theorem reads_specGroup_ne_nil {spec : Parser α} {U : α → List Token → Prop} (hU : ∀ a, ¬U a [])
    (hSpec : Reads n spec fun a w r => Phrase w ∨ U a w ∧ r = []) :
    Reads n (specGroup spec) fun _ w _ => w ≠ [] := by
  have hSpecs : Reads n (specs spec) fun _ w _ => w ≠ [] := by
    refine (reads_specs hU hSpec).word ?_
    rintro _ w _ (hw | ⟨⟨a, -, hw⟩, -⟩)
    · exact hw.ne_nil
    · rintro rfl
      exact hU a hw
  refine reads_take_any.bind (V := fun _ _ w _ => w ≠ []) (fun keyword => ?_)
    fun _ _ u _ _ _ hv => List.append_ne_nil_of_right_ne_nil u hv
  refine ReadsFrom.bind hSpecs (V := fun _ _ w _ => w = [])
    (fun found => (reads_spanFrom _).bind_pure fun _ _ _ hw => hw) ?_
  rintro _ _ u _ _ hu rfl
  rwa [List.append_nil]

/-- As `reads_specGroup_ne_nil`, where all declarations are phrases. -/
theorem reads_specGroup_phrase_ne_nil {spec : Parser α} (hSpec : Reads n spec fun _ w _ => Phrase w) :
    Reads n (specGroup spec) fun _ w _ => w ≠ [] :=
  reads_specGroup_ne_nil (U := fun _ _ => False) (fun _ h => h) (hSpec.word fun _ _ _ => .inl)

/-! ## Functions -/

theorem reads_receiver : Reads n receiver fun _ w _ => Phrase w := by
  refine reads_here.skip fun start => ?_
  refine ReadsFrom.phrase_opt (reads_params (reads_goType n)) fun params => ?_
  split
  · exact reads_pure_opt _
  · exact reads_throw _ _

theorem reads_body : Reads n body fun _ w _ => OptPhrase w :=
  reads_ifNext_opt ((reads_group .curly).phrase_opt fun _ => reads_pure_opt _)

theorem reads_funcDecl : Reads n funcDecl fun _ w _ => Phrase w := by
  refine (reads_expect_phrase rfl).bind (V := fun _ _ w _ => Phrase w) (fun keyword => ?_)
    fun _ _ _ _ _ hu hv => Phrase.append hu hv
  refine (reads_ifNext_opt (reads_receiver.map fun _ _ _ hw => hw)).opt_phrase fun receiver => ?_
  refine reads_identifier_phrase.phrase_opt fun name => ?_
  refine (reads_ifNext_opt reads_typeParams).opt_opt fun typeParams => ?_
  refine (reads_signature (reads_goType n)).opt.opt_opt fun signature => ?_
  exact reads_body.opt_opt fun hasBody => (reads_spanFrom _).bind_pure fun _ _ _ hw => .inl hw

/-! ## Source files -/

theorem reads_importSpec : Reads n importSpec fun _ w _ => Phrase w := by
  have hName : Reads n importName fun _ w _ => OptPhrase w := by
    refine reads_kind_bind fun k => ?_
    split
    · exact reads_identifier_phrase.from.map fun _ _ _ hw => .inr hw
    · refine (reads_take (by rintro ⟨⟩)).bind_pure ?_
      rintro t _ _ ⟨rfl, ht⟩
      exact .inr (.singleton (by rw [ht]; rfl))
    · exact (reads_pure_opt _).from
  have hPath {k : TokenKind} (hk : k.isInner) (start : Span) (name : Option Identifier) :
      ReadsFrom n (fun c => True ∧ c.kind = k) (do
        let path ← take
        return (⟨name, path.lexeme, ← spanFrom start⟩ : ImportSpec)) fun _ w _ => Phrase w := by
    refine ReadsFrom.phrase_opt ((reads_take (ne_endOfSource_of_isInner hk)).word ?_)
      fun path => (reads_spanFrom start).bind_pure fun _ _ _ hw => .inl hw
    rintro t _ _ ⟨rfl, ht⟩
    exact .singleton (ht ▸ hk)
  refine reads_here.skip fun start => hName.opt_phrase fun name => reads_kind_bind fun k => ?_
  split
  · exact hPath rfl start name
  · exact hPath rfl start name
  · exact reads_reject _ _

/-- An import takes a phrase. -/
theorem reads_importDecl :
    ReadsFrom n (fun c => Start c ∧ c.kind = .keyword .import) importDecl fun _ w _ => Phrase w :=
  (reads_specGroup_phrase rfl reads_importSpec).map fun _ _ _ hw => hw

/-- A declaration takes a phrase, or it ends with values that take all that is left of the source
and leave a bracket open. -/
theorem reads_declaration : Reads n declaration fun decl w r =>
    Phrase w ∨ (decl.endsWithValues = true ∧ OpenValues w) ∧ r = [] := by
  have hValues {k : TokenKind} {make : SpecGroup ValueSpec → Declaration} (hk : k.isInner)
      (hMake : ∀ spec span, (make ⟨false, [spec], span⟩).endsWithValues = spec.hasValues) :
      ReadsFrom n (fun c => True ∧ c.kind = k) (make <$> specGroup valueSpec) fun decl w r =>
        Phrase w ∨ (decl.endsWithValues = true ∧ OpenValues w) ∧ r = [] := by
    refine (reads_specGroup hk ?_ ?_ reads_valueSpec).map ?_
    · rintro _ ⟨-, hNil⟩
      exact hNil.ne_nil rfl
    · rintro _ _ _ hu ⟨hHas, hv⟩
      exact ⟨hHas, .append_left (.inr hu) hv⟩
    · rintro ⟨grouped, specs, span⟩ w r (hw | ⟨⟨rfl, spec, rfl, hHas, hw⟩, hEnd⟩)
      · exact .inl hw
      · exact .inr ⟨⟨(hMake spec span).trans hHas, hw⟩, hEnd⟩
  refine reads_kind_bind fun k => ?_
  split
  · exact hValues rfl fun _ _ => rfl
  · exact hValues rfl fun _ _ => rfl
  · exact (reads_specGroup_phrase rfl reads_typeSpec).map fun _ _ _ hw => .inl hw
  · exact reads_funcDecl.from.map fun _ _ _ hw => .inl hw
  · exact reads_reject _ _
  · exact reads_reject _ _

theorem reads_packageClause : Reads n packageClause fun _ w _ => Phrase w := by
  refine reads_kind_bind fun k => ?_
  split
  · rename_i hKind
    subst hKind
    refine (reads_take (by rintro ⟨⟩)).bind (fun _ => reads_identifier_phrase) ?_
    rintro t _ _ v _ ⟨rfl, ht⟩ hv
    exact Phrase.cons (by rw [ht]; rfl) hv
  · exact reads_reject _ _

theorem reads_importSection :
    Reads n importSection fun _ w r => Balanced w ∧ nextKind r ≠ .keyword .import := by
  have hEnd (decl : Declaration) : Reads n (do statementEnd; return decl) fun _ w _ => Balanced w :=
    reads_statementEnd.bind_pure fun _ _ _ hw => hw.balanced
  have hImport : ReadsFrom n (fun c => decide (c.kind = .keyword .import) = true)
      (do let decl ← importDecl; statementEnd; return decl) fun _ w _ => w ≠ [] ∧ Balanced w := by
    refine (reads_importDecl.mono (fun c h => ⟨trivial, of_decide_eq_true h⟩)
      fun _ _ _ hw => hw).bind hEnd ?_
    intro _ _ u v _ hu hv
    exact ⟨List.append_ne_nil_of_left_ne_nil hu.ne_nil v, hu.balanced.append hv⟩
  exact reads_manyWhile hImport (fun _ _ _ hw => hw.1)
    (fun _ hNext => ⟨.nil, of_decide_eq_false hNext⟩)
    fun _ _ _ _ _ hu hv => ⟨hu.2.append hv.1, hv.2⟩

/-- A source file takes all tokens. They are balanced, or its last declaration leaves a bracket
open. -/
theorem reads_sourceFile : Reads n sourceFile FileWord := by
  have hDeclarations (start : Span) (package : Identifier) (imports : List Declaration) :
      Reads n (do
        let declarations ← statements .endOfSource declaration
        return (⟨package, imports ++ declarations, ← spanFrom start⟩ : SourceFile)) FileWord := by
    refine ReadsFrom.bind (reads_statements ?_ reads_declaration) (V := fun declarations file w _ =>
      w = [] ∧ file.declarations = imports ++ declarations) (fun declarations => ?_) ?_
    · rintro _ ⟨-, hNil⟩
      exact hNil.ne_nil rfl
    · exact (reads_spanFrom start).bind_pure fun _ _ _ hw => ⟨hw, rfl⟩
    · rintro declarations file w _ r ⟨hw, hNext⟩ ⟨rfl, hFile⟩
      refine ⟨hNext.elim id id, ?_⟩
      rw [List.append_nil]
      rcases hw with hw | ⟨-, before, last, u, v, rfl, rfl, hu, hValues, hv⟩
      · exact .inl hw
      · refine .inr ⟨⟨imports ++ before, last, ?_, hValues⟩, hv.unclosed.append_left hu⟩
        rw [hFile, List.append_assoc]
  refine reads_here.skip fun start => ?_
  refine reads_packageClause.bind (V := fun _ => FileWord) (fun package => ?_)
    fun _ _ _ _ _ hu hv => hv.append hu.balanced
  refine reads_statementEnd.bind (V := fun _ => FileWord) (fun _ => ?_)
    fun _ _ _ _ _ hu hv => hv.append hu.balanced
  exact reads_importSection.bind (fun imports => hDeclarations start package imports)
    fun _ _ _ _ _ hu hv => hv.append hu.1

end Parser

end GoTemplate
