import GoTemplate.Proofs.Syntax.InStep

/-!
The grammar of types goes abreast with itself, and it is what the reader of types reads: the types
within a type start behind its first token, so that the reader never runs out of tokens to count.
-/

namespace GoTemplate

variable {V : SpanRelation}

/-! ## Parameter lists -/

namespace ParamEntry

/-- Entries that are the same but for spans. The spans of single names, which faults show, are those
of corresponding tokens. -/
inductive GoesWith (V : SpanRelation) : ParamEntry → ParamEntry → Prop where
  | bare {name name' : Identifier} (hName : name.GoesWith V name') :
    GoesWith V (.bare name) (.bare name')
  | unnamed {type type' : GoType} {variadic : Bool} (hType : EqUpTo V type type') :
    GoesWith V (.unnamed type variadic) (.unnamed type' variadic)
  | named {name name' : Identifier} {type type' : GoType} {variadic : Bool}
    (hName : name.GoesWith V name') (hType : EqUpTo V type type') :
    GoesWith V (.named name type variadic) (.named name' type' variadic)

variable {entries entries' : List ParamEntry}

theorem isNamed_eq {entry entry' : ParamEntry} (h : entry.GoesWith V entry') :
    entry.isNamed = entry'.isNamed := by
  cases h <;> rfl

theorem eqUpTo_toUnnamed {entry entry' : ParamEntry} (h : entry.GoesWith V entry') :
    EqUpTo V entry.toUnnamed entry'.toUnnamed := by
  cases h with
  | bare hName =>
      apply congrArg (Param.mk none · false)
      exact congrArg₂ (GoType.named none · [] ·) hName.eqUpTo (V.left_eq hName.span)
  | unnamed hType => exact congrArg (Param.mk none · _) hType
  | named _ hType => exact congrArg (Param.mk none · _) hType

theorem agree_toNamed (h : List.Forall₂ (GoesWith V) entries entries') {opened opened' : Span}
    (hOpened : V.token opened opened') :
    Agree V (fun r r' => EqUpTo V r.1 r'.1 ∧ EqUpTo V r.2 r'.2) (toNamed opened entries)
      (toNamed opened' entries') := by
  induction h with
  | nil => exact .ok ⟨rfl, rfl⟩
  | @cons entry entry' entries entries' hHead _ ih =>
      rw [toNamed, toNamed]
      generalize toNamed opened entries = r, toNamed opened' entries' = r' at ih
      cases ih with
      | error hFault hSpan => exact .error hFault hSpan
      | @ok result result' hResult =>
          obtain ⟨params, next⟩ := result
          obtain ⟨params', next'⟩ := result'
          obtain ⟨hParams, hNext⟩ := hResult
          cases hHead with
          | unnamed hType => exact .error rfl hOpened
          | named hName hType =>
              refine .ok ⟨congrArg₂ List.cons ?_ hParams, congrArg some hType⟩
              exact congrArg₂ (Param.mk · · _) (congrArg some hName.eqUpTo) hType
          | bare hName =>
              cases next with
              | none =>
                  cases next' with
                  | none => exact .error (congrArg SyntaxFault.missingParamType hName.name_eq) hName.span
                  | some => cases hNext
              | some type =>
                  cases next' with
                  | none => cases hNext
                  | some type' =>
                      refine .ok ⟨congrArg₂ List.cons ?_ hParams, hNext⟩
                      exact congrArg₂ (Param.mk · · _) (congrArg some hName.eqUpTo) (Option.some.inj hNext)

theorem agree_resolve (h : List.Forall₂ (GoesWith V) entries entries') {opened opened' : Span}
    (hOpened : V.token opened opened') :
    Agree V (EqUpTo V) (resolve opened entries) (resolve opened' entries') := by
  have hNamed : entries.any isNamed = entries'.any isNamed := by
    induction h with
    | nil => rfl
    | cons hHead _ ih => rw [List.any_cons, List.any_cons, isNamed_eq hHead, ih]
  rw [resolve, resolve, ← hNamed]
  split
  · exact (agree_toNamed h hOpened).map fun _ _ hBoth => hBoth.1
  · refine .ok (eqUpTo_list ?_)
    exact List.forall₂_map_left_iff.2 (List.forall₂_map_right_iff.2 (h.imp fun _ _ => eqUpTo_toUnnamed))

end ParamEntry

namespace Parser

/-! ## Forms of types -/

section

variable {n : Nat} {type type' : Parser GoType} {Start : Cursor → Prop}

theorem abreast_typeArgs (hType : Abreast V n type type' (EqUpTo V)) :
    Abreast V n (typeArgs type) (typeArgs type') (EqUpTo V) :=
  abreast_expect.bind fun _ _ _ => (abreast_commaList? _ hType).bind fun _ _ hArgs =>
    abreast_expect.bind fun _ _ _ => abreast_pure (eqUpTo_list hArgs)

theorem abreast_memberName : Abreast V n memberName memberName (EqUpTo V) := by
  apply abreast_eat.bind
  rintro dot _ rfl
  cases dot with
  | false => exact abreast_pure rfl
  | true => exact abreast_identifier.map fun _ _ h => congrArg some h.eqUpTo

theorem eqUpTo_named {package package' : Option Identifier} {name name' : Identifier}
    {args args' : List GoType} {span span' : Span} (hPackage : EqUpTo V package package')
    (hName : EqUpTo V name name') (hArgs : EqUpTo V args args') (hSpan : EqUpTo V span span') :
    EqUpTo V (GoType.named package name args span) (.named package' name' args' span') := by
  have hSpans : V.left span = V.right span' := hSpan
  rw [EqUpTo, respan_named, respan_named, hPackage, hName, hArgs, hSpans]

theorem abreast_namedType (hType : Abreast V n type type' (EqUpTo V)) :
    AbreastFrom V (n + 1) Start (namedType type) (namedType type') (EqUpTo V) := by
  apply abreast_identifier.from.bind_takes takesToken_identifier
  intro first first' hFirst
  apply abreast_memberName.bind
  intro second second' hSecond
  apply (abreast_ifNext (abreast_typeArgs hType) eqUpTo_nil).bind
  intro args args' hArgs
  apply (abreast_spanFrom hFirst.span).bind
  intro span span' hSpan
  cases second with
  | none =>
      cases second' with
      | none => exact abreast_pure (eqUpTo_named rfl hFirst.eqUpTo hArgs hSpan)
      | some => cases hSecond
  | some name =>
      cases second' with
      | none => cases hSecond
      | some name' =>
          apply abreast_pure
          exact eqUpTo_named (congrArg some hFirst.eqUpTo) (Option.some.inj hSecond) hArgs hSpan

theorem entryForm_eq {c d : Cursor} (h : c.GoesWith V d) : entryForm c = entryForm d := by
  unfold entryForm
  rw [h.kind_eq, h.kindAt_eq, Brackets.kindAfter_eq (h.drop 1)]

theorem abreast_paramEntry (hType : Abreast V n type type' (EqUpTo V)) :
    Abreast V n (paramEntry type) (paramEntry type') (ParamEntry.GoesWith V) := by
  apply abreast_look fun _ _ => entryForm_eq
  intro form
  cases form with
  | ellipsis =>
      exact abreast_take.from.bind fun _ _ _ => hType.bind fun _ _ h => abreast_pure (.unnamed h)
  | bareName => exact abreast_identifier.from.bind fun _ _ h => abreast_pure (.bare h)
  | type => exact hType.from.bind fun _ _ h => abreast_pure (.unnamed h)
  | nameAndType =>
      refine abreast_identifier.from.bind fun _ _ hName => abreast_eat.bind ?_
      rintro variadic _ rfl
      exact hType.bind fun _ _ h => abreast_pure (.named hName h)

theorem abreast_params (hType : Abreast V n type type' (EqUpTo V)) :
    Abreast V n (params type) (params type') (EqUpTo V) :=
  abreast_expect.bind fun _ _ hOpened => (abreast_commaList? _ (abreast_paramEntry hType)).bind
    fun _ _ hEntries => abreast_expect.bind fun _ _ _ =>
      abreast_lift (ParamEntry.agree_resolve hEntries hOpened.span)

theorem abreast_results (hType : Abreast V n type type' (EqUpTo V)) :
    Abreast V n (results type) (results type') (EqUpTo V) := by
  have hSingle : Abreast V n (do return [(⟨none, ← type, false⟩ : Param GoType)])
      (do return [(⟨none, ← type', false⟩ : Param GoType)]) (EqUpTo V) :=
    hType.bind fun _ _ h => abreast_pure (congrArg (fun type => [Param.mk none type false]) h)
  apply abreast_kind_bind
  intro k
  split
  case h_1 => exact (abreast_params hType).from
  case h_11 => exact (abreast_pure eqUpTo_nil).from
  all_goals exact hSingle.from

theorem abreast_signature (hType : Abreast V n type type' (EqUpTo V)) :
    Abreast V n (signature type) (signature type') (EqUpTo V) := by
  apply abreast_here.bind
  intro start start' hStart
  apply (abreast_params hType).bind
  intro params params' hParams
  apply (abreast_results hType).bind
  intro results results' hResults
  apply (abreast_spanFrom hStart).bind
  intro span span' hSpan
  apply abreast_pure
  change Signature.mk _ _ _ = Signature.mk _ _ _
  rw [hParams, hResults]
  exact congrArg _ hSpan

theorem abreast_constraint (hType : Abreast V n type type' (EqUpTo V)) :
    Abreast V n (constraint type) (constraint type') (EqUpTo V) := by
  have hTerm : Abreast V n (term type) (term type') (EqUpTo V) := by
    apply abreast_eat.bind
    rintro tilde _ rfl
    exact hType.bind fun _ _ h => abreast_pure (congrArg (Term.mk tilde) h)
  exact (abreast_sepBy _ hTerm).value fun _ _ => eqUpTo_list

theorem isEmbeddedField_eq {c d : Cursor} (h : c.GoesWith V d) :
    isEmbeddedField c = isEmbeddedField d := by
  unfold isEmbeddedField
  rw [h.kind_eq, h.kindAt_eq, Brackets.kindAfter_eq (h.drop 1)]

theorem abreast_fieldStart : Abreast V n fieldStart fieldStart Eq := by
  apply abreast_kind_bind
  intro k
  split
  · exact (abreast_pure rfl).from
  · exact (abreast_pure rfl).from
  · exact abreast_reject _

/-- Names in a row. -/
theorem abreast_names :
    Abreast V n (sepBy .comma identifier) (sepBy .comma identifier) (EqUpTo V) :=
  (abreast_sepBy _ (abreast_identifier.value fun _ _ h => h.eqUpTo)).value fun _ _ => eqUpTo_list

theorem abreast_fieldNames : Abreast V n fieldNames fieldNames (EqUpTo V) := by
  apply abreast_look fun _ _ => isEmbeddedField_eq
  intro embedded
  cases embedded with
  | true => exact (abreast_pure eqUpTo_nil).from
  | false => exact abreast_names.from

theorem abreast_tag : Abreast V n tag tag Eq := by
  apply abreast_kind_bind
  intro k
  split
  · exact abreast_take.from.bind fun _ _ h => abreast_pure (congrArg some h.lexeme_eq)
  · exact abreast_take.from.bind fun _ _ h => abreast_pure (congrArg some h.lexeme_eq)
  · exact (abreast_pure rfl).from

theorem abreast_field (hType : Abreast V n type type' (EqUpTo V)) :
    Abreast V n (field type) (field type') (EqUpTo V) := by
  refine abreast_fieldStart.bind fun _ _ _ => abreast_fieldNames.bind fun names names' hNames => ?_
  refine hType.bind fun fieldType fieldType' hFieldType => abreast_tag.bind ?_
  rintro tag _ rfl
  exact abreast_pure (congrArg₂ (Field.mk · · tag) hNames hFieldType)

theorem abreast_structType (hType : Abreast V n type type' (EqUpTo V)) :
    AbreastFrom V (n + 1) Start (structType type) (structType type') (EqUpTo V) := by
  apply abreast_expect.from.bind_takes (takesToken_expect (by decide))
  intro keyword keyword' hKeyword
  refine abreast_expect.bind fun _ _ _ => ?_
  apply (abreast_statements _ (abreast_field hType)).bind
  intro fields fields' hFields
  refine abreast_expect.bind fun _ _ _ => ?_
  apply (abreast_spanFrom hKeyword.span).bind
  intro span span' hSpan
  apply abreast_pure
  rw [EqUpTo, respan_struct, respan_struct]
  exact congrArg₂ GoType.struct (eqUpTo_list hFields) hSpan

theorem abreast_interfaceElement (hType : Abreast V n type type' (EqUpTo V)) :
    Abreast V n (interfaceElement type) (interfaceElement type') (EqUpTo V) := by
  apply abreast_kind_bind
  intro k
  apply abreast_look fun c d h => Cursor.GoesWith.kindAt_eq h 1
  intro next
  split
  · exact abreast_identifier.from.bind fun _ _ hName => (abreast_signature hType).bind
      fun _ _ hSignature => abreast_pure (congrArg₂ InterfaceElement.method hName.eqUpTo hSignature)
  · exact (abreast_constraint hType).from.bind fun _ _ h =>
      abreast_pure (congrArg InterfaceElement.union h)

theorem abreast_interfaceType (hType : Abreast V n type type' (EqUpTo V)) :
    AbreastFrom V (n + 1) Start (interfaceType type) (interfaceType type') (EqUpTo V) := by
  apply abreast_expect.from.bind_takes (takesToken_expect (by decide))
  intro keyword keyword' hKeyword
  refine abreast_expect.bind fun _ _ _ => ?_
  apply (abreast_statements _ (abreast_interfaceElement hType)).bind
  intro elements elements' hElements
  refine abreast_expect.bind fun _ _ _ => ?_
  apply (abreast_spanFrom hKeyword.span).bind
  intro span span' hSpan
  apply abreast_pure
  rw [EqUpTo, respan_interface, respan_interface]
  exact congrArg₂ GoType.interface (eqUpTo_list hElements) hSpan

theorem abreast_arrayLength : Abreast V n arrayLength arrayLength Eq := by
  apply abreast_kind_bind
  intro k
  split
  · exact abreast_take.from.bind fun _ _ h => abreast_pure h.lexeme_eq
  · exact (abreast_expression _).from

theorem abreast_sequenceType (hType : Abreast V n type type' (EqUpTo V)) {start start' : Span}
    (hStart : V.token start start') :
    Abreast V n (sequenceType type start) (sequenceType type' start') (EqUpTo V) := by
  apply abreast_eat.bind
  rintro empty _ rfl
  cases empty with
  | true =>
      exact hType.bind fun _ _ hElem => (abreast_spanFrom hStart).bind fun _ _ hSpan =>
        abreast_pure (congrArg₂ GoType.slice hElem hSpan)
  | false =>
      apply abreast_arrayLength.bind
      rintro length _ rfl
      exact abreast_expect.bind fun _ _ _ => hType.bind fun _ _ hElem =>
        (abreast_spanFrom hStart).bind fun _ _ hSpan =>
          abreast_pure (congrArg₂ (GoType.array length) hElem hSpan)

theorem eqUpTo_map {key key' value value' : GoType} {span span' : Span} (hKey : EqUpTo V key key')
    (hValue : EqUpTo V value value') (hSpan : EqUpTo V span span') :
    EqUpTo V (GoType.map key value span) (.map key' value' span') := by
  change GoType.map (respan V.left key) (respan V.left value) (respan V.left span) = _
  rw [hKey, hValue, hSpan]
  rfl

/-- A type of any form takes its first token before it reads a type within it. -/
theorem abreast_typeForm (hType : Abreast V n type type' (EqUpTo V)) :
    Abreast V (n + 1) (typeForm type) (typeForm type') (EqUpTo V) := by
  apply abreast_here.bind
  intro start start' hStart
  apply abreast_kind_bind
  intro k
  have hTake {F G : Token → Parser GoType} (hk : k ≠ .endOfSource)
      (hF : ∀ t u, Abreast V n (F t) (G u) (EqUpTo V)) :
      AbreastFrom V (n + 1) (fun c => True ∧ c.kind = k) (take >>= F) (take >>= G) (EqUpTo V) :=
    abreast_take.from.bind_takes (takesToken_take hk) fun t u _ => hF t u
  have hSpan : Abreast V n (spanFrom start) (spanFrom start') (EqUpTo V) := abreast_spanFrom hStart
  split
  case h_1 => exact abreast_namedType hType
  case h_2 =>
    refine hTake (by decide) fun _ _ => hType.bind fun _ _ hElem => hSpan.bind fun _ _ hs => ?_
    exact abreast_pure (congrArg₂ GoType.pointer hElem hs)
  case h_3 => exact hTake (by decide) fun _ _ => abreast_sequenceType hType hStart
  case h_4 =>
    refine hTake (by decide) fun _ _ => abreast_expect.bind fun _ _ _ => ?_
    refine hType.bind fun _ _ hKey => abreast_expect.bind fun _ _ _ => ?_
    refine hType.bind fun _ _ hValue => hSpan.bind fun _ _ hs => ?_
    exact abreast_pure (eqUpTo_map hKey hValue hs)
  case h_5 =>
    refine hTake (by decide) fun _ _ => abreast_eat.bind ?_
    rintro sends _ rfl
    refine hType.bind fun _ _ hElem => hSpan.bind fun _ _ hs => ?_
    exact abreast_pure (congrArg₂ (GoType.chan _) hElem hs)
  case h_6 =>
    refine hTake (by decide) fun _ _ => abreast_expect.bind fun _ _ _ => ?_
    refine hType.bind fun _ _ hElem => hSpan.bind fun _ _ hs => ?_
    exact abreast_pure (congrArg₂ (GoType.chan _) hElem hs)
  case h_7 =>
    refine hTake (by decide) fun _ _ => (abreast_signature hType).bind fun _ _ hSignature => ?_
    apply abreast_pure
    rw [EqUpTo, respan_func, respan_func, hSignature]
  case h_8 => exact abreast_structType hType
  case h_9 => exact abreast_interfaceType hType
  case h_10 =>
    refine hTake (by decide) fun _ _ => hType.bind fun _ _ hInner => ?_
    refine abreast_expect.bind fun _ _ _ => hSpan.bind fun _ _ hs => ?_
    exact abreast_pure (congrArg₂ GoType.paren hInner hs)
  case h_11 => exact abreast_reject _

end

/-! ## The reader of types -/

/-- Before the types within a type are read a token has been taken, so that the reader does not
find as many tokens as at its start again. -/
private theorem abreast_goType_typeForm {n : Nat} (hType : Abreast V n goType goType (EqUpTo V)) :
    Abreast V (n + 1) goType (typeForm goType) (EqUpTo V) := by
  intro c d hPlace hStop hn _
  rw [goType]
  refine abreast_typeForm (n := c.rest.length) ?_ c d hPlace hStop (Nat.lt_succ_self _) trivial
  intro inner inner' hInner hInnerStop hLess _
  simp only [dif_pos hLess]
  exact hType inner inner' hInner hInnerStop (by omega) trivial

/-- The first run is the second. -/
private theorem merges_id : Merges id := fun _ _ => rfl

private theorem abreast_goType_self (n : Nat) :
    Abreast (.ofMerges merges_id) n goType goType (EqUpTo (.ofMerges merges_id)) := by
  induction n with
  | zero => exact fun c _ _ _ hn => absurd hn (Nat.not_lt_zero _)
  | succ n ih =>
      intro c d hPlace hStop hn _
      have hForm := abreast_goType_typeForm ih c d hPlace hStop hn trivial
      obtain rfl : d = c := hPlace.eq_respan.trans (Spanned.respan_id c)
      generalize goType d = r, typeForm goType d = r' at hForm
      cases hForm with
      | @ok result _ hResult =>
          have hSame : result.2.GoesWith (.ofMerges merges_id) (respan id result.2) :=
            result.2.goesWith_respan
          rw [Spanned.respan_id] at hSame
          exact .ok ⟨rfl, hSame, hResult.2.stop_eq, hResult.2.length_le⟩
      | error => exact .error rfl rfl

/-- The reader of types reads a type of any form, and that form reads the types within it with the
same reader. -/
theorem goType_eq {c : Cursor} (hc : c.stop.kind = .endOfSource) :
    goType c = typeForm goType c := by
  have hBoth := (abreast_goType_typeForm (abreast_goType_self c.rest.length)).inStep
  obtain ⟨hSame, -⟩ := hBoth c hc (Nat.lt_succ_self _) trivial
  rw [Spanned.respan_id, Spanned.respan_id] at hSame
  exact hSame.symm

theorem abreast_goType (V : SpanRelation) (n : Nat) : Abreast V n goType goType (EqUpTo V) := by
  induction n with
  | zero => exact fun c _ _ _ hn => absurd hn (Nat.not_lt_zero _)
  | succ n ih =>
      intro c d hPlace hStop hn _
      have hForm := abreast_typeForm ih c d hPlace hStop hn trivial
      rw [goType_eq hStop, goType_eq (hPlace.stop.kind_eq ▸ hStop)]
      exact hForm

end Parser

end GoTemplate
