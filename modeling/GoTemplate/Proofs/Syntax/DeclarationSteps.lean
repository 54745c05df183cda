import GoTemplate.Proofs.Syntax.TypeSteps
import GoTemplate.Syntax.Declaration.Parser

/-!
The grammar of declarations goes abreast with itself: spans are recorded in what it reads, and decide
nothing.
-/

namespace GoTemplate

instance : Spanned SourceFile where
  respan f file := ⟨respan f file.package, respan f file.declarations, f file.span⟩
  respan_id file := by simp

namespace Parser

variable {V : SpanRelation} {n : Nat} {Start : Cursor → Prop}

/-! ## Types and values -/

theorem abreast_typeParams : Abreast V n typeParams typeParams (EqUpTo V) := by
  have hParam : Abreast V n typeParam typeParam (EqUpTo V) :=
    abreast_names.bind fun _ _ hNames => (abreast_constraint (abreast_goType V n)).bind
      fun _ _ hConstraint => abreast_pure (congrArg₂ TypeParam.mk hNames hConstraint)
  exact abreast_expect.bind fun _ _ _ => (abreast_commaList _ hParam).bind fun _ _ hParams =>
    abreast_expect.bind fun _ _ _ => abreast_pure (eqUpTo_list hParams)

theorem opensTypeParams_eq {c d : Cursor} (h : c.GoesWith V d) :
    opensTypeParams c = opensTypeParams d := by
  unfold opensTypeParams
  simp only [h.kindAt_eq, Brackets.hasComma_eq (h.drop 1)]

theorem abreast_specTypeParams : Abreast V n specTypeParams specTypeParams (EqUpTo V) := by
  apply abreast_look fun _ _ => opensTypeParams_eq
  intro opens
  cases opens with
  | true => exact abreast_typeParams.from
  | false => exact (abreast_pure eqUpTo_nil).from

theorem abreast_typeSpec : Abreast V n typeSpec typeSpec (EqUpTo V) := by
  apply abreast_identifier.bind
  intro name name' hName
  apply abreast_specTypeParams.bind
  intro params params' hParams
  apply abreast_eat.bind
  rintro isAlias _ rfl
  apply (abreast_goType V n).bind
  intro type type' hType
  apply (abreast_spanFrom hName.span).bind
  intro span span' hSpan
  apply abreast_pure
  change TypeSpec.mk _ _ _ _ _ = TypeSpec.mk _ _ _ _ _
  rw [hName.eqUpTo, hParams, hType]
  exact congrArg _ hSpan

theorem abreast_valueType : Abreast V n valueType valueType (EqUpTo V) := by
  apply abreast_kind_bind
  intro k
  split
  case h_5 => exact (abreast_goType V n).from.map fun _ _ h => congrArg some h
  all_goals exact (abreast_pure eqUpTo_none).from

theorem abreast_values : Abreast V n values values Eq := by
  apply abreast_eat.bind
  rintro equals _ rfl
  cases equals with
  | true => exact (abreast_expression _).bind fun _ _ _ => abreast_pure rfl
  | false => exact abreast_pure rfl

theorem abreast_valueSpec : Abreast V n valueSpec valueSpec (EqUpTo V) := by
  apply abreast_here.bind
  intro start start' hStart
  apply abreast_names.bind
  intro names names' hNames
  apply abreast_valueType.bind
  intro type type' hType
  apply abreast_values.bind
  rintro hasValues _ rfl
  apply (abreast_spanFrom hStart).bind
  intro span span' hSpan
  apply abreast_pure
  change ValueSpec.mk _ _ _ _ = ValueSpec.mk _ _ _ _
  rw [hNames, hType]
  exact congrArg _ hSpan

/-! ## Groups -/

section

variable {α : Type} [Spanned α] {spec : Parser α}

theorem abreast_specs (hSpec : Abreast V n spec spec (EqUpTo V)) :
    Abreast V n (specs spec) (specs spec) fun s t => s.1 = t.1 ∧ EqUpTo V s.2 t.2 := by
  apply abreast_eat.bind
  rintro grouped _ rfl
  cases grouped with
  | true =>
      exact (abreast_statements _ hSpec).bind fun _ _ hSpecs => abreast_expect.bind fun _ _ _ =>
        abreast_pure ⟨rfl, eqUpTo_list hSpecs⟩
  | false => exact hSpec.bind fun _ _ h => abreast_pure ⟨rfl, congrArg (fun spec => [spec]) h⟩

theorem abreast_specGroup (hSpec : Abreast V n spec spec (EqUpTo V)) :
    Abreast V n (specGroup spec) (specGroup spec) (EqUpTo V) := by
  apply abreast_take.bind
  intro keyword keyword' hKeyword
  apply (abreast_specs hSpec).bind
  rintro ⟨grouped, specs⟩ ⟨_, specs'⟩ ⟨rfl, hSpecs⟩
  apply (abreast_spanFrom hKeyword.span).bind
  intro span span' hSpan
  exact abreast_pure (congrArg₂ (SpecGroup.mk grouped) hSpecs hSpan)

end

/-! ## Functions -/

theorem abreast_receiver : Abreast V n receiver receiver (EqUpTo V) := by
  apply abreast_here.bind
  intro start start' hStart
  apply (abreast_params (abreast_goType V n)).bind
  intro params params' hParams
  have hLength : params.length = params'.length := by
    rw [← length_respan V.left params, hParams, length_respan]
  match params, params' with
  | [], [] => exact abreast_throw hStart
  | [_], [_] => exact abreast_pure (List.cons_eq_cons.1 hParams).1
  | _ :: _ :: rest, _ :: _ :: rest' =>
    change Abreast V n (throw ⟨.receiverCount (rest.length + 2), start⟩)
      (throw ⟨.receiverCount (rest'.length + 2), start'⟩) _
    rw [show rest.length = rest'.length by simpa using hLength]
    exact abreast_throw hStart

theorem abreast_body : Abreast V n body body Eq :=
  abreast_ifNext ((abreast_group .curly).bind fun _ _ _ => abreast_pure rfl) rfl

theorem abreast_funcDecl : Abreast V n funcDecl funcDecl (EqUpTo V) := by
  have hReceiver : Abreast V n (some <$> receiver) (some <$> receiver) (EqUpTo V) :=
    abreast_receiver.map fun _ _ h => congrArg some h
  apply abreast_expect.bind
  intro keyword keyword' hKeyword
  apply (abreast_ifNext hReceiver eqUpTo_none).bind
  intro receiver receiver' hReceiver
  apply abreast_identifier.bind
  intro name name' hName
  apply (abreast_ifNext abreast_typeParams eqUpTo_nil).bind
  intro typeParams typeParams' hTypeParams
  apply (abreast_signature (abreast_goType V n)).bind
  intro signature signature' hSignature
  apply abreast_body.bind
  rintro hasBody _ rfl
  apply (abreast_spanFrom hKeyword.span).bind
  intro span span' hSpan
  apply abreast_pure
  change FuncDecl.mk _ _ _ _ _ _ = FuncDecl.mk _ _ _ _ _ _
  rw [hReceiver, hName.eqUpTo, hTypeParams, hSignature]
  exact congrArg _ hSpan

/-! ## Source files -/

theorem abreast_importName : Abreast V n importName importName (EqUpTo V) := by
  apply abreast_kind_bind
  intro k
  split
  · exact abreast_identifier.from.map fun _ _ h => congrArg some h.eqUpTo
  · refine abreast_take.from.bind fun _ _ h => abreast_pure ?_
    exact congrArg some (congrArg₂ Identifier.mk h.lexeme_eq (V.left_eq h.span))
  · exact (abreast_pure eqUpTo_none).from

theorem abreast_importSpec : Abreast V n importSpec importSpec (EqUpTo V) := by
  apply abreast_here.bind
  intro start start' hStart
  apply abreast_importName.bind
  intro name name' hName
  have hPath {Start : Cursor → Prop} : AbreastFrom V n Start
      (do let path ← take; return ImportSpec.mk name path.lexeme (← spanFrom start))
      (do let path ← take; return ImportSpec.mk name' path.lexeme (← spanFrom start')) (EqUpTo V) := by
    apply abreast_take.from.bind
    intro path path' hPath
    apply (abreast_spanFrom hStart).bind
    intro span span' hSpan
    apply abreast_pure
    change ImportSpec.mk _ _ _ = ImportSpec.mk _ _ _
    rw [hName, hPath.lexeme_eq]
    exact congrArg _ hSpan
  apply abreast_kind_bind
  intro k
  split
  · exact hPath
  · exact hPath
  · exact abreast_reject _

theorem abreast_importDecl : Abreast V n importDecl importDecl (EqUpTo V) :=
  (abreast_specGroup abreast_importSpec).map fun _ _ h => congrArg Declaration.imports h

theorem abreast_declaration : Abreast V n declaration declaration (EqUpTo V) := by
  apply abreast_kind_bind
  intro k
  split
  · exact (abreast_specGroup abreast_valueSpec).from.map fun _ _ h => congrArg Declaration.consts h
  · exact (abreast_specGroup abreast_valueSpec).from.map fun _ _ h => congrArg Declaration.vars h
  · exact (abreast_specGroup abreast_typeSpec).from.map fun _ _ h => congrArg Declaration.types h
  · exact abreast_funcDecl.from.map fun _ _ h => congrArg Declaration.func h
  · exact abreast_reject _
  · exact abreast_reject _

theorem abreast_packageClause :
    Abreast V n packageClause packageClause (Identifier.GoesWith V) := by
  apply abreast_kind_bind
  intro k
  split
  · exact abreast_take.from.bind fun _ _ _ => abreast_identifier
  · exact abreast_reject _

theorem abreast_importSection : Abreast V n importSection importSection (EqUpTo V) := by
  have hItem : Abreast V n (do let decl ← importDecl; statementEnd; return decl)
      (do let decl ← importDecl; statementEnd; return decl) (EqUpTo V) :=
    abreast_importDecl.bind fun _ _ h => abreast_statementEnd.bind fun _ _ _ => abreast_pure h
  exact (abreast_manyWhile _ hItem).value fun _ _ => eqUpTo_list

theorem abreast_declarations :
    Abreast V n (statements .endOfSource declaration) (statements .endOfSource declaration)
      (EqUpTo V) :=
  (abreast_statements _ abreast_declaration).value fun _ _ => eqUpTo_list

theorem abreast_sourceFile : Abreast V n sourceFile sourceFile (EqUpTo V) := by
  apply abreast_here.bind
  intro start start' hStart
  apply abreast_packageClause.bind
  intro package package' hPackage
  refine abreast_statementEnd.bind fun _ _ _ => ?_
  apply abreast_importSection.bind
  intro imports imports' hImports
  apply abreast_declarations.bind
  intro declarations declarations' hDeclarations
  apply (abreast_spanFrom hStart).bind
  intro span span' hSpan
  apply abreast_pure
  have hBoth : EqUpTo V (imports ++ declarations) (imports' ++ declarations') := by
    change (imports ++ declarations).map _ = (imports' ++ declarations').map _
    rw [List.map_append, List.map_append]
    exact congrArg₂ (· ++ ·) hImports hDeclarations
  change SourceFile.mk _ _ _ = SourceFile.mk _ _ _
  rw [hPackage.eqUpTo, hBoth]
  exact congrArg _ hSpan

/-! ## The same tokens with other spans -/

section

variable {f : Span → Span} (hf : Merges f)

include hf

theorem inStep_importSection : InStep f n importSection importSection :=
  (abreast_importSection (V := .ofMerges hf)).inStep

theorem inStep_declarations :
    InStep f n (statements .endOfSource declaration) (statements .endOfSource declaration) :=
  (abreast_declarations (V := .ofMerges hf)).inStep

theorem inStep_sourceFile : InStep f n sourceFile sourceFile :=
  (abreast_sourceFile (V := .ofMerges hf)).inStep

end

end Parser

end GoTemplate
