import GoTemplate.Proofs.Syntax.BareSource

/-!
The tokens of a type declaration. Each declaration of a type in a source file was read from a
stretch of the tokens of the source; where its type is a member of a package, the name of the
package, the point and the name of the member are three tokens in a row of that stretch.
-/

namespace GoTemplate

namespace Parser

variable {α β : Type}

/-! ## Results -/

/-- All that a reader can give is so. -/
def Yields (p : Parser α) (Q : α → Prop) : Prop := ∀ c a c', p c = .ok (a, c') → Q a

theorem Yields.bind {p : Parser α} {f : α → Parser β} {Q : β → Prop} (h : ∀ a, Yields (f a) Q) :
    Yields (p >>= f) Q := by
  intro c b c' hRun
  obtain ⟨a, d, -, hRest⟩ := bind_eq_ok.1 hRun
  exact h a d b c' hRest

theorem Yields.pure {a : α} {Q : α → Prop} (h : Q a) : Yields (Pure.pure a) Q := by
  rintro c _ _ ⟨⟩
  exact h

theorem Yields.reject {fault : TokenKind → SyntaxFault} {Q : α → Prop} :
    Yields (reject fault) Q := by
  rintro c _ _ ⟨⟩

/-- Whether a type is no more than a name, perhaps with a package and type arguments. -/
def IsNamed : GoType → Prop
  | .named .. => True
  | _ => False

/-- A name is read where a name stands. -/
theorem namedType_of_typeForm {type : Parser GoType} {c c' : Cursor} {found : GoType}
    (hNamed : IsNamed found) (h : typeForm type c = .ok (found, c')) :
    namedType type c = .ok (found, c') := by
  have hNot : ∀ {p : Parser GoType} {d : Cursor}, Yields p (fun other => ¬IsNamed other) →
      p d = .ok (found, c') → namedType type c = .ok (found, c') :=
    fun hYields hRun => absurd hNamed (hYields _ _ _ hRun)
  obtain ⟨start, d, hHere, h⟩ := bind_eq_ok.1 h
  cases hHere
  obtain ⟨k, d, hKind, h⟩ := bind_eq_ok.1 h
  obtain rfl : d = c := by cases hKind; rfl
  split at h
  · exact h
  · exact hNot (.bind fun _ => .bind fun _ => .bind fun _ => .pure id) h
  · refine hNot (.bind fun _ => .bind fun empty => ?_) h
    cases empty with
    | true => exact .bind fun _ => .bind fun _ => .pure id
    | false => exact .bind fun _ => .bind fun _ => .bind fun _ => .bind fun _ => .pure id
  · exact hNot (.bind fun _ => .bind fun _ => .bind fun _ => .bind fun _ => .bind fun _ =>
      .bind fun _ => .pure id) h
  · exact hNot (.bind fun _ => .bind fun _ => .bind fun _ => .bind fun _ => .pure id) h
  · exact hNot (.bind fun _ => .bind fun _ => .bind fun _ => .bind fun _ => .pure id) h
  · exact hNot (.bind fun _ => .bind fun _ => .pure id) h
  · exact hNot (.bind fun _ => .bind fun _ => .bind fun _ => .bind fun _ => .bind fun _ =>
      .pure id) h
  · exact hNot (.bind fun _ => .bind fun _ => .bind fun _ => .bind fun _ => .bind fun _ =>
      .pure id) h
  · exact hNot (.bind fun _ => .bind fun _ => .bind fun _ => .bind fun _ => .pure id) h
  · exact hNot .reject h

/-! ## Members of packages -/

/-- Where a type is a member of a package, the word starts with the package, a point and the
member. -/
def MemberWord (type : GoType) (word : List Token) : Prop :=
  ∀ package name args span, type = .named (some package) name args span →
    ∃ p d m more, word = p :: d :: m :: more ∧ d.kind = .dot ∧
      package = ⟨p.lexeme, p.span⟩ ∧ name = ⟨m.lexeme, m.span⟩

variable {n : Nat}

theorem reads_identifier_name :
    Reads n identifier fun a w _ => ∃ t, w = [t] ∧ t.kind = .identifier ∧ a = ⟨t.lexeme, t.span⟩ := by
  refine reads_kind_bind fun found => ?_
  by_cases hFound : found = .identifier
  · subst hFound
    rw [if_pos rfl]
    refine (reads_take (by decide)).bind (fun t => reads_pure _) ?_
    rintro t _ _ _ _ ⟨rfl, ht⟩ ⟨rfl, rfl⟩
    exact ⟨t, rfl, ht, rfl⟩
  · rw [if_neg hFound]
    exact reads_reject _ _

theorem reads_memberName_word : Reads n memberName fun second w _ =>
    ∀ name, second = some name → ∃ d m, w = [d, m] ∧ d.kind = .dot ∧ name = ⟨m.lexeme, m.span⟩ := by
  refine (reads_eat (by decide)).bind (V := fun dot second w _ =>
    ∀ name, second = some name → dot = true ∧ ∃ m, w = [m] ∧ name = ⟨m.lexeme, m.span⟩)
    (fun dot => ?_) ?_
  · cases dot with
    | false =>
        refine (reads_pure _).word ?_
        rintro _ w _ ⟨rfl, -⟩ name hName
        cases hName
    | true =>
        refine reads_identifier_name.map ?_
        rintro _ _ _ ⟨m, rfl, -, rfl⟩ name hName
        cases hName
        exact ⟨rfl, m, rfl, rfl⟩
  · intro dot second u v r hu hv name hName
    obtain ⟨rfl, m, rfl, hMember⟩ := hv name hName
    obtain ⟨d, rfl, hd⟩ := hu
    exact ⟨d, m, rfl, hd, hMember⟩

theorem reads_namedType_word : Reads n (namedType goType) fun type w _ => MemberWord type w := by
  have hArgs : Reads n (ifNext (.opening .square) (typeArgs goType) []) fun _ _ _ => True :=
    (reads_ifNext_opt (reads_typeArgs (reads_goType n))).word fun _ _ _ _ => trivial
  refine reads_identifier_name.bind (V := fun first type w _ => ∀ package name args span,
    type = .named (some package) name args span → package = first ∧
      ∃ d m more, w = d :: m :: more ∧ d.kind = .dot ∧ name = ⟨m.lexeme, m.span⟩)
    (fun first => ?_) ?_
  · refine reads_memberName_word.bind (V := fun second type _ _ => ∀ package name args span,
      type = .named (some package) name args span → package = first ∧ second = some name)
      (fun second => ?_) ?_
    · refine hArgs.bind (V := fun _ type _ _ => ∀ package name args span,
        type = .named (some package) name args span → package = first ∧ second = some name)
        (fun args => (reads_spanFrom _).skip fun span => ?_) fun _ _ _ _ _ _ h => h
      cases second with
      | none =>
          refine (reads_pure _).word ?_
          rintro _ _ _ ⟨rfl, -⟩ package name args span hType
          cases hType
      | some name =>
          refine (reads_pure _).word ?_
          rintro _ _ _ ⟨rfl, -⟩ package name args span hType
          cases hType
          exact ⟨rfl, rfl⟩
    · intro second type u v r hu hv package name args span hType
      obtain ⟨hPackage, hSecond⟩ := hv package name args span hType
      obtain ⟨d, m, rfl, hd, hName⟩ := hu name hSecond
      exact ⟨hPackage, d, m, v, rfl, hd, hName⟩
  · rintro first type _ v r ⟨p, rfl, -, rfl⟩ hv package name args span hType
    obtain ⟨hPackage, d, m, more, rfl, hd, hName⟩ := hv package name args span hType
    exact ⟨p, d, m, more, rfl, hd, hPackage, hName⟩

theorem reads_goType_word : Reads n goType fun type w _ => MemberWord type w := by
  intro c type c' hc hn hs hRun
  obtain ⟨word, hTakes, -⟩ := reads_goType n c type c' hc hn hs hRun
  refine ⟨word, hTakes, fun package name args span hType => ?_⟩
  rw [goType_eq hc.stop_kind] at hRun
  obtain ⟨word', hTakes', hWord⟩ := reads_namedType_word c type c' hc hn hs
    (namedType_of_typeForm (by rw [hType]; trivial) hRun)
  obtain rfl : word' = word :=
    List.append_cancel_right (hTakes'.rest_eq.symm.trans hTakes.rest_eq)
  exact hWord package name args span hType

/-- What a reader takes, and that it can be read on from there. -/
theorem exists_rest {p : Parser α} {W : α → List Token → List Token → Prop}
    (hp : ∀ n, Reads n p W) {c c' : Cursor} {a : α} (hc : c.IsProper) (h : p c = .ok (a, c')) :
    ∃ word, c.rest = word ++ c'.rest ∧ c'.IsProper ∧ W a word c'.rest := by
  obtain ⟨word, hTakes, hWord⟩ := hp _ c a c' hc (Nat.lt_succ_self _) trivial h
  exact ⟨word, hTakes.rest_eq, hTakes.isProper hc, hWord⟩

/-- The type stands at the end of its declaration. -/
theorem memberWord_of_typeSpec {c c' : Cursor} {spec : TypeSpec} (hc : c.IsProper)
    (h : typeSpec c = .ok (spec, c')) :
    ∃ u v, c.rest = u ++ (v ++ c'.rest) ∧ MemberWord spec.type v := by
  obtain ⟨name, c₁, hName, h⟩ := bind_eq_ok.1 h
  obtain ⟨u₁, hRest₁, hc₁, -⟩ := exists_rest (fun _ => reads_identifier) hc hName
  obtain ⟨params, c₂, hParams, h⟩ := bind_eq_ok.1 h
  obtain ⟨u₂, hRest₂, hc₂⟩ : ∃ u₂, c₁.rest = u₂ ++ c₂.rest ∧ c₂.IsProper := by
    obtain ⟨opens, d, hLook, hParams⟩ := bind_eq_ok.1 hParams
    cases hLook
    split at hParams
    · obtain ⟨u₂, hRest₂, hc₂, -⟩ := exists_rest (fun _ => reads_typeParams) hc₁ hParams
      exact ⟨u₂, hRest₂, hc₂⟩
    · cases hParams
      exact ⟨[], rfl, hc₁⟩
  obtain ⟨isAlias, c₃, hAlias, h⟩ := bind_eq_ok.1 h
  obtain ⟨u₃, hRest₃, hc₃, -⟩ := exists_rest (fun _ => reads_eat (by decide)) hc₂ hAlias
  obtain ⟨type, c₄, hType, h⟩ := bind_eq_ok.1 h
  obtain ⟨v, hRest₄, -, hWord⟩ := exists_rest (fun _ => reads_goType_word) hc₃ hType
  obtain ⟨span, c₅, hSpan, h⟩ := bind_eq_ok.1 h
  cases hSpan
  cases h
  refine ⟨u₁ ++ (u₂ ++ u₃), v, ?_, hWord⟩
  rw [hRest₁, hRest₂, hRest₃, hRest₄]
  simp only [List.append_assoc]

/-! ## Declarations in a source -/

/-- Each item of a list was read from some place in its tokens. -/
theorem exists_of_manyWhile {more : TokenKind → Bool} {item : Parser α}
    {W : α → List Token → List Token → Prop} (hItem : ∀ n, Reads n item W) {c last : Cursor}
    {as : List α} (hc : c.IsProper) (h : manyWhile more item c = .ok (as, last)) :
    ∀ a ∈ as, ∃ before d d', c.rest = before ++ d.rest ∧ d.IsProper ∧ item d = .ok (a, d') := by
  fun_induction manyWhile more item c generalizing as last with
  | case1 => cases h
  | case2 c hMore a next hFirst hLess ih =>
      obtain ⟨word, hRest, hNext, -⟩ := exists_rest hItem hc hFirst
      cases hTail : manyWhile more item next with
      | error e => rw [hTail] at h; cases h
      | ok result =>
          rw [hTail] at h
          cases h
          intro b hb
          rcases List.mem_cons.1 hb with rfl | hb
          · exact ⟨[], c, next, rfl, hc, hFirst⟩
          · obtain ⟨before, d, d', hBefore, hd, hRun⟩ := ih hNext hTail b hb
            refine ⟨word ++ before, d, d', ?_, hd, hRun⟩
            rw [hRest, hBefore, List.append_assoc]
  | case3 c hMore a next hFirst hLess =>
      cases h
      intro b hb
      obtain rfl := List.mem_singleton.1 hb
      exact ⟨[], c, next, rfl, hc, hFirst⟩
  | case4 =>
      cases h
      intro b hb
      cases hb

end Parser

/-- The tokens `word` in the middle of others are those from which the declaration of a type was
read. -/
def TypeSpec.IsReadFrom (spec : TypeSpec) (tokens word : List Token) : Prop :=
  ∃ before c c', tokens = before ++ c.rest ∧ c.IsProper ∧
    Parser.typeSpec c = .ok (spec, c') ∧ c.rest = word ++ c'.rest

namespace Parser

theorem exists_isReadFrom_of_typeSpec {before tokens : List Token} {c c' : Cursor} {spec : TypeSpec}
    (hTokens : tokens = before ++ c.rest) (hc : c.IsProper) (h : typeSpec c = .ok (spec, c')) :
    ∃ word, spec.IsReadFrom tokens word := by
  obtain ⟨word, hRest, -⟩ := exists_rest (fun _ => reads_typeSpec) hc h
  exact ⟨word, before, c, c', hTokens, hc, h, hRest⟩

/-- A statement is read if what it consists of is. -/
theorem reads_statement {n : Nat} {α : Type} {p : Parser α} {W : α → List Token → List Token → Prop}
    (hp : Reads n p W) :
    Reads n (do let a ← p; statementEnd; return a) fun _ _ _ => True := by
  have hEnd (a : α) : Reads n (do statementEnd; return a) fun _ _ _ => True :=
    reads_statementEnd.bind (fun _ => reads_pure a) fun _ _ _ _ _ _ _ => trivial
  exact ReadsFrom.bind hp hEnd fun _ _ _ _ _ _ _ => trivial

theorem exists_isReadFrom_of_specs {before tokens : List Token} {c c' : Cursor} {grouped : Bool}
    {found : List TypeSpec} (hTokens : tokens = before ++ c.rest) (hc : c.IsProper)
    (h : specs typeSpec c = .ok ((grouped, found), c')) :
    ∀ spec ∈ found, ∃ word, spec.IsReadFrom tokens word := by
  obtain ⟨opens, d, hEat, h⟩ := bind_eq_ok.1 h
  obtain ⟨u, hRest, hd, -⟩ := exists_rest (fun _ => reads_eat (by decide)) hc hEat
  have hHere : tokens = (before ++ u) ++ d.rest := by rw [hTokens, hRest, List.append_assoc]
  cases opens with
  | true =>
      obtain ⟨as, e, hList, h⟩ := bind_eq_ok.1 h
      obtain ⟨closer, e', -, h⟩ := bind_eq_ok.1 h
      cases h
      intro spec hSpec
      obtain ⟨between, f, f', hf, hProper, hItem⟩ :=
        exists_of_manyWhile (fun _ => reads_statement reads_typeSpec) hd hList spec hSpec
      obtain ⟨g, hRun⟩ := item_of_statement hItem
      exact exists_isReadFrom_of_typeSpec
        (by rw [hHere, hf, ← List.append_assoc]) hProper hRun
  | false =>
      obtain ⟨spec, e, hSpec, h⟩ := bind_eq_ok.1 h
      cases h
      intro other hOther
      obtain rfl := List.mem_singleton.1 hOther
      exact exists_isReadFrom_of_typeSpec hHere hd hSpec

/-- Each type that a declaration declares was read from some of its tokens. -/
theorem exists_isReadFrom_of_declaration {before tokens : List Token} {c c' : Cursor}
    {group : SpecGroup TypeSpec} (hTokens : tokens = before ++ c.rest) (hc : c.IsProper)
    (h : declaration c = .ok (.types group, c')) :
    ∀ spec ∈ group.specs, ∃ word, spec.IsReadFrom tokens word := by
  obtain ⟨k, d, hKind, hDecl⟩ := bind_eq_ok.1 h
  clear h
  obtain ⟨hFound, rfl⟩ : c.kind = k ∧ d = c := by cases hKind; exact ⟨rfl, rfl⟩
  split at hDecl
  case h_3 =>
    obtain ⟨found, hGroup, hSame⟩ := map_eq_ok.1 hDecl
    cases hSame
    obtain ⟨keyword, e, hTake, hGroup⟩ := bind_eq_ok.1 hGroup
    have hReads : ReadsFrom (d.rest.length + 1) (fun d => True ∧ d.kind = .keyword .type) take _ :=
      reads_take (by decide)
    obtain ⟨u, hTakes, -⟩ := hReads d _ e hc (Nat.lt_succ_self _) ⟨trivial, hFound⟩ hTake
    obtain ⟨⟨grouped, found⟩, f, hSpecs, hGroup⟩ := bind_eq_ok.1 hGroup
    obtain ⟨span, g, hSpan, hGroup⟩ := bind_eq_ok.1 hGroup
    cases hGroup
    have hHere : tokens = (before ++ u) ++ e.rest := by
      rw [hTokens, hTakes.rest_eq, List.append_assoc]
    exact exists_isReadFrom_of_specs hHere (hTakes.isProper hc) hSpecs
  case h_1 =>
    obtain ⟨found, -, hSame⟩ := map_eq_ok.1 hDecl
    cases hSame
  case h_2 =>
    obtain ⟨found, -, hSame⟩ := map_eq_ok.1 hDecl
    cases hSame
  case h_4 =>
    obtain ⟨found, -, hSame⟩ := map_eq_ok.1 hDecl
    cases hSame
  · cases hDecl
  · cases hDecl

end Parser

namespace SourceFile

/-- Each type that a source file declares was read from some of the tokens of the source. -/
theorem exists_isReadFrom_of_parse {source : Text} {file : SourceFile} (hFile : parse source = .ok file)
    {spec : TypeSpec} (hSpec : spec ∈ file.typeSpecs) :
    ∃ word, spec.IsReadFrom (sourceTokens source) word := by
  obtain ⟨-, c, hRun⟩ := readSource_eq_ok hFile
  have hc := Cursor.ofRun_isProper (Lexer.ofSource .statements source)
  obtain ⟨start, c₀, hHere, hRun⟩ := Parser.bind_eq_ok.1 hRun
  cases hHere
  obtain ⟨package, c₁, hPackage, hRun⟩ := Parser.bind_eq_ok.1 hRun
  obtain ⟨u₁, hRest₁, hc₁, -⟩ :=
    Parser.exists_rest (fun _ => Parser.reads_packageClause) hc hPackage
  obtain ⟨_, c₂, hEnd, hRun⟩ := Parser.bind_eq_ok.1 hRun
  obtain ⟨u₂, hRest₂, hc₂, -⟩ :=
    Parser.exists_rest (fun _ => Parser.reads_statementEnd) hc₁ hEnd
  obtain ⟨imports, c₃, hImports, hRun⟩ := Parser.bind_eq_ok.1 hRun
  obtain ⟨u₃, hRest₃, hc₃, -⟩ :=
    Parser.exists_rest (fun _ => Parser.reads_importSection) hc₂ hImports
  obtain ⟨others, c₄, hOthers, hRun⟩ := Parser.bind_eq_ok.1 hRun
  obtain ⟨span, c₅, hSpan, hRun⟩ := Parser.bind_eq_ok.1 hRun
  cases hSpan
  cases hRun
  have hTokens : sourceTokens source = (u₁ ++ (u₂ ++ u₃)) ++ c₃.rest := by
    change (Cursor.ofRun _).rest = _
    rw [hRest₁, hRest₂, hRest₃]
    simp only [List.append_assoc]
  obtain ⟨decl, hDecl, hIn⟩ := List.mem_flatMap.1 hSpec
  rcases List.mem_append.1 hDecl with hImport | hOther
  · have hKind := Parser.isImport_of_importSection hImports decl hImport
    cases decl with
    | imports => cases hIn
    | _ => cases hKind
  · obtain ⟨before, d, d', hBefore, hd, hItem⟩ :=
      Parser.exists_of_manyWhile (fun _ => Parser.reads_statement Parser.reads_declaration) hc₃
        hOthers decl hOther
    obtain ⟨e, hRun⟩ := Parser.item_of_statement hItem
    cases decl with
    | types group =>
        exact Parser.exists_isReadFrom_of_declaration
          (by rw [hTokens, hBefore, ← List.append_assoc]) hd hRun spec hIn
    | _ => cases hIn

end SourceFile

end GoTemplate
