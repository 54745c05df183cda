import GoTemplate.Proofs.Syntax.Rows
import GoTemplate.Proofs.Syntax.SpecWords
import GoTemplate.Template.Placeholder

/-!
Type declarations in the rows of a source file. At the top of a file its statements stand in a row, and
in brackets after the keyword the declarations of types stand in another. The name of a declared type is
the first token of its declaration, and where no type parameters follow, the tokens behind the name say
whether it is a placeholder.
-/

namespace GoTemplate

open Brackets

/-! ## Members of packages at the front of tokens -/

/-- The package and the name of a member of a package, if the tokens start with one. -/
def memberStart : List Token → Option (Text × Text)
  | p :: d :: m :: _ =>
    if p.kind = .identifier ∧ d.kind = .dot ∧ m.kind = .identifier then some (p.lexeme, m.lexeme)
    else none
  | _ => none

/-- The tokens behind an equals sign, if there is one at the front. -/
def afterAssign : List Token → List Token
  | t :: rest => if t.kind = .operator .assign then rest else t :: rest
  | [] => []

/-- Whether the tokens behind the name of a declared type make it a placeholder: perhaps an equals
sign, and then a member of the generic package. -/
def namesGeneric (tokens : List Token) : Bool :=
  (memberStart (afterAssign tokens)).any (·.1 == genericPackage)

theorem memberStart_append {u v : List Token}
    (hv : ∀ t, v.head? = some t → t.kind ≠ .identifier ∧ t.kind ≠ .dot) :
    memberStart (u ++ v) = memberStart u := by
  have hShort (w : List Token) (hw : ∀ p d m rest, w = p :: d :: m :: rest →
      ¬(p.kind = .identifier ∧ d.kind = .dot ∧ m.kind = .identifier)) : memberStart w = none := by
    unfold memberStart
    split
    · exact if_neg (hw _ _ _ _ rfl)
    · rfl
  match u with
  | [] =>
    refine (hShort _ ?_).trans rfl
    rintro p d m rest rfl ⟨hp, -⟩
    exact (hv p rfl).1 hp
  | [p] =>
    refine (hShort _ ?_).trans rfl
    rintro _ d m rest hw ⟨-, hd, -⟩
    obtain ⟨-, rfl⟩ := List.cons_eq_cons.1 hw
    exact (hv d rfl).2 hd
  | [p, d] =>
    refine (hShort _ ?_).trans rfl
    rintro _ _ m rest hw ⟨-, -, hm⟩
    obtain ⟨-, rfl⟩ := List.cons_eq_cons.1 (List.cons_eq_cons.1 hw).2
    exact (hv m rfl).1 hm
  | p :: d :: m :: u => rfl

theorem namesGeneric_append {u v : List Token} (hu : u ≠ [])
    (hv : ∀ t, v.head? = some t → t.kind ≠ .identifier ∧ t.kind ≠ .dot) :
    namesGeneric (u ++ v) = namesGeneric u := by
  obtain ⟨t, u, rfl⟩ := List.exists_cons_of_ne_nil hu
  have hAssign : afterAssign (t :: u ++ v) = afterAssign (t :: u) ++ v := by
    rw [List.cons_append, afterAssign, afterAssign]
    split <;> rfl
  rw [namesGeneric, hAssign, memberStart_append hv]
  rfl

namespace Parser

variable {n : Nat} {Start : Cursor → Prop}

/-! ## Types that are members of packages -/

theorem reads_eat_next {k : TokenKind} (hk : k ≠ .endOfSource) : Reads n (eat k) fun eaten w r =>
    if eaten then ∃ t, w = [t] ∧ t.kind = k else w = [] ∧ nextKind r ≠ k := by
  refine reads_kind_bind fun found => ?_
  by_cases hFound : found = k
  · subst hFound
    rw [if_pos rfl]
    refine (reads_take hk).bind (fun t => reads_pure true) ?_
    rintro t _ _ _ _ ⟨rfl, ht⟩ ⟨rfl, rfl⟩
    exact ⟨t, rfl, ht⟩
  · rw [if_neg hFound]
    rintro c _ _ hc - ⟨-, hKind⟩ ⟨⟩
    refine ⟨[], ⟨rfl, rfl, fun _ _ _ => rfl⟩, rfl, ?_⟩
    rwa [← kind_eq hc, hKind]

theorem reads_memberName_next : Reads n memberName fun second w r =>
    (∃ d m, w = [d, m] ∧ d.kind = .dot ∧ m.kind = .identifier ∧
      second = some ⟨m.lexeme, m.span⟩) ∨ second = none ∧ w = [] ∧ nextKind r ≠ .dot := by
  refine (reads_eat_next (by decide)).bind (V := fun dot second w _ => if dot then
    ∃ m, w = [m] ∧ m.kind = .identifier ∧ second = some ⟨m.lexeme, m.span⟩
    else second = none ∧ w = []) (fun dot => ?_) ?_
  · cases dot with
    | false => exact reads_pure _
    | true =>
        refine reads_identifier_name.map ?_
        rintro _ _ _ ⟨m, rfl, hm, rfl⟩
        exact ⟨m, rfl, hm, rfl⟩
  · intro dot second u v r hu hv
    cases dot with
    | false =>
        obtain ⟨rfl, hNext⟩ := hu
        obtain ⟨rfl, rfl⟩ := hv
        exact .inr ⟨rfl, rfl, hNext⟩
    | true =>
        obtain ⟨d, rfl, hd⟩ := hu
        obtain ⟨m, rfl, hm, rfl⟩ := hv
        exact .inl ⟨d, m, rfl, hd, hm, rfl⟩

/-- Where a name stands, a name is read. -/
theorem namedType_of_kind {type : Parser GoType} {c c' : Cursor} {found : GoType}
    (hKind : c.kind = .identifier) (h : typeForm type c = .ok (found, c')) :
    namedType type c = .ok (found, c') := by
  obtain ⟨start, d, hHere, h⟩ := bind_eq_ok.1 h
  cases hHere
  obtain ⟨k, d, hLook, h⟩ := bind_eq_ok.1 h
  obtain ⟨rfl, rfl⟩ : k = .identifier ∧ d = c := by
    cases hLook
    exact ⟨hKind, rfl⟩
  exact h

/-- What a name that was read stands for shows in its first three tokens. -/
theorem memberStart_of_namedType {c c' : Cursor} {type : GoType} (hc : c.IsProper)
    (h : namedType goType c = .ok (type, c')) :
    ∃ word, c.rest = word ++ c'.rest ∧ type.qualifiedName? = memberStart word := by
  obtain ⟨first, c₁, hFirst, h⟩ := bind_eq_ok.1 h
  obtain ⟨_, hRest₁, hc₁, p, rfl, hp, rfl⟩ := exists_rest (fun _ => reads_identifier_name) hc hFirst
  obtain ⟨second, c₂, hSecond, h⟩ := bind_eq_ok.1 h
  obtain ⟨u, hRest₂, hc₂, hu⟩ := exists_rest (fun _ => reads_memberName_next) hc₁ hSecond
  obtain ⟨args, c₃, hArgs, h⟩ := bind_eq_ok.1 h
  obtain ⟨v, hRest₃, -, -⟩ :=
    exists_rest (fun n => reads_ifNext_opt (reads_typeArgs (reads_goType n))) hc₂ hArgs
  obtain ⟨span, c₄, hSpan, h⟩ := bind_eq_ok.1 h
  cases hSpan
  refine ⟨p :: (u ++ v), ?_, ?_⟩
  · have hLast : c₃ = c' := by
      cases second <;> cases h <;> rfl
    rw [← hLast, hRest₁, hRest₂, hRest₃]
    simp
  · rcases hu with ⟨d, m, rfl, hd, hm, rfl⟩ | ⟨rfl, rfl, hNext⟩
    · cases h
      exact (if_pos ⟨hp, hd, hm⟩).symm
    · cases h
      rw [hRest₃] at hNext
      unfold memberStart
      split
      · rename_i d m more hWord
        obtain ⟨-, hv⟩ := List.cons_eq_cons.1 hWord
        rw [List.nil_append] at hv
        rw [if_neg]
        · rfl
        · rintro ⟨-, hd, -⟩
          rw [hv] at hNext
          exact hNext hd
      · rfl

/-- A type is a member of a package if its first tokens are one. -/
theorem reads_goType_member : Reads n goType fun type w _ => type.qualifiedName? = memberStart w := by
  intro c type c' hc hn hs hRun
  obtain ⟨word, hTakes, hWord⟩ := reads_goType n c type c' hc hn hs hRun
  refine ⟨word, hTakes, ?_⟩
  rw [goType_eq hc.stop_kind] at hRun
  by_cases hKind : c.kind = .identifier
  · obtain ⟨word', hRest, hType⟩ := memberStart_of_namedType hc (namedType_of_kind hKind hRun)
    obtain rfl : word' = word := List.append_cancel_right (hRest.symm.trans hTakes.rest_eq)
    exact hType
  · have hNotNamed : ¬IsNamed type := fun hNamed => by
      obtain ⟨_, _, hFirst, -⟩ := bind_eq_ok.1 (namedType_of_typeForm hNamed hRun)
      exact hKind (identifier_eq_ok hFirst).1
    have hNone : type.qualifiedName? = none := by
      cases type with
      | named => exact absurd trivial hNotNamed
      | _ => rfl
    rw [hNone]
    unfold memberStart
    split
    · rename_i p d m more
      rw [if_neg]
      rintro ⟨hp, -⟩
      apply hKind
      rw [Cursor.kind, Cursor.current, hTakes.rest_eq]
      exact hp
    · rfl

end Parser

/-! ## Declarations of types -/

/-- What the tokens of a type declaration say: the first is its name, and unless a square bracket opens
behind the name, the others show whether it is a placeholder. -/
def SpecWord (spec : TypeSpec) (word : List Token) : Prop :=
  ∃ t tail, word = t :: tail ∧ t.kind = .identifier ∧ spec.name = ⟨t.lexeme, t.span⟩ ∧ tail ≠ [] ∧
    (nextKind tail ≠ .opening .square → spec.isPlaceholder = namesGeneric tail)

namespace Parser

variable {n : Nat} {Start : Cursor → Prop}

theorem specTypeParams_of_kind {c c' : Cursor} {params : List TypeParam}
    (hKind : c.kindAt 0 ≠ .opening .square) (h : specTypeParams c = .ok (params, c')) : c' = c := by
  obtain ⟨opens, d, hLook, h⟩ := bind_eq_ok.1 h
  cases hLook
  split at h
  · rename_i hOpens
    simp [opensTypeParams, hKind] at hOpens
  · cases h
    rfl

theorem specWord_of_typeSpec {c c' : Cursor} {spec : TypeSpec} (hc : c.IsProper)
    (h : typeSpec c = .ok (spec, c')) : ∃ word, c.rest = word ++ c'.rest ∧ SpecWord spec word := by
  obtain ⟨name, c₁, hName, h⟩ := bind_eq_ok.1 h
  obtain ⟨_, hRest₁, hc₁, t, rfl, ht, rfl⟩ := exists_rest (fun _ => reads_identifier_name) hc hName
  obtain ⟨params, c₂, hParams, h⟩ := bind_eq_ok.1 h
  obtain ⟨u, hRest₂, hc₂⟩ : ∃ u, c₁.rest = u ++ c₂.rest ∧ c₂.IsProper := by
    obtain ⟨opens, d, hLook, hParams⟩ := bind_eq_ok.1 hParams
    cases hLook
    split at hParams
    · obtain ⟨u, hRest, hProper, -⟩ := exists_rest (fun _ => reads_typeParams) hc₁ hParams
      exact ⟨u, hRest, hProper⟩
    · cases hParams
      exact ⟨[], rfl, hc₁⟩
  obtain ⟨isAlias, c₃, hAlias, h⟩ := bind_eq_ok.1 h
  obtain ⟨v, hRest₃, hc₃, hv⟩ := exists_rest (fun _ => reads_eat_next (by decide)) hc₂ hAlias
  obtain ⟨type, c₄, hType, h⟩ := bind_eq_ok.1 h
  obtain ⟨w, hRest₄, -, hWord, hMember⟩ :
      ∃ w, c₃.rest = w ++ c₄.rest ∧ c₄.IsProper ∧ w ≠ [] ∧ type.qualifiedName? = memberStart w := by
    obtain ⟨w, hRest, hc₄, hw⟩ := exists_rest reads_goType hc₃ hType
    obtain ⟨w', hRest', -, hMember⟩ := exists_rest (fun _ => reads_goType_member) hc₃ hType
    obtain rfl : w' = w := List.append_cancel_right (hRest'.symm.trans hRest)
    exact ⟨w', hRest, hc₄, hw.phrase.ne_nil, hMember⟩
  obtain ⟨span, c₅, hSpan, h⟩ := bind_eq_ok.1 h
  cases hSpan
  cases h
  refine ⟨t :: (u ++ (v ++ w)), by rw [hRest₁, hRest₂, hRest₃, hRest₄]; simp, t, _, rfl, ht, rfl,
    by simp [hWord], fun hSquare => ?_⟩
  have hFirst : c₁.kindAt 0 = nextKind (u ++ (v ++ w)) := by
    rw [kindAt_eq hc₁, hRest₂, hRest₃, hRest₄]
    obtain ⟨x, xs, hx⟩ : ∃ x xs, u ++ (v ++ w) = x :: xs :=
      List.exists_cons_of_ne_nil (by simp [hWord])
    rw [← List.append_assoc v, ← List.append_assoc u, hx]
    rfl
  obtain rfl := specTypeParams_of_kind (hFirst ▸ hSquare) hParams
  obtain rfl : u = [] := by
    simpa using hRest₂
  have hAssign : afterAssign (v ++ w) = w := by
    cases isAlias with
    | true =>
        obtain ⟨e, rfl, he⟩ := hv
        exact if_pos he
    | false =>
        obtain ⟨rfl, hNext⟩ := hv
        obtain ⟨x, xs, rfl⟩ := List.exists_cons_of_ne_nil hWord
        rw [hRest₄] at hNext
        exact if_neg hNext
  rw [List.nil_append, namesGeneric, hAssign, ← hMember]
  rfl

theorem reads_typeSpec_member :
    Reads n typeSpec fun spec w _ => Phrase w ∧ SpecWord spec w := by
  intro c spec c' hc hn hs hRun
  obtain ⟨word, hTakes, hPhrase⟩ := reads_typeSpec c spec c' hc hn hs hRun
  obtain ⟨word', hRest, hSpec⟩ := specWord_of_typeSpec hc hRun
  obtain rfl : word' = word := List.append_cancel_right (hRest.symm.trans hTakes.rest_eq)
  exact ⟨word', hTakes, hPhrase, hSpec⟩

end Parser

/-! ## Declarations in a row -/

/-- The types that a declaration declares. -/
def Declaration.typeSpecs : Declaration → List TypeSpec
  | .types group => group.specs
  | _ => []

theorem SourceFile.typeSpecs_eq (file : SourceFile) :
    file.typeSpecs = file.declarations.flatMap Declaration.typeSpecs := rfl

/-- Declarations of types in a row. -/
abbrev SpecRow : List TypeSpec → List Token → List Token → Prop := Row fun spec w _ => SpecWord spec w

/-- What the tokens of a statement at the top of a file say of the types that it declares: none unless
it starts with the keyword, and behind that one alone or a row of them in brackets. -/
inductive DeclaresWord : List TypeSpec → List Token → List Token → Prop where
  | other {word rest : List Token} (hHead : nextKind word ≠ .keyword .type) : DeclaresWord [] word rest
  | alone {keyword : Token} {spec : TypeSpec} {word rest : List Token}
      (hKeyword : keyword.kind = .keyword .type) (hSpec : SpecWord spec word) :
      DeclaresWord [spec] (keyword :: word) rest
  | group {keyword opener closer : Token} {specs : List TypeSpec} {inner rest : List Token}
      (hKeyword : keyword.kind = .keyword .type) (hOpener : opener.kind = .opening .round)
      (hCloser : closer.kind = .closing .round) (hRow : SpecRow specs inner (closer :: rest)) :
      DeclaresWord specs (keyword :: opener :: (inner ++ [closer])) rest

namespace Parser

variable {n : Nat} {Start : Cursor → Prop}

theorem reads_specs_row : Reads n (specs typeSpec) fun found w r =>
    (∃ spec, found.2 = [spec] ∧ SpecWord spec w) ∨
      ∃ opener inner closer, w = opener :: (inner ++ [closer]) ∧ opener.kind = .opening .round ∧
        closer.kind = .closing .round ∧ SpecRow found.2 inner (closer :: r) := by
  refine ReadsFrom.bind (reads_eat (by rintro ⟨⟩)) (V := fun grouped found w r => if grouped then
    ∃ inner closer, w = inner ++ [closer] ∧ closer.kind = .closing .round ∧
      SpecRow found.2 inner (closer :: r)
    else ∃ spec, found.2 = [spec] ∧ SpecWord spec w) (fun grouped => ?_) ?_
  · cases grouped with
    | true =>
        have hClose (found : List TypeSpec) : Reads n (do
            let _ ← expect (.closing .round)
            return (true, found)) fun pair w _ =>
              pair.2 = found ∧ ∃ closer, w = [closer] ∧ closer.kind = .closing .round :=
          (reads_expect_token (by rintro ⟨⟩)).bind_pure fun _ _ _ hw => ⟨rfl, hw⟩
        have hRow : Reads n (statements (.closing .round) typeSpec) fun found w r =>
            SpecRow found w r ∧ _ :=
          reads_row ((Reads.from reads_typeSpec_member).word fun _ _ _ h => ⟨.inl h.1, h.2⟩)
        refine ReadsFrom.bind hRow hClose ?_
        rintro found pair inner _ r ⟨hFound, -⟩ ⟨rfl, closer, rfl, hCloser⟩
        exact ⟨inner, closer, rfl, hCloser, hFound⟩
    | false => exact ReadsFrom.bind_pure reads_typeSpec_member fun _ _ _ h => ⟨_, rfl, h.2⟩
  · intro grouped found u v r hu hv
    cases grouped with
    | true =>
        obtain ⟨opener, rfl, hOpener⟩ := hu
        obtain ⟨inner, closer, rfl, hCloser, hRow⟩ := hv
        exact .inr ⟨opener, inner, closer, rfl, hOpener, hCloser, hRow⟩
    | false =>
        obtain rfl : u = [] := hu
        exact .inl hv

theorem reads_types : ReadsFrom n (fun c => True ∧ c.kind = .keyword .type)
    (Declaration.types <$> specGroup typeSpec) fun decl w r => DeclaresWord decl.typeSpecs w r := by
  have hSpecs (keyword : Token) : Reads n (do
      let found ← specs typeSpec
      return (⟨found.1, found.2, ← spanFrom keyword.span⟩ : SpecGroup TypeSpec)) fun group w r =>
        (∃ spec, group.specs = [spec] ∧ SpecWord spec w) ∨
          ∃ opener inner closer, w = opener :: (inner ++ [closer]) ∧ opener.kind = .opening .round ∧
            closer.kind = .closing .round ∧ SpecRow group.specs inner (closer :: r) := by
    refine ReadsFrom.bind reads_specs_row (V := fun found group w _ =>
      w = [] ∧ group.specs = found.2) (fun found => ?_) ?_
    · exact (reads_spanFrom _).bind_pure fun _ _ _ hw => ⟨hw, rfl⟩
    · rintro found group u _ r hu ⟨rfl, hFound⟩
      rw [List.append_nil, hFound]
      exact hu
  refine ReadsFrom.map ((reads_take_token (by decide)).bind hSpecs
    (W := fun group w r => DeclaresWord group.specs w r) ?_) fun _ _ _ h => h
  rintro _ group _ v r ⟨keyword, rfl, hKeyword⟩
    (⟨spec, hSpec, hWord⟩ | ⟨opener, inner, closer, rfl, hOpener, hCloser, hRow⟩)
  · rw [hSpec]
    exact .alone hKeyword hWord
  · exact .group hKeyword hOpener hCloser hRow

/-- Declarations with another keyword declare no types. -/
theorem typeSpecs_of_declaration {c c' : Cursor} {decl : Declaration}
    (hKind : c.kind ≠ .keyword .type) (h : declaration c = .ok (decl, c')) : decl.typeSpecs = [] := by
  obtain ⟨k, d, hLook, hDecl⟩ := bind_eq_ok.1 h
  clear h
  have hFound : c.kind = k := by
    cases hLook
    rfl
  split at hDecl
  case h_3 => exact absurd hFound hKind
  case h_1 | h_2 | h_4 =>
    obtain ⟨_, -, rfl⟩ := map_eq_ok.1 hDecl
    rfl
  · cases hDecl
  · cases hDecl

theorem declaration_of_kind {c : Cursor} (hKind : c.kind = .keyword .type) :
    declaration c = (Declaration.types <$> specGroup typeSpec) c := by
  have hNext : kind c = .ok (.keyword .type, c) := by rw [← hKind]; rfl
  exact bind_ok hNext

theorem reads_declaration_row : Reads n declaration fun decl w r =>
    StatementWord w r ∧ DeclaresWord decl.typeSpecs w r := by
  intro c decl c' hc hn hs hRun
  obtain ⟨word, hTakes, hWord⟩ := reads_declaration c decl c' hc hn hs hRun
  have hStatement : StatementWord word c'.rest := by
    rcases hWord with hPhrase | ⟨⟨-, hOpen⟩, hEnd⟩
    · exact .inl hPhrase
    · exact .inr ⟨hOpen, hEnd⟩
  refine ⟨word, hTakes, hStatement, ?_⟩
  by_cases hKind : c.kind = .keyword .type
  · rw [declaration_of_kind hKind] at hRun
    obtain ⟨word', hTakes', hDeclares⟩ := reads_types c decl c' hc hn ⟨trivial, hKind⟩ hRun
    obtain rfl : word' = word :=
      List.append_cancel_right (hTakes'.rest_eq.symm.trans hTakes.rest_eq)
    exact hDeclares
  · rw [typeSpecs_of_declaration hKind hRun]
    rw [kind_eq hc, hTakes.rest_eq, nextKind_append _ hStatement.ne_nil] at hKind
    exact .other hKind

/-- Imports declare no types. -/
theorem reads_importDecl_row :
    ReadsFrom n (fun c => decide (c.kind = .keyword .import) = true) importDecl fun decl w r =>
      StatementWord w r ∧ DeclaresWord decl.typeSpecs w r := by
  intro c decl c' hc hn hs hRun
  have hImport : ReadsFrom n (fun c => True ∧ c.kind = .keyword .import) importDecl _ :=
    reads_importDecl
  have hKind : c.kind = .keyword .import := of_decide_eq_true hs
  obtain ⟨word, hTakes, hPhrase⟩ := hImport c decl c' hc hn ⟨trivial, hKind⟩ hRun
  refine ⟨word, hTakes, .inl hPhrase, ?_⟩
  obtain ⟨group, -, rfl⟩ := map_eq_ok.1 hRun
  rw [kind_eq hc, hTakes.rest_eq, nextKind_append _ hPhrase.ne_nil] at hKind
  exact .other (by rw [hKind]; decide)

/-- The declarations of a source file stand in a row behind the package clause. -/
theorem row_of_sourceFile {c c' : Cursor} {file : SourceFile} (hc : c.IsProper)
    (h : sourceFile c = .ok (file, c')) : c'.rest = [] ∧ ∃ clause ending later,
      c.rest = clause ++ (ending ++ later) ∧ StatementWord clause (ending ++ later) ∧
        EndsStatement ending later ∧
        Row (fun decl w r => DeclaresWord decl.typeSpecs w r) file.declarations later [] := by
  obtain ⟨start, c₀, hHere, h⟩ := bind_eq_ok.1 h
  cases hHere
  obtain ⟨package, c₁, hPackage, h⟩ := bind_eq_ok.1 h
  obtain ⟨clause, hRest₁, hc₁, hClause⟩ := exists_rest (fun _ => reads_packageClause) hc hPackage
  obtain ⟨_, c₂, hEnd, h⟩ := bind_eq_ok.1 h
  obtain ⟨ending, hRest₂, hc₂, hEnding⟩ := exists_rest (fun _ => reads_statementEnd) hc₁ hEnd
  obtain ⟨imports, c₃, hImports, h⟩ := bind_eq_ok.1 h
  obtain ⟨u, hRest₃, hc₃, hImportRow, -⟩ :=
    exists_rest (fun _ => reads_row reads_importDecl_row) hc₂ hImports
  obtain ⟨others, c₄, hOthers, h⟩ := bind_eq_ok.1 h
  obtain ⟨v, hRest₄, hc₄, hOtherRow, hNext⟩ :=
    exists_rest (fun _ => reads_row (Reads.from reads_declaration_row)) hc₃ hOthers
  obtain ⟨span, c₅, hSpan, h⟩ := bind_eq_ok.1 h
  cases hSpan
  cases h
  have hNil : c'.rest = [] := by
    apply rest_eq_nil hc₄
    rw [kind_eq hc₄]
    simpa using hNext
  rw [hNil, List.append_nil] at hRest₄
  rw [hRest₄] at hRest₃
  rw [hNil] at hOtherRow
  refine ⟨hNil, clause, ending, u ++ v, ?_, .inl hClause, hRest₃ ▸ hEnding, ?_⟩
  · rw [hRest₁, hRest₂, hRest₃]
  · rw [hRest₄, ← List.append_nil v] at hImportRow
    exact hImportRow.append hOtherRow

end Parser

end GoTemplate
