import GoTemplate.Proofs.Lexical.BareTokens
import GoTemplate.Proofs.Syntax.Balance
import GoTemplate.Proofs.Syntax.DeclarationSteps
import GoTemplate.Proofs.Syntax.Sequence

/-!
Source files up to their spans. What a text declares depends on its bare tokens. Of source files
whose declarations are put together behind one package clause, the declarations are put together.
-/

namespace GoTemplate

open Brackets

/-- No span, in the place of any. -/
def Span.erase : Span → Span := fun _ => .none

theorem merges_erase : Parser.Merges Span.erase := fun _ _ => rfl

/-- Tokens without places, none of which is the end of the source. -/
def IsBare (ws : List Token) : Prop := ∀ t ∈ ws, t.kind ≠ .endOfSource ∧ t.span = .none

theorem isBare_append {us vs : List Token} : IsBare (us ++ vs) ↔ IsBare us ∧ IsBare vs :=
  List.forall_mem_append

theorem respan_erase_of_isBare {ws : List Token} (h : IsBare ws) : respan Span.erase ws = ws := by
  induction ws with
  | nil => rfl
  | cons t ws ih =>
      rw [respan_cons, ih fun u hu => h u (List.mem_cons_of_mem t hu)]
      congr 1
      change { t with span := .none } = t
      rw [← (h t List.mem_cons_self).2]

theorem isBare_of_tokens? {t : Text} {ws : List Token} (h : t.tokens? = some ws) : IsBare ws := by
  simp only [Text.tokens?, Option.ite_none_right_eq_some, Option.some.injEq] at h
  obtain ⟨-, rfl⟩ := h
  intro u hu
  obtain ⟨v, hv, rfl⟩ := List.mem_map.1 hu
  exact ⟨Lexer.run_tokens_kind _ v hv, rfl⟩

namespace Cursor

/-- The place before bare tokens. -/
def ofTokens (ws : List Token) : Cursor := ⟨.none, ws, ⟨.endOfSource, [], .none⟩⟩

theorem isProper_ofTokens {ws : List Token} (h : IsBare ws) : (ofTokens ws).IsProper where
  stop_kind := rfl
  rest_kind t ht := (h t ht).1

/-- Without their spans, the tokens of a run are the bare tokens of its text. -/
theorem respan_ofRun {t : Text} {ws : List Token} (h : t.tokens? = some ws) :
    respan Span.erase (ofRun (Lexer.ofSource .statements t).run) = ofTokens ws := by
  obtain ⟨-, hTokens, hStop⟩ :=
    (Text.tokens?_eq_some.1 h).run_eq (.ofSource .statements t) rfl rfl rfl rfl
  rw [← hTokens, ofTokens, ← hStop]
  rfl

end Cursor

/-! ## Reading bare tokens -/

section

variable {α : Type} [Spanned α] {parser : Parser α}
  (hParser : ∀ n, Parser.InStep Span.erase n parser parser)

include hParser

theorem run_ofTokens {t : Text} {ws : List Token} (h : t.tokens? = some ws) :
    parser (.ofTokens ws) =
      respan Span.erase (parser (.ofRun (Lexer.ofSource .statements t).run)) := by
  let run := (Lexer.ofSource .statements t).run
  obtain ⟨hStep, -⟩ := hParser (run.tokens.length + 1) (.ofRun run) (Lexer.run_stop_kind _)
    (Nat.lt_succ_self _) trivial
  rw [Cursor.respan_ofRun h] at hStep
  exact hStep

theorem ofTokens_of_readSource {t : Text} {a : α} (h : readSource parser t = .ok a) :
    ∃ ws c, t.tokens? = some ws ∧ parser (.ofTokens ws) = .ok (respan Span.erase a, c) := by
  obtain ⟨hErrors, c, hRun⟩ := readSource_eq_ok h
  have hTokens : t.tokens? = some ((Lexer.ofSource .statements t).run.tokens.map Token.bare) :=
    if_pos hErrors
  refine ⟨_, respan Span.erase c, hTokens, ?_⟩
  rw [run_ofTokens hParser hTokens, hRun]
  rfl

theorem readSource_of_ofTokens {t : Text} {ws : List Token} {a : α} {c : Cursor}
    (hTokens : t.tokens? = some ws) (h : parser (.ofTokens ws) = .ok (a, c)) :
    ∃ found, readSource parser t = .ok found ∧ respan Span.erase found = a := by
  obtain ⟨hErrors, -, -⟩ :=
    (Text.tokens?_eq_some.1 hTokens).run_eq (.ofSource .statements t) rfl rfl rfl rfl
  rw [run_ofTokens hParser hTokens] at h
  rw [readSource, hErrors]
  cases hRun : parser (.ofRun (Lexer.ofSource .statements t).run) with
  | error e => rw [hRun] at h; cases h
  | ok result =>
      rw [hRun] at h
      cases h
      exact ⟨result.1, by simp, rfl⟩

end

namespace SourceFile

theorem sourceFile_of_parse {t : Text} {file : SourceFile} (h : parse t = .ok file) :
    ∃ ws c, t.tokens? = some ws ∧
      Parser.sourceFile (.ofTokens ws) = .ok (respan Span.erase file, c) :=
  ofTokens_of_readSource (fun _ => Parser.inStep_sourceFile merges_erase) h

theorem parse_of_sourceFile {t : Text} {ws : List Token} {file : SourceFile} {c : Cursor}
    (hTokens : t.tokens? = some ws) (h : Parser.sourceFile (.ofTokens ws) = .ok (file, c)) :
    ∃ found, parse t = .ok found ∧ respan Span.erase found = file :=
  readSource_of_ofTokens (fun _ => Parser.inStep_sourceFile merges_erase) hTokens h

end SourceFile

/-! ## Declarations in a row -/

/-- Whether a declaration is an import. -/
def Declaration.isImport : Declaration → Bool
  | .imports _ => true
  | _ => false

theorem Declaration.isImport_respan (f : Span → Span) (decl : Declaration) :
    (respan f decl).isImport = decl.isImport := by
  cases decl <;> rfl

/-- The declarations that are no imports, in the order of the source. -/
def SourceFile.nonImports (file : SourceFile) : List Declaration :=
  file.declarations.filter (!·.isImport)

namespace Parser

theorem isImport_importDecl {c c' : Cursor} {decl : Declaration}
    (h : importDecl c = .ok (decl, c')) : decl.isImport = true := by
  obtain ⟨group, -, rfl⟩ := map_eq_ok.1 h
  rfl

theorem isImport_declaration {c c' : Cursor} {decl : Declaration}
    (h : declaration c = .ok (decl, c')) : decl.isImport = false := by
  obtain ⟨k, d, -, hDecl⟩ := bind_eq_ok.1 h
  split at hDecl
  · obtain ⟨group, -, rfl⟩ := map_eq_ok.1 hDecl
    rfl
  · obtain ⟨group, -, rfl⟩ := map_eq_ok.1 hDecl
    rfl
  · obtain ⟨group, -, rfl⟩ := map_eq_ok.1 hDecl
    rfl
  · obtain ⟨func, -, rfl⟩ := map_eq_ok.1 hDecl
    rfl
  · cases hDecl
  · cases hDecl

/-- The declarations up to the end of the tokens. -/
abbrev declarations : Parser (List Declaration) := statements .endOfSource declaration

/-- A source file is a package clause and its end, imports and other declarations. -/
theorem sourceFile_eq_ok_of_clause {k i : Token} {ws : List Token} {file : SourceFile} {c : Cursor}
    (hk : k.kind = .keyword .package) (hi : i.kind = .identifier) (hBare : IsBare [k, i]) :
    sourceFile (.ofTokens (k :: i :: ws)) = .ok (file, c) ↔
      ∃ c₁ imports c₂ others, statementEnd (.ofTokens ws) = .ok ((), c₁) ∧
        importSection c₁ = .ok (imports, c₂) ∧ declarations c₂ = .ok (others, c) ∧
        file = ⟨⟨i.lexeme, .none⟩, imports ++ others, Span.none.merge c.previous⟩ := by
  have hSpan (t : Token) (ht : t ∈ [k, i]) : t.span = .none := (hBare t ht).2
  have hClause : packageClause (.ofTokens (k :: i :: ws)) =
      .ok (⟨i.lexeme, .none⟩, .ofTokens ws) := by
    change (if k.kind = .keyword .package then (take >>= fun _ => identifier : Parser Identifier)
      else reject .expectedPackage) _ = _
    rw [if_pos hk]
    change (if i.kind = .identifier then
        (take >>= fun t => pure ⟨t.lexeme, t.span⟩ : Parser Identifier)
      else reject .expectedIdentifier) (⟨k.span, i :: ws, _⟩ : Cursor) = _
    rw [if_pos hi]
    change Except.ok ((⟨i.lexeme, i.span⟩ : Identifier), (⟨i.span, ws, _⟩ : Cursor)) = _
    rw [hSpan i (by simp)]
    rfl
  have hHere : here (.ofTokens (k :: i :: ws)) = .ok (.none, .ofTokens (k :: i :: ws)) := by
    rw [← hSpan k (by simp)]
    rfl
  rw [sourceFile, bind_ok hHere, bind_ok hClause, bind_eq_ok]
  constructor
  · intro h
    obtain ⟨_, c₁, hEnd, h⟩ := h
    obtain ⟨imports, c₂, hImports, h⟩ := bind_eq_ok.1 h
    obtain ⟨others, c₃, hOthers, h⟩ := bind_eq_ok.1 h
    cases h
    exact ⟨c₁, imports, c₂, others, hEnd, hImports, hOthers, rfl⟩
  · intro h
    obtain ⟨c₁, imports, c₂, others, hEnd, hImports, hOthers, rfl⟩ := h
    exact ⟨(), c₁, hEnd, bind_eq_ok.2 ⟨imports, c₂, hImports, bind_eq_ok.2 ⟨others, c, hOthers, rfl⟩⟩⟩

/-- A semicolon ends a package clause. -/
theorem sourceFile_eq_ok {k i s : Token} {ws : List Token} {file : SourceFile} {c : Cursor}
    (hk : k.kind = .keyword .package) (hi : i.kind = .identifier) (hs : s.kind = .semicolon)
    (hBare : IsBare [k, i, s]) :
    sourceFile (.ofTokens (k :: i :: s :: ws)) = .ok (file, c) ↔
      ∃ imports c₁ others, importSection (.ofTokens ws) = .ok (imports, c₁) ∧
        declarations c₁ = .ok (others, c) ∧
        file = ⟨⟨i.lexeme, .none⟩, imports ++ others, Span.none.merge c.previous⟩ := by
  have hEnd : statementEnd (.ofTokens (s :: ws)) = .ok ((), .ofTokens ws) := by
    have hNext := statementEnd_semicolon hs (.ofTokens []) ws
    rw [(hBare s (by simp)).2] at hNext
    exact hNext
  have hWords : IsBare [k, i] := fun t ht => hBare t (List.mem_append_left [s] ht)
  rw [sourceFile_eq_ok_of_clause hk hi hWords]
  constructor
  · rintro ⟨c₁, imports, c₂, others, hSame, h⟩
    obtain rfl : Cursor.ofTokens ws = c₁ := congrArg Prod.snd (Except.ok.inj (hEnd.symm.trans hSame))
    exact ⟨imports, c₂, others, h⟩
  · rintro ⟨imports, c₂, others, h⟩
    exact ⟨_, imports, c₂, others, hEnd, h⟩

section

variable {α : Type} [Spanned α] {p : Parser α}

/-- From bare tokens a reader that goes by no span comes to bare tokens. -/
theorem eq_ofTokens {ws : List Token} {a : α} {c : Cursor} (hBare : IsBare ws)
    (hp : InStep Span.erase (ws.length + 1) p p) (h : p (.ofTokens ws) = .ok (a, c)) :
    c = .ofTokens c.rest ∧ respan Span.erase a = a := by
  obtain ⟨hStep, hKeeps⟩ := hp (.ofTokens ws) rfl (Nat.lt_succ_self _) trivial
  obtain ⟨hStop, -⟩ := hKeeps a c h
  have hSame : respan Span.erase (Cursor.ofTokens ws) = .ofTokens ws := by
    change Cursor.mk _ (respan Span.erase ws) _ = _
    rw [respan_erase_of_isBare hBare]
    rfl
  rw [hSame, h] at hStep
  have hPair := Except.ok.inj hStep
  have hPrevious : c.previous = .none := congrArg (fun r => r.2.previous) hPair
  refine ⟨?_, (congrArg Prod.fst hPair).symm⟩
  obtain ⟨previous, rest, stop⟩ := c
  change previous = .none at hPrevious
  change stop = ⟨.endOfSource, [], .none⟩ at hStop
  rw [hPrevious, hStop]
  rfl

end

theorem importSection_of_ne {ws : List Token} (hBare : IsBare ws)
    (h : nextKind ws ≠ .keyword .import) :
    importSection (.ofTokens ws) = .ok ([], .ofTokens ws) := by
  have hKind : (Cursor.ofTokens ws).kind ≠ .keyword .import := by
    rw [kind_eq (Cursor.isProper_ofTokens hBare)]
    exact h
  rw [importSection, manyWhile, if_neg (by simpa using hKind)]

theorem isImport_of_importSection {c c' : Cursor} {decls : List Declaration}
    (h : importSection c = .ok (decls, c')) : ∀ decl ∈ decls, decl.isImport = true := by
  apply forall_of_manyWhile (Q := fun decl => decl.isImport = true) _ h
  intro d a d' hItem
  obtain ⟨_, hDecl⟩ := item_of_statement hItem
  exact isImport_importDecl hDecl

/-- Imports are balanced, and no import comes after them. -/
theorem balanced_of_importSection {us vs : List Token} {decls : List Declaration}
    (hBare : IsBare (us ++ vs))
    (h : importSection (.ofTokens (us ++ vs)) = .ok (decls, .ofTokens vs)) :
    Balanced us ∧ nextKind vs ≠ .keyword .import := by
  obtain ⟨word, hTakes, hBalanced, hNext⟩ := reads_importSection _ _ _
    (Cursor.isProper_ofTokens hBare) (Nat.lt_succ_self _) trivial h
  have hWord : us = word := List.append_cancel_right hTakes.rest_eq
  rw [hWord]
  exact ⟨hBalanced, hNext⟩

theorem rest_of_declarations {ws : List Token} {decls : List Declaration} {c : Cursor}
    (hBare : IsBare ws) (h : declarations (.ofTokens ws) = .ok (decls, c)) : c.rest = [] := by
  have hProper := Cursor.isProper_ofTokens hBare
  have hNil : ∀ decl : Declaration, ¬(decl.endsWithValues = true ∧ OpenValues []) :=
    fun _ hOpen => hOpen.2.ne_nil rfl
  obtain ⟨word, hTakes, -, hNext⟩ :=
    reads_statements hNil reads_declaration _ _ _ hProper (Nat.lt_succ_self _) trivial h
  apply rest_eq_nil (hTakes.isProper hProper)
  rw [kind_eq (hTakes.isProper hProper)]
  exact hNext.elim id id

theorem reads_declaration_item {n : Nat} : Reads n declaration fun _ w r => ItemWord w r := by
  refine reads_declaration.word ?_
  rintro _ _ _ (hw | ⟨⟨-, hw⟩, rfl⟩)
  · exact hw.itemWord _
  · exact hw.itemWord

theorem declarations_append {us : List Token} {decls : List Declaration} {c : Cursor}
    (hBare : IsBare us) (hComplete : Complete us)
    (h : declarations (.ofTokens us) = .ok (decls, c)) (vs : List Token) :
    declarations (.ofTokens (us ++ vs)) =
      (declarations (.ofTokens vs)).map fun (others, d) => (decls ++ others, d) := by
  have hAll := manyWhile_append reads_declaration_item.from (Cursor.isProper_ofTokens hBare)
    (Nat.lt_succ_self _) hComplete (rest_of_declarations hBare h) h vs
  have hLast := (eq_ofTokens hBare (inStep_declarations merges_erase) h).1
  rw [hLast] at hAll
  exact hAll

/-- Complete declarations that are put together are read one after the other. -/
theorem declarations_flatten {parts : List (List Token × List Declaration)}
    (hParts : ∀ part ∈ parts, IsBare part.1 ∧ ∃ c, declarations (.ofTokens part.1) = .ok (part.2, c))
    (hComplete : ∀ part ∈ parts.dropLast, Complete part.1) :
    ∃ c, declarations (.ofTokens (parts.map Prod.fst).flatten) =
      .ok ((parts.map Prod.snd).flatten, c) := by
  induction parts with
  | nil => exact ⟨.ofTokens [], by rw [declarations, statements, manyWhile]; rfl⟩
  | cons part parts ih =>
      obtain ⟨hBare, c, hFirst⟩ := hParts part List.mem_cons_self
      cases parts with
      | nil => exact ⟨c, by simpa using hFirst⟩
      | cons other parts =>
          obtain ⟨d, hOthers⟩ := ih (fun p hp => hParts p (List.mem_cons_of_mem part hp))
            fun p hp => hComplete p (List.mem_cons_of_mem part hp)
          have hAppend := declarations_append hBare (hComplete part List.mem_cons_self) hFirst
            ((other :: parts).map Prod.fst).flatten
          rw [hOthers] at hAppend
          exact ⟨d, hAppend⟩

theorem isImport_of_declarations {c c' : Cursor} {decls : List Declaration}
    (h : declarations c = .ok (decls, c')) : ∀ decl ∈ decls, decl.isImport = false := by
  apply forall_of_manyWhile (Q := fun decl => decl.isImport = false) _ h
  intro d a d' hItem
  obtain ⟨_, hDecl⟩ := item_of_statement hItem
  exact isImport_declaration hDecl

/-! ## Source files -/

section

variable {k i s : Token} (hk : k.kind = .keyword .package) (hi : i.kind = .identifier)
  (hs : s.kind = .semicolon) (hBare : IsBare [k, i, s])

include hk hi hs hBare

/-- Where the imports end, the other declarations start. -/
theorem declarations_of_sourceFile {us vs : List Token} {imports : List Declaration}
    {file : SourceFile} {c : Cursor}
    (hSection : importSection (.ofTokens us) = .ok (imports, .ofTokens vs))
    (h : sourceFile (.ofTokens (k :: i :: s :: us)) = .ok (file, c)) :
    file.package.name = i.lexeme ∧ ∃ others, file.declarations = imports ++ others ∧
      declarations (.ofTokens vs) = .ok (others, c) := by
  obtain ⟨found, c₂, others, hFound, hOthers, rfl⟩ := (sourceFile_eq_ok hk hi hs hBare).1 h
  rw [hSection] at hFound
  cases hFound
  exact ⟨rfl, others, rfl, hOthers⟩

/-- A package clause makes declarations a source file. -/
theorem sourceFile_of_declarations {ws : List Token} {others : List Declaration} {c : Cursor}
    (hWs : IsBare ws) (hNext : nextKind ws ≠ .keyword .import)
    (h : declarations (.ofTokens ws) = .ok (others, c)) :
    ∃ file, sourceFile (.ofTokens (k :: i :: s :: ws)) = .ok (file, c) ∧
      file.package.name = i.lexeme ∧ file.declarations = others :=
  ⟨_, (sourceFile_eq_ok hk hi hs hBare).2
    ⟨[], _, others, importSection_of_ne hWs hNext, h, rfl⟩, rfl, rfl⟩

end

end Parser

end GoTemplate
