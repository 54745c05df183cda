import GoTemplate.Proofs.Output.Layout
import GoTemplate.Template.Instance

/-!
What merged texts declare. If the merger understands the lines of all texts, then the grammar finds
in the merged text the package clause of the first text and all declarations but the imports.
-/

namespace GoTemplate

namespace Output

open Text Brackets

/-- A source text in lines that the merger understands. -/
structure LaidOutText where
  text : Text
  file : SourceFile
  layout : Layout text
  parse_eq : SourceFile.parse text = .ok file
  lineFeed : text.getLast? = some '\n'

namespace LaidOutText

variable (source : LaidOutText)

/-- The tokens of the body are read as the declarations that are no imports. -/
theorem declarations_body : source.file.package.name = source.layout.name.lexeme ∧
    ∃ c, Parser.declarations (.ofTokens source.layout.bodyTokens) =
      .ok (respan Span.erase source.file.nonImports, c) := by
  let l := source.layout
  obtain ⟨imports, hSection⟩ := l.import_section
  obtain ⟨ws, c, hWs, hRun⟩ := SourceFile.sourceFile_of_parse source.parse_eq
  obtain rfl := Option.some.inj (hWs.symm.trans l.tokens_eq)
  obtain ⟨hName, others, hAll, hOthers⟩ := Parser.declarations_of_sourceFile l.keyword_kind
    l.name_kind l.semicolon_kind l.isBare_tokens.1 hSection hRun
  have hNone : imports.filter (!·.isImport) = [] := by
    apply List.filter_eq_nil_iff.2
    intro decl hDecl
    rw [Parser.isImport_of_importSection hSection decl hDecl]
    exact Bool.false_ne_true
  have hKept : others.filter (!·.isImport) = others := by
    apply List.filter_eq_self.2
    intro decl hDecl
    rw [Parser.isImport_of_declarations hOthers decl hDecl]
    rfl
  have hSame : others = respan Span.erase source.file.nonImports := by
    calc others
      _ = (respan Span.erase source.file).declarations.filter (!·.isImport) := by
        rw [hAll, List.filter_append, hNone, hKept, List.nil_append]
      _ = respan Span.erase source.file.nonImports := by
        change (source.file.declarations.map _).filter _ = List.map _ (List.filter _ _)
        rw [List.filter_map]
        congr 1
        apply List.filter_congr
        intro decl _
        exact congrArg (!·) (Declaration.isImport_respan _ decl)
  exact ⟨hName, c, hSame ▸ hOthers⟩

/-- Of later texts the bodies stay. -/
theorem cleanLines_later (sources : List LaidOutText) : ∃ kept,
    HaveTokens kept (sources.map (·.layout.bodyTokens)).flatten ∧
      cleanLines true false ((sources.map text).flatMap lines) = kept := by
  induction sources with
  | nil => exact ⟨[], .nil, rfl⟩
  | cons source sources ih =>
      obtain ⟨others, hOthers, hClean⟩ := ih
      obtain ⟨kept, hKept, hFirst⟩ := source.layout.cleanLines_later
      refine ⟨kept ++ others, hKept.append hOthers, ?_⟩
      rw [List.map_cons, List.flatMap_cons, hFirst, hClean]

/-- The tokens of merged texts are those of the first clause and those of all bodies. -/
theorem tokens_merge (first : LaidOutText) (later : List LaidOutText) :
    (merge ((first :: later).map text)).tokens? =
      some (first.layout.clauseTokens ++
        ((first :: later).map (·.layout.bodyTokens)).flatten) := by
  have hLineFeeds : ∀ t ∈ (first :: later).map text, t.getLast? = some '\n' := by
    intro t ht
    obtain ⟨source, -, rfl⟩ := List.mem_map.1 ht
    exact source.lineFeed
  have hBanner : HaveTokens bannerLines [] := ⟨by decide +kernel, by decide +kernel⟩
  obtain ⟨kept, hKept, hFirst⟩ := first.layout.cleanLines_first
  obtain ⟨others, hOthers, hLater⟩ := cleanLines_later later
  have hLines : cleanLines false false (lines (banner ++ ((first :: later).map text).flatten)) =
      bannerLines ++ (kept ++ others) := by
    rw [cleanLines_banner, lines_flatten hLineFeeds, List.map_cons, List.flatMap_cons, hFirst,
      hLater]
  have hTokens := (hBanner.append (hKept.append hOthers)).tokens
  rw [← hLines] at hTokens
  exact hTokens

end LaidOutText

/-- Merged texts are a source text with the package clause of the first text and with all
declarations of the texts, in their order, but without the imports. -/
theorem exists_parse_merge {first : LaidOutText} {later : List LaidOutText}
    (hComplete : ∀ source ∈ (first :: later).dropLast, source.text.IsComplete) :
    ∃ merged, SourceFile.parse (merge ((first :: later).map LaidOutText.text)) = .ok merged ∧
      merged.package.name = first.file.package.name ∧
      (∀ decl ∈ merged.declarations, decl.isImport = false) ∧
      respan Span.erase merged.declarations =
        respan Span.erase ((first :: later).flatMap fun source => source.file.nonImports) := by
  let parts := (first :: later).map fun source =>
    (source.layout.bodyTokens, respan Span.erase source.file.nonImports)
  have hParts : ∀ part ∈ parts, IsBare part.1 ∧
      ∃ c, Parser.declarations (.ofTokens part.1) = .ok (part.2, c) := by
    intro part hPart
    obtain ⟨source, -, rfl⟩ := List.mem_map.1 hPart
    exact ⟨(isBare_append.1 source.layout.isBare_tokens.2).2, source.declarations_body.2⟩
  have hStatements : ∀ part ∈ parts.dropLast, Complete part.1 := by
    intro part hPart
    rw [← List.map_dropLast] at hPart
    obtain ⟨source, hSource, rfl⟩ := List.mem_map.1 hPart
    exact source.layout.complete_bodyTokens (hComplete source hSource)
  obtain ⟨c, hDeclarations⟩ := Parser.declarations_flatten hParts hStatements
  have hBodies : parts.map Prod.fst = (first :: later).map (·.layout.bodyTokens) := List.map_map
  have hOthers : (parts.map Prod.snd).flatten =
      respan Span.erase ((first :: later).flatMap fun source => source.file.nonImports) := by
    change _ = List.map _ (List.flatMap _ _)
    rw [List.map_flatMap, List.flatMap_def, List.map_map]
    rfl
  have hNext : nextKind (parts.map Prod.fst).flatten ≠ .keyword .import := by
    apply nextKind_flatten_ne (by simp)
    intro ws hWs
    rw [hBodies] at hWs
    obtain ⟨source, -, rfl⟩ := List.mem_map.1 hWs
    exact source.layout.balanced_importTokens.2
  let l := first.layout
  have hTokens := LaidOutText.tokens_merge first later
  rw [← hBodies] at hTokens
  obtain ⟨hClause, hRest⟩ := isBare_append.1 (isBare_of_tokens? hTokens)
  obtain ⟨file, hFile, hName, hAll⟩ := Parser.sourceFile_of_declarations l.keyword_kind
    l.name_kind l.semicolon_kind hClause hRest hNext hDeclarations
  obtain ⟨merged, hMerged, rfl⟩ := SourceFile.parse_of_sourceFile hTokens hFile
  have hMergedAll : respan Span.erase merged.declarations = (parts.map Prod.snd).flatten := hAll
  refine ⟨merged, hMerged, ?_, ?_, hMergedAll.trans hOthers⟩
  · exact hName.trans first.declarations_body.1.symm
  · intro decl hDecl
    rw [← Declaration.isImport_respan Span.erase]
    apply Parser.isImport_of_declarations hDeclarations
    rw [← hMergedAll]
    exact List.mem_map_of_mem hDecl

/-! ## Texts with an import block -/

private def importLines : List Text := ["import (".toList, "\t\"a\"".toList, ")".toList]

private def varLine : Text := "var x = 1".toList

private def importText : Text := unlines ("package p".toList :: (importLines ++ [varLine]))

private def tokensOf (ls : List Text) : List Token := (unlines ls).tokens?.getD []

private theorem haveTokens_tokensOf {ls : List Text} (hTokens : (unlines ls).tokens?.isSome = true)
    (hMark : (unlines ls).head? ≠ some '\uFEFF') : HaveTokens ls (tokensOf ls) := by
  obtain ⟨ws, hWs⟩ := Option.isSome_iff_exists.1 hTokens
  exact ⟨by rw [tokensOf, hWs]; rfl, hMark⟩

private theorem blocks_importLines :
    Blocks true (importLines ++ []) (tokensOf importLines ++ []) := by
  have hTaken : AreTaken importLines :=
    @AreTaken.block _ _ ["\t\"a\"".toList] (by decide +kernel) (by decide +kernel)
      (by decide +kernel)
  have hTokens := @haveTokens_tokensOf importLines (by decide +kernel) (by decide +kernel)
  exact .taken hTaken hTokens (by simp) .nil

private theorem blocks_varLine : Blocks false ([varLine] ++ []) (tokensOf [varLine] ++ []) := by
  have hKept : ∀ line ∈ [varLine], isOrdinary [] line = true := by decide +kernel
  have hTokens := @haveTokens_tokensOf [varLine] (by decide +kernel) (by decide +kernel)
  exact .kept hKept hTokens (by simp) .nil

private theorem exists_importSection : ∃ decls,
    Parser.importSection (.ofTokens (tokensOf importLines ++ [] ++ (tokensOf [varLine] ++ []))) =
      .ok (decls, .ofTokens (tokensOf [varLine] ++ [])) := by
  let ws := tokensOf importLines ++ [] ++ (tokensOf [varLine] ++ [])
  have hBare : IsBare ws := by
    unfold IsBare
    decide +kernel
  have hRest : ((Parser.importSection (.ofTokens ws)).toOption.any
      (·.2.rest == tokensOf [varLine] ++ [])) = true := by decide +kernel
  cases hRun : Parser.importSection (.ofTokens ws) with
  | error e =>
      rw [hRun] at hRest
      cases hRest
  | ok result =>
      rw [hRun] at hRest
      have hSame : result.2 = .ofTokens result.2.rest :=
        (Parser.eq_ofTokens hBare (Parser.inStep_importSection merges_erase) hRun).1
      rw [beq_iff_eq.1 hRest] at hSame
      exact ⟨result.1, by rw [← hSame]⟩

private def importLayout : Layout importText where
  intro := []
  clause := "package p".toList
  imports := importLines ++ []
  body := [varLine] ++ []
  keyword := ⟨.keyword .package, "package".toList, .none⟩
  name := ⟨.identifier, "p".toList, .none⟩
  semicolon := ⟨.semicolon, ['\n'], .none⟩
  importTokens := tokensOf importLines ++ []
  bodyTokens := tokensOf [varLine] ++ []
  lines_eq := by decide +kernel
  lineEnds := by decide +kernel
  intro_blocks := .nil
  looksLike_clause := by decide +kernel
  clause_tokens := ⟨by decide +kernel, by decide +kernel⟩
  keyword_kind := rfl
  name_kind := rfl
  semicolon_kind := rfl
  import_blocks := blocks_importLines
  body_blocks := blocks_varLine
  import_section := exists_importSection

theorem exists_parse_merge_block : ∃ file merged,
    SourceFile.parse importText = .ok file ∧ file.declarations.length = 2 ∧
      SourceFile.parse (merge [importText, importText]) = .ok merged ∧
      respan Span.erase merged.declarations =
        respan Span.erase (file.nonImports ++ file.nonImports) := by
  let hasTwo (file : SourceFile) : Bool := file.declarations.length == 2
  obtain ⟨file, hFile, hLength⟩ :=
    (@SourceFile.exists_parse_iff importText hasTwo).2 (by decide +kernel)
  let source : LaidOutText := ⟨importText, file, importLayout, hFile, by decide +kernel⟩
  have hSource : importText.IsComplete :=
    ⟨_, importLayout.tokens_eq, balanced_of_openAfter (by decide +kernel), by decide +kernel⟩
  have hComplete : ∀ other ∈ [source, source].dropLast, other.text.IsComplete := by
    intro other hOther
    obtain rfl := List.mem_singleton.1 hOther
    exact hSource
  obtain ⟨merged, hMerged, -, -, hSame⟩ := exists_parse_merge hComplete
  refine ⟨file, merged, hFile, beq_iff_eq.1 hLength, hMerged, ?_⟩
  rw [hSame]
  simp [source]

/-- With a comment behind its bracket an import block is no block to the merger. -/
theorem exists_parse_merge_eq_error : ∃ text file types, SourceFile.parse text = .ok file ∧
    Template.instantiate types text = text ∧ text.getLast? = some '\n' ∧
    ∀ merged, SourceFile.parse (merge [text]) ≠ .ok merged := by
  let text : Text := "package p\nimport ( // c\n\"a\"\n)\n".toList
  obtain ⟨file, hFile, -⟩ := (@SourceFile.exists_parse_iff text fun _ => true).2 (by decide +kernel)
  have hNone : (SourceFile.parse (merge [text])).toOption.any (fun _ => true) = false := by
    decide +kernel
  refine ⟨text, file, .ofList [], hFile, by decide +kernel, by decide +kernel, fun merged h => ?_⟩
  rw [SourceFile.exists_parse_iff.1 ⟨merged, h, rfl⟩] at hNone
  cases hNone

end Output

end GoTemplate
