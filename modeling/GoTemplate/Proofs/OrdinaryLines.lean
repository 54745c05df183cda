import GoTemplate.Proofs.Generation
import GoTemplate.Proofs.Output.Merge
import GoTemplate.Proofs.Template.LineFeeds

/-!
The lines of a template in the generated code. All lines that stay in the instance and that the
merger takes for ordinary ones are there, in the order of the template. What counts is how a line
looks with the types in it: a word at its front may have become one that starts like a keyword.
-/

namespace GoTemplate

open Output

theorem ordinaryLines_sublist_inPackage (options : GenerationOptions) (instances : List Text) :
    ((ordinaryLines [] (Text.lines instances.flatten)).map Text.chop).Sublist
      (options.inPackage (merge instances)).lines := by
  have hMerged := ordinaryLines_sublist_merge instances
  have hKept : ∀ line ∈ (ordinaryLines [] (Text.lines instances.flatten)).map Text.chop,
      looksLikePackage line = false ∧ line.chop = line := by
    intro line hLine
    obtain ⟨whole, hWhole, rfl⟩ := List.mem_map.1 hLine
    have hPackage := not_looksLikePackage_of_mem hWhole
    rw [← Bool.not_eq_true, looksLikePackage, List.isPrefixOf_iff_prefix] at hPackage ⊢
    exact ⟨fun hPrefix => hPackage (hPrefix.trans whole.chop_isPrefix), whole.chop_chop⟩
  rw [GenerationOptions.inPackage]
  split
  · exact hMerged
  · split
    · exact hMerged
    · exact sublist_lines_renamePackage hKept hMerged

theorem specialize_run_of_covers {options : GenerationOptions} {reader : TemplateReader}
    {text : Text} {file : SourceFile} {types : TypeSet}
    (hText : Text.ofUtf8? reader.bytes = some text) (hFile : SourceFile.parse text = .ok file)
    (hCovers : types.Covers file) :
    ((specialize options [types]).run.run reader).1 =
      .ok (options.inPackage (merge [Template.instantiate types text])) := by
  have hInstances : [types].mapM (Template.instance? options.filename reader.bytes) =
      .ok [Template.instantiate types text] := by
    apply Template.mapM_instance?_of_covers hText hFile
    intro other hOther
    obtain rfl := List.mem_singleton.1 hOther
    exact hCovers
  rw [specialize_run, hInstances]
  rfl

/-- No ordinary line is lost between the instance and the code. A line is ordinary if with the
types in it it looks neither like a package clause nor like an import nor like a directive, and no
line before it opens an import block that is still open. With types on one line each, these lines
are lines of the code; else the lines are that the types split them into. -/
theorem ordinaryLines_sublist_specialize {options : GenerationOptions} {reader : TemplateReader}
    {text : Text} {file : SourceFile} {types : TypeSet}
    (hText : Text.ofUtf8? reader.bytes = some text) (hFile : SourceFile.parse text = .ok file)
    (hCovers : types.Covers file) :
    ∃ code, ((specialize options [types]).run.run reader).1 = .ok code ∧
      ((ordinaryLines [] ((Template.keptLines types text.lines).flatMap fun line =>
        (Text.asLine (Template.instantiateLine types line)).lines)).map Text.chop).Sublist
          code.lines ∧
      (types.OnOneLine → (ordinaryLines [] ((Template.keptLines types text.lines).map fun line =>
        (Template.instantiateLine types line).chop)).Sublist code.lines) := by
  have hLines := ordinaryLines_sublist_inPackage options [Template.instantiate types text]
  rw [List.flatten_singleton] at hLines
  refine ⟨_, specialize_run_of_covers hText hFile hCovers, ?_, ?_⟩
  · rw [← Template.lines_instantiate]
    exact hLines
  · intro hTypes
    rw [Template.lines_instantiate_of_onOneLine hTypes] at hLines
    have hChopped : ∀ line ∈ ordinaryLines [] ((Template.keptLines types text.lines).map
        fun line => (Template.instantiateLine types line).chop), line.chop = line := by
      intro line hLine
      obtain ⟨kept, -, rfl⟩ := List.mem_map.1 ((ordinaryLines_sublist _ _).mem hLine)
      exact Text.chop_chop _
    rw [List.map_congr_left hChopped, List.map_id'] at hLines
    exact hLines

/-- A template with a word that starts like a keyword but is none, until its line is put together
anew without the blanks before it. -/
private def importTemplate : Text :=
  "package p\ntype T generic.Type\nfunc f() \x7b\n\timportT = 1\n\x7d\n".toList

private def importTypes : TypeSet := .ofList [("T".toList, "int".toList)]

private theorem exists_parse_importTemplate : ∃ file, SourceFile.parse importTemplate = .ok file ∧
    importTypes.Covers file ∧ file.imports = [] := by
  let accepted (file : SourceFile) : Bool :=
    (file.missingPlaceholder? importTypes).isNone && file.imports.isEmpty
  obtain ⟨file, hFile, hAccepted⟩ :=
    (@SourceFile.exists_parse_iff importTemplate accepted).2 (by decide +kernel)
  obtain ⟨hNone, hImports⟩ := Bool.and_eq_true_iff.1 hAccepted
  refine ⟨file, hFile, ?_, List.isEmpty_iff.1 hImports⟩
  exact (file.missingPlaceholder?_eq_none_iff importTypes).1 (Option.isNone_iff_eq_none.1 hNone)

theorem ordinaryLines_sublist_specialize_word : ∃ text file types code,
    SourceFile.parse text = .ok file ∧ types.Covers file ∧ types.OnOneLine ∧
    ((specialize ⟨[], none, none⟩ [types]).run.run (.ofBytes text.toUtf8)).1 = .ok code ∧
      (ordinaryLines [] ((Template.keptLines types text.lines).map fun line =>
        (Template.instantiateLine types line).chop)).Sublist code.lines := by
  obtain ⟨file, hFile, hCovers, -⟩ := exists_parse_importTemplate
  have hTypes : importTypes.OnOneLine := by unfold TypeSet.OnOneLine; decide
  obtain ⟨code, hCode, -, hLines⟩ := @ordinaryLines_sublist_specialize ⟨[], none, none⟩
    (.ofBytes importTemplate.toUtf8) _ _ _ (Text.ofUtf8?_toUtf8 _) hFile hCovers
  exact ⟨importTemplate, file, importTypes, code, hFile, hCovers, hTypes, hCode, hLines hTypes⟩

/-- A line that starts with a name and stands in a file without imports is lost, though it stays in
the instance. -/
theorem exists_kept_not_mem_specialize : ∃ text file types code line,
    SourceFile.parse text = .ok file ∧ types.Covers file ∧ types.OnOneLine ∧ file.imports = [] ∧
    ((specialize ⟨[], none, none⟩ [types]).run.run (.ofBytes text.toUtf8)).1 = .ok code ∧
    line ∈ Template.keptLines types text.lines ∧ directive.isPrefixOf line = false ∧
    (Lexer.ofSource .verbatim line).run.tokens.head?.map (·.kind) = some .identifier ∧
    (Template.instantiateLine types line).chop ∉ code.lines := by
  obtain ⟨file, hFile, hCovers, hImports⟩ := exists_parse_importTemplate
  have hTypes : importTypes.OnOneLine := by unfold TypeSet.OnOneLine; decide
  have hCode := @specialize_run_of_covers ⟨[], none, none⟩ (.ofBytes importTemplate.toUtf8) _ _ _
    (Text.ofUtf8?_toUtf8 _) hFile hCovers
  exact ⟨importTemplate, file, importTypes, _, "\timportT = 1".toList, hFile, hCovers, hTypes,
    hImports, hCode, by decide +kernel, by decide +kernel, by decide +kernel, by decide +kernel⟩

end GoTemplate
