import GoTemplate.Output.Package
import GoTemplate.Proofs.Lexical.LineEnds
import GoTemplate.Proofs.Output.Merge
import GoTemplate.Proofs.Output.PackageClause

/-!
Source files with another package name. The name is put into the first line that looks like a package
clause, in the place of its second word. Where this is the clause, and the word no more than the name,
the grammar finds the other name and the same declarations.
-/

namespace GoTemplate

open Text (EndsLineWith)

/-! ## Words and lines -/

namespace Text

theorem EndsLineWith.lines_append {other ending after : Text} (h : EndsLineWith other ending after) {c : Char}
    {line : Text} (hNone : ∀ d ∈ c :: line, isLineEnd d = false) :
    lines (c :: line ++ (ending ++ after)) = (c :: line) :: lines after := by
  have hStep {d : Char} (hd : isLineEnd d = false) (t : Text) :
      lines (d :: t) = (d :: (lines t).headD []) :: (lines t).tail := by
    rw [isLineEnd, Bool.or_eq_false_iff, beq_eq_false_iff_ne, beq_eq_false_iff_ne] at hd
    exact lines_cons hd.2 fun hReturn => absurd hReturn hd.1
  induction line generalizing c with
  | nil =>
      rw [List.cons_append, hStep (hNone c List.mem_cons_self)]
      rcases h with (rfl | ⟨rfl, -⟩) | ⟨rfl, rfl⟩
      · simp [lines]
      · simp [lines]
      · simp [lines]
  | cons d line ih =>
      rw [List.cons_append, hStep (hNone c List.mem_cons_self), ih fun e he => hNone e (List.mem_cons_of_mem c he)]
      rfl

end Text

namespace Output

theorem renamePackageLines_append {ls : List Text}
    (hOther : ∀ line ∈ ls, looksLikePackage line = false) {line : Text}
    (hLine : looksLikePackage line = true) (name : Text) (below : List Text) :
    renamePackageLines name (ls ++ line :: below) = ls ++ renamePackageLine name line :: below := by
  induction ls with
  | nil => exact if_pos hLine
  | cons other ls ih =>
      obtain ⟨hHere, hOther⟩ := List.forall_mem_cons.1 hOther
      rw [looksLikePackage] at hHere
      rw [List.cons_append, renamePackageLines, if_neg (by rw [hHere]; exact Bool.false_ne_true), ih hOther]
      rfl

theorem renamePackageLine_eq {line keyword old : Text} {fields : List Text}
    (h : line.words = keyword :: old :: fields) (name : Text) :
    renamePackageLine name line = keyword ++ ' ' :: (name ++ fields.flatMap (' ' :: ·)) := by
  rw [renamePackageLine, h]
  dsimp only
  rw [Text.joinWithSpaces_cons, List.flatMap_cons, List.cons_append]

end Output

/-! ## Source files -/

namespace Output

/-- A source in which the first line that looks like a package clause is the clause, with nothing but
comments above. The first word of the line is the keyword and the second the name of the package, but
for comments and perhaps a semicolon. No token changes where single spaces take the place of other white
space in the line, and line feeds the place of other line ends in the source. -/
structure PlainClause (source : Text) where
  above : Text
  clause : Text
  line : Text
  below : List Text
  comments : Text
  name : Text
  ending : Text
  fields : List Text
  source_eq : source = above ++ clause
  above_tokens : above.tokens? = some []
  above_lineFeed : above = [] ∨ above.getLast? = some '\n'
  above_lines : ∀ other ∈ above.lines, looksLikePackage other = false
  clause_lines : clause.lines = line :: below
  looksLike_line : looksLikePackage line = true
  line_words : line.words = ("package".toList ++ comments) :: (name ++ ending) :: fields
  isBlockComments_comments : comments.IsBlockComments
  isName_name : IsName name
  endsClause_ending : EndsClause fields ending
  line_tokens : ∀ t ∈ verbatimTokens line, t.IsSpaced
  tokens : ∀ ws ∈ source.tokens?, ∀ t ∈ ws, ¬['\r', '\n'] <:+: t.lexeme

namespace PlainClause

variable {source : Text} (plain : PlainClause source)

theorem head?_line : plain.line.head? = some 'p' := by
  obtain ⟨u, hu⟩ := List.isPrefixOf_iff_prefix.1 plain.looksLike_line
  rw [← hu, List.head?_append, Token.head?_package]
  rfl

/-- The words of the line with single spaces between them. -/
theorem collapse_line : Text.collapse (Text.trimEnd plain.line) = "package".toList ++ (plain.comments ++
    ' ' :: (plain.name ++ (plain.ending ++ plain.fields.flatMap (' ' :: ·)))) := by
  have hHead : plain.line.head?.any Unicode.isWhiteSpace = false := by
    rw [plain.head?_line]
    decide +kernel
  rw [← Text.joinWithSpaces_words hHead, plain.line_words, Text.joinWithSpaces_cons, List.flatMap_cons]
  simp

theorem lineFeed_not_mem :
    '\n' ∉ plain.comments ∧ '\n' ∉ plain.ending ++ plain.fields.flatMap (' ' :: ·) := by
  have hNone := Text.lineEnd_not_mem_collapse (t := Text.trimEnd plain.line) (c := '\n') rfl
  rw [plain.collapse_line] at hNone
  constructor
  · exact fun hMem => hNone (by simp [hMem])
  · exact fun hMem => hNone (by simp only [List.mem_append, List.mem_cons] at hMem ⊢; tauto)

/-- Of the clause's line the words stay, but for the second. -/
theorem renamePackageLine_line (name : Text) : renamePackageLine name plain.line =
    "package".toList ++ (plain.comments ++ ' ' :: (name ++ plain.fields.flatMap (' ' :: ·))) := by
  rw [renamePackageLine_eq plain.line_words, List.append_assoc]

/-- There is no line end in it. -/
theorem isLineEnd_renamePackageLine {name : Text} (hName : IsName name) :
    ∀ c ∈ renamePackageLine name plain.line, Text.isLineEnd c = false := by
  intro c hc
  by_contra hEnd
  rw [Bool.not_eq_false] at hEnd
  have hNot := Text.lineEnd_not_mem_collapse (t := Text.trimEnd plain.line) hEnd
  rw [plain.collapse_line] at hNot
  rw [plain.renamePackageLine_line] at hc
  simp only [List.mem_append, List.mem_cons] at hNot hc
  have hMem : c ∈ name := by tauto
  have hPart := isIdentifierPart_of_mem hName hMem
  have hBoth : c ∈ ['\r', '\n'] := by simpa [Text.isLineEnd] using hEnd
  have hParts : ['\r', '\n'].all (fun d => !isIdentifierPart d) = true := by decide +kernel
  have hNone := List.all_eq_true.1 hParts c hBoth
  rw [hPart] at hNone
  cases hNone

/-- The clause's line ends with a line end or with the text. -/
theorem exists_line : ∃ lineEnd after, plain.clause = plain.line ++ (lineEnd ++ after) ∧
    after.lines = plain.below ∧ EndsLineWith plain.line lineEnd after ∧ '\n' ∉ plain.line := by
  have hNe : plain.clause ≠ [] := by
    intro hNil
    have hLines := plain.clause_lines
    rw [hNil] at hLines
    cases hLines
  obtain ⟨line, lineEnd, after, hText, hLines, hEnd⟩ := Text.exists_line hNe
  obtain ⟨rfl, hBelow⟩ := List.cons_eq_cons.1 (hLines.symm.trans plain.clause_lines)
  refine ⟨lineEnd, after, hText, hBelow, hEnd, Text.not_mem_of_mem_lines (t := plain.clause) ?_⟩
  rw [hLines]
  exact List.mem_cons_self

/-- With another name the text is the same but for the clause's line and the line ends. -/
theorem renamePackage_eq {name : Text} (hName : IsName name) {lineEnd after : Text}
    (hAfter : after.lines = plain.below) (hEnd : EndsLineWith plain.line lineEnd after) :
    renamePackage name source =
      (plain.above ++ (renamePackageLine name plain.line ++ (lineEnd ++ after))).lines.flatMap (· ++ ['\n']) := by
  have hAppend (t : Text) : (plain.above ++ t).lines = plain.above.lines ++ t.lines := by
    rcases plain.above_lineFeed with hNil | hLast
    · rw [hNil]
      rfl
    · exact Text.lines_append_of_getLast? hLast t
  have hNone := plain.isLineEnd_renamePackageLine hName
  have hLine : (renamePackageLine name plain.line ++ (lineEnd ++ after)).lines =
      renamePackageLine name plain.line :: after.lines := by
    obtain ⟨c, x, hText⟩ : ∃ c x, renamePackageLine name plain.line = c :: x := by
      rw [plain.renamePackageLine_line]
      exact List.exists_cons_of_ne_nil (List.append_ne_nil_of_left_ne_nil (by decide +kernel) _)
    rw [hText] at hNone ⊢
    exact hEnd.lines_append hNone
  have hSource : source.lines = plain.above.lines ++ plain.line :: plain.below := by
    rw [← plain.clause_lines, ← hAppend, ← plain.source_eq]
  rw [renamePackage, hSource, renamePackageLines_append plain.above_lines plain.looksLike_line, hAppend, hLine,
    hAfter]

/-- The two words of the clause are read, and then the end of its line and what is below. -/
theorem exists_bareTokens {ws : List Token} (h : source.tokens? = some ws) : ∃ lineEnd after later,
    after.lines = plain.below ∧ EndsLineWith plain.line lineEnd after ∧
      ws = .package :: .ofName plain.name :: later ∧
        BareTokens true (plain.ending ++ (plain.fields.flatMap (' ' :: ·) ++ (lineEnd ++ after))) later := by
  obtain ⟨lineEnd, after, hClause, hAfter, hEnd, hFeed⟩ := plain.exists_line
  have hSource := Text.tokens?_eq_some.1 h
  rw [plain.source_eq] at hSource
  have hMark : plain.clause.head? ≠ some '\uFEFF' := by
    rw [hClause, List.head?_append, plain.head?_line]
    simp
  have hLine := (Text.tokens?_eq_some.1 plain.above_tokens).of_append_nil
    (plain.above_lineFeed.imp_right List.getLast?_eq_some_iff.1) hMark hSource
  rw [hClause] at hLine
  obtain ⟨us, left, hUs, -⟩ := hLine.exists_line rfl hFeed hEnd
  have hSpaced : ∀ w ∈ us, w.IsSpaced := by
    rw [← hUs.verbatimTokens_eq]
    intro w hw
    obtain ⟨t, ht, rfl⟩ := List.mem_map.1 hw
    exact plain.line_tokens t ht
  have hCollapsed := hUs.bareTokens_collapse hSpaced hFeed hEnd hLine
  rw [plain.collapse_line] at hCollapsed
  simp only [List.append_assoc, List.cons_append] at hCollapsed
  obtain ⟨later, hLater, rfl⟩ := (BareTokens.clause_iff plain.isBlockComments_comments plain.lineFeed_not_mem.1
    plain.isName_name (Text.forall_head?_append plain.endsClause_ending.isIdentifierPart_head
      (hEnd.isIdentifierPart_head plain.fields))).1 hCollapsed
  exact ⟨lineEnd, after, later, hAfter, hEnd, rfl, hLater⟩

/-- With another name in the place of the name a grammar reads the other name. -/
theorem tokens_renamePackage {name : Text} (hName : IsName name) {ws : List Token}
    (h : source.tokens? = some ws) : ∃ us vs, ws = .package :: .ofName plain.name :: us ∧
      (renamePackage name source).tokens? = some (.package :: .ofName name :: vs) ∧
        Parser.statementEnd (.ofTokens vs) = Parser.statementEnd (.ofTokens us) := by
  obtain ⟨lineEnd, after, later, hAfter, hEnd, rfl, hLater⟩ := plain.exists_bareTokens h
  have hLineEnd := hEnd.collapse (Text.trimEnd plain.line)
  rw [plain.collapse_line] at hLineEnd
  obtain ⟨vs, hVs, hSame, hMem⟩ := plain.endsClause_ending.exists_bareTokens plain.lineFeed_not_mem.2
    (.of_append (u := "package".toList ++ (plain.comments ++ ' ' :: plain.name)) (by simpa using hLineEnd)) hLater
  refine ⟨later, vs, rfl, ?_, hSame⟩
  have hClause := (BareTokens.clause_iff plain.isBlockComments_comments plain.lineFeed_not_mem.1 hName
    (hEnd.isIdentifierPart_head plain.fields)).2 ⟨vs, hVs, rfl⟩
  have hMark : ("package".toList ++ (plain.comments ++
      ' ' :: (name ++ (plain.fields.flatMap (' ' :: ·) ++ (lineEnd ++ after))))).head? ≠ some '\uFEFF' := by
    rw [List.head?_append, Token.head?_package]
    simp
  have hAll := (Text.tokens?_eq_some.1 plain.above_tokens).append hClause
    (plain.above_lineFeed.imp (⟨·, rfl⟩) List.getLast?_eq_some_iff.1) hMark
  have hPairs : ∀ t ∈ Token.package :: .ofName name :: vs, ¬['\r', '\n'] <:+: t.lexeme := by
    intro t ht hPair
    have hOld := plain.tokens _ h
    rcases List.mem_cons.1 ht with rfl | ht
    · exact hOld .package List.mem_cons_self hPair
    · rcases List.mem_cons.1 ht with rfl | ht
      · have hReturn : isIdentifierPart '\r' = false := by decide +kernel
        rw [isIdentifierPart_of_mem hName (hPair.subset List.mem_cons_self)] at hReturn
        cases hReturn
      · rcases hMem t ht with rfl | ht
        · exact absurd hPair (by decide)
        · exact hOld t (by simp [ht]) hPair
  have hSource : plain.above ++ ("package".toList ++ (plain.comments ++
      ' ' :: (name ++ (plain.fields.flatMap (' ' :: ·) ++ (lineEnd ++ after))))) =
        plain.above ++ (renamePackageLine name plain.line ++ (lineEnd ++ after)) := by
    rw [plain.renamePackageLine_line]
    simp
  rw [hSource] at hAll
  rw [Text.tokens?_eq_some, plain.renamePackage_eq hName hAfter hEnd]
  exact hAll.relined (.flatMap_lines _) hPairs

end PlainClause

/-- With a plain clause a source file has the name it is given, and its declarations stay. -/
theorem exists_parse_renamePackage {name source : Text} {file : SourceFile}
    (hFile : SourceFile.parse source = .ok file) (plain : PlainClause source) (hName : IsName name) :
    ∃ renamed, SourceFile.parse (renamePackage name source) = .ok renamed ∧
      renamed.package.name = name ∧
        respan Span.erase renamed.declarations = respan Span.erase file.declarations := by
  obtain ⟨ws, c, hWs, hRun⟩ := SourceFile.sourceFile_of_parse hFile
  obtain ⟨us, vs, rfl, hRenamed, hEnd⟩ := plain.tokens_renamePackage hName hWs
  have hBare (other : Text) : IsBare [.package, .ofName other] := by simp [IsBare, Token.package, Token.ofName]
  obtain ⟨renamed, hParse, hSame⟩ := SourceFile.parse_of_sourceFile hRenamed
    (Parser.sourceFile_of_clause rfl rfl rfl (hBare _) (hBare _) hEnd hRun)
  exact ⟨renamed, hParse, congrArg (·.package.name) hSame, congrArg SourceFile.declarations hSame⟩

private def commentedText : Text :=
  "// p\r\npackage/*a*/  p/*b*/; // c  d\n\nimport \"a  b\"\nvar x = 1".toList

private theorem isBlockComments_of_tokens {t : Text}
    (hErrors : (Lexer.ofSource .verbatim t).run.after.errors = [])
    (hTokens : ∀ w ∈ (verbatimTokens t).map Token.bare, ['/', '*'] <+: w.lexeme) : t.IsBlockComments :=
  ⟨_, standingTokens_iff.2 ⟨hErrors, rfl⟩, hTokens⟩

private def plainClause_commentedText : PlainClause commentedText where
  above := "// p\r\n".toList
  clause := "package/*a*/  p/*b*/; // c  d\n\nimport \"a  b\"\nvar x = 1".toList
  line := "package/*a*/  p/*b*/; // c  d".toList
  below := [[], "import \"a  b\"".toList, "var x = 1".toList]
  comments := "/*a*/".toList
  name := "p".toList
  ending := "/*b*/".toList ++ ';' :: []
  fields := ["//".toList, "c".toList, "d".toList]
  source_eq := by decide +kernel
  above_tokens := by decide +kernel
  above_lineFeed := by decide +kernel
  above_lines := by decide +kernel
  clause_lines := by decide +kernel
  looksLike_line := by decide +kernel
  line_words := by decide +kernel
  isBlockComments_comments := isBlockComments_of_tokens (by decide +kernel) (by decide +kernel)
  isName_name := by decide +kernel
  endsClause_ending := .semicolon (isBlockComments_of_tokens (by decide +kernel) (by decide +kernel))
    ⟨[], [], rfl, ⟨[], .stop rfl, by simp⟩, .inl rfl⟩ (by decide +kernel)
  line_tokens := by decide +kernel
  tokens := by decide +kernel

theorem exists_parse_renamePackage_comment : ∃ file renamed,
    SourceFile.parse commentedText = .ok file ∧ file.declarations.length = 2 ∧ IsName "q".toList ∧
      SourceFile.parse (renamePackage "q".toList commentedText) = .ok renamed ∧
        renamed.package.name = "q".toList ∧
          respan Span.erase renamed.declarations = respan Span.erase file.declarations := by
  let hasTwo (file : SourceFile) : Bool := file.declarations.length == 2
  obtain ⟨file, hFile, hLength⟩ :=
    (@SourceFile.exists_parse_iff commentedText hasTwo).2 (by decide +kernel)
  have hName : IsName "q".toList := by decide +kernel
  obtain ⟨renamed, hRenamed⟩ := exists_parse_renamePackage hFile plainClause_commentedText hName
  exact ⟨file, renamed, hFile, beq_iff_eq.1 hLength, hName, hRenamed⟩

private def importPaths : Declaration → List Text
  | .imports group => group.specs.map ImportSpec.path
  | _ => []

private theorem importPaths_respan (f : Span → Span) (decl : Declaration) :
    importPaths (respan f decl) = importPaths decl := by
  cases decl with
  | imports group => exact List.map_map
  | _ => rfl

/-- The paths of the imports are part of what is declared. -/
private theorem flatMap_importPaths_eq {decls others : List Declaration}
    (h : respan Span.erase decls = respan Span.erase others) :
    decls.flatMap importPaths = others.flatMap importPaths := by
  have hErase (found : List Declaration) :
      (respan Span.erase found).flatMap importPaths = found.flatMap importPaths := by
    change (found.map (respan Span.erase)).flatMap importPaths = _
    rw [List.flatMap_map]
    simp only [importPaths_respan]
  rw [← hErase, h, hErase]

/-- Sources that are given another name in vain: with a declaration or the start of a comment behind the
name, with a clause that does not start its line, or a comment above it that looks like one, and with
white space or a line end in the path of an import. -/
theorem exists_parse_renamePackage_ne : IsName "q".toList ∧
    ∀ text ∈ ["package p; var x = 1".toList, "package p/* c */".toList, " package p".toList,
      "/*\npackage a\n*/\npackage p".toList, "package p ; import \"a  b\"".toList,
      "package p\nimport `a\r\nb`".toList],
    ∃ file, SourceFile.parse text = .ok file ∧ ∀ renamed,
      SourceFile.parse (renamePackage "q".toList text) = .ok renamed → renamed.package.name = "q".toList →
        respan Span.erase renamed.declarations ≠ respan Span.erase file.declarations := by
  let agrees (file renamed : SourceFile) : Bool := renamed.package.name == "q".toList &&
    renamed.declarations.flatMap importPaths == file.declarations.flatMap importPaths
  let fails (text : Text) (file : SourceFile) : Bool :=
    !(SourceFile.parse (renamePackage "q".toList text)).toOption.any (agrees file)
  refine ⟨by decide +kernel, fun text hText => ?_⟩
  have hFails : (SourceFile.parse text).toOption.any (fails text) = true := by
    revert text
    decide +kernel
  obtain ⟨file, hFile, hNot⟩ := SourceFile.exists_parse_iff.2 hFails
  refine ⟨file, hFile, fun renamed hRenamed hName hSame => ?_⟩
  have hAgrees : agrees file renamed = true := by
    simp only [agrees, hName, flatMap_importPaths_eq hSame, beq_self_eq_true, Bool.and_self]
  have hAny := SourceFile.exists_parse_iff.1 ⟨renamed, hRenamed, hAgrees⟩
  simp only [fails, hAny, Bool.not_true] at hNot
  cases hNot

end Output

end GoTemplate
