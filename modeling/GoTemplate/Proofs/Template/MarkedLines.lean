import GoTemplate.Proofs.Generation
import GoTemplate.Proofs.Syntax.SpecWords
import GoTemplate.Proofs.Template.LineFeeds
import GoTemplate.Proofs.Template.Markers

/-!
Marked lines and declarations of placeholders. A template loses the lines that hold the text of a
marker, while its placeholders are read from its declarations. The two agree on a line where markers
are used for declarations only, and each declaration there is written with a marker on that line.
-/

namespace GoTemplate

/-- A line on which tokens stand from which a type declaration was read, or between them. -/
def TypeSpec.StandsOn (spec : TypeSpec) (source : Text) (n : Nat) : Prop :=
  ∃ word, spec.IsReadFrom (sourceTokens source) word ∧
    ∃ first ∈ word, ∃ last ∈ word, first.span.line ≤ n ∧ n ≤ last.span.line

/-- The type of a declaration is the member `name` of `package`. -/
def TypeSpec.IsMember (spec : TypeSpec) (package name : Identifier) : Prop :=
  ∃ args span, spec.type = .named (some package) name args span

/-- A token starts on the line of another one and right after it. -/
def Token.Meets (t u : Token) : Prop :=
  u.span.line = t.span.line ∧ u.span.col = t.span.col + t.lexeme.byteSize

namespace Template

/-- Three tokens that make a marker: a word that ends with the name of the package, a point and a
marked member of the package, each right after the one before. -/
def IsUse (package dot name : Token) : Prop :=
  (∃ p, package.lexeme = p ++ markerPackage) ∧ dot.lexeme = ['.'] ∧
    (∃ member ∈ markerMembers, ∃ q, name.lexeme = member ++ q) ∧ package.Meets dot ∧ dot.Meets name

/-- A declaration of a placeholder stands on line `n`. -/
def DeclaresPlaceholderOn (source : Text) (file : SourceFile) (n : Nat) : Prop :=
  ∃ spec ∈ file.typeSpecs, spec.isPlaceholder ∧ spec.StandsOn source n

/-- On line `n` of a template markers are used for the declarations of placeholders, and for nothing
else. -/
structure MarksPlaceholders (source : Text) (file : SourceFile) (n : Nat) : Prop where
  /-- No token or comment holds the text of a marker on this line. -/
  tokens : ∀ t ∈ verbatimTokens source, ∀ marker ∈ markers, ∀ u v,
    t.lexeme = u ++ (marker ++ v) → t.span.line + u.count '\n' ≠ n
  /-- Where tokens of this line make a marker, they are the type of a placeholder. -/
  uses : ∀ as package dot name bs, verbatimTokens source = as ++ package :: dot :: name :: bs →
    IsUse package dot name → package.span.line = n →
    ∃ spec ∈ file.typeSpecs, spec.isPlaceholder ∧
      ∃ package' name', spec.IsMember package' name' ∧ package'.span = package.span
  /-- The type of a placeholder that is declared on this line is written on it as a marker, without
  blanks. -/
  placeholders : ∀ spec ∈ file.typeSpecs, spec.isPlaceholder → spec.StandsOn source n →
    ∃ package name, spec.IsMember package name ∧ package.span.line = n ∧ name.span.line = n ∧
      name.span.col = package.span.col + markerPackage.byteSize + 1 ∧
      ∃ member ∈ markerMembers, ∃ q, name.name = member ++ q

/-! ## The type of a placeholder in the tokens -/

end Template

namespace SourceFile

variable {source : Text} {file : SourceFile} {spec : TypeSpec} {package name : Identifier}

/-- The type of a declaration, where it is a member of a package, stands in the tokens of the source
from which the declaration was read. -/
theorem exists_tokens_of_isMember (hFile : parse source = .ok file) (hSpec : spec ∈ file.typeSpecs)
    (hMember : spec.IsMember package name) : ∃ as p d m bs word,
    sourceTokens source = as ++ p :: d :: m :: bs ∧ p ∈ word ∧
      spec.IsReadFrom (sourceTokens source) word ∧ d.kind = .dot ∧
      package = ⟨p.lexeme, p.span⟩ ∧ name = ⟨m.lexeme, m.span⟩ := by
  obtain ⟨args, span, hType⟩ := hMember
  obtain ⟨word, hRead⟩ := exists_isReadFrom_of_parse hFile hSpec
  obtain ⟨before, c, c', hTokens, hc, hRun, hWord⟩ := hRead
  obtain ⟨u, v, hRest, hType'⟩ := Parser.memberWord_of_typeSpec hc hRun
  obtain ⟨p, d, m, more, rfl, hDot, hPackage, hName⟩ := hType' package name args span hType
  have hIn : word ++ c'.rest = (u ++ p :: d :: m :: more) ++ c'.rest := by
    rw [← hWord, hRest, List.append_assoc]
  refine ⟨before ++ u, p, d, m, more ++ c'.rest, word, ?_, ?_, ⟨before, c, c', hTokens, hc, hRun, hWord⟩,
    hDot, hPackage, hName⟩
  · rw [hTokens, hRest]
    simp
  · rw [List.append_cancel_right hIn]
    exact List.mem_append_right u List.mem_cons_self

/-- A declaration stands on the line of its type, where this is a member of a package. -/
theorem standsOn_of_isMember (hFile : parse source = .ok file) (hSpec : spec ∈ file.typeSpecs)
    (hMember : spec.IsMember package name) : spec.StandsOn source package.span.line := by
  obtain ⟨as, p, d, m, bs, word, -, hp, hRead, -, rfl, -⟩ :=
    exists_tokens_of_isMember hFile hSpec hMember
  exact ⟨word, hRead, p, hp, p, hp, Nat.le_refl _, Nat.le_refl _⟩

end SourceFile

namespace Template

variable {source : Text} {file : SourceFile} {spec : TypeSpec} {package name : Identifier}
  {line marker member : Text} {k n : Nat}

theorem source_of_lexeme {t : Token} {text : Text} (hText : t.lexeme = text) (hNe : text ≠ ['\n']) :
    t.source = text := by
  have hNot : t.isAutomatic = false := by
    rw [Token.isAutomatic, Bool.and_eq_false_iff, hText]
    exact .inr (beq_eq_false_iff_ne.2 hNe)
  rw [Token.source_of_not_automatic hNot, hText]

/-- Where the type of a placeholder is written on one line and without blanks, its text stands there
as it is. -/
theorem exists_text_of_isMember (hFile : SourceFile.parse source = .ok file)
    (hSpec : spec ∈ file.typeSpecs) (hMember : spec.IsMember package name)
    (hPackage : package.name = markerPackage) (hName : name.name ≠ ['\n'])
    (hLine : name.span.line = package.span.line)
    (hCol : name.span.col = package.span.col + markerPackage.byteSize + 1) :
    ∃ u v, source = u ++ (markerPackage ++ '.' :: name.name ++ v) ∧
      package.span.line = 1 + u.count '\n' := by
  obtain ⟨as, p, d, m, bs, -, hTokens, -, -, hDot, rfl, rfl⟩ :=
    SourceFile.exists_tokens_of_isMember hFile hSpec hMember
  have hTiles := ((Lexer.ofSource .statements source).tiles_run [] Position.start_eq_atEnd).1
  change Tiles _ [] (sourceTokens source) source at hTiles
  rw [hTokens] at hTiles
  obtain ⟨x, y, hSource, hTiles⟩ := hTiles.of_append
  have hDotText : d.lexeme = ['.'] := by
    have hMem : d ∈ (Lexer.ofSource .statements source).run.tokens := by
      change d ∈ sourceTokens source
      rw [hTokens]
      simp
    have hSpelling : d.kind.spelling? = some "." := by rw [hDot]; rfl
    exact Lexer.lexeme_of_spelling hMem hSpelling (by rw [hDot]; simp)
  have hpSource := source_of_lexeme hPackage (by decide)
  have hdSource := source_of_lexeme hDotText (by decide)
  have hmSource := source_of_lexeme (t := m) rfl hName
  cases hTiles with
  | @cons _ gap₀ _ _ _ _ hp hTiles =>
    cases hTiles with
    | @cons _ gap₁ _ _ _ _ _ hTiles =>
      cases hTiles with
      | @cons _ gap₂ rest _ _ _ hm _ =>
        have hStart : p.span = .startingAt (.atEnd (x ++ gap₀)) p.source.byteSize := hp
        have hEnd : m.span = .startingAt
            (.atEnd ((x ++ gap₀) ++ (markerPackage ++ gap₁ ++ ['.'] ++ gap₂))) m.source.byteSize := by
          rw [hm, hpSource, hdSource]
          simp only [List.nil_append, List.append_assoc]
        rw [hStart, hEnd] at hLine hCol
        have hFeed : '\n' ∉ markerPackage ++ gap₁ ++ ['.'] ++ gap₂ := by
          rw [← List.count_eq_zero]
          simp only [Span.startingAt, Position.atEnd_line_append] at hLine
          omega
        simp only [Span.startingAt, Position.atEnd_col_append hFeed, Text.byteSize_append] at hCol
        have hPoint : Text.byteSize ['.'] = 1 := rfl
        have hGap₁ : gap₁ = [] := Text.byteSize_eq_zero (by omega)
        have hGap₂ : gap₂ = [] := Text.byteSize_eq_zero (by omega)
        refine ⟨x ++ gap₀, rest, ?_, by rw [hStart]; rfl⟩
        rw [hSource, hpSource, hdSource, hmSource, hGap₁, hGap₂]
        simp only [List.nil_append, List.append_assoc, List.cons_append]

/-! ## Markers in the text and in the tokens -/

/-- A marked line holds a marker that is within a token, or made of tokens. -/
theorem exists_marker_of_isMarked (hLine : source.lines[k]? = some line) (hMarked : isMarked line) :
    (∃ t ∈ verbatimTokens source, ∃ marker ∈ markers, ∃ u v, t.lexeme = u ++ (marker ++ v) ∧
        t.span.line + u.count '\n' = k + 1) ∨
      ∃ as package dot name bs, verbatimTokens source = as ++ package :: dot :: name :: bs ∧
        IsUse package dot name ∧ package.span.line = k + 1 := by
  obtain ⟨marker, hMarker, hOccurs⟩ := isMarked_iff.1 hMarked
  obtain ⟨member, hMember, rfl⟩ := exists_of_mem_markers hMarker
  have hPlain : ∀ marker ∈ markers, marker ≠ [] ∧ '\n' ∉ marker ∧ marker.getLast? ≠ some '\r' := by
    decide
  obtain ⟨hNe, hFeed, hReturn⟩ := hPlain _ hMarker
  obtain ⟨u, v, hSource, hCount⟩ := (Text.occurs_line_iff hLine hNe hFeed hReturn).1 hOccurs
  have hHere := Lexer.marker_mem_run hMember (.ofSource .verbatim source) [] u v
    (Lexer.isVerbatim_ofSource source) Position.start_eq_atEnd hSource
  rw [List.nil_append] at hHere
  rcases hHere with ⟨t, ht, x, p, q, rfl, hPlace, hLexeme⟩ |
    ⟨as, package, dot, name, bs, hTokens, x, p, q, rfl, hPackage, hNoFeed, hDot, hName, hPlace,
      hDotPlace, hNamePlace⟩
  · refine .inl ⟨t, ht, _, hMarker, p, q, hLexeme, ?_⟩
    rw [hPlace]
    change 1 + x.count '\n' + p.count '\n' = k + 1
    rw [List.count_append] at hCount
    omega
  · have hDotAt : dot.span = .startingAt (.atEnd (x ++ package.lexeme)) dot.source.byteSize := by
      rw [hDotPlace, hPackage, List.append_assoc]
    have hNameAt : name.span =
        .startingAt (.atEnd (x ++ package.lexeme ++ dot.lexeme)) name.source.byteSize := by
      rw [hNamePlace, hPackage, hDot]
      simp only [List.append_assoc]
    have hDotFeed : '\n' ∉ dot.lexeme := by
      rw [hDot]
      decide
    refine .inr ⟨as, package, dot, name, bs, hTokens, ⟨⟨p, hPackage⟩, hDot,
      ⟨member, hMember, q, hName⟩, ⟨?_, ?_⟩, ⟨?_, ?_⟩⟩, ?_⟩
    · rw [hDotAt, hPlace]
      simp [Span.startingAt, List.count_eq_zero.2 hNoFeed]
    · rw [hDotAt, hPlace]
      exact Position.atEnd_col_append hNoFeed x
    · rw [hNameAt, hDotAt]
      simp [Span.startingAt, List.count_eq_zero.2 hDotFeed]
    · rw [hNameAt, hDotAt]
      exact Position.atEnd_col_append hDotFeed _
    · rw [hPlace]
      have hp : '\n' ∉ p := fun h => hNoFeed (by rw [hPackage]; exact List.mem_append_left _ h)
      rw [List.count_append, List.count_eq_zero.2 hp] at hCount
      change 1 + x.count '\n' = k + 1
      omega

theorem declaresPlaceholderOn_of_isMarked (hFile : SourceFile.parse source = .ok file)
    (hLine : source.lines[k]? = some line) (hMarks : MarksPlaceholders source file (k + 1))
    (hMarked : isMarked line) : DeclaresPlaceholderOn source file (k + 1) := by
  rcases exists_marker_of_isMarked hLine hMarked with
    ⟨t, ht, marker, hMarker, u, v, hLexeme, hPlace⟩ |
    ⟨as, package, dot, name, bs, hTokens, hUse, hPlace⟩
  · exact absurd hPlace (hMarks.tokens t ht marker hMarker u v hLexeme)
  · obtain ⟨spec, hSpec, hPlaceholder, package', name', hMember, hSpan⟩ :=
      hMarks.uses as package dot name bs hTokens hUse hPlace
    have hStands := SourceFile.standsOn_of_isMember hFile hSpec hMember
    rw [hSpan, hPlace] at hStands
    exact ⟨spec, hSpec, hPlaceholder, hStands⟩

theorem isMarked_of_declaresPlaceholderOn (hFile : SourceFile.parse source = .ok file)
    (hLine : source.lines[k]? = some line) (hMarks : MarksPlaceholders source file (k + 1))
    (hDeclares : DeclaresPlaceholderOn source file (k + 1)) : isMarked line := by
  obtain ⟨spec, hSpec, hPlaceholder, hStands⟩ := hDeclares
  obtain ⟨package, name, hMember, hPackageLine, hNameLine, hCol, member, hMarked, q, hName⟩ :=
    hMarks.placeholders spec hSpec hPlaceholder hStands
  have hPackage : package.name = markerPackage := by
    obtain ⟨args, span, hType⟩ := hMember
    rw [TypeSpec.isPlaceholder, hType] at hPlaceholder
    exact beq_iff_eq.1 hPlaceholder
  have hNe : name.name ≠ ['\n'] := by
    have hAll : ∀ member ∈ markerMembers, member.head? ≠ some '\n' ∧ member ≠ [] := by decide
    obtain ⟨hHead, hNe⟩ := hAll member hMarked
    intro hFeed
    obtain ⟨c, tail, rfl⟩ := List.exists_cons_of_ne_nil hNe
    rw [hName] at hFeed
    exact hHead (congrArg some (List.cons_eq_cons.1 hFeed).1)
  obtain ⟨u, v, hSource, hPlace⟩ := exists_text_of_isMember hFile hSpec hMember hPackage hNe
    (hNameLine.trans hPackageLine.symm) hCol
  have hAll : ∀ member ∈ markerMembers, markerPackage ++ '.' :: member ∈ markers ∧
      markerPackage ++ '.' :: member ≠ [] ∧ '\n' ∉ markerPackage ++ '.' :: member ∧
        (markerPackage ++ '.' :: member).getLast? ≠ some '\r' := by decide
  obtain ⟨hMarker, hNil, hFeed, hReturn⟩ := hAll member hMarked
  refine isMarked_iff.2 ⟨_, hMarker, (Text.occurs_line_iff hLine hNil hFeed hReturn).2
    ⟨u, q ++ v, ?_, by omega⟩⟩
  rw [hSource, hName]
  simp only [List.append_assoc, List.cons_append]

/-- An instance consists of the lines that stay, with the types in them. On a line where markers are
used for declarations of placeholders and for nothing else, the line is lost for its marker if and
only if a placeholder is declared on it. So no declaration of a placeholder stays, and no other line
is lost but comments. -/
theorem isMarked_iff_declaresPlaceholderOn {filename : Text} {reader : TemplateReader}
    {types : TypeSet} (hText : Text.ofUtf8? reader.bytes = some source)
    (hFile : SourceFile.parse source = .ok file) (hCovers : types.Covers file)
    (hLine : source.lines[k]? = some line) (hMarks : MarksPlaceholders source file (k + 1)) :
    ((generate filename types).run.run reader).1 =
        .ok ((keptLines types source.lines).flatMap fun line => (instantiateLine types line).asLine) ∧
      (isMarked line = true ↔ DeclaresPlaceholderOn source file (k + 1)) ∧
      (line ∈ keptLines types source.lines → ¬DeclaresPlaceholderOn source file (k + 1)) ∧
      (¬DeclaresPlaceholderOn source file (k + 1) →
        line ∈ keptLines types source.lines ∨ "//".toList.isPrefixOf (instantiateLine types line)) := by
  have hIff : isMarked line = true ↔ DeclaresPlaceholderOn source file (k + 1) :=
    ⟨declaresPlaceholderOn_of_isMarked hFile hLine hMarks,
      isMarked_of_declaresPlaceholderOn hFile hLine hMarks⟩
  refine ⟨?_, hIff, fun hKept hDeclares => ?_, fun hNone => ?_⟩
  · rw [generate_run, instance?_of_covers hText hFile hCovers, instantiate_eq]
  · exact absurd (hIff.2 hDeclares) (by rw [isMarked_of_mem_keptLines hKept]; exact Bool.false_ne_true)
  · have hMarked : isMarked line = false := Bool.eq_false_iff.2 fun h => hNone (hIff.1 h)
    cases hComment : "//".toList.isPrefixOf (instantiateLine types line) with
    | false => exact .inl (mem_keptLines (List.mem_of_getElem? hLine) hMarked hComment)
    | true => exact .inr rfl

/-- A template with one placeholder, whose type is a member of the generic package. -/
private def memberTemplate (member : Text) : Text :=
  "package p\ntype T generic.".toList ++ member ++ ['\n']

private def memberTypes : TypeSet := .ofList [("T".toList, "int".toList)]

/-- A file declares one type, the member of the generic package that is written in the second
line. -/
private def declaresMember (member : Text) (file : SourceFile) : Bool :=
  file.typeSpecs.length == 1 && (file.missingPlaceholder? memberTypes).isNone &&
    file.typeSpecs.all fun spec => spec.isPlaceholder &&
      match spec.type with
      | .named (some package) name _ _ => package == ⟨markerPackage, ⟨2, 8, 7⟩⟩ &&
          name == ⟨member, ⟨2, 16, member.byteSize⟩⟩
      | _ => false

private theorem exists_member {member : Text} (h : declaresMember member file = true) :
    memberTypes.Covers file ∧ ∃ spec, file.typeSpecs = [spec] ∧ spec.isPlaceholder ∧
      spec.IsMember ⟨markerPackage, ⟨2, 8, 7⟩⟩ ⟨member, ⟨2, 16, member.byteSize⟩⟩ := by
  simp only [declaresMember, Bool.and_eq_true, beq_iff_eq] at h
  obtain ⟨⟨hLength, hNone⟩, hAll⟩ := h
  obtain ⟨spec, hSpecs⟩ := List.length_eq_one_iff.1 hLength
  refine ⟨(file.missingPlaceholder?_eq_none_iff memberTypes).1 (Option.isNone_iff_eq_none.1 hNone),
    spec, hSpecs, ?_⟩
  rw [hSpecs, List.all_cons, List.all_nil, Bool.and_true, Bool.and_eq_true] at hAll
  obtain ⟨hPlaceholder, hType⟩ := hAll
  refine ⟨hPlaceholder, ?_⟩
  split at hType
  · rename_i package name args span hForm
    simp only [Bool.and_eq_true, beq_iff_eq] at hType
    obtain ⟨rfl, rfl⟩ := hType
    exact ⟨args, span, hForm⟩
  · cases hType

theorem isMarked_iff_declaresPlaceholderOn_type : ∃ (source : Text) (file : SourceFile)
    (types : TypeSet) (line : Text),
    SourceFile.parse source = .ok file ∧ types.Covers file ∧ source.lines[1]? = some line ∧
    MarksPlaceholders source file 2 ∧
    (isMarked line = true ↔ DeclaresPlaceholderOn source file 2) := by
  obtain ⟨file, hFile, hMember⟩ := (@SourceFile.exists_parse_iff (memberTemplate "Type".toList)
    (declaresMember "Type".toList)).2 (by decide +kernel)
  obtain ⟨hCovers, spec, hSpecs, hPlaceholder, hType⟩ := exists_member hMember
  have hTokens : ∀ t ∈ verbatimTokens (memberTemplate "Type".toList), ∀ marker ∈ markers,
      marker.occursIn t.lexeme = false := by decide +kernel
  have hPackages : ∀ t ∈ verbatimTokens (memberTemplate "Type".toList),
      markerPackage.isSuffixOf t.lexeme → t.span = ⟨2, 8, 7⟩ := by decide +kernel
  have hMarks : MarksPlaceholders (memberTemplate "Type".toList) file 2 := by
    refine ⟨?_, ?_, ?_⟩
    · intro t ht marker hMarker u v hLexeme
      have hOccurs := Text.occursIn_iff.2 ⟨u, v, hLexeme⟩
      rw [hTokens t ht marker hMarker] at hOccurs
      cases hOccurs
    · rintro as package dot name bs hSplit ⟨⟨p, hPackage⟩, -⟩ -
      refine ⟨spec, by rw [hSpecs]; exact List.mem_cons_self, hPlaceholder, _, _, hType, ?_⟩
      refine (hPackages package ?_ (List.isSuffixOf_iff_suffix.2 ⟨p, hPackage.symm⟩)).symm
      rw [hSplit]
      exact List.mem_append_right as List.mem_cons_self
    · intro other hOther _ _
      rw [hSpecs] at hOther
      obtain rfl := List.mem_singleton.1 hOther
      exact ⟨_, _, hType, rfl, rfl, rfl, _, List.mem_cons_self, [], rfl⟩
  have hLine : (memberTemplate "Type".toList).lines[1]? = some "type T generic.Type".toList := by
    decide +kernel
  have hAgree := @isMarked_iff_declaresPlaceholderOn _ _ _ _ []
    (.ofBytes (memberTemplate "Type".toList).toUtf8) _ (Text.ofUtf8?_toUtf8 _) hFile hCovers hLine
    hMarks
  exact ⟨_, file, memberTypes, _, hFile, hCovers, hLine, hMarks, hAgree.2.1⟩

/-- The declaration of a placeholder by another member of the package stays in the instance. -/
theorem exists_declaresPlaceholderOn_not_isMarked : ∃ (source : Text) (file : SourceFile)
    (types : TypeSet) (line : Text),
    SourceFile.parse source = .ok file ∧ types.Covers file ∧ source.lines[1]? = some line ∧
    ¬(isMarked line = true ↔ DeclaresPlaceholderOn source file 2) := by
  obtain ⟨file, hFile, hMember⟩ := (@SourceFile.exists_parse_iff (memberTemplate "Other".toList)
    (declaresMember "Other".toList)).2 (by decide +kernel)
  obtain ⟨hCovers, spec, hSpecs, hPlaceholder, hType⟩ := exists_member hMember
  have hSpec : spec ∈ file.typeSpecs := by rw [hSpecs]; exact List.mem_cons_self
  have hDeclares : DeclaresPlaceholderOn (memberTemplate "Other".toList) file 2 :=
    ⟨spec, hSpec, hPlaceholder, SourceFile.standsOn_of_isMember hFile hSpec hType⟩
  have hLine : (memberTemplate "Other".toList).lines[1]? = some "type T generic.Other".toList := by
    decide +kernel
  have hMarked : isMarked "type T generic.Other".toList = false := by decide +kernel
  refine ⟨_, file, memberTypes, _, hFile, hCovers, hLine, fun hIff => ?_⟩
  have hTrue := hIff.2 hDeclares
  rw [hMarked] at hTrue
  cases hTrue

end Template

end GoTemplate
