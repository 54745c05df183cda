import GoTemplate.Proofs.Generation
import GoTemplate.Proofs.Lexical.LineReadings
import GoTemplate.Proofs.Syntax.ReducedSource
import GoTemplate.Proofs.Template.RewrittenLines

/-!
Instances that are source files. A template is read as a whole, but its instance is made line by line:
lines that declare placeholders are left out as they are, and each of the others is rewritten by itself.
Where no line takes a piece of anything else with it and none is read otherwise by itself than in its
place, what is left of a source file is one.
-/

namespace GoTemplate

open Text

/-! ## Kinds that are left -/

/-- A token of a kind, for what is a matter of the kinds only. -/
def Token.ofKind (kind : TokenKind) : Token := ⟨kind, [], .none⟩

/-- Whether a statement may start behind kinds, by whether one may start before them. -/
def TokenKind.opensBehind (opens : Bool) (ks : List TokenKind) : Bool :=
  ks.foldl (fun _ k => k.opensStatement) opens

/-- What is left of kinds, by whether a statement may start before them: complete ones may be missing
wherever a statement may start. -/
def KindsLeft (opens : Bool) (ks ks' : List TokenKind) : Prop :=
  ∃ word rest, ks = word ++ rest ∧ Complete (word.map Token.ofKind) ∧ (word ≠ [] → opens = true) ∧
    Reduces (rest.map Token.ofKind) (ks'.map Token.ofKind)

namespace KindsLeft

open TokenKind

variable {opens : Bool} {ks later later' : List TokenKind}

theorem nil : KindsLeft opens [] [] := ⟨[], [], rfl, .nil, fun h => absurd rfl h, .nil⟩

/-- Kinds in front stay. -/
theorem append (h : KindsLeft (opensBehind opens ks) later later') :
    KindsLeft opens (ks ++ later) (ks ++ later') := by
  induction ks generalizing opens with
  | nil => exact h
  | cons k ks ih =>
      obtain ⟨word, rest, hSplit, hWord, hPlace, hRest⟩ := @ih k.opensStatement h
      refine ⟨[], k :: (ks ++ later), rfl, .nil, fun hNil => absurd rfl hNil, ?_⟩
      rw [hSplit, List.map_cons, List.map_append, List.cons_append, List.map_cons]
      exact .cons rfl hWord (fun hNe => hPlace fun hNil => hNe (by rw [hNil]; rfl)) hRest

/-- Complete kinds may be missing where a statement may start. -/
theorem drop (hComplete : Complete (ks.map Token.ofKind)) (hPlace : ks ≠ [] → opens = true)
    (h : KindsLeft opens later later') : KindsLeft opens (ks ++ later) later' := by
  obtain ⟨word, rest, rfl, hWord, hFront, hRest⟩ := h
  refine ⟨ks ++ word, rest, (List.append_assoc _ _ _).symm, ?_, fun hNe => ?_, hRest⟩
  · rw [List.map_append]
    exact hComplete.append hWord
  · by_cases hNil : ks = []
    · exact hFront fun hWordNil => hNe (by rw [hNil, hWordNil]; rfl)
    · exact hPlace hNil

/-- Where no statement may start in front, the first token stays. -/
theorem reduces {ts us : List Token} (h : KindsLeft false (ts.map Token.kind) (us.map Token.kind)) :
    Reduces ts us := by
  obtain ⟨word, rest, hSplit, -, hPlace, hRest⟩ := h
  obtain rfl : word = [] := by
    by_contra hNe
    cases hPlace hNe
  rw [List.nil_append] at hSplit
  rw [← hSplit] at hRest
  have hKinds (vs : List Token) :
      ((vs.map Token.kind).map Token.ofKind).map Token.kind = vs.map Token.kind := by
    rw [List.map_map, List.map_map]
    rfl
  exact hRest.of_kinds (hKinds ts) (hKinds us)

end KindsLeft

/-- What is left of a source file is one. -/
theorem SourceFile.exists_parse_of_kindsLeft {s t : Text} {file : SourceFile} {ks ks' : List TokenKind}
    (hs : HasKinds false s ks) (ht : HasKinds false t ks') (hLeft : KindsLeft false ks ks')
    (hFile : parse s = .ok file) : ∃ found, parse t = .ok found := by
  obtain ⟨ws, hWs, rfl⟩ := hs
  obtain ⟨us, hUs, rfl⟩ := ht
  obtain ⟨ts, c, hTokens, hRun⟩ := sourceFile_of_parse hFile
  have hSource := Text.tokens?_eq_some.2 hWs
  have hTarget := Text.tokens?_eq_some.2 hUs
  obtain rfl := Option.some.inj (hTokens.symm.trans hSource)
  obtain ⟨file', c', hFound⟩ := Parser.sourceFile_of_reduces (isBare_of_tokens? hSource)
    (isBare_of_tokens? hTarget) hLeft.reduces hRun
  obtain ⟨found, hParse, -⟩ := parse_of_sourceFile hTarget hFound
  exact ⟨found, hParse⟩

/-! ## Lines one by one -/

namespace Template

open TokenKind

/-- Lines of a template that may be taken one by one, by what is open at their start and whether a
statement may start there. -/
inductive LinewiseFrom (types : TypeSet) : Option Opening → Bool → List Text → Prop where
  | nil {opens : Bool} : LinewiseFrom types none opens []
  /-- Within a comment or a raw string a line may hold anything. -/
  | within {q : Opening} {opens : Bool} {line : Text} {rest : List Text} (hOpen : q.closeIn? line = none)
      (hRest : LinewiseFrom types (some q) opens rest) : LinewiseFrom types (some q) opens (line :: rest)
  /-- The line where one ends stays, and with the types in it the same is read in it. -/
  | closing {q : Opening} {opens : Bool} {line : Text} {rest : List Text} {ks : List TokenKind}
      {left : Option Opening} (hLine : LineReads (some q) line ks left)
      (hStays : keptLines types (line :: rest) = line :: keptLines types rest)
      (hSame : LineReads (some q) (instantiateLine types line) ks left)
      (hRest : LinewiseFrom types left (opensBehind opens ks) rest) :
      LinewiseFrom types (some q) opens (line :: rest)
  /-- A marked line holds complete statements, or nothing but comments. -/
  | marked {opens : Bool} {line : Text} {rest : List Text} {ks : List TokenKind}
      (hMarked : isMarked line = true) (hLine : LineReads none line ks none)
      (hComplete : Complete (ks.map Token.ofKind)) (hPlace : ks ≠ [] → opens = true)
      (hRest : LinewiseFrom types none opens rest) : LinewiseFrom types none opens (line :: rest)
  /-- In any other line names and numbers stay such. -/
  | unmarked {opens : Bool} {line : Text} {rest : List Text} {ws : List Token} {left : Option Opening}
      (hUnmarked : isMarked line = false) (hTokens : LineTokens line ws left)
      (hWords : ∀ w ∈ ws, w.Stays types.entries)
      (hRest : LinewiseFrom types left
        (opensBehind opens (lineKinds left false (ws.map Token.kind))) rest) :
      LinewiseFrom types none opens (line :: rest)

/-- The lines of a template may be taken one by one. None but the first starts with a byte order mark. -/
structure Linewise (types : TypeSet) (text : Text) : Prop where
  lines : LinewiseFrom types none false text.lines
  marks : ∀ line ∈ text.lines.tail, line.head? ≠ some '\uFEFF'

/-! ## Checking lines -/

/-- Whether lines may be taken one by one. -/
def linewiseFrom? (types : TypeSet) : Option Opening → Bool → List Text → Bool
  | opened, _, [] => opened.isNone
  | some q, opens, line :: rest =>
    if q.closeIn? line = none then linewiseFrom? types (some q) opens rest
    else (lineReads? (some q) line).any fun (ks, left) =>
      keptLines types (line :: rest) = line :: keptLines types rest &&
        lineReads? (some q) (instantiateLine types line) = some (ks, left) &&
          linewiseFrom? types left (opensBehind opens ks) rest
  | none, opens, line :: rest =>
    (lineReads? none line).any fun (ks, left) =>
      if isMarked line then
        left = none && Complete (ks.map Token.ofKind) && (ks = [] || opens) &&
          linewiseFrom? types none opens rest
      else
        (verbatimTokens line).all (fun t => t.bare.Stays types.entries) &&
          linewiseFrom? types left (opensBehind opens ks) rest

theorem LinewiseFrom.linewiseFrom?_eq {types : TypeSet} {opened : Option Opening} {opens : Bool}
    {ls : List Text} (h : LinewiseFrom types opened opens ls) : linewiseFrom? types opened opens ls = true := by
  induction h with
  | nil => rfl
  | within hOpen _ ih =>
      rw [linewiseFrom?, if_pos hOpen]
      exact ih
  | closing hLine hStays hSame _ ih =>
      rw [linewiseFrom?]
      split
      · rename_i hOpen
        obtain ⟨rfl, rfl⟩ := hLine.unique (.within hOpen)
        exact ih
      · simp only [Option.any_eq_true, Bool.and_eq_true, decide_eq_true_iff]
        exact ⟨_, lineReads?_eq_some.2 hLine, ⟨hStays, lineReads?_eq_some.2 hSame⟩, ih⟩
  | marked hMarked hLine hComplete hPlace _ ih =>
      simp only [linewiseFrom?, Option.any_eq_true, Bool.and_eq_true, Bool.or_eq_true, if_pos hMarked,
        decide_eq_true_iff]
      exact ⟨_, lineReads?_eq_some.2 hLine, ⟨⟨rfl, hComplete⟩, or_iff_not_imp_left.2 hPlace⟩, ih⟩
  | unmarked hUnmarked hTokens hWords _ ih =>
      simp only [linewiseFrom?, Option.any_eq_true, hUnmarked, if_neg Bool.false_ne_true, Bool.and_eq_true,
        List.all_eq_true]
      refine ⟨_, lineReads?_eq_some.2 (.fresh hTokens), fun t ht => decide_eq_true (hWords _ ?_), ih⟩
      rw [← hTokens.verbatimTokens_eq]
      exact List.mem_map_of_mem ht

theorem linewiseFrom_of_check {types : TypeSet} {opened : Option Opening} {opens : Bool} {ls : List Text}
    (h : linewiseFrom? types opened opens ls = true) : LinewiseFrom types opened opens ls := by
  induction ls generalizing opened opens with
  | nil =>
      cases opened with
      | none => exact .nil
      | some q => cases h
  | cons line rest ih =>
      cases opened with
      | some q =>
          rw [linewiseFrom?] at h
          split at h
          · exact .within ‹_› (ih h)
          · simp only [Option.any_eq_true, Bool.and_eq_true, decide_eq_true_iff] at h
            obtain ⟨⟨ks, left⟩, hLine, ⟨hStays, hSame⟩, hRest⟩ := h
            exact .closing (lineReads?_eq_some.1 hLine) hStays (lineReads?_eq_some.1 hSame) (ih hRest)
      | none =>
          rw [linewiseFrom?] at h
          simp only [Option.any_eq_true] at h
          obtain ⟨⟨ks, left⟩, hFound, hRest⟩ := h
          have hLine := lineReads?_eq_some.1 hFound
          split at hRest
          · simp only [Bool.and_eq_true, Bool.or_eq_true, decide_eq_true_iff] at hRest
            obtain ⟨⟨⟨rfl, hComplete⟩, hPlace⟩, hRest⟩ := hRest
            exact .marked ‹_› hLine hComplete (fun hNe => hPlace.resolve_left hNe) (ih hRest)
          · rename_i hUnmarked
            rw [Bool.and_eq_true, List.all_eq_true] at hRest
            obtain ⟨hWords, hRest⟩ := hRest
            cases hLine with
            | fresh hTokens =>
                refine .unmarked (Bool.eq_false_iff.2 hUnmarked) hTokens (fun w hw => ?_) (ih hRest)
                rw [← hTokens.verbatimTokens_eq] at hw
                obtain ⟨t, ht, rfl⟩ := List.mem_map.1 hw
                exact of_decide_eq_true (hWords t ht)

instance (types : TypeSet) (text : Text) : Decidable (Linewise types text) :=
  decidable_of_iff (linewiseFrom? types none false text.lines = true ∧
      ∀ line ∈ text.lines.tail, line.head? ≠ some '\uFEFF')
    ⟨fun h => ⟨linewiseFrom_of_check h.1, h.2⟩, fun h => ⟨h.lines.linewiseFrom?_eq, h.marks⟩⟩

/-- A line stays, or it is marked or becomes a comment. -/
theorem keptLines_cons (types : TypeSet) (line : Text) (rest : List Text) :
    keptLines types (line :: rest) = line :: keptLines types rest ∨
      keptLines types (line :: rest) = keptLines types rest ∧
        (isMarked line = true ∨ ['/', '/'] <+: instantiateLine types line) := by
  rw [keptLines]
  split
  · exact .inr ⟨rfl, .inl ‹_›⟩
  · split
    · rename_i hComment
      exact .inr ⟨rfl, .inr (List.isPrefixOf_iff_prefix.1 (Bool.and_eq_true_iff.1 hComment).1)⟩
    · exact .inl rfl

/-- Line by line, what is read in the instance is what is left of the template. -/
theorem LinewiseFrom.exists_linesRead {types : TypeSet} (hTypes : types.OfNames)
    {opened : Option Opening} {opens : Bool} {ls : List Text} (h : LinewiseFrom types opened opens ls)
    (hFeed : ∀ line ∈ ls, '\n' ∉ line) (hMarks : ∀ line ∈ ls.tail, line.head? ≠ some '\uFEFF')
    {ks : List TokenKind} (hRead : LinesRead opened ls ks) :
    ∃ ks', LinesRead opened ((keptLines types ls).map (instantiateLine types)) ks' ∧
      KindsLeft opens ks ks' ∧ (opened = none → (∀ line ∈ ls, line.head? ≠ some '\uFEFF') →
        ∀ next ∈ ((keptLines types ls).map (instantiateLine types)).head?,
          next.head? ≠ some '\uFEFF') := by
  induction h generalizing ks with
  | nil =>
      cases hRead
      exact ⟨[], .nil, .nil, by simp [keptLines]⟩
  | @within q opens line rest hOpen _ ih =>
      obtain ⟨-, hFeedRest⟩ := List.forall_mem_cons.1 hFeed
      cases hRead with
      | cons hLine _ hLater =>
          obtain ⟨rfl, rfl⟩ := hLine.unique (.within hOpen)
          obtain ⟨ks', hRest, hLeft, -⟩ :=
            ih hFeedRest (fun line hMem => hMarks line (List.mem_of_mem_tail hMem)) hLater
          refine ⟨ks', ?_, hLeft, by simp⟩
          rcases keptLines_cons types line rest with hKept | ⟨hDropped, -⟩
          · rw [hKept]
            exact .cons (.within (Opening.closeIn?_instantiateLine hTypes hOpen)) (by simp) hRest
          · rw [hDropped]
            exact hRest
  | @closing q opens line rest first left hLine' hStays hSame _ ih =>
      obtain ⟨-, hFeedRest⟩ := List.forall_mem_cons.1 hFeed
      cases hRead with
      | cons hLine _ hLater =>
          obtain ⟨rfl, rfl⟩ := hLine.unique hLine'
          obtain ⟨ks', hRest, hLeft, hFront⟩ :=
            ih hFeedRest (fun line hMem => hMarks line (List.mem_of_mem_tail hMem)) hLater
          rw [hStays]
          exact ⟨_, .cons hSame (fun hNone => hFront hNone hMarks) hRest, hLeft.append, by simp⟩
  | @marked opens line rest first hMarked hLine' hComplete hPlace _ ih =>
      obtain ⟨-, hFeedRest⟩ := List.forall_mem_cons.1 hFeed
      cases hRead with
      | cons hLine _ hLater =>
          obtain ⟨rfl, rfl⟩ := hLine.unique hLine'
          obtain ⟨ks', hRest, hLeft, hFront⟩ :=
            ih hFeedRest (fun line hMem => hMarks line (List.mem_of_mem_tail hMem)) hLater
          have hDropped : keptLines types (line :: rest) = keptLines types rest := by
            rw [keptLines, if_pos hMarked]
          rw [hDropped]
          exact ⟨ks', hRest, hLeft.drop hComplete hPlace,
            fun hNone hAll => hFront hNone (List.forall_mem_cons.1 hAll).2⟩
  | @unmarked opens line rest ws left hUnmarked hTokens hWords _ ih =>
      obtain ⟨hFeedLine, hFeedRest⟩ := List.forall_mem_cons.1 hFeed
      cases hRead with
      | cons hLine _ hLater =>
          obtain ⟨rfl, rfl⟩ := hLine.unique (.fresh hTokens)
          obtain ⟨ks', hRest, hLeft, hFront⟩ :=
            ih hFeedRest (fun line hMem => hMarks line (List.mem_of_mem_tail hMem)) hLater
          obtain ⟨ws', hWs, hKinds, hHead⟩ := hTokens.exists_instantiateLine hTypes hFeedLine hWords
          rcases keptLines_cons types line rest with hKept | ⟨hDropped, hMarked | hComment⟩
          · rw [hKept]
            refine ⟨_, .cons (.fresh hWs) (fun hNone => hFront hNone hMarks) hRest, ?_, ?_⟩
            · rw [hKinds]
              exact hLeft.append
            · intro _ hAll next hNext
              obtain rfl := Option.mem_some_iff.1 hNext
              exact hHead (List.forall_mem_cons.1 hAll).1
          · rw [hUnmarked] at hMarked
            cases hMarked
          · -- A comment that is left out holds nothing that is read.
            have hFeed' : '\n' ∉ instantiateLine types line :=
              lineEnd_not_mem_instantiateLine rfl hTypes.onOneLine hFeedLine
            obtain ⟨u, hu⟩ := hComment
            rw [← hu] at hWs hFeed'
            obtain ⟨hOnly, rfl⟩ := hWs.of_lineComment fun hMem =>
              hFeed' (List.mem_append_right _ hMem)
            rw [hDropped]
            rw [← hKinds, hOnly] at hLeft ⊢
            exact ⟨ks', hRest, hLeft, fun hNone hAll => hFront hNone (List.forall_mem_cons.1 hAll).2⟩

/-- The instance of a source file whose lines may be taken one by one is a source file. -/
theorem exists_parse_instantiate {types : TypeSet} {text : Text} {file : SourceFile}
    (hTypes : types.OfNames) (hLines : Linewise types text) (hFile : SourceFile.parse text = .ok file) :
    ∃ found, SourceFile.parse (instantiate types text) = .ok found := by
  obtain ⟨ws, c, hTokens, -⟩ := SourceFile.sourceFile_of_parse hFile
  have hText : HasKinds false text (ws.map Token.kind) := ⟨ws, Text.tokens?_eq_some.1 hTokens, rfl⟩
  have hFeed : ∀ line ∈ text.lines, '\n' ∉ line := fun line hLine => not_mem_of_mem_lines hLine
  have hRead : LinesRead none text.lines (ws.map Token.kind) :=
    @KindsFrom.linesRead none text _ hText hLines.marks
  obtain ⟨ks', hKept, hLeft, -⟩ := hLines.lines.exists_linesRead hTypes hFeed hLines.marks hRead
  have hInstance : HasKinds false (instantiate types text) ks' := by
    have hKinds := hKept.kindsFrom fun line hLine => ?_
    · rw [List.flatMap_map, ← instantiate_eq] at hKinds
      exact hKinds
    · obtain ⟨source, hSource, rfl⟩ := List.mem_map.1 hLine
      exact lineEnd_not_mem_instantiateLine rfl hTypes.onOneLine
        (hFeed source ((keptLines_sublist types text.lines).mem hSource))
  exact SourceFile.exists_parse_of_kindsLeft hText hInstance hLeft hFile

/-- What is generated from a template whose lines may be taken one by one is a source file, with a name for
each of its placeholders. -/
theorem exists_parse_generate {filename : Text} {reader : TemplateReader} {text : Text}
    {file : SourceFile} {types : TypeSet} (hText : Text.ofUtf8? reader.bytes = some text)
    (hFile : SourceFile.parse text = .ok file) (hCovers : types.Covers file) (hTypes : types.OfNames)
    (hLines : Linewise types text) :
    ∃ code found, ((generate filename types).run.run reader).1 = .ok code ∧
      SourceFile.parse code = .ok found := by
  obtain ⟨found, hFound⟩ := exists_parse_instantiate hTypes hLines hFile
  refine ⟨_, found, ?_, hFound⟩
  rw [generate_run]
  exact instance?_of_covers hText hFile hCovers

/-- Placeholders in a comment and in a raw string that go on over lines. -/
private def pairTemplate : Text :=
  ("package p\n\n// T is any type.\ntype T generic.Type\n\n/* Both are\nof type T,\nin this order. */\n" ++
    "type TPair struct \x7b\n\tleft, right T\n\x7d\n\nfunc text() string \x7b\n\treturn `T\nT`\n\x7d\n").toList

private def intTypes : TypeSet := .ofList [("T".toList, "int".toList)]

private theorem ofNames_intTypes : intTypes.OfNames := by
  have hSigns : intTypes.entries.all (fun entry => entry.1.all fun c => !isSign c) = true := by decide
  exact ⟨by decide +kernel, by simpa using hSigns⟩

private theorem exists_parse_covers {text : Text} (h : (SourceFile.parse text).toOption.any
    (fun file => (file.missingPlaceholder? intTypes).isNone) = true) :
    ∃ file, SourceFile.parse text = .ok file ∧ intTypes.Covers file := by
  obtain ⟨file, hFile, hNone⟩ := SourceFile.exists_parse_iff.2 h
  exact ⟨file, hFile, (file.missingPlaceholder?_eq_none_iff _).1 (Option.isNone_iff_eq_none.1 hNone)⟩

theorem exists_parse_generate_pair : ∃ text file types code found,
    SourceFile.parse text = .ok file ∧ types.Covers file ∧ types.OfNames ∧ Linewise types text ∧
      ((generate [] types).run.run (.ofBytes text.toUtf8)).1 = .ok code ∧
        SourceFile.parse code = .ok found := by
  obtain ⟨text, hLines, file, hFile, hCovers⟩ : ∃ text, Linewise intTypes text ∧
      ∃ file, SourceFile.parse text = .ok file ∧ intTypes.Covers file :=
    ⟨pairTemplate, by decide +kernel, exists_parse_covers (by decide +kernel)⟩
  obtain ⟨code, found, hCode, hFound⟩ := @exists_parse_generate [] (.ofBytes text.toUtf8) _ _ _
    (Text.ofUtf8?_toUtf8 text) hFile hCovers ofNames_intTypes hLines
  exact ⟨text, file, intTypes, code, found, hFile, hCovers, ofNames_intTypes, hLines, hCode, hFound⟩

/-- A declaration of which only one line is marked: what is left of it is no source. -/
private def bracketTemplate : Text := "package p\ntype (T generic.Type\n)\n".toList

theorem exists_generate_not_parse : ∃ text file types code,
    SourceFile.parse text = .ok file ∧ types.Covers file ∧ types.OfNames ∧
      ((generate [] types).run.run (.ofBytes text.toUtf8)).1 = .ok code ∧
        ∀ found, SourceFile.parse code ≠ .ok found := by
  obtain ⟨file, hFile, hCovers⟩ := @exists_parse_covers bracketTemplate (by decide +kernel)
  refine ⟨bracketTemplate, file, intTypes, instantiate intTypes bracketTemplate, hFile, hCovers,
    ofNames_intTypes, ?_, fun found hFound => ?_⟩
  · rw [generate_run]
    exact instance?_of_covers (Text.ofUtf8?_toUtf8 _) hFile hCovers
  · have hNone : (SourceFile.parse (instantiate intTypes bracketTemplate)).toOption.any
        (fun _ => true) = false := by
      decide +kernel
    rw [SourceFile.exists_parse_iff.1 ⟨found, hFound, rfl⟩] at hNone
    cases hNone

end Template

end GoTemplate
