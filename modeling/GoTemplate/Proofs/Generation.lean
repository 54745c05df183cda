import GoTemplate.Generation
import GoTemplate.Proofs.Output.Merge

/-!
The outcome of generation, said type set by type set and without the reader. Each instance comes
from the text of the template and its own type set alone, so that the place of the reader and the
order of the readings leave no trace.
-/

namespace GoTemplate

/-- A type set has a type for every placeholder of a template. -/
def TypeSet.Covers (types : TypeSet) (file : SourceFile) : Prop :=
  ∀ spec ∈ file.typeSpecs, spec.isPlaceholder → types.contains spec.name.name

/-- The first declaration of a placeholder for which a type set has no type declares this one. -/
def TypeSet.FirstMissing (types : TypeSet) (file : SourceFile) (placeholder : Text) : Prop :=
  ∃ before spec after, file.typeSpecs = before ++ spec :: after ∧
    (∀ other ∈ before, other.isPlaceholder → types.contains other.name.name) ∧
    spec.isPlaceholder ∧ spec.name.name = placeholder ∧ types.contains placeholder = false

/-- Code under the package name that is asked for. The empty name asks for none. -/
def GenerationOptions.inPackage (options : GenerationOptions) (code : Text) : Text :=
  match options.package with
  | none => code
  | some name => if name = [] then code else Output.renamePackage name code

/-- What generation makes of the bytes of a template for type sets: without type sets nothing but
the banner, and otherwise the first of these that applies. The bytes are no text, the text is no
source file, some type set lacks a type (the first such set counts), or all instances are merged
in the order of their sets. -/
inductive Generates (options : GenerationOptions) (bytes : ByteArray) :
    List TypeSet → Except GenerationError Text → Prop where
  | nothing : Generates options bytes [] (.ok Output.banner)
  | notUtf8 {sets : List TypeSet} (hSets : sets ≠ []) (hText : Text.ofUtf8? bytes = none) :
      Generates options bytes sets (.error .notUtf8)
  | rejected {sets : List TypeSet} {text : Text} {rejection : Rejection} (hSets : sets ≠ [])
      (hText : Text.ofUtf8? bytes = some text) (hFile : SourceFile.parse text = .error rejection) :
      Generates options bytes sets (.error (.source options.filename rejection))
  | missing {before : List TypeSet} {types : TypeSet} {after : List TypeSet} {text : Text}
      {file : SourceFile} {placeholder : Text} (hText : Text.ofUtf8? bytes = some text)
      (hFile : SourceFile.parse text = .ok file) (hBefore : ∀ earlier ∈ before, earlier.Covers file)
      (hMissing : types.FirstMissing file placeholder) :
      Generates options bytes (before ++ types :: after) (.error (.missingType placeholder))
  | merged {sets : List TypeSet} {text : Text} {file : SourceFile} (hSets : sets ≠ [])
      (hText : Text.ofUtf8? bytes = some text) (hFile : SourceFile.parse text = .ok file)
      (hCovers : ∀ types ∈ sets, types.Covers file) :
      Generates options bytes sets
        (.ok (options.inPackage (Output.merge (sets.map (Template.instantiate · text)))))

/-! ## Coverage -/

/-- Leaving out repetitions does not change the first element that satisfies a test. -/
private theorem find?_eraseDups {α : Type} [BEq α] [LawfulBEq α] (p : α → Bool) (xs : List α) :
    xs.eraseDups.find? p = xs.find? p := by
  match xs with
  | [] => rfl
  | x :: xs =>
    rw [List.eraseDups_cons, List.find?_cons, List.find?_cons, find?_eraseDups p]
    cases hx : p x with
    | true => rfl
    | false =>
        rw [List.find?_filter]
        refine congrArg (xs.find? ·) (funext fun y => ?_)
        by_cases hy : y = x
        · simp [hy, hx]
        · simp [hy]
  termination_by xs.length
  decreasing_by exact Nat.lt_succ_of_le (List.length_filter_le _ _)

theorem SourceFile.missingPlaceholder?_eq (file : SourceFile) (types : TypeSet) :
    file.missingPlaceholder? types =
      (file.typeSpecs.find? fun spec => spec.isPlaceholder && !types.contains spec.name.name).map
        (·.name.name) := by
  rw [missingPlaceholder?, placeholders, find?_eraseDups, List.find?_map, List.find?_filter]
  simp

theorem SourceFile.missingPlaceholder?_eq_none_iff (file : SourceFile) (types : TypeSet) :
    file.missingPlaceholder? types = none ↔ types.Covers file := by
  simp [missingPlaceholder?_eq, TypeSet.Covers]

theorem SourceFile.missingPlaceholder?_eq_some_iff (file : SourceFile) (types : TypeSet)
    (placeholder : Text) :
    file.missingPlaceholder? types = some placeholder ↔ types.FirstMissing file placeholder := by
  rw [missingPlaceholder?_eq, Option.map_eq_some_iff]
  constructor
  · rintro ⟨spec, hFind, rfl⟩
    obtain ⟨hSpec, before, after, hSplit, hBefore⟩ := List.find?_eq_some_iff_append.1 hFind
    simp only [Bool.and_eq_true, Bool.not_eq_eq_eq_not, Bool.not_true] at hSpec
    refine ⟨before, spec, after, hSplit, ?_, hSpec.1, rfl, hSpec.2⟩
    intro other hOther hPlaceholder
    simpa [hPlaceholder] using hBefore other hOther
  · rintro ⟨before, spec, after, hSplit, hBefore, hPlaceholder, rfl, hMissing⟩
    refine ⟨spec, List.find?_eq_some_iff_append.2 ⟨by simp [hPlaceholder, hMissing], before, after,
      hSplit, ?_⟩, rfl⟩
    intro other hOther
    cases hOtherPlaceholder : other.isPlaceholder with
    | false => simp
    | true => simp [hBefore other hOther hOtherPlaceholder]

/-! ## One instance -/

/-- The instance of a template for one type set, as a function of the bytes of the template. -/
def Template.instance? (filename : Text) (bytes : ByteArray) (types : TypeSet) :
    Except GenerationError Text := do
  let (text, file) ← parse filename bytes
  checkCoverage file types
  return instantiate types text

/-- Wherever the reader is, generation reads the whole template and leaves the reader at its end. -/
theorem Template.generate_run (filename : Text) (types : TypeSet) (reader : TemplateReader) :
    (generate filename types).run.run reader =
      (instance? filename reader.bytes types, reader.atEnd) := by
  have hSplit : (generate filename types).run =
      (do TemplateReader.rewind; TemplateReader.readToEnd : StateM TemplateReader ByteArray) >>=
        fun template => pure (instance? filename template types) := by
    rw [bind_assoc]
    have hStep : ∀ template, (ExceptT.run (do
        let (text, file) ← (parse filename template : Except GenerationError _)
        checkCoverage file types
        return instantiate types text : GenerationM Text)) =
          pure (instance? filename template types) := by
      intro template
      unfold instance?
      cases parse filename template with
      | error e => rfl
      | ok parsed =>
          obtain ⟨text, file⟩ := parsed
          change ExceptT.run (do
            liftM (checkCoverage file types)
            return instantiate types text : GenerationM Text) =
              pure (checkCoverage file types >>= fun _ => pure (instantiate types text))
          cases checkCoverage file types with
          | error e => rfl
          | ok _ => rfl
    simp only [generate, ExceptT.run_bind, ← hStep]
    rfl
  rw [hSplit, StateT.run_bind, TemplateReader.rewind_readToEnd]
  rfl

/-- Instances for several type sets are independent of each other: the reader is wherever the
generation before left it, and only the first failure ends the run. -/
theorem Template.mapM_generate_run (filename : Text) (sets : List TypeSet)
    (reader : TemplateReader) :
    (sets.mapM (generate filename)).run.run reader =
      (sets.mapM (instance? filename reader.bytes), if sets = [] then reader else reader.atEnd) := by
  induction sets generalizing reader with
  | nil => rfl
  | cons types sets ih =>
      have hRest := ih reader.atEnd
      have hEnd : (if sets = [] then reader.atEnd else reader.atEnd.atEnd) = reader.atEnd :=
        ite_self reader.atEnd
      rw [hEnd] at hRest
      rw [List.mapM_cons, List.mapM_cons, ExceptT.run_bind, StateT.run_bind, generate_run,
        if_neg (List.cons_ne_nil types sets)]
      cases instance? filename reader.bytes types with
      | error e => rfl
      | ok text =>
          change ((do
            let texts ← sets.mapM (generate filename)
            return text :: texts : GenerationM (List Text)).run.run reader.atEnd) = _
          rw [ExceptT.run_bind, StateT.run_bind, hRest]
          change _ = (sets.mapM (instance? filename reader.atEnd.bytes) >>= fun texts =>
            pure (text :: texts), reader.atEnd)
          cases sets.mapM (instance? filename reader.atEnd.bytes) with
          | error e => rfl
          | ok texts => rfl

theorem specialize_run (options : GenerationOptions) (sets : List TypeSet)
    (reader : TemplateReader) :
    ((specialize options sets).run.run reader).1 =
      (sets.mapM (Template.instance? options.filename reader.bytes)).map
        (fun texts => options.inPackage (Output.merge texts)) := by
  have hInstances := Template.mapM_generate_run options.filename sets reader
  unfold specialize
  rw [ExceptT.run_bind, StateT.run_bind, hInstances]
  cases sets.mapM (Template.instance? options.filename reader.bytes) with
  | error e => rfl
  | ok texts =>
      obtain ⟨filename, output, package⟩ := options
      cases package with
      | none => rfl
      | some name => rfl

/-! ## Outcomes -/

theorem GenerationOptions.inPackage_banner (options : GenerationOptions) :
    options.inPackage Output.banner = Output.banner := by
  unfold inPackage
  split
  · rfl
  · split
    · rfl
    · rw [Output.renamePackage, Output.renamePackageLines_eq_self _ (by decide +kernel)]
      decide +kernel

theorem Template.instance?_of_parse {filename text : Text} {bytes : ByteArray} {file : SourceFile}
    (types : TypeSet) (hText : Text.ofUtf8? bytes = some text)
    (hFile : SourceFile.parse text = .ok file) :
    instance? filename bytes types =
      (checkCoverage file types).map fun _ => instantiate types text := by
  simp only [instance?, parse, hText, hFile]
  rfl

theorem Template.instance?_of_covers {filename text : Text} {bytes : ByteArray} {file : SourceFile}
    {types : TypeSet} (hText : Text.ofUtf8? bytes = some text)
    (hFile : SourceFile.parse text = .ok file) (hCovers : types.Covers file) :
    instance? filename bytes types = .ok (instantiate types text) := by
  rw [instance?_of_parse types hText hFile, checkCoverage,
    (file.missingPlaceholder?_eq_none_iff types).2 hCovers]
  rfl

theorem Template.instance?_of_firstMissing {filename text placeholder : Text} {bytes : ByteArray}
    {file : SourceFile} {types : TypeSet} (hText : Text.ofUtf8? bytes = some text)
    (hFile : SourceFile.parse text = .ok file) (hMissing : types.FirstMissing file placeholder) :
    instance? filename bytes types = .error (.missingType placeholder) := by
  rw [instance?_of_parse types hText hFile, checkCoverage,
    (file.missingPlaceholder?_eq_some_iff types placeholder).2 hMissing]
  rfl

/-- Where all sets cover the template, all have their instance. -/
theorem Template.mapM_instance?_of_covers {filename text : Text} {bytes : ByteArray}
    {file : SourceFile} {sets : List TypeSet} (hText : Text.ofUtf8? bytes = some text)
    (hFile : SourceFile.parse text = .ok file) (hCovers : ∀ types ∈ sets, types.Covers file) :
    sets.mapM (instance? filename bytes) = .ok (sets.map (instantiate · text)) := by
  induction sets with
  | nil => rfl
  | cons types sets ih =>
      have hFirst : instance? filename bytes types = .ok (instantiate types text) :=
        instance?_of_covers hText hFile (hCovers types List.mem_cons_self)
      have hRest := ih fun other hOther => hCovers other (List.mem_cons_of_mem types hOther)
      rw [List.mapM_cons, hFirst, hRest]
      rfl

/-- The first set without an instance decides, whatever comes after it. -/
theorem Template.mapM_instance?_of_error {filename : Text} {bytes : ByteArray}
    {before : List TypeSet} {types : TypeSet} (after : List TypeSet) {texts : List Text}
    {e : GenerationError} (hBefore : before.mapM (instance? filename bytes) = .ok texts)
    (hError : instance? filename bytes types = .error e) :
    (before ++ types :: after).mapM (instance? filename bytes) = .error e := by
  rw [List.mapM_append, hBefore, List.mapM_cons, hError]
  rfl

/-- What is said to come of generation does come of it. -/
theorem Generates.mapM_eq {options : GenerationOptions} {bytes : ByteArray} {sets : List TypeSet}
    {outcome : Except GenerationError Text} (h : Generates options bytes sets outcome) :
    (sets.mapM (Template.instance? options.filename bytes)).map
      (fun texts => options.inPackage (Output.merge texts)) = outcome := by
  have hFirst : ∀ {sets : List TypeSet} {e : GenerationError}, sets ≠ [] →
      (∀ types, Template.instance? options.filename bytes types = .error e) →
        sets.mapM (Template.instance? options.filename bytes) = .error e := by
    intro sets e hSets hError
    obtain ⟨types, after, rfl⟩ := List.exists_cons_of_ne_nil hSets
    exact @Template.mapM_instance?_of_error _ _ [] types after _ _ rfl (hError types)
  cases h with
  | nothing =>
      change Except.ok (options.inPackage (Output.merge [])) = _
      rw [show Output.merge [] = Output.banner by decide +kernel, options.inPackage_banner]
  | notUtf8 hSets hText =>
      rw [hFirst hSets fun types => by simp only [Template.instance?, Template.parse, hText]; rfl]
      rfl
  | @rejected _ _ rejection hSets hText hFile =>
      rw [hFirst (e := .source options.filename rejection) hSets fun types => by
        simp only [Template.instance?, Template.parse, hText, hFile]; rfl]
      rfl
  | missing hText hFile hBefore hMissing =>
      rw [Template.mapM_instance?_of_error _
        (Template.mapM_instance?_of_covers hText hFile hBefore)
        (Template.instance?_of_firstMissing hText hFile hMissing)]
      rfl
  | merged _ hText hFile hCovers =>
      rw [Template.mapM_instance?_of_covers hText hFile hCovers]
      rfl

/-- Some outcome is always said to come of generation. -/
theorem exists_generates (options : GenerationOptions) (bytes : ByteArray) (sets : List TypeSet) :
    ∃ outcome, Generates options bytes sets outcome := by
  by_cases hSets : sets = []
  · subst hSets
    exact ⟨_, .nothing⟩
  cases hText : Text.ofUtf8? bytes with
  | none => exact ⟨_, .notUtf8 hSets hText⟩
  | some text =>
      cases hFile : SourceFile.parse text with
      | error rejection => exact ⟨_, .rejected hSets hText hFile⟩
      | ok file =>
          cases hFind : sets.find? fun types => (file.missingPlaceholder? types).isSome with
          | none =>
              refine ⟨_, .merged hSets hText hFile fun types hTypes => ?_⟩
              rw [← file.missingPlaceholder?_eq_none_iff]
              simpa using List.find?_eq_none.1 hFind types hTypes
          | some types =>
              obtain ⟨hSome, before, after, rfl, hBefore⟩ := List.find?_eq_some_iff_append.1 hFind
              obtain ⟨placeholder, hPlaceholder⟩ := Option.isSome_iff_exists.1 hSome
              refine ⟨_, .missing hText hFile (fun earlier hEarlier => ?_)
                ((file.missingPlaceholder?_eq_some_iff types placeholder).1 hPlaceholder)⟩
              rw [← file.missingPlaceholder?_eq_none_iff]
              simpa using hBefore earlier hEarlier

/-- Generation succeeds or fails exactly as it is said to, from whatever place of the reader it
starts. Without a tool for the imports the code is given as its bytes, and the error as it is. -/
theorem specialize_eq_iff_generates (options : GenerationOptions) (sets : List TypeSet)
    (reader : TemplateReader) (outcome : Except GenerationError Text) :
    (((specialize options sets).run.run reader).1 = outcome ↔
      Generates options reader.bytes sets outcome) ∧
    ((generateCode .passthrough options sets).run.run reader).1 =
      ((specialize options sets).run.run reader).1.map Text.toUtf8 := by
  refine ⟨⟨?_, ?_⟩, ?_⟩
  · rintro rfl
    obtain ⟨other, hOther⟩ := exists_generates options reader.bytes sets
    rw [specialize_run, hOther.mapM_eq]
    exact hOther
  · intro hGenerates
    rw [specialize_run, hGenerates.mapM_eq]
  · rw [generateCode, ExceptT.run_bind, StateT.run_bind]
    cases hRun : (specialize options sets).run.run reader with
    | mk result after =>
        cases result with
        | error e => rfl
        | ok code => rfl

end GoTemplate
