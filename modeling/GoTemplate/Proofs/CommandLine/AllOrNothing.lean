import GoTemplate.CommandLine.World
import GoTemplate.Proofs.CommandLine.FileTree

/-!
What a run of the command leaves behind. The world is as it was before unless all code has been
generated and there is a file to take it, and then one file or the standard output is another.
-/

namespace GoTemplate.CommandLine

/-! ## What a run leaves behind -/

/-- The template of a command in a world: what is in the file that is named, or else the standard
input. -/
def Command.template? (c : Command) (w : World) : Except Failure ByteArray :=
  match c.input with
  | some path => (w.files.read path).mapError (.unreadable path)
  | none => .ok w.input

/-- The world after content has been put to the one place for it. On the standard output it comes
behind what is there. The file at the place to which a path leads holds nothing else; all other
files, and all directories, are as they were. -/
inductive World.Receives (w : World) (content : ByteArray) : Option Text → World → Prop where
  | output : w.Receives content none { w with output := w.output ++ content }
  | file {path : Text} {place : Place} {files : FileTree} (hPlace : w.files.LeadsTo path place)
      (hContent : files.file? place = some content) (hRead : files.read path = .ok content)
      (hOthers : ∀ other, other ≠ place → files.file? other = w.files.file? other)
      (hDirectories : ∀ place, files.hasDirectory place = w.files.hasDirectory place) :
      w.Receives content (some path) { w with files }

/-- A run that succeeds, with all that it comes upon: the type sets, the template, and the code
that is generated from them, which goes behind the header to where it is wanted. -/
inductive Command.Succeeds (normalizer : Normalizer) (c : Command) (w : World) : World → Prop where
  | intro {sets : List TypeSet} {template code : ByteArray} {after : World}
      (hSets : TypeSet.parseAll c.typeArguments = .ok sets)
      (hTemplate : c.template? w = .ok template)
      (hCode : ((generateCode normalizer ⟨c.filename, c.output, c.package⟩ sets).run.run
        (.ofBytes template)).1 = .ok code)
      (hAfter : w.Receives (c.header.toUtf8 ++ code) c.output after) : c.Succeeds normalizer w after

/-- A run that fails leaves the world as it was, and a run that succeeds leaves one as it is meant
to be. -/
def AllOrNothing (w : World) (meant : World → Prop) : Except Failure Unit × World → Prop
  | (.error _, after) => after = w
  | (.ok (), after) => meant after

theorem AllOrNothing.imp {w : World} {meant other : World → Prop} {run : Except Failure Unit × World}
    (h : ∀ after, meant after → other after) (hRun : AllOrNothing w meant run) :
    AllOrNothing w other run := by
  obtain ⟨result, after⟩ := run
  cases result with
  | error failure => exact hRun
  | ok _ => exact h after hRun

namespace Command

/-! ## The parts of a run -/

theorem run_template (c : Command) (w : World) :
    (c.template World.system).run.run w = (c.template? w, w) := by
  rw [template, template?]
  cases c.input with
  | none => rfl
  | some path => rfl

/-- A creation that is refused leaves the world alone, and one that is not changes the files. -/
theorem run_createFile (path : Text) (w : World) :
    (attempt (.uncreatable path) (World.system.createFile path)).run.run w =
      match w.files.create path with
      | .error fault => (.error (.uncreatable path fault), w)
      | .ok (place, files) =>
        (.ok fun content => do
          modify fun w => { w with files := w.files.append place content }
          return .ok (), { w with files }) := by
  change StateT.run (do
    return Except.mapError (Failure.uncreatable path) (← (match w.files.create path with
      | .error fault => _
      | .ok (place, files) => _ : StateM World _))) w = _
  cases w.files.create path with
  | error fault => rfl
  | ok created => rfl

/-- Nothing can go wrong once the file is there. -/
theorem run_write (c : Command) (code : ByteArray) (w : World) :
    AllOrNothing w (w.Receives code c.output) ((c.write World.system code).run.run w) := by
  rw [write]
  cases c.output with
  | none => exact .output
  | some path =>
      dsimp only
      rw [ExceptT.run_bind, StateT.run_bind, run_createFile]
      cases hCreate : w.files.create path with
      | error fault => rfl
      | ok created =>
          obtain ⟨place, files⟩ := created
          obtain ⟨directory, name, hApproach, hPlace, rfl, -⟩ := FileTree.create_eq_ok hCreate
          change w.Receives code (some path)
            { w with files := (w.files.put place .empty).append place code }
          rw [FileTree.append_put_empty]
          have hFile := FileTree.file?_put w.files place code
          refine .file ⟨directory, name, hApproach, hPlace⟩ ?_ (FileTree.read_put hCreate code) ?_ ?_
          · rw [hFile, if_pos rfl]
          · intro other hOther
            rw [hFile, if_neg hOther]
          · rw [hPlace]
            exact FileTree.hasDirectory_put (FileTree.isReached_of_approach hApproach) name code

/-- A step that does not look at the world. -/
theorem run_mk_bind {α β : Type} (result : Except Failure α) (next : α → ExceptT Failure (StateM World) β)
    (w : World) :
    (ExceptT.mk (pure result) >>= next).run.run w =
      match result with
      | .error failure => (.error failure, w)
      | .ok a => (next a).run.run w := by
  cases result with
  | error failure => rfl
  | ok a => rfl

theorem code_eq (normalizer : Normalizer) (c : Command) (template : ByteArray)
    (sets : List TypeSet) :
    c.code normalizer template sets =
      ((generateCode normalizer ⟨c.filename, c.output, c.package⟩ sets).run.run
        (.ofBytes template)).1.map (c.header.toUtf8 ++ ·) := by
  rw [code]
  change ((generateCode normalizer ⟨c.filename, c.output, c.package⟩ sets).run.run
    (.ofBytes template)).1 >>= _ = _
  cases ((generateCode normalizer ⟨c.filename, c.output, c.package⟩ sets).run.run
    (.ofBytes template)).1 with
  | error e => rfl
  | ok code => rfl

/-! ## A run -/

theorem run_allOrNothing (normalizer : Normalizer) (c : Command) (w : World) :
    AllOrNothing w (c.Succeeds normalizer w) ((c.run World.system normalizer).run.run w) := by
  rw [run, run_mk_bind]
  cases hSets : TypeSet.parseAll c.typeArguments with
  | error e => rfl
  | ok sets =>
      dsimp only [Except.mapError]
      rw [ExceptT.run_bind, StateT.run_bind, run_template]
      cases hTemplate : c.template? w with
      | error failure => rfl
      | ok template =>
          change AllOrNothing w (c.Succeeds normalizer w)
            ((ExceptT.mk (pure ((c.code normalizer template sets).mapError .generation)) >>=
              c.write World.system : ExceptT Failure (StateM World) Unit).run.run w)
          rw [run_mk_bind, code_eq]
          cases hCode : ((generateCode normalizer ⟨c.filename, c.output, c.package⟩ sets).run.run
              (.ofBytes template)).1 with
          | error e => rfl
          | ok code =>
              exact (run_write c (c.header.toUtf8 ++ code) w).imp fun after hAfter =>
                .intro hSets hTemplate hCode hAfter

end Command

/-- Whatever the arguments, the environment and the world are, the program leaves the world as it
was or does all that the command asks for. With any normalizer the same holds of the command. -/
theorem execute_allOrNothing (w : World) :
    (∀ (normalizer : Normalizer) (c : Command),
      AllOrNothing w (c.Succeeds normalizer w) ((c.run World.system normalizer).run.run w)) ∧
    ∀ (programs : Programs) (environment : Text → Option Text) (arguments : List Text),
      match (execute World.system programs environment arguments).run w with
      | (.success, after) => ∃ c, Command.parse environment arguments = some c ∧
          c.Succeeds (c.normalizer programs) w after
      | (_, after) => after = w := by
  refine ⟨fun normalizer c => c.run_allOrNothing normalizer w, ?_⟩
  intro programs environment arguments
  rw [execute]
  cases hCommand : Command.parse environment arguments with
  | none => rfl
  | some c =>
      have hRun := c.run_allOrNothing (c.normalizer programs) w
      rw [StateT.run_bind]
      cases hEnd : (c.run World.system (c.normalizer programs)).run.run w with
      | mk result after =>
          rw [hEnd] at hRun
          cases result with
          | error failure => exact hRun
          | ok _ => exact ⟨c, rfl, hRun⟩

end GoTemplate.CommandLine
