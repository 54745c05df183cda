import GoTemplate.CommandLine.FileTree
import Mathlib.Data.List.Basic

/-!
What a new content of one file leaves alone: all other files, all directories, and with them the
way to every place.
-/

namespace GoTemplate.CommandLine.FileTree

variable {tree other : FileTree} {place directory q : Place} {path name : Text}
  {content : ByteArray}

/-! ## Files -/

private theorem lookup_filter_of_ne (h : q ≠ place) (files : List (Place × ByteArray)) :
    (files.filter (·.1 ≠ place)).lookup q = files.lookup q := by
  induction files with
  | nil => rfl
  | cons file files ih =>
      obtain ⟨first, old⟩ := file
      by_cases hFirst : first = place
      · have hOther : (q == first) = false := beq_eq_false_iff_ne.2 (hFirst ▸ h)
        rw [List.filter_cons_of_neg (by simpa using hFirst), ih, List.lookup_cons, hOther]
      · rw [List.filter_cons_of_pos (by simpa using hFirst), List.lookup_cons, List.lookup_cons, ih]

theorem file?_put (tree : FileTree) (place : Place) (content : ByteArray) (q : Place) :
    (tree.put place content).file? q = if q = place then some content else tree.file? q := by
  rw [file?, put, List.lookup_cons]
  by_cases hPlace : q = place
  · rw [if_pos hPlace, beq_iff_eq.2 hPlace]
  · rw [if_neg hPlace, beq_eq_false_iff_ne.2 hPlace]
    exact lookup_filter_of_ne hPlace tree.files

/-- What is added to an empty file is all of it. -/
theorem append_put_empty (tree : FileTree) (place : Place) (content : ByteArray) :
    (tree.put place .empty).append place content = tree.put place content := by
  have hFiltered : ((tree.files.filter (·.1 ≠ place)).filter (·.1 ≠ place)) =
      tree.files.filter (·.1 ≠ place) := by
    rw [List.filter_filter]
    simp only [Bool.and_self]
  rw [append, file?_put, if_pos rfl, Option.getD_some, ByteArray.empty_append, put, put,
    List.filter_cons_of_neg (by simp), hFiltered]
  rfl

/-! ## Directories -/

theorem hasDirectory_iff : tree.hasDirectory q = true ↔
    q.isAbove = true ∨ q = Place.root ∨ q ∈ tree.directories ∨
      ∃ file ∈ tree.files, q <+: file.1 ∧ q ≠ file.1 := by
  simp [hasDirectory, or_assoc]

/-- All directories on the way to a directory are there, and so is itself. -/
def IsReached (tree : FileTree) (directory : Place) : Prop :=
  ∀ q, q <+: directory → tree.hasDirectory q = true

theorem hasDirectory_put (hReached : tree.IsReached directory) (name : Text) (content : ByteArray)
    (q : Place) :
    (tree.put (directory ++ [name]) content).hasDirectory q = tree.hasDirectory q := by
  rw [Bool.eq_iff_iff]
  constructor
  · intro h
    rcases hasDirectory_iff.1 h with hAbove | hRoot | hMem | ⟨file, hFile, hPrefix, hNe⟩
    · exact hasDirectory_iff.2 (.inl hAbove)
    · exact hasDirectory_iff.2 (.inr (.inl hRoot))
    · exact hasDirectory_iff.2 (.inr (.inr (.inl hMem)))
    · rcases List.mem_cons.1 hFile with rfl | hOld
      · exact hReached q ((List.prefix_concat_iff.1 hPrefix).resolve_left hNe)
      · exact hasDirectory_iff.2
          (.inr (.inr (.inr ⟨file, List.mem_of_mem_filter hOld, hPrefix, hNe⟩)))
  · intro h
    apply hasDirectory_iff.2
    rcases hasDirectory_iff.1 h with hAbove | hRoot | hMem | ⟨file, hFile, hPrefix, hNe⟩
    · exact .inl hAbove
    · exact .inr (.inl hRoot)
    · exact .inr (.inr (.inl hMem))
    · refine .inr (.inr (.inr ?_))
      by_cases hPlace : file.1 = directory ++ [name]
      · exact ⟨_, List.mem_cons_self, hPlace ▸ hPrefix, hPlace ▸ hNe⟩
      · have hOld : file ∈ tree.files.filter (·.1 ≠ directory ++ [name]) :=
          List.mem_filter.2 ⟨hFile, by simpa using hPlace⟩
        exact ⟨file, List.mem_cons_of_mem _ hOld, hPrefix, hNe⟩

/-! ## Ways -/

theorem isReached_of_isAbove (h : directory.isAbove = true) : tree.IsReached directory := by
  rintro q ⟨rest, rfl⟩
  rw [Place.isAbove, List.all_append, Bool.and_eq_true] at h
  exact hasDirectory_iff.2 (.inl h.1)

theorem isReached_root : tree.IsReached Place.root := by
  intro q hq
  rw [Place.root, ← List.nil_append [_], List.prefix_concat_iff] at hq
  rcases hq with rfl | hNil
  · exact hasDirectory_iff.2 (.inr (.inl rfl))
  · rw [List.prefix_nil.1 hNil]
    exact hasDirectory_iff.2 (.inl rfl)

theorem isReached_start (path : Text) : tree.IsReached (Place.start path) := by
  rw [Place.start]
  split
  · exact isReached_root
  · exact isReached_of_isAbove rfl

theorem IsReached.parent (h : tree.IsReached directory) : tree.IsReached directory.parent := by
  rw [Place.parent]
  split
  · exact isReached_root
  · split
    · rename_i hAbove
      apply isReached_of_isAbove
      rw [Place.isAbove, List.all_append, Bool.and_eq_true]
      exact ⟨hAbove, rfl⟩
    · exact fun q hq => h q (hq.trans (List.dropLast_prefix directory))

theorem IsReached.concat (h : tree.IsReached directory)
    (hDirectory : tree.hasDirectory (directory ++ [name]) = true) :
    tree.IsReached (directory ++ [name]) := by
  intro q hq
  rcases List.prefix_concat_iff.1 hq with rfl | hPrefix
  · exact hDirectory
  · exact h q hPrefix

theorem entry_eq_directory : tree.entry directory name = .ok .directory ↔
    Text.byteSize name ≤ Path.maxNameSize ∧ tree.hasDirectory (directory ++ [name]) = true := by
  rw [entry]
  by_cases hLong : Path.maxNameSize < Text.byteSize name
  · rw [if_pos hLong]
    constructor
    · rintro ⟨⟩
    · exact fun h => absurd h.1 (Nat.not_le.2 hLong)
  · rw [if_neg hLong]
    cases hDirectory : tree.hasDirectory (directory ++ [name]) with
    | true => exact ⟨fun _ => ⟨Nat.not_lt.1 hLong, rfl⟩, fun _ => rfl⟩
    | false =>
        rw [if_neg Bool.false_ne_true]
        constructor
        · intro h
          split at h
          · cases h
          · cases h
        · rintro ⟨-, ⟨⟩⟩

/-- The names that lead from a directory to another. -/
theorem enter_eq_ok {next : Place} : tree.enter directory name = .ok next ↔
    (Path.isDots name = true ∨ tree.entry directory name = .ok .directory) ∧
      directory.enter name = next := by
  rw [enter]
  cases hDots : Path.isDots name with
  | true =>
      change Except.ok (directory.enter name) = Except.ok next ↔ _
      simp
  | false =>
      rw [if_neg Bool.false_ne_true]
      cases hEntry : tree.entry directory name with
      | error fault =>
          change Except.error fault = Except.ok next ↔ _
          simp
      | ok found =>
          cases found with
          | directory =>
              change Except.ok (directory.enter name) = Except.ok next ↔ _
              simp
          | file content =>
              change Except.error SystemFault.notDirectory = Except.ok next ↔ _
              simp
          | absent =>
              change Except.error SystemFault.notFound = Except.ok next ↔ _
              simp

/-- Entering a directory leads to a directory. -/
theorem IsReached.enter {next : Place} (h : tree.IsReached directory)
    (hEnter : tree.enter directory name = .ok next) : tree.IsReached next := by
  obtain ⟨hWay, rfl⟩ := enter_eq_ok.1 hEnter
  rw [Place.enter]
  split
  · exact h
  · rename_i hPoint
    split
    · exact h.parent
    · rename_i hPoints
      rcases hWay with hDots | hEntry
      · simp [Path.isDots, hPoint, hPoints] at hDots
      · exact h.concat (entry_eq_directory.1 hEntry).2

/-- A path leads to a place: all directories on the way are there, and the last name of the path is
looked up in the last of them. -/
def LeadsTo (tree : FileTree) (path : Text) (place : Place) : Prop :=
  ∃ directory name, tree.approach path = .ok (directory, some name) ∧ place = directory ++ [name]

theorem approach_eq (tree : FileTree) (path : Text) : tree.approach path =
    if path = [] then .error .notFound
    else if Path.maxSize < Text.byteSize path then .error .nameTooLong
    else match (Path.names path).getLast? with
      | none => .ok (.start path, none)
      | some last => ((Path.names path).dropLast.foldlM tree.enter (.start path)).map fun directory =>
          if Path.isDots last then (directory.enter last, none) else (directory, some last) := by
  rw [approach]
  split
  · rfl
  · split
    · rfl
    · change (match (Path.names path).getLast? with | none => _ | some last => _) = _
      cases (Path.names path).getLast? with
      | none => rfl
      | some last => cases (Path.names path).dropLast.foldlM tree.enter (.start path) <;> rfl

/-- The names before the last one lead to the directory in which that one is looked up. -/
theorem foldlM_of_approach (h : tree.approach path = .ok (directory, some name)) :
    (Path.names path).dropLast.foldlM tree.enter (.start path) = .ok directory := by
  rw [approach_eq] at h
  split at h
  · cases h
  · split at h
    · cases h
    · split at h
      · cases h
      · cases hWay : (Path.names path).dropLast.foldlM tree.enter (.start path) with
        | error fault =>
            rw [hWay] at h
            cases h
        | ok reached =>
            rw [hWay] at h
            simp only [Except.map] at h
            split at h
            · cases h
            · cases h
              rfl

theorem isReached_of_foldlM {names : List Text} {from' : Place} (h : tree.IsReached from')
    (hWay : names.foldlM tree.enter from' = .ok directory) : tree.IsReached directory := by
  induction names generalizing from' with
  | nil =>
      cases hWay
      exact h
  | cons name names ih =>
      rw [List.foldlM_cons] at hWay
      cases hEnter : tree.enter from' name with
      | error fault =>
          rw [hEnter] at hWay
          cases hWay
      | ok next =>
          rw [hEnter] at hWay
          exact ih (h.enter hEnter) hWay

theorem isReached_of_approach (h : tree.approach path = .ok (directory, some name)) :
    tree.IsReached directory :=
  isReached_of_foldlM (isReached_start path) (foldlM_of_approach h)

/-! ## Ways in another tree with the same directories -/

section Same

variable (hSame : ∀ q, other.hasDirectory q = tree.hasDirectory q)

include hSame

theorem foldlM_of_hasDirectory_eq {names : List Text} {from' : Place}
    (hWay : names.foldlM tree.enter from' = .ok directory) :
    names.foldlM other.enter from' = .ok directory := by
  induction names generalizing from' with
  | nil => exact hWay
  | cons name names ih =>
      rw [List.foldlM_cons] at hWay ⊢
      cases hEnter : tree.enter from' name with
      | error fault =>
          rw [hEnter] at hWay
          cases hWay
      | ok next =>
          have hOther : other.enter from' name = .ok next := by
            rw [enter_eq_ok, entry_eq_directory] at hEnter ⊢
            rwa [hSame]
          rw [hEnter] at hWay
          rw [hOther]
          exact ih hWay

theorem approach_of_hasDirectory_eq (h : tree.approach path = .ok (directory, some name)) :
    other.approach path = .ok (directory, some name) := by
  have hWay := foldlM_of_approach h
  rw [approach_eq, hWay] at h
  rw [approach_eq, foldlM_of_hasDirectory_eq hSame hWay, h]

end Same

/-! ## Created files -/

theorem create_of_approach (h : tree.approach path = .ok (directory, some name)) :
    tree.create path =
      if Path.isClosed path then .error .isDirectory
      else (tree.entry directory name).bind fun
        | .directory => .error .isDirectory
        | _ => .ok (directory ++ [name], tree.put (directory ++ [name]) .empty) := by
  rw [create, h]
  cases Path.isClosed path <;> rfl

theorem entry_of_not_hasDirectory (hShort : Text.byteSize name ≤ Path.maxNameSize)
    (hDirectory : tree.hasDirectory (directory ++ [name]) = false) :
    tree.entry directory name =
      .ok ((tree.file? (directory ++ [name])).elim .absent .file) := by
  rw [entry, if_neg (Nat.not_lt.2 hShort), hDirectory, if_neg Bool.false_ne_true]
  cases tree.file? (directory ++ [name]) <;> rfl

/-- What creating a file does, where it is done: the path leads to a place without a directory, and
the file at that place becomes empty. -/
theorem create_eq_ok {created : FileTree} (h : tree.create path = .ok (place, created)) :
    ∃ directory name, tree.approach path = .ok (directory, some name) ∧
      place = directory ++ [name] ∧ created = tree.put place .empty ∧
      Path.isClosed path = false ∧ Text.byteSize name ≤ Path.maxNameSize ∧
      tree.hasDirectory place = false := by
  cases hApproach : tree.approach path with
  | error fault =>
      rw [create, hApproach] at h
      cases h
  | ok found =>
      obtain ⟨directory, last⟩ := found
      cases last with
      | none =>
          rw [create, hApproach] at h
          cases h
      | some name =>
          rw [create_of_approach hApproach] at h
          cases hClosed : Path.isClosed path with
          | true =>
              rw [hClosed] at h
              cases h
          | false =>
              rw [hClosed, if_neg Bool.false_ne_true] at h
              by_cases hShort : Text.byteSize name ≤ Path.maxNameSize
              · cases hDirectory : tree.hasDirectory (directory ++ [name]) with
                | true =>
                    rw [entry_eq_directory.2 ⟨hShort, hDirectory⟩] at h
                    cases h
                | false =>
                    rw [entry_of_not_hasDirectory hShort hDirectory] at h
                    have hResult : (directory ++ [name], tree.put (directory ++ [name]) .empty) =
                        (place, created) := by
                      cases hFile : tree.file? (directory ++ [name]) with
                      | none =>
                          rw [hFile] at h
                          exact Except.ok.inj h
                      | some content =>
                          rw [hFile] at h
                          exact Except.ok.inj h
                    cases hResult
                    exact ⟨directory, name, rfl, rfl, rfl, rfl, hShort, hDirectory⟩
              · rw [entry, if_pos (Nat.not_le.1 hShort)] at h
                cases h

/-- A file that has been written is read back under the path under which it was made. -/
theorem read_put {created : FileTree} (h : tree.create path = .ok (place, created))
    (content : ByteArray) : (tree.put place content).read path = .ok content := by
  obtain ⟨directory, name, hApproach, rfl, -, hClosed, hShort, hDirectory⟩ := create_eq_ok h
  have hSame : ∀ q, (tree.put (directory ++ [name]) content).hasDirectory q = tree.hasDirectory q :=
    hasDirectory_put (isReached_of_approach hApproach) name content
  have hEntry : (tree.put (directory ++ [name]) content).entry directory name =
      .ok (.file content) := by
    rw [entry_of_not_hasDirectory hShort (by rw [hSame, hDirectory]), file?_put, if_pos rfl]
    rfl
  rw [read, approach_of_hasDirectory_eq hSame hApproach]
  change ((tree.put (directory ++ [name]) content).entry directory name >>= _ :
    Except SystemFault ByteArray) = _
  rw [hEntry]
  change (if Path.isClosed path then _ else _) = _
  rw [hClosed]
  rfl

end GoTemplate.CommandLine.FileTree
