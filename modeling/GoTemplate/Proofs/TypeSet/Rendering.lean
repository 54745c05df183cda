import GoTemplate.Proofs.TypeSet.Product

/-!
Type sets that are written down and read again. What is read of type arguments has entries that no
separator divides and no word for a list of types hides in, and such entries are read as they were
written. So the text of a type set is read as this type set alone.
-/

namespace GoTemplate

open TypeArgument

/-! ## Entries -/

/-- The entry as a piece of type arguments. -/
def TypeSet.assignment (entry : Text × Text) : Text := entry.1 ++ '=' :: entry.2

/-- A placeholder and one type for it, both as type arguments can give them. -/
structure TypeSet.IsEntry (entry : Text × Text) : Prop where
  placeholder_ne : entry.1 ≠ []
  placeholder_mem : ∀ c ∈ entry.1, c ≠ ' ' ∧ c ≠ '='
  type_ne : entry.2 ≠ []
  type_mem : ∀ c ∈ entry.2, c ≠ ' ' ∧ c ≠ '=' ∧ c ≠ ','
  /-- The type is no word that stands for other types. -/
  expand_eq : expand entry.2 = [entry.2]

namespace TypeSet.IsEntry

variable {entry : Text × Text}

theorem sign_not_mem (h : IsEntry entry) : '=' ∉ entry.1 := fun hMem => (h.placeholder_mem _ hMem).2 rfl

theorem space_not_mem (h : IsEntry entry) : ' ' ∉ assignment entry := by
  rw [TypeSet.assignment, List.mem_append, List.mem_cons, not_or, not_or]
  exact ⟨fun hMem => (h.placeholder_mem _ hMem).1 rfl, by decide, fun hMem => (h.type_mem _ hMem).1 rfl⟩

theorem placeholderPart_eq (h : IsEntry entry) : placeholderPart (assignment entry) = entry.1 :=
  placeholderPart_append h.sign_not_mem

theorem elements_eq (h : IsEntry entry) : elements (assignment entry) = [entry.2] := by
  rw [elements, TypeSet.assignment, typesPart_append h.sign_not_mem]
  exact List.splitOn_eq_singleton fun hMem => (h.type_mem _ hMem).2.2 rfl

theorem ofPiece_eq (h : IsEntry entry) : ofPiece (assignment entry) = ⟨entry.1, [entry.2]⟩ := by
  rw [ofPiece, h.placeholderPart_eq, h.elements_eq, List.flatMap_singleton, h.expand_eq]

theorem isAssignment (h : IsEntry entry) : IsAssignment (assignment entry) :=
  (isAssignment_append_iff h.sign_not_mem).2
    ⟨fun hMem => (h.type_mem _ hMem).2.1 rfl, h.placeholder_ne, h.type_ne⟩

end TypeSet.IsEntry

/-! ## Entries that are read -/

namespace TypeArgument

/-- A choice has an entry for each argument, and each entry is a placeholder with one of its types. -/
theorem of_mem_choices {arguments : List TypeArgument} {entries : List (Text × Text)}
    (h : entries ∈ choices arguments) : entries.length = arguments.length ∧ ∀ entry ∈ entries,
      ∃ argument ∈ arguments, argument.placeholder = entry.1 ∧ entry.2 ∈ argument.types := by
  induction arguments generalizing entries with
  | nil =>
      obtain rfl := List.mem_singleton.1 h
      exact ⟨rfl, fun entry hEntry => nomatch hEntry⟩
  | cons argument arguments ih =>
      obtain ⟨type, hType, hEntries⟩ := List.mem_flatMap.1 h
      obtain ⟨others, hOthers, rfl⟩ := List.mem_map.1 hEntries
      obtain ⟨hLength, hPicked⟩ := ih hOthers
      refine ⟨congrArg (· + 1) hLength, List.forall_mem_cons.2 ⟨?_, fun entry hEntry => ?_⟩⟩
      · exact ⟨argument, List.mem_cons_self, rfl, hType⟩
      · obtain ⟨other, hMem, hOther⟩ := hPicked entry hEntry
        exact ⟨other, List.mem_cons_of_mem argument hMem, hOther⟩

/-- Where each placeholder has one type there is one choice. -/
theorem choices_singletons (entries : List (Text × Text)) :
    choices (entries.map fun entry => ⟨entry.1, [entry.2]⟩) = [entries] := by
  induction entries with
  | nil => rfl
  | cons entry entries ih =>
      rw [List.map_cons, choices, ih]
      rfl

/-- The words for lists of types stand for nothing but names, none of which is such a word. -/
theorem expand_of_mem_expand {value type : Text} (h : type ∈ expand value) :
    expand type = [type] ∧ (type = value ∨ type ≠ [] ∧ ∀ c ∈ type, c ≠ ' ' ∧ c ≠ '=' ∧ c ≠ ',') := by
  have hAlone : ∀ name ∈ builtins ++ numbers, expand name = [name] ∧ name ≠ [] := by decide +kernel
  have hPlain : (builtins ++ numbers).all (fun name =>
      name.all fun c => c != ' ' && c != '=' && c != ',') = true := by decide +kernel
  have hNames (name : Text) (hName : name ∈ builtins ++ numbers) :
      expand name = [name] ∧ name ≠ [] ∧ ∀ c ∈ name, c ≠ ' ' ∧ c ≠ '=' ∧ c ≠ ',' := by
    refine ⟨(hAlone name hName).1, (hAlone name hName).2, fun c hc => ?_⟩
    simpa [and_assoc] using List.all_eq_true.1 (List.all_eq_true.1 hPlain name hName) c hc
  rw [expand] at h
  split at h
  · exact (hNames type (List.mem_append_left numbers h)).imp_right .inr
  · rename_i hBuiltins
    split at h
    · exact (hNames type (List.mem_append_right builtins h)).imp_right .inr
    · rename_i hNumbers
      obtain rfl := List.mem_singleton.1 h
      exact ⟨by rw [expand, if_neg hBuiltins, if_neg hNumbers], .inl rfl⟩

theorem mem_of_mem_pieces {arguments piece : Text} (h : piece ∈ pieces arguments) : ' ' ∉ piece :=
  fun hMem => (Text.mem_of_mem_splitOn (List.mem_filter.1 h).1 ' ' hMem).2 rfl

/-- What a piece that keeps the rules assigns to its placeholder makes an entry. -/
theorem isEntry_of_mem_types {piece type : Text} (hPiece : IsAssignment piece) (hEmpty : [] ∉ elements piece)
    (hSpace : ' ' ∉ piece) (hType : type ∈ (ofPiece piece).types) :
    TypeSet.IsEntry (placeholderPart piece, type) := by
  have hSign : '=' ∈ piece := List.count_pos_iff.1 (by rw [hPiece.count_eq]; exact Nat.one_pos)
  obtain ⟨front, behind, rfl, hFront⟩ := List.eq_append_cons_of_mem hSign
  obtain ⟨hBehind, hPlaceholder, -⟩ := (isAssignment_append_iff hFront).1 hPiece
  obtain ⟨value, hValue, hMem⟩ := List.mem_flatMap.1 hType
  obtain ⟨hExpand, hOrigin⟩ := expand_of_mem_expand hMem
  have hTypeParts : type ≠ [] ∧ ∀ c ∈ type, c ≠ ' ' ∧ c ≠ '=' ∧ c ≠ ',' := by
    rcases hOrigin with rfl | hName
    · refine ⟨fun hNil => hEmpty (hNil ▸ hValue), fun c hc => ?_⟩
      rw [elements, typesPart_append hFront] at hValue
      obtain ⟨hc, hComma⟩ := Text.mem_of_mem_splitOn hValue c hc
      refine ⟨?_, fun h => hBehind (h ▸ hc), hComma⟩
      exact fun h => hSpace (List.mem_append_right front (List.mem_cons_of_mem '=' (h ▸ hc)))
    · exact hName
  rw [placeholderPart_append hFront]
  refine ⟨hPlaceholder, fun c hc => ⟨?_, fun h => hFront (h ▸ hc)⟩, hTypeParts.1, hTypeParts.2, hExpand⟩
  exact fun h => hSpace (List.mem_append_left _ (h ▸ hc))

end TypeArgument

/-! ## Sets that are written -/

namespace TypeSet

/-- The type sets that type arguments mean have entries, and all their entries are as type arguments can
give them. -/
theorem isEntry_of_parseAll {arguments : Text} {sets : List TypeSet} {set : TypeSet}
    (h : parseAll arguments = .ok sets) (hSet : set ∈ sets) :
    set.entries ≠ [] ∧ ∀ entry ∈ set.entries, IsEntry entry := by
  rcases parseAll_cases arguments with ⟨hUsable, hParse⟩ | ⟨_, _, _, _, -, -, -, hParse⟩
  · rw [h, Except.ok.injEq] at hParse
    by_cases hPieces : pieces arguments = []
    · rw [if_pos hPieces] at hParse
      rw [hParse] at hSet
      cases hSet
    · rw [if_neg hPieces] at hParse
      rw [hParse] at hSet
      have hChoice : set.entries ∈ choices ((pieces arguments).map ofPiece) := by
        rw [← map_entries_product_ofPiece hUsable]
        exact List.mem_map_of_mem hSet
      obtain ⟨hLength, hPicked⟩ := of_mem_choices hChoice
      refine ⟨fun hNil => hPieces ?_, fun entry hEntry => ?_⟩
      · rwa [hNil, List.length_map, List.length_nil, eq_comm, List.length_eq_zero_iff] at hLength
      · obtain ⟨argument, hArgument, hKey, hType⟩ := hPicked entry hEntry
        obtain ⟨piece, hPiece, rfl⟩ := List.mem_map.1 hArgument
        have hRead := isEntry_of_mem_types (hUsable.isAssignment piece hPiece) (hUsable.no_empty piece hPiece)
          (mem_of_mem_pieces hPiece) hType
        rwa [show placeholderPart piece = entry.1 from hKey] at hRead
  · rw [h] at hParse
    cases hParse

section

variable {set : TypeSet} (hNe : set.entries ≠ []) (hEntries : ∀ entry ∈ set.entries, IsEntry entry)

include hNe hEntries

/-- Each entry is a piece of the text of its set. -/
theorem pieces_render : pieces set.render = set.entries.map assignment := by
  have hSplit : set.render.splitOn ' ' = set.entries.map assignment :=
    List.splitOn_intercalate ' '
      (List.forall_mem_map.2 fun entry hEntry => (hEntries entry hEntry).space_not_mem) (by simpa using hNe)
  rw [pieces, hSplit, List.filter_eq_self]
  intro piece hPiece
  obtain ⟨entry, -, rfl⟩ := List.mem_map.1 hPiece
  simp [assignment]

theorem areUsable_render : AreUsable (pieces set.render) := by
  rw [pieces_render hNe hEntries]
  refine ⟨?_, ?_, ?_⟩
  · exact List.forall_mem_map.2 fun entry hEntry => (hEntries entry hEntry).isAssignment
  · refine List.forall_mem_map.2 fun entry hEntry => ?_
    rw [(hEntries entry hEntry).elements_eq, List.mem_singleton]
    exact (hEntries entry hEntry).type_ne.symm
  · have hKeys : (set.entries.map assignment).map placeholderPart = set.keys := by
      rw [List.map_map]
      exact List.map_congr_left fun entry hEntry => (hEntries entry hEntry).placeholderPart_eq
    rw [hKeys]
    exact set.nodup_keys

/-- A set of such entries is read from its text. -/
theorem parseAll_render_of_isEntry : parseAll set.render = .ok [set] := by
  rcases parseAll_cases set.render with ⟨hUsable, hParse⟩ | ⟨usable, piece, rest, _, hPieces, -, hFault, -⟩
  · have hArguments : (pieces set.render).map ofPiece =
        set.entries.map fun entry => ⟨entry.1, [entry.2]⟩ := by
      rw [pieces_render hNe hEntries, List.map_map]
      exact List.map_congr_left fun entry hEntry => (hEntries entry hEntry).ofPiece_eq
    have hSets := map_entries_product_ofPiece hUsable
    rw [hArguments, choices_singletons] at hSets
    obtain ⟨found, hFound, hSame⟩ := List.map_eq_singleton_iff.1 hSets
    have hPieces : pieces set.render ≠ [] := by simpa [pieces_render hNe hEntries] using hNe
    rw [hParse, if_neg hPieces, hArguments, hFound, entries_injective hSame]
  · refine absurd (areUsable_render hNe hEntries) ?_
    rw [hPieces]
    exact not_areUsable_of_fault? hFault

end

/-- A type set that type arguments mean is read from its own text, alone and with the same placeholders
and types in the same order. -/
theorem parseAll_render {arguments : Text} {sets : List TypeSet} {set : TypeSet}
    (h : parseAll arguments = .ok sets) (hSet : set ∈ sets) : parseAll set.render = .ok [set] := by
  obtain ⟨hNe, hEntries⟩ := isEntry_of_parseAll h hSet
  exact parseAll_render_of_isEntry hNe hEntries

/-- The first placeholder holds a comma, and the second has all number types. -/
theorem parseAll_render_keyword :
    let arguments : Text := " a,K=string,[]int  V=NUMBERS".toList
    let set : TypeSet := ⟨[("a,K".toList, "[]int".toList), ("V".toList, "float64".toList)], by decide⟩
    ∃ sets, parseAll arguments = .ok sets ∧ set ∈ sets ∧ set.render = "a,K=[]int V=float64".toList ∧
      parseAll set.render = .ok [set] := by
  intro arguments set
  have hParse : parseAll arguments = .ok (product ((pieces arguments).map ofPiece) empty) := by rfl
  have hSet : set ∈ product ((pieces arguments).map ofPiece) empty := by decide
  exact ⟨_, hParse, hSet, by decide, parseAll_render hParse hSet⟩

end TypeSet

end GoTemplate
