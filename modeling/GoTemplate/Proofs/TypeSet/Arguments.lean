import GoTemplate.Proofs.Text.Pieces
import GoTemplate.TypeSet.Arguments
import Mathlib.Data.List.Nodup

/-!
Type arguments by their pieces. A text of type arguments is taken if and only if each of its pieces
keeps the rules and no placeholder is given twice. Otherwise the first piece that breaks a rule is
reported, whatever stands behind it.
-/

namespace GoTemplate

namespace TypeArgument

/-! ## Pieces -/

/-- The pieces of a text between single spaces that are not empty. -/
def pieces (arguments : Text) : List Text := (arguments.splitOn ' ').filter (· ≠ [])

/-- What stands before the first equality sign of a piece. -/
def placeholderPart (piece : Text) : Text := piece.takeWhile (· ≠ '=')

/-- What stands behind the first equality sign of a piece. -/
def typesPart (piece : Text) : Text := (piece.dropWhile (· ≠ '=')).tail

/-- What stands between the commas behind the first equality sign of a piece. -/
def elements (piece : Text) : List Text := (typesPart piece).splitOn ','

/-- A piece has one equality sign, and something on both sides of it. -/
structure IsAssignment (piece : Text) : Prop where
  count_eq : piece.count '=' = 1
  placeholder_ne : placeholderPart piece ≠ []
  types_ne : typesPart piece ≠ []

instance (piece : Text) : Decidable (IsAssignment piece) :=
  decidable_of_iff (piece.count '=' = 1 ∧ placeholderPart piece ≠ [] ∧ typesPart piece ≠ [])
    ⟨fun h => ⟨h.1, h.2.1, h.2.2⟩, fun h => ⟨h.1, h.2, h.3⟩⟩

/-- The rules for pieces: each is an assignment without an empty type, and no two have the same
placeholder. -/
structure AreUsable (pieces : List Text) : Prop where
  isAssignment : ∀ piece ∈ pieces, IsAssignment piece
  no_empty : ∀ piece ∈ pieces, [] ∉ elements piece
  nodup : (pieces.map placeholderPart).Nodup

/-- The placeholder of a piece with its types, where two words stand for whole lists. -/
def ofPiece (piece : Text) : TypeArgument := ⟨placeholderPart piece, (elements piece).flatMap expand⟩

theorem split_eq_pieces (arguments : Text) : split arguments = pieces arguments := by
  rw [split, Text.splitAt_eq_splitOn, pieces]

/-! ## One piece -/

section

variable {front behind : Text} (hFront : '=' ∉ front)

include hFront

theorem placeholderPart_append : placeholderPart (front ++ '=' :: behind) = front := by
  rw [placeholderPart, List.takeWhile_append_of_pos]
  · simp
  · rintro c hc
    simpa using fun hSign : c = '=' => hFront (hSign ▸ hc)

theorem typesPart_append : typesPart (front ++ '=' :: behind) = behind := by
  rw [typesPart, List.dropWhile_append_of_pos]
  · simp
  · rintro c hc
    simpa using fun hSign : c = '=' => hFront (hSign ▸ hc)

theorem isAssignment_append_iff :
    IsAssignment (front ++ '=' :: behind) ↔ '=' ∉ behind ∧ front ≠ [] ∧ behind ≠ [] := by
  have hCount : (front ++ '=' :: behind).count '=' = behind.count '=' + 1 := by
    rw [List.count_append, List.count_eq_zero.2 hFront, List.count_cons_self, Nat.zero_add]
  constructor
  · rintro ⟨hOne, hPlaceholder, hTypes⟩
    rw [placeholderPart_append hFront] at hPlaceholder
    rw [typesPart_append hFront] at hTypes
    exact ⟨List.count_eq_zero.1 (by omega), hPlaceholder, hTypes⟩
  · rintro ⟨hNone, hPlaceholder, hTypes⟩
    refine ⟨by rw [hCount, List.count_eq_zero.2 hNone], ?_, ?_⟩
    · rwa [placeholderPart_append hFront]
    · rwa [typesPart_append hFront]

end

/-- A piece that is no assignment has another number of equality signs, or nothing on one side. -/
theorem read_of_not_isAssignment {piece : Text} (h : ¬IsAssignment piece) (seen : List Text) :
    read seen piece = .error ⟨piece, .malformed⟩ := by
  rw [read, Text.splitAt_eq_splitOn]
  by_cases hSign : '=' ∈ piece
  · obtain ⟨front, behind, rfl, hFront⟩ := List.eq_append_cons_of_mem hSign
    rw [List.splitOn_append_cons_self_of_not_mem hFront]
    by_cases hSecond : '=' ∈ behind
    · obtain ⟨middle, rest, rfl, hMiddle⟩ := List.eq_append_cons_of_mem hSecond
      rw [List.splitOn_append_cons_self_of_not_mem hMiddle]
      obtain ⟨last, others, hOthers⟩ := List.exists_cons_of_ne_nil (List.splitOn_ne_nil '=' rest)
      rw [hOthers]
    · rw [List.splitOn_eq_singleton hSecond]
      have hEmpty : front = [] ∨ behind = [] := by
        by_contra hNone
        exact h ((isAssignment_append_iff hFront).2 ⟨hSecond, not_or.1 hNone⟩)
      exact if_pos hEmpty
  · rw [List.splitOn_eq_singleton hSign]

theorem read_of_isAssignment {piece : Text} (h : IsAssignment piece) (seen : List Text) :
    read seen piece =
      if placeholderPart piece ∈ seen then .error ⟨piece, .repeatedPlaceholder⟩
      else if [] ∈ elements piece then .error ⟨piece, .emptyType⟩
      else .ok (ofPiece piece) := by
  have hSign : '=' ∈ piece := List.count_pos_iff.1 (by rw [h.count_eq]; exact Nat.one_pos)
  obtain ⟨front, behind, rfl, hFront⟩ := List.eq_append_cons_of_mem hSign
  obtain ⟨hSecond, hPlaceholder, hTypes⟩ := (isAssignment_append_iff hFront).1 h
  rw [read, Text.splitAt_eq_splitOn, List.splitOn_append_cons_self_of_not_mem hFront,
    List.splitOn_eq_singleton hSecond, ofPiece, elements, placeholderPart_append hFront,
    typesPart_append hFront]
  dsimp only
  rw [if_neg (not_or.2 ⟨hPlaceholder, hTypes⟩), Text.splitAt_eq_splitOn]

/-- The rule that a piece breaks, where the placeholders in `earlier` have been given before it. -/
def fault? (earlier : List Text) (piece : Text) : Option TypeArgumentFault :=
  if ¬IsAssignment piece then some .malformed
  else if earlier.contains (placeholderPart piece) then some .repeatedPlaceholder
  else if (elements piece).contains [] then some .emptyType
  else none

theorem fault?_eq (earlier : List Text) (piece : Text) : fault? earlier piece =
    if ¬IsAssignment piece then some .malformed
    else if placeholderPart piece ∈ earlier then some .repeatedPlaceholder
    else if [] ∈ elements piece then some .emptyType
    else none := by
  simp only [fault?, List.contains_iff_mem]

/-- What is made of one piece. -/
theorem read_eq (seen : List Text) (piece : Text) : read seen piece =
    match fault? seen piece with
    | some fault => .error ⟨piece, fault⟩
    | none => .ok (ofPiece piece) := by
  by_cases h : IsAssignment piece
  · rw [read_of_isAssignment h, fault?_eq, if_neg (not_not_intro h)]
    split
    · rfl
    · split <;> rfl
  · rw [read_of_not_isAssignment h, fault?_eq, if_pos h]

/-! ## All pieces -/

theorem fault?_eq_none_iff {earlier : List Text} {piece : Text} : fault? earlier piece = none ↔
    IsAssignment piece ∧ placeholderPart piece ∉ earlier ∧ [] ∉ elements piece := by
  by_cases hAssignment : IsAssignment piece
  · by_cases hMem : placeholderPart piece ∈ earlier
    · simp [fault?_eq, hAssignment, hMem]
    · simp [fault?_eq, hAssignment, hMem]
  · simp [fault?_eq, hAssignment]

/-- The rule that is named, in the order in which the rules are looked at. -/
theorem message_of_fault? {earlier : List Text} {piece : Text} {fault : TypeArgumentFault}
    (h : fault? earlier piece = some fault) : fault.message =
      if ¬IsAssignment piece then "Generic=Specific expected"
      else if placeholderPart piece ∈ earlier then "generic type given more than once"
      else "empty specific type" := by
  rw [fault?_eq] at h
  split at h
  · rename_i hAssignment
    cases h
    rw [if_pos hAssignment]
    rfl
  · rename_i hAssignment
    rw [if_neg hAssignment]
    split at h
    · rename_i hMem
      cases h
      rw [if_pos hMem]
      rfl
    · rename_i hMem
      rw [if_neg hMem]
      split at h
      · cases h
        rfl
      · cases h

theorem fault?_reverse (earlier : List Text) (piece : Text) :
    fault? earlier.reverse piece = fault? earlier piece := by
  simp only [fault?_eq, List.mem_reverse]

theorem areUsable_nil : AreUsable [] where
  isAssignment := by simp
  no_empty := by simp
  nodup := List.nodup_nil

theorem AreUsable.of_append {before after : List Text} (h : AreUsable (before ++ after)) :
    AreUsable before where
  isAssignment piece hPiece := h.isAssignment piece (List.mem_append_left after hPiece)
  no_empty piece hPiece := h.no_empty piece (List.mem_append_left after hPiece)
  nodup := by
    have hNodup := h.nodup
    rw [List.map_append] at hNodup
    exact hNodup.sublist (List.sublist_append_left _ _)

/-- A further piece keeps the rules if it breaks none by itself and after those before it. -/
theorem areUsable_concat_iff {before : List Text} {piece : Text} :
    AreUsable (before ++ [piece]) ↔
      AreUsable before ∧ fault? (before.map placeholderPart) piece = none := by
  rw [fault?_eq_none_iff]
  constructor
  · intro h
    have hMem : piece ∈ before ++ [piece] := List.mem_append_right before List.mem_cons_self
    have hNodup := h.nodup
    rw [List.map_append, List.nodup_append_comm, List.map_singleton, List.singleton_append,
      List.nodup_cons] at hNodup
    exact ⟨h.of_append, h.isAssignment piece hMem, hNodup.1, h.no_empty piece hMem⟩
  · rintro ⟨h, hAssignment, hNew, hNoEmpty⟩
    refine ⟨fun other hOther => ?_, fun other hOther => ?_, ?_⟩
    · rcases List.mem_append.1 hOther with hOther | hOther
      · exact h.isAssignment other hOther
      · exact List.mem_singleton.1 hOther ▸ hAssignment
    · rcases List.mem_append.1 hOther with hOther | hOther
      · exact h.no_empty other hOther
      · exact List.mem_singleton.1 hOther ▸ hNoEmpty
    · rw [List.map_append, List.nodup_append_comm, List.map_singleton, List.singleton_append,
        List.nodup_cons]
      exact ⟨hNew, h.nodup⟩

theorem readAll_cons (seen : List Text) (piece : Text) (after : List Text) :
    readAll seen (piece :: after) =
      match fault? seen piece with
      | some fault => .error ⟨piece, fault⟩
      | none => (readAll (placeholderPart piece :: seen) after).map (ofPiece piece :: ·) := by
  rw [readAll, read_eq]
  cases fault? seen piece with
  | some fault => rfl
  | none => rfl

/-- After pieces that keep the rules, either all others keep them too and are read, or the first
piece that breaks one is reported. -/
theorem readAll_cases {before : List Text} (h : AreUsable before) (after : List Text) :
    (AreUsable (before ++ after) ∧
      readAll (before.map placeholderPart).reverse after = .ok (after.map ofPiece)) ∨
    ∃ usable piece rest fault, before ++ after = usable ++ piece :: rest ∧ AreUsable usable ∧
      fault? (usable.map placeholderPart) piece = some fault ∧
      readAll (before.map placeholderPart).reverse after = .error ⟨piece, fault⟩ := by
  induction after generalizing before with
  | nil => exact .inl ⟨by rwa [List.append_nil], rfl⟩
  | cons piece after ih =>
      rw [readAll_cons, fault?_reverse]
      cases hFault : fault? (before.map placeholderPart) piece with
      | some fault => exact .inr ⟨before, piece, after, fault, rfl, h, hFault, rfl⟩
      | none =>
          have hSeen : ((before ++ [piece]).map placeholderPart).reverse =
              placeholderPart piece :: (before.map placeholderPart).reverse := by simp
          have hLater := ih (areUsable_concat_iff.2 ⟨h, hFault⟩)
          rw [hSeen, List.append_assoc, List.singleton_append] at hLater
          rcases hLater with ⟨hUsable, hRead⟩ | ⟨usable, bad, rest, fault, hPieces, hUsable, hBad, hRead⟩
          · exact .inl ⟨hUsable, by rw [hRead]; rfl⟩
          · exact .inr ⟨usable, bad, rest, fault, hPieces, hUsable, hBad, by rw [hRead]; rfl⟩

theorem not_areUsable_of_fault? {usable rest : List Text} {piece : Text} {fault : TypeArgumentFault}
    (h : fault? (usable.map placeholderPart) piece = some fault) :
    ¬AreUsable (usable ++ piece :: rest) := by
  intro hUsable
  rw [← List.singleton_append, ← List.append_assoc] at hUsable
  rw [(areUsable_concat_iff.1 hUsable.of_append).2] at h
  cases h

theorem pieces_cons_space (t : Text) : pieces (' ' :: t) = pieces t := by
  rw [pieces, List.splitOn_cons_eq_if_modifyHead]
  rfl

theorem pieces_of_spaces {t : Text} (h : ∀ c ∈ t, c = ' ') : pieces t = [] := by
  induction t with
  | nil => rfl
  | cons c t ih =>
      obtain ⟨rfl, hRest⟩ := List.forall_mem_cons.1 h
      rw [pieces_cons_space, ih hRest]

end TypeArgument

namespace TypeSet

open TypeArgument

/-- What is made of a text of type arguments: all ways to choose types, or the first broken rule. -/
theorem parseAll_cases (arguments : Text) :
    (AreUsable (pieces arguments) ∧ parseAll arguments =
      .ok (if pieces arguments = [] then [] else product ((pieces arguments).map ofPiece) empty)) ∨
    ∃ usable piece rest fault, pieces arguments = usable ++ piece :: rest ∧ AreUsable usable ∧
      fault? (usable.map placeholderPart) piece = some fault ∧
      parseAll arguments = .error ⟨piece, fault⟩ := by
  have hCases := readAll_cases areUsable_nil (pieces arguments)
  rw [List.map_nil, List.reverse_nil, List.nil_append] at hCases
  rw [parseAll, split_eq_pieces]
  rcases hCases with ⟨hUsable, hRead⟩ | ⟨usable, piece, rest, fault, hPieces, hUsable, hFault, hRead⟩
  · refine .inl ⟨hUsable, ?_⟩
    rw [hRead]
    cases pieces arguments with
    | nil => rfl
    | cons piece rest => rfl
  · exact .inr ⟨usable, piece, rest, fault, hPieces, hUsable, hFault, by rw [hRead]; rfl⟩

/-- Type arguments are taken if and only if all pieces keep the rules. Otherwise the first piece that
breaks one is reported with its rule: the form of an assignment comes before a placeholder that is
given again, and that before an empty type. Spaces alone mean no type set. -/
theorem parseAll_outcome (arguments : Text) :
    ((∃ sets, parseAll arguments = .ok sets) ↔ AreUsable (pieces arguments)) ∧
    (¬AreUsable (pieces arguments) → ∃ usable piece rest e,
      pieces arguments = usable ++ piece :: rest ∧ AreUsable usable ∧ ¬AreUsable (usable ++ [piece]) ∧
      parseAll arguments = .error e ∧ e.argument = piece ∧
      e.fault.message =
        if ¬IsAssignment piece then "Generic=Specific expected"
        else if placeholderPart piece ∈ usable.map placeholderPart then
          "generic type given more than once"
        else "empty specific type") ∧
    ((∀ c ∈ arguments, c = ' ') → parseAll arguments = .ok []) := by
  rcases parseAll_cases arguments with
    ⟨hUsable, hParse⟩ | ⟨usable, piece, rest, fault, hPieces, hUsable, hFault, hParse⟩
  · refine ⟨⟨fun _ => hUsable, fun _ => ⟨_, hParse⟩⟩, fun hNot => absurd hUsable hNot, fun hSpaces => ?_⟩
    rw [hParse, pieces_of_spaces hSpaces]
    rfl
  · have hNot : ¬AreUsable (pieces arguments) := by
      rw [hPieces]
      exact not_areUsable_of_fault? hFault
    refine ⟨⟨?_, fun hAll => absurd hAll hNot⟩, fun _ => ?_, fun hSpaces => ?_⟩
    · rintro ⟨sets, hSets⟩
      rw [hParse] at hSets
      cases hSets
    · exact ⟨usable, piece, rest, _, hPieces, hUsable, not_areUsable_of_fault? hFault, hParse, rfl,
        message_of_fault? hFault⟩
    · rw [pieces_of_spaces hSpaces] at hPieces
      simp at hPieces

/-- A placeholder that is given again is reported before the empty types that it is given. -/
example : parseAll "A=int B=int A=, C".toList = .error ⟨"A=,".toList, .repeatedPlaceholder⟩ := rfl

end TypeSet

end GoTemplate
