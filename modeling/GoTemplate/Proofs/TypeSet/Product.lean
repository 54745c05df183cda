import GoTemplate.Proofs.TypeSet.Arguments
import Mathlib.Algebra.BigOperators.Group.List.Basic
import Mathlib.Data.List.Infix

/-!
The type sets that type arguments mean, by their numbers. The number of a set, written with one digit for
each placeholder, tells which of its types every placeholder has in it.
-/

namespace GoTemplate

/-! ## Lists made of parts of one length -/

/-- The item at a place of a list of parts that all have the same length. -/
theorem getElem?_flatMap_eq_some_iff {α β : Type} {f : α → List β} {n : Nat}
    (hLength : ∀ a, (f a).length = n) {as : List α} {i : Nat} {b : β} :
    (as.flatMap f)[i]? = some b ↔
      ∃ d r a, d * n + r = i ∧ as[d]? = some a ∧ (f a)[r]? = some b := by
  induction as generalizing i with
  | nil => simp
  | cons a as ih =>
      rw [List.flatMap_cons]
      constructor
      · intro h
        rcases Nat.lt_or_ge i n with hFirst | hLater
        · rw [List.getElem?_append_left (by rwa [hLength])] at h
          exact ⟨0, i, a, by simp, rfl, h⟩
        · rw [List.getElem?_append_right (by rwa [hLength]), hLength] at h
          obtain ⟨d, r, a', hPlace, ha, hb⟩ := ih.1 h
          refine ⟨d + 1, r, a', ?_, ha, hb⟩
          rw [Nat.succ_mul]
          omega
      · rintro ⟨d, r, a', rfl, ha, hb⟩
        have hr : r < n := hLength a' ▸ (List.getElem?_eq_some_iff.1 hb).1
        cases d with
        | zero =>
            cases ha
            rw [Nat.zero_mul, Nat.zero_add, List.getElem?_append_left (by rwa [hLength]), hb]
        | succ d =>
            rw [Nat.succ_mul, List.getElem?_append_right (by rw [hLength]; omega), hLength]
            exact ih.2 ⟨d, r, a', by omega, ha, hb⟩

/-- All items made of two parts differ if and only if each part is given once. -/
theorem nodup_flatMap_map_iff {α β γ : Type} {f : α → β → γ} (hInjective : Function.Injective2 f)
    {as : List α} {bs : List β} (hAs : as ≠ []) (hBs : bs ≠ []) :
    (as.flatMap fun a => bs.map (f a)).Nodup ↔ as.Nodup ∧ bs.Nodup := by
  obtain ⟨a, ha⟩ := List.exists_mem_of_ne_nil as hAs
  obtain ⟨b, hb⟩ := List.exists_mem_of_ne_nil bs hBs
  have hPart : ∀ a, (bs.map (f a)).Nodup ↔ bs.Nodup := fun a =>
    List.nodup_map_iff fun _ _ hSame => (hInjective hSame).2
  have hApart : ∀ a a', (bs.map (f a)).Disjoint (bs.map (f a')) ↔ a ≠ a' := by
    intro a a'
    constructor
    · rintro hDisjoint rfl
      exact hDisjoint (List.mem_map_of_mem hb) (List.mem_map_of_mem hb)
    · intro hDifferent c hHere hThere
      obtain ⟨_, -, rfl⟩ := List.mem_map.1 hHere
      obtain ⟨_, -, hSame⟩ := List.mem_map.1 hThere
      exact hDifferent (hInjective hSame).1.symm
  rw [List.nodup_flatMap]
  constructor
  · rintro ⟨hParts, hPairwise⟩
    exact ⟨hPairwise.imp (hApart _ _).1, (hPart a).1 (hParts a ha)⟩
  · rintro ⟨hDifferent, hRest⟩
    exact ⟨fun a _ => (hPart a).2 hRest, hDifferent.imp (hApart _ _).2⟩

/-! ## Choices -/

namespace TypeSet

variable {s : TypeSet} {key value : Text}

theorem entries_injective : Function.Injective entries := by
  rintro ⟨entries, _⟩ ⟨_, _⟩ rfl
  rfl

/-- A new placeholder comes last. -/
theorem entries_insert_of_not_mem (h : key ∉ s.keys) :
    (s.insert key value).entries = s.entries ++ [(key, value)] := by
  have hPairs : ∀ pairs : List (Text × Text), key ∉ pairs.map Prod.fst →
      insertPair key value pairs = pairs ++ [(key, value)] := by
    intro pairs hNew
    induction pairs with
    | nil => rfl
    | cons pair pairs ih =>
        rw [List.map_cons, List.mem_cons, not_or] at hNew
        rw [insertPair, if_neg (Ne.symm hNew.1), ih hNew.2, List.cons_append]
  exact hPairs s.entries h

end TypeSet

namespace TypeArgument

/-- Every way to choose a type for each placeholder, the choice for the first varying slowest. -/
def choices : List TypeArgument → List (List (Text × Text))
  | [] => [[]]
  | argument :: arguments =>
    argument.types.flatMap fun type => (choices arguments).map ((argument.placeholder, type) :: ·)

/-- The entries that digits pick: each placeholder has the type whose place is its digit. -/
inductive Picks : List TypeArgument → List Nat → List (Text × Text) → Prop where
  | nil : Picks [] [] []
  | cons {argument : TypeArgument} {arguments : List TypeArgument} {digit : Nat} {digits : List Nat}
      {type : Text} {entries : List (Text × Text)} (hType : argument.types[digit]? = some type)
      (hRest : Picks arguments digits entries) :
      Picks (argument :: arguments) (digit :: digits) ((argument.placeholder, type) :: entries)

/-- How many types each placeholder has. -/
def radices (arguments : List TypeArgument) : List Nat := arguments.map (·.types.length)

/-- The number that digits write where each place has its own number of digits. The first digit is the
most significant. -/
def ofDigits : (radices digits : List Nat) → Nat
  | _ :: radices, digit :: digits => digit * radices.prod + ofDigits radices digits
  | _, _ => 0

theorem length_choices (arguments : List TypeArgument) :
    (choices arguments).length = (radices arguments).prod := by
  induction arguments with
  | nil => rfl
  | cons argument arguments ih =>
      rw [choices, List.length_flatMap, radices, List.map_cons, List.prod_cons]
      simp [ih, radices]

/-- The choice at a place is what the digits of the place pick. -/
theorem getElem?_choices_eq_some_iff {arguments : List TypeArgument} {i : Nat}
    {entries : List (Text × Text)} : (choices arguments)[i]? = some entries ↔
      ∃ digits, ofDigits (radices arguments) digits = i ∧ Picks arguments digits entries := by
  induction arguments generalizing i entries with
  | nil =>
      rw [choices, List.getElem?_singleton]
      constructor
      · intro h
        split at h
        · rename_i hFirst
          cases h
          exact ⟨[], hFirst.symm, .nil⟩
        · cases h
      · rintro ⟨digits, rfl, hPicks⟩
        cases hPicks
        rfl
  | cons argument arguments ih =>
      have hLength : ∀ type, ((choices arguments).map ((argument.placeholder, type) :: ·)).length =
          (radices arguments).prod := by
        intro type
        rw [List.length_map, length_choices]
      rw [choices, getElem?_flatMap_eq_some_iff hLength]
      constructor
      · rintro ⟨digit, place, type, rfl, hType, hEntries⟩
        rw [List.getElem?_map, Option.map_eq_some_iff] at hEntries
        obtain ⟨others, hOthers, rfl⟩ := hEntries
        obtain ⟨digits, rfl, hPicks⟩ := ih.1 hOthers
        exact ⟨digit :: digits, rfl, .cons hType hPicks⟩
      · rintro ⟨digits, rfl, hPicks⟩
        cases hPicks with
        | @cons _ _ digit digits type others hType hRest =>
            refine ⟨digit, ofDigits (radices arguments) digits, type, rfl, hType, ?_⟩
            rw [List.getElem?_map, ih.2 ⟨digits, rfl, hRest⟩]
            rfl

theorem choices_ne_nil {arguments : List TypeArgument}
    (hTypes : ∀ argument ∈ arguments, argument.types ≠ []) : choices arguments ≠ [] := by
  induction arguments with
  | nil => simp [choices]
  | cons argument arguments ih =>
      obtain ⟨hType, hOthers⟩ := List.forall_mem_cons.1 hTypes
      obtain ⟨type, hMem⟩ := List.exists_mem_of_ne_nil _ hType
      obtain ⟨entries, hEntries⟩ := List.exists_mem_of_ne_nil _ (ih hOthers)
      exact List.ne_nil_of_mem (List.mem_flatMap.2 ⟨type, hMem, List.mem_map_of_mem hEntries⟩)

/-- All choices differ if and only if no placeholder has a type twice. -/
theorem nodup_choices_iff {arguments : List TypeArgument}
    (hTypes : ∀ argument ∈ arguments, argument.types ≠ []) :
    (choices arguments).Nodup ↔ ∀ argument ∈ arguments, argument.types.Nodup := by
  induction arguments with
  | nil => simp [choices]
  | cons argument arguments ih =>
      obtain ⟨hType, hOthers⟩ := List.forall_mem_cons.1 hTypes
      have hInjective : Function.Injective2 fun type (entries : List (Text × Text)) =>
          (argument.placeholder, type) :: entries := by
        intro type other entries others hSame
        obtain ⟨hFirst, hRest⟩ := List.cons_eq_cons.1 hSame
        exact ⟨(Prod.mk.inj hFirst).2, hRest⟩
      rw [choices, nodup_flatMap_map_iff hInjective hType (choices_ne_nil hOthers), ih hOthers,
        List.forall_mem_cons]

/-! ## The product -/

theorem map_entries_product {arguments : List TypeArgument} {s : TypeSet}
    (hNew : (s.keys ++ arguments.map (·.placeholder)).Nodup) :
    (product arguments s).map TypeSet.entries = (choices arguments).map (s.entries ++ ·) := by
  induction arguments generalizing s with
  | nil => simp [product, choices]
  | cons argument arguments ih =>
      have hFirst : argument.placeholder ∉ s.keys := by
        intro hMem
        exact (List.nodup_append.1 hNew).2.2 _ hMem _ List.mem_cons_self rfl
      have hPart : ∀ type, (product arguments (s.insert argument.placeholder type)).map TypeSet.entries =
          ((choices arguments).map ((argument.placeholder, type) :: ·)).map (s.entries ++ ·) := by
        intro type
        have hEntries : (s.insert argument.placeholder type).entries =
            s.entries ++ [(argument.placeholder, type)] := TypeSet.entries_insert_of_not_mem hFirst
        have hKeys : (s.insert argument.placeholder type).keys = s.keys ++ [argument.placeholder] := by
          rw [TypeSet.keys, hEntries, List.map_append]
          rfl
        rw [ih (by rwa [hKeys, List.append_assoc]), hEntries, List.map_map]
        exact List.map_congr_left fun entries _ => List.append_assoc _ _ _
      rw [product, choices, List.map_flatMap, List.map_flatMap]
      exact congrArg (List.flatMap · argument.types) (funext hPart)

/-- A value stands for one type at least. -/
theorem expand_ne_nil (value : Text) : expand value ≠ [] := by
  rw [expand]
  split
  · decide
  · split
    · decide
    · exact List.cons_ne_nil value []

theorem types_ofPiece_ne_nil (piece : Text) : (ofPiece piece).types ≠ [] := by
  obtain ⟨value, values, hElements⟩ := List.exists_cons_of_ne_nil (List.splitOn_ne_nil ',' (typesPart piece))
  rw [ofPiece, elements, hElements, List.flatMap_cons]
  exact List.append_ne_nil_of_left_ne_nil (expand_ne_nil value) _

/-- The entries of the type sets that pieces mean are all ways to choose types. -/
theorem map_entries_product_ofPiece {pieces : List Text} (h : AreUsable pieces) :
    (product (pieces.map ofPiece) TypeSet.empty).map TypeSet.entries = choices (pieces.map ofPiece) := by
  have hPlaceholders : (pieces.map ofPiece).map (·.placeholder) = pieces.map placeholderPart := by
    rw [List.map_map]
    rfl
  rw [map_entries_product]
  · exact List.map_id _
  · rw [hPlaceholders]
    exact h.nodup

end TypeArgument

namespace TypeSet

open TypeArgument

/-- There are as many type sets as there are ways to choose a type for each placeholder. The set with a
given number has every placeholder, in the order of the arguments, with the type at its digit of the
number. The sets all differ if and only if no placeholder has a type twice. -/
theorem parseAll_mixedRadix {arguments : Text} {sets : List TypeSet}
    (h : parseAll arguments = .ok sets) (hPieces : pieces arguments ≠ []) :
    let pairs := (pieces arguments).map ofPiece
    sets.length = (radices pairs).prod ∧
      (∀ i set, sets[i]? = some set ↔
        ∃ digits, ofDigits (radices pairs) digits = i ∧ Picks pairs digits set.entries) ∧
      (sets.Nodup ↔ ∀ pair ∈ pairs, pair.types.Nodup) := by
  intro pairs
  rcases parseAll_cases arguments with ⟨hUsable, hParse⟩ | ⟨_, _, _, _, -, -, -, hParse⟩
  · rw [if_neg hPieces, h, Except.ok.injEq] at hParse
    have hEntries : sets.map entries = choices pairs := by
      rw [hParse]
      exact map_entries_product_ofPiece hUsable
    have hTypes : ∀ pair ∈ pairs, pair.types ≠ [] := by
      intro pair hPair
      obtain ⟨piece, -, rfl⟩ := List.mem_map.1 hPair
      exact types_ofPiece_ne_nil piece
    refine ⟨?_, fun i set => ?_, ?_⟩
    · rw [← length_choices, ← hEntries, List.length_map]
    · rw [← getElem?_choices_eq_some_iff, ← hEntries, List.getElem?_map]
      exact (Option.map_injective entries_injective).eq_iff.symm
    · rw [← nodup_choices_iff hTypes, ← hEntries, List.nodup_map_iff entries_injective]
  · rw [h] at hParse
    cases hParse

/-- Two placeholders, one of them with all number types. -/
theorem parseAll_mixedRadix_numbers :
    let arguments : Text := " K=string,int  V=NUMBERS".toList
    let set : TypeSet := ⟨[("K".toList, "int".toList), ("V".toList, "float64".toList)], by decide⟩
    ∃ sets, parseAll arguments = .ok sets ∧ pieces arguments ≠ [] ∧ sets.length = 24 ∧
      sets[13]? = some set ∧ sets.Nodup := by
  intro arguments set
  have hParse : parseAll arguments = .ok (product ((pieces arguments).map ofPiece) empty) := by rfl
  have hPieces : pieces arguments ≠ [] := by decide
  obtain ⟨hLength, hNumber, hNodup⟩ := parseAll_mixedRadix hParse hPieces
  refine ⟨_, hParse, hPieces, hLength.trans (by decide), (hNumber 13 set).2 ⟨[1, 1], by decide, ?_⟩,
    hNodup.2 (by decide)⟩
  exact .cons rfl (.cons rfl .nil)

end TypeSet

end GoTemplate
