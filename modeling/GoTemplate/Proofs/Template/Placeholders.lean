import GoTemplate.Proofs.Syntax.SpecStarts

/-!
The placeholders of a template are those that its tokens declare. A name is one of them if somewhere
the declaration of a type starts with it and goes on with a member of the generic package. Each
placeholder comes once, and they come in the order in which they are first declared.
-/

namespace GoTemplate

open Brackets

/-! ## First places -/

section

variable {α : Type} [BEq α] [LawfulBEq α]

/-- The first place of an item in a list of items with their places. -/
def IsFirstPlace (places : List (α × Nat)) (a : α) (i : Nat) : Prop :=
  (a, i) ∈ places ∧ ∀ j, (a, j) ∈ places → i ≤ j

omit [LawfulBEq α] in
theorem map_fst_filter_ne (a : α) (places : List (α × Nat)) :
    (places.filter fun place => !place.1 == a).map Prod.fst =
      (places.map Prod.fst).filter fun b => !b == a := by
  rw [List.filter_map]
  rfl

theorem nodup_eraseDups (as : List α) : as.eraseDups.Nodup := by
  match as with
  | [] => exact List.nodup_nil
  | a :: as =>
    rw [List.eraseDups_cons, List.nodup_cons, List.mem_eraseDups]
    exact ⟨by simp, nodup_eraseDups _⟩
  termination_by as.length
  decreasing_by
    exact Nat.lt_succ_of_le (List.length_filter_le _ as)

/-- Items without their repetitions come in the order of their first places. -/
theorem exists_firstPlaces {places : List (α × Nat)}
    (hIncreasing : (places.map Prod.snd).Pairwise (· < ·)) :
    ∃ firsts : List Nat, firsts.Pairwise (· < ·) ∧
      List.Forall₂ (IsFirstPlace places) (places.map Prod.fst).eraseDups firsts := by
  match places with
  | [] => exact ⟨[], .nil, .nil⟩
  | (a, i) :: places =>
    rw [List.map_cons, List.pairwise_cons] at hIncreasing
    obtain ⟨hFirst, hOthers⟩ := hIncreasing
    have hLater : ∀ b j, (b, j) ∈ places → i < j := fun b j h =>
      hFirst j (List.mem_map.2 ⟨(b, j), h, rfl⟩)
    have hSub : ((places.filter fun place => !place.1 == a).map Prod.snd).Pairwise (· < ·) :=
      hOthers.sublist (List.filter_sublist.map Prod.snd)
    obtain ⟨firsts, hFirsts, hPlaces⟩ := exists_firstPlaces hSub
    have hSame : ∀ b j, IsFirstPlace (places.filter fun place => !place.1 == a) b j →
        IsFirstPlace ((a, i) :: places) b j := by
      rintro b j ⟨hIn, hLeast⟩
      have hNe : b ≠ a := by simpa using (List.mem_filter.1 hIn).2
      refine ⟨List.mem_cons_of_mem _ (List.mem_filter.1 hIn).1, fun k hk => hLeast k ?_⟩
      rcases List.mem_cons.1 hk with hSame | hk
      · exact absurd (Prod.mk.inj hSame).1 hNe
      · exact List.mem_filter.2 ⟨hk, by simpa using hNe⟩
    refine ⟨i :: firsts, List.pairwise_cons.2 ⟨?_, hFirsts⟩, ?_⟩
    · intro j hj
      rw [← List.map_snd_zip hPlaces.length_eq.ge] at hj
      obtain ⟨⟨b, j⟩, hPair, rfl⟩ := List.mem_map.1 hj
      exact hLater b j (List.mem_filter.1 (List.forall₂_zip hPlaces hPair).1).1
    · rw [List.map_cons, List.eraseDups_cons, ← map_fst_filter_ne]
      refine .cons ⟨List.mem_cons_self, fun j hj => ?_⟩ (hPlaces.imp hSame)
      rcases List.mem_cons.1 hj with hSame | hj
      · exact (Prod.mk.inj hSame).2.ge
      · exact (hLater a j hj).le
  termination_by places.length
  decreasing_by
    exact Nat.lt_succ_of_le (List.length_filter_le _ places)

end

/-! ## Declared placeholders -/

section

variable (tokens : List Token) (name : Text)

/-- The token at a place is the name. -/
def NamedAt (i : Nat) : Prop :=
  ∃ t, tokens[i]? = some t ∧ t.kind = .identifier ∧ t.lexeme = name

/-- At the place `i` the declaration of a type starts that makes the name a placeholder. -/
structure DeclaresPlaceholder (i : Nat) : Prop where
  isSpecStart : IsSpecStart tokens i
  named : NamedAt tokens name i
  generic : namesGeneric (tokens.drop (i + 1)) = true

/-- Nowhere a square bracket opens directly behind the name where it is declared. -/
def NoBracketBehind : Prop :=
  ∀ i, IsSpecStart tokens i → NamedAt tokens name i → kindAt tokens (i + 1) ≠ .opening .square

end

namespace SourceFile

/-- The names that are declared to be placeholders, with the places where their declarations start. -/
def placeholderPlaces (file : SourceFile) (starts : List Nat) : List (Text × Nat) :=
  ((file.typeSpecs.zip starts).filter (·.1.isPlaceholder)).map fun place =>
    (place.1.name.name, place.2)

theorem map_fst_placeholderPlaces {file : SourceFile} {starts : List Nat}
    (hLength : file.typeSpecs.length = starts.length) :
    (file.placeholderPlaces starts).map Prod.fst =
      (file.typeSpecs.filter TypeSpec.isPlaceholder).map (·.name.name) := by
  have hZip : file.typeSpecs = (file.typeSpecs.zip starts).map Prod.fst :=
    (List.map_fst_zip hLength.le).symm
  conv_rhs => rw [hZip]
  rw [placeholderPlaces, List.filter_map, List.map_map, List.map_map]
  rfl

theorem pairwise_placeholderPlaces {file : SourceFile} {starts : List Nat}
    (hLength : file.typeSpecs.length = starts.length) (h : starts.Pairwise (· < ·)) :
    ((file.placeholderPlaces starts).map Prod.snd).Pairwise (· < ·) := by
  rw [← List.map_snd_zip hLength.ge] at h
  rw [placeholderPlaces, List.map_map]
  exact h.sublist (List.filter_sublist.map Prod.snd)

/-- The tokens say which names are the placeholders of a source file. -/
structure HasPlaceholdersOf (file : SourceFile) (tokens : List Token) : Prop where
  /-- A name is a placeholder if and only if it is declared to be one. -/
  mem_iff : ∀ name, NoBracketBehind tokens name →
    (name ∈ file.placeholders ↔ ∃ i, DeclaresPlaceholder tokens name i)
  /-- None comes twice. -/
  nodup : file.placeholders.Nodup
  /-- They come in the order of their first declarations, where `starts` are the places at which the
  declared types start. -/
  ordered : ∃ starts firsts : List Nat, starts.Pairwise (· < ·) ∧
    List.Forall₂ (TypeSpec.StartsAt tokens) file.typeSpecs starts ∧
    (∀ i, IsSpecStart tokens i ↔ i ∈ starts) ∧ firsts.Pairwise (· < ·) ∧
    List.Forall₂ (IsFirstPlace (file.placeholderPlaces starts)) file.placeholders firsts

theorem mem_placeholders {file : SourceFile} {name : Text} : name ∈ file.placeholders ↔
    ∃ spec ∈ file.typeSpecs, spec.isPlaceholder = true ∧ spec.name.name = name := by
  simp [placeholders, and_assoc]

/-- The placeholders of an accepted template are the declared ones, each once and in the order of their
first declarations. -/
theorem hasPlaceholdersOf_of_parse {source : Text} {file : SourceFile} (hFile : parse source = .ok file) :
    file.HasPlaceholdersOf (sourceTokens source) := by
  obtain ⟨starts, hIncreasing, hStands, hStarts⟩ := exists_starts_of_parse hFile
  have hLength := hStands.length_eq
  refine ⟨fun name hName => ⟨?_, ?_⟩, nodup_eraseDups _, ?_⟩
  · intro hIn
    obtain ⟨spec, hSpec, hPlaceholder, rfl⟩ := mem_placeholders.1 hIn
    rw [← List.map_fst_zip hLength.le] at hSpec
    obtain ⟨⟨spec, i⟩, hPair, rfl⟩ := List.mem_map.1 hSpec
    obtain ⟨hStart, ⟨t, hToken, ht, hSame⟩, hGeneric⟩ := List.forall₂_zip hStands hPair
    have hNamed : NamedAt (sourceTokens source) spec.name.name i := ⟨t, hToken, ht, by rw [hSame]⟩
    exact ⟨i, hStart, hNamed, hGeneric (hName i hStart hNamed) ▸ hPlaceholder⟩
  · rintro ⟨i, hStart, hNamed, hGeneric⟩
    have hi := (hStarts i).1 hStart
    rw [← List.map_snd_zip hLength.ge] at hi
    obtain ⟨⟨spec, i⟩, hPair, rfl⟩ := List.mem_map.1 hi
    obtain ⟨-, ⟨t, hToken, -, hSame⟩, hPlaceholder⟩ := List.forall₂_zip hStands hPair
    refine mem_placeholders.2 ⟨spec, (List.of_mem_zip hPair).1, ?_, ?_⟩
    · rw [hPlaceholder (hName i hStart hNamed), hGeneric]
    · obtain ⟨u, hOther, -, rfl⟩ := hNamed
      rw [hToken, Option.some.injEq] at hOther
      rw [hSame, hOther]
  · obtain ⟨firsts, hFirsts, hPlaces⟩ :=
      exists_firstPlaces (pairwise_placeholderPlaces hLength hIncreasing)
    rw [map_fst_placeholderPlaces hLength] at hPlaces
    exact ⟨starts, firsts, hIncreasing, hStands, hStarts, hFirsts, hPlaces⟩

/-- A template that declares two placeholders in a group, and one of them once more alone. -/
def groupedTemplate : Text :=
  "package p
type (
	B = generic.Number; A generic.Type
)
type C int; type B generic.Type".toList

private theorem exists_parse_groupedTemplate : ∃ file, parse groupedTemplate = .ok file ∧
    decide (file.placeholders = ["B".toList, "A".toList]) = true :=
  exists_parse_iff.2 (by decide +kernel)

theorem hasPlaceholdersOf_of_parse_groupedTemplate : ∃ file, parse groupedTemplate = .ok file ∧
    file.placeholders = ["B".toList, "A".toList] ∧
    file.HasPlaceholdersOf (sourceTokens groupedTemplate) := by
  obtain ⟨file, hFile, hPlaceholders⟩ := exists_parse_groupedTemplate
  exact ⟨file, hFile, of_decide_eq_true hPlaceholders, hasPlaceholdersOf_of_parse hFile⟩

end SourceFile

end GoTemplate
