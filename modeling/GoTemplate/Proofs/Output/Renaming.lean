import GoTemplate.Proofs.Output.Layout
import GoTemplate.Proofs.Output.LinePlaces
import GoTemplate.Proofs.Output.PackageName
import GoTemplate.Proofs.Text.Words

/-!
The package of merged instances. Another name changes one line, and in this line one word, so that of
several names given one after another the last one stays.
-/

namespace GoTemplate

namespace Text

/-- Characters that are no white space stand in front of the first word or are its start. -/
theorem exists_words_append {s : Text} (hs : ∀ c ∈ s, Unicode.isWhiteSpace c = false) (hNe : s ≠ [])
    (t : Text) : ∃ rest others, words (s ++ t) = (s ++ rest) :: others := by
  obtain ⟨piece, pieces, hSplit⟩ := List.exists_cons_of_ne_nil (List.splitOnP_ne_nil Unicode.isWhiteSpace t)
  rw [← splitWhere_eq_splitOnP] at hSplit
  have hLonger : splitWhere Unicode.isWhiteSpace (s ++ t) = (s ++ piece) :: pieces := by
    clear hNe
    induction s with
    | nil => exact hSplit
    | cons c s ih =>
        obtain ⟨hc, hs⟩ := List.forall_mem_cons.1 hs
        rw [List.cons_append, splitWhere, hc, if_neg Bool.false_ne_true, ih hs]
        rfl
  refine ⟨piece, pieces.filter (· ≠ []), ?_⟩
  rw [words, hLonger, List.filter_cons_of_pos (by simp [hNe])]

end Text

theorem IsName.isWord {name : Text} (h : IsName name) :
    name ≠ [] ∧ ∀ c ∈ name, Unicode.isWhiteSpace c = false := by
  constructor
  · obtain ⟨c, t, rfl⟩ := h.exists_cons
    exact List.cons_ne_nil c t
  · intro c hc
    by_contra hSpace
    have hStop := (Lexeme.isStop_of_isWhiteSpace (Bool.eq_true_of_not_eq_false hSpace)).word
    rw [isIdentifierPart_of_mem h hc] at hStop
    cases hStop

namespace Output

open Text

/-! ## The line -/

section

variable {name line : Text} (hLine : looksLikePackage line = true)

include hLine

/-- The first word of a package line starts with the keyword. -/
theorem exists_words_of_package : ∃ keyword fields, line.words = keyword :: fields ∧
    "package".toList <+: keyword := by
  obtain ⟨t, rfl⟩ := List.isPrefixOf_iff_prefix.1 hLine
  obtain ⟨rest, others, hWords⟩ :=
    exists_words_append (s := "package".toList) (by simp [Unicode.isWhiteSpace]) (by decide) t
  exact ⟨_, others, hWords, List.prefix_append _ rest⟩

variable (hName : IsName name)

include hName

/-- The words of the line with another name: the name is the second. -/
theorem exists_words_renamePackageLine : ∃ keyword fields, line.words = keyword :: fields ∧
    "package".toList <+: keyword ∧ (renamePackageLine name line).words = keyword :: name :: fields.tail ∧
    renamePackageLine name line = joinWithSpaces (keyword :: name :: fields.tail) := by
  obtain ⟨keyword, fields, hWords, hKeyword⟩ := exists_words_of_package hLine
  have hRenamed : renamePackageLine name line = joinWithSpaces (keyword :: name :: fields.tail) := by
    rw [renamePackageLine, hWords]
    cases fields <;> rfl
  refine ⟨keyword, fields, hWords, hKeyword, ?_, hRenamed⟩
  rw [hRenamed]
  refine words_joinWithSpaces fun word hWord => ?_
  simp only [List.mem_cons] at hWord
  have hOld {other : Text} (h : other ∈ keyword :: fields) := word_of_mem_words (hWords ▸ h)
  rcases hWord with rfl | rfl | hWord
  · exact hOld List.mem_cons_self
  · exact hName.isWord
  · exact hOld (List.mem_cons_of_mem _ (List.mem_of_mem_tail hWord))

/-- The line is still a package line. -/
theorem looksLikePackage_renamePackageLine : looksLikePackage (renamePackageLine name line) = true := by
  obtain ⟨keyword, fields, -, hKeyword, -, hRenamed⟩ := exists_words_renamePackageLine hLine hName
  rw [hRenamed, looksLikePackage, List.isPrefixOf_iff_prefix, joinWithSpaces_cons]
  exact hKeyword.trans (List.prefix_append _ _)

theorem isLineEnd_of_mem_renamePackageLine :
    ∀ c ∈ renamePackageLine name line, isLineEnd c = false := by
  obtain ⟨keyword, fields, -, -, hWords, hRenamed⟩ := exists_words_renamePackageLine hLine hName
  intro c hc
  rw [hRenamed] at hc
  rcases mem_joinWithSpaces hc with rfl | ⟨word, hWord, hc⟩
  · rfl
  · have hLetter := (word_of_mem_words (hWords ▸ hWord)).2 c hc
    rw [isLineEnd, Bool.or_eq_false_iff, beq_eq_false_iff_ne, beq_eq_false_iff_ne]
    constructor <;> (rintro rfl; exact absurd hLetter (by decide +kernel))

/-- A further name takes the place of this one. -/
theorem renamePackageLine_renamePackageLine (last : Text) :
    renamePackageLine last (renamePackageLine name line) = renamePackageLine last line := by
  obtain ⟨keyword, fields, hWords, -, hRenamed, -⟩ := exists_words_renamePackageLine hLine hName
  rw [renamePackageLine, hRenamed, renamePackageLine, hWords]
  cases fields <;> rfl

end

/-! ## The lines -/

/-- Lines that are read back from their text. -/
def AreWhole (ls : List Text) : Prop := ∀ line ∈ ls, '\n' ∉ line ∧ chop line = line

theorem areWhole_lines_merge (instances : List Text) : AreWhole (lines (merge instances)) := by
  intro line hLine
  refine ⟨not_mem_of_mem_lines hLine, ?_⟩
  rw [lines_merge_eq_map] at hLine
  obtain ⟨other, -, rfl⟩ := List.mem_map.1 hLine
  exact chop_chop other

namespace AreWhole

variable {ls : List Text} (h : AreWhole ls)

include h

theorem unlines_eq : unlines ls = ls.flatMap (· ++ ['\n']) :=
  List.flatMap_congr fun line hLine => by rw [asLine_eq, (h line hLine).2]

theorem lines_unlines : lines (unlines ls) = ls := by
  rw [unlines, lines_flatMap_asLine fun line hLine => (h line hLine).1,
    List.map_congr_left fun line hLine => (h line hLine).2, List.map_id']

end AreWhole

/-- There is a first package line, or there is none. -/
theorem exists_first_package (ls : List Text) : (∀ line ∈ ls, looksLikePackage line = false) ∨
    ∃ above line below, ls = above ++ line :: below ∧
      (∀ other ∈ above, looksLikePackage other = false) ∧ looksLikePackage line = true := by
  induction ls with
  | nil => exact .inl (by simp)
  | cons first ls ih =>
      cases hFirst : looksLikePackage first with
      | true => exact .inr ⟨[], first, ls, rfl, by simp, hFirst⟩
      | false =>
          rcases ih with hNone | ⟨above, line, below, rfl, hAbove, hLine⟩
          · exact .inl (List.forall_mem_cons.2 ⟨hFirst, hNone⟩)
          · exact .inr ⟨first :: above, line, below, rfl, List.forall_mem_cons.2 ⟨hFirst, hAbove⟩, hLine⟩

section

variable {name : Text} (hName : IsName name) {ls : List Text}

include hName

theorem AreWhole.renamePackageLines (h : AreWhole ls) : AreWhole (renamePackageLines name ls) := by
  rcases exists_first_package ls with hNone | ⟨above, line, below, rfl, hAbove, hLine⟩
  · rwa [renamePackageLines_eq_self name hNone]
  · rw [renamePackageLines_append hAbove hLine]
    obtain ⟨hBefore, -, hBelow⟩ : (∀ other ∈ above, _) ∧ _ ∧ ∀ other ∈ below, _ := by
      simpa only [AreWhole, List.forall_mem_append, List.forall_mem_cons] using h
    have hEnd := isLineEnd_of_mem_renamePackageLine hLine hName
    refine List.forall_mem_append.2 ⟨hBefore, List.forall_mem_cons.2 ⟨⟨fun hFeed => ?_, ?_⟩, hBelow⟩⟩
    · cases hEnd '\n' hFeed
    · exact chop_eq_self fun c hc => hEnd c (List.mem_of_getLast? hc)

/-- The last of two names is the one that stays. -/
theorem renamePackageLines_renamePackageLines (last : Text) :
    renamePackageLines last (renamePackageLines name ls) = renamePackageLines last ls := by
  rcases exists_first_package ls with hNone | ⟨above, line, below, rfl, hAbove, hLine⟩
  · rw [renamePackageLines_eq_self name hNone]
  · rw [renamePackageLines_append hAbove hLine, renamePackageLines_append hAbove hLine,
      renamePackageLines_append hAbove (looksLikePackage_renamePackageLine hLine hName),
      renamePackageLine_renamePackageLine hLine hName]

end

/-! ## Merged instances -/

/-- The lines of merged instances with another package name. -/
theorem renamePackage_merge_eq (instances : List Text) {name : Text} (hName : IsName name) :
    renamePackage name (merge instances) = unlines (renamePackageLines name (lines (merge instances))) ∧
      lines (renamePackage name (merge instances)) =
        renamePackageLines name (lines (merge instances)) := by
  have hWhole := (areWhole_lines_merge instances).renamePackageLines hName
  have hText : renamePackage name (merge instances) = unlines _ := hWhole.unlines_eq.symm
  exact ⟨hText, by rw [hText, hWhole.lines_unlines]⟩

/-- Of several package names given to merged instances one after another the last one stays. One name
changes one line at most: the first that starts with `package`. There the name is the second word, and
the other words stay as they are. All other lines do, and there are as many of them. -/
theorem renamePackage_renamePackage_merge (instances : List Text) {name : Text} (hName : IsName name)
    (last : Text) :
    let merged := merge instances
    let renamed := renamePackage name merged
    renamePackage last renamed = renamePackage last merged ∧
      unlines (lines merged) = merged ∧ unlines (lines renamed) = renamed ∧
      (lines renamed).length = (lines merged).length ∧
      ((∀ line ∈ lines merged, looksLikePackage line = false) ∧ renamed = merged ∨
        ∃ above line below line', lines merged = above ++ line :: below ∧
          (∀ other ∈ above, looksLikePackage other = false) ∧ looksLikePackage line = true ∧
          lines renamed = above ++ line' :: below ∧
          line'.words[1]? = some name ∧ line'.words.eraseIdx 1 = line.words.eraseIdx 1) := by
  intro merged renamed
  obtain ⟨hText, hLines⟩ := renamePackage_merge_eq instances hName
  have hMerged : unlines (lines merged) = merged := flatMap_lines_merge instances
  refine ⟨?_, hMerged, by rw [hLines]; exact hText.symm, ?_⟩
  · rw [renamePackage, hLines, renamePackageLines_renamePackageLines hName]
    rfl
  rcases exists_first_package (lines merged) with hNone | ⟨above, line, below, hSplit, hAbove, hLine⟩
  · have hSame : renamePackageLines name (lines merged) = lines merged :=
      renamePackageLines_eq_self name hNone
    refine ⟨by rw [hLines, hSame], .inl ⟨hNone, ?_⟩⟩
    rw [← hMerged, ← hSame]
    exact hText
  · obtain ⟨keyword, fields, hWords, -, hRenamed, -⟩ := exists_words_renamePackageLine hLine hName
    rw [hSplit, renamePackageLines_append hAbove hLine] at hLines
    refine ⟨by rw [hLines, hSplit]; simp, .inr ⟨above, line, below, _, hSplit, hAbove, hLine, hLines, ?_, ?_⟩⟩
    · rw [hRenamed]
      rfl
    · rw [hRenamed, hWords]
      cases fields <;> rfl

theorem renamePackage_renamePackage_merge_queue :
    let merged := merge ["package  queue\t// doc\r\nvar x int".toList]
    IsName "list".toList ∧
      renamePackage "stack".toList (renamePackage "list".toList merged) =
        renamePackage "stack".toList merged ∧
      (lines (renamePackage "list".toList merged)).drop 6 =
        ["package list // doc".toList, "var x int".toList] :=
  ⟨by decide +kernel,
    (renamePackage_renamePackage_merge ["package  queue\t// doc\r\nvar x int".toList] (by decide +kernel)
      "stack".toList).1,
    by decide +kernel⟩

end Output

end GoTemplate
