import GoTemplate.Output.Merge
import GoTemplate.Output.Package
import GoTemplate.Proofs.Text.Lines
import Mathlib.Data.List.Basic
import Mathlib.Data.List.Flatten

/-!
Which lines of the instances stay when they are put together. The merger goes by how a line begins
and ends and not by its tokens. It takes a line away that looks like a package clause, an import or
a directive, and all lines that it takes for the inside of an import block. All others stay, in
their order.
-/

namespace GoTemplate.Output

open Text

/-! ## Lines that stay -/

/-- Whether a line looks like a package clause. -/
def looksLikePackage (line : Text) : Bool := "package".toList.isPrefixOf line

/-- Whether a line looks like an import. -/
def looksLikeImport (line : Text) : Bool := "import".toList.isPrefixOf line

/-- Whether a line looks like the start of an import block. -/
def opensImports (line : Text) : Bool := looksLikeImport line && ['('].isSuffixOf line

/-- Whether an import block ends with a line. -/
def closesImports (line : Text) : Bool := [')'].isSuffixOf line

/-- Whether after the lines an import block is open: one of them opens it, and none after that one
closes it. -/
def endInImports : List Text → Bool
  | [] => false
  | line :: rest => opensImports line && rest.all (!closesImports ·) || endInImports rest

/-- Whether a line is ordinary to the merger, where `before` are the lines before it. -/
def isOrdinary (before : List Text) (line : Text) : Bool :=
  !endInImports before && !looksLikePackage line && !looksLikeImport line &&
    !directive.isPrefixOf line

/-- The ordinary ones of the lines, where `before` are the lines before them. -/
def ordinaryLines (before : List Text) : List Text → List Text
  | [] => []
  | line :: rest =>
    let others := ordinaryLines (before ++ [line]) rest
    if isOrdinary before line then line :: others else others

theorem endInImports_concat (before : List Text) (line : Text) :
    endInImports (before ++ [line]) =
      (endInImports before && !closesImports line || opensImports line) := by
  induction before with
  | nil => simp [endInImports]
  | cons first before ih =>
      simp only [List.cons_append, endInImports, ih, List.all_append, List.all_cons, List.all_nil]
      cases closesImports line <;> simp [Bool.or_assoc]

theorem isSuffixOf_singleton {c : Char} {line : Text} :
    [c].isSuffixOf line = true ↔ line.getLast? = some c := by
  rw [List.isSuffixOf_iff_suffix, List.getLast?_eq_some_iff]
  constructor
  · rintro ⟨u, hu⟩
    exact ⟨u, hu.symm⟩
  · rintro ⟨u, hu⟩
    exact ⟨u, hu.symm⟩

theorem not_closes_of_opens {line : Text} (h : opensImports line = true) :
    closesImports line = false := by
  have hOpens : line.getLast? = some '(' := by
    rw [opensImports, Bool.and_eq_true] at h
    exact isSuffixOf_singleton.1 h.2
  rw [← Bool.not_eq_true]
  intro hCloses
  have hLast : line.getLast? = some ')' := isSuffixOf_singleton.1 hCloses
  rw [hOpens] at hLast
  cases hLast

theorem not_import_of_package {line : Text} (h : looksLikePackage line = true) :
    looksLikeImport line = false := by
  cases line with
  | nil => cases h
  | cons c line =>
      have hPackage : c = 'p' := by
        have hFirst : ("package".toList.isPrefixOf (c :: line)) =
            ('p' == c && "ackage".toList.isPrefixOf line) := rfl
        rw [looksLikePackage, hFirst, Bool.and_eq_true] at h
        exact (beq_iff_eq.1 h.1).symm
      subst hPackage
      rfl

/-- The lines that are cleaned and the ordinary lines are the same but for a package line. -/
theorem filter_cleanLines (packageSeen : Bool) (before lines : List Text) :
    (cleanLines packageSeen (endInImports before) lines).filter (!looksLikePackage ·) =
      ordinaryLines before lines := by
  induction lines generalizing packageSeen before with
  | nil => rfl
  | cons line rest ih =>
      have hNext := endInImports_concat before line
      rw [cleanLines, ordinaryLines]
      cases hInside : endInImports before with
      | true =>
          have hOpen : endInImports (before ++ [line]) = !closesImports line := by
            rw [hNext, hInside, Bool.true_and]
            cases hOpens : opensImports line with
            | false => rw [Bool.or_false]
            | true => rw [not_closes_of_opens hOpens]; rfl
          have hLost : isOrdinary before line = false := by rw [isOrdinary, hInside]; rfl
          have hRest := ih packageSeen (before ++ [line])
          rw [hOpen] at hRest
          rw [hLost]
          exact hRest
      | false =>
          rw [hInside, Bool.false_and, Bool.false_or] at hNext
          change (if looksLikePackage line = true then _ else if looksLikeImport line = true then _
            else _ : List Text).filter _ = _
          by_cases hPackage : looksLikePackage line = true
          · have hClosed : endInImports (before ++ [line]) = false := by
              rw [hNext, opensImports, not_import_of_package hPackage, Bool.false_and]
            have hLost : isOrdinary before line = false := by
              simp [isOrdinary, hPackage]
            have hRest := ih true (before ++ [line])
            rw [hClosed] at hRest
            rw [if_pos hPackage, hLost]
            cases packageSeen with
            | true => exact hRest
            | false => simpa [hPackage] using hRest
          · by_cases hImport : looksLikeImport line = true
            · have hOpen : endInImports (before ++ [line]) = ['('].isSuffixOf line := by
                rw [hNext, opensImports, hImport, Bool.true_and]
              have hLost : isOrdinary before line = false := by simp [isOrdinary, hImport]
              have hRest := ih packageSeen (before ++ [line])
              rw [hOpen] at hRest
              rw [if_neg hPackage, if_pos hImport, hLost]
              exact hRest
            · have hClosed : endInImports (before ++ [line]) = false := by
                rw [hNext, opensImports, Bool.eq_false_iff.2 hImport, Bool.false_and]
              have hRest := ih packageSeen (before ++ [line])
              rw [hClosed] at hRest
              rw [if_neg hPackage, if_neg hImport]
              by_cases hDirective : directive.isPrefixOf line = true
              · have hLost : isOrdinary before line = false := by simp [isOrdinary, hDirective]
                rw [if_pos hDirective, hLost]
                exact hRest
              · have hStays : isOrdinary before line = true := by
                  simp [isOrdinary, hInside, hPackage, hImport, hDirective]
                rw [if_neg hDirective, hStays, if_pos rfl, ← hRest]
                exact List.filter_cons_of_pos (by simpa using hPackage)

theorem cleanLines_sublist (packageSeen insideImports : Bool) (lines : List Text) :
    (cleanLines packageSeen insideImports lines).Sublist lines := by
  induction lines generalizing packageSeen insideImports with
  | nil => exact .slnil
  | cons line rest ih =>
      rw [cleanLines]
      split
      · exact (ih _ _).cons line
      · split
        · split
          · exact (ih _ _).cons line
          · exact (ih _ _).cons_cons line
        · split
          · exact (ih _ _).cons line
          · split
            · exact (ih _ _).cons line
            · exact (ih _ _).cons_cons line

theorem ordinaryLines_sublist (before lines : List Text) :
    (ordinaryLines before lines).Sublist lines := by
  rw [← filter_cleanLines false]
  exact List.filter_sublist.trans (cleanLines_sublist _ _ _)

/-- Of lines that neither look like a package clause nor open an import block the ordinary ones
stay. -/
theorem cleanLines_append {packageSeen : Bool} {ls : List Text} (others : List Text)
    (h : ∀ line ∈ ls, looksLikePackage line = false ∧ opensImports line = false) :
    cleanLines packageSeen false (ls ++ others) =
      ls.filter (isOrdinary []) ++ cleanLines packageSeen false others := by
  induction ls with
  | nil => rfl
  | cons line ls ih =>
      have hRest := ih fun other hOther => h other (List.mem_cons_of_mem line hOther)
      obtain ⟨hPackage, hOpens⟩ := h line List.mem_cons_self
      rw [List.cons_append, cleanLines, if_neg Bool.false_ne_true]
      refine (if_neg (Bool.eq_false_iff.1 hPackage)).trans ?_
      by_cases hImport : looksLikeImport line = true
      · have hLost : ¬isOrdinary [] line = true := by simp [isOrdinary, hImport]
        have hClosed : ['('].isSuffixOf line = false := by
          rw [opensImports, hImport, Bool.true_and] at hOpens
          exact hOpens
        rw [List.filter_cons_of_neg hLost, hClosed, hRest]
        exact if_pos hImport
      · refine (if_neg hImport).trans ?_
        by_cases hDirective : directive.isPrefixOf line = true
        · have hLost : ¬isOrdinary [] line = true := by simp [isOrdinary, hDirective]
          rw [List.filter_cons_of_neg hLost, if_pos hDirective, hRest]
        · have hStays : isOrdinary [] line = true := by
            simp [isOrdinary, endInImports, hPackage, hImport, hDirective]
          rw [List.filter_cons_of_pos hStays, if_neg hDirective, hRest]
          rfl

theorem cleanLines_append_of_ordinary {packageSeen : Bool} {ls : List Text} (others : List Text)
    (h : ∀ line ∈ ls, isOrdinary [] line = true) :
    cleanLines packageSeen false (ls ++ others) = ls ++ cleanLines packageSeen false others := by
  rw [cleanLines_append, List.filter_eq_self.2 h]
  intro line hLine
  have hLine := h line hLine
  simp only [isOrdinary, Bool.and_eq_true, Bool.not_eq_true'] at hLine
  obtain ⟨⟨⟨-, hPackage⟩, hImport⟩, -⟩ := hLine
  exact ⟨hPackage, by rw [opensImports, hImport, Bool.false_and]⟩

/-! ## The lines of the output -/

/-- The lines of the banner. -/
def bannerLines : List Text := lines banner

theorem cleanLines_banner (text : Text) : cleanLines false false (lines (banner ++ text)) =
    bannerLines ++ cleanLines false false (lines text) := by
  have hSplit : lines (banner ++ text) = bannerLines ++ lines text :=
    lines_append_of_getLast? (by decide +kernel) _
  have hBanner : ∀ line ∈ bannerLines, isOrdinary [] line = true := by decide +kernel
  rw [hSplit, cleanLines_append_of_ordinary _ hBanner]

/-- The lines of merged instances are those of the banner and then those of the instances that
stay. -/
theorem lines_merge (instances : List Text) :
    lines (merge instances) =
      bannerLines ++ (cleanLines false false (lines instances.flatten)).map chop := by
  have hChopped : bannerLines.map chop = bannerLines := by decide +kernel
  have hFeeds : ∀ line ∈ cleanLines false false (lines (banner ++ instances.flatten)),
      '\n' ∉ line :=
    fun line hLine => not_mem_of_mem_lines ((cleanLines_sublist _ _ _).mem hLine)
  rw [merge, lines_flatMap_asLine hFeeds, cleanLines_banner, List.map_append, hChopped]

/-- The ordinary lines of the instances are lines of the merged text, in their order. -/
theorem ordinaryLines_sublist_merge (instances : List Text) :
    ((ordinaryLines [] (lines instances.flatten)).map chop).Sublist (lines (merge instances)) := by
  rw [lines_merge, ← filter_cleanLines false]
  apply List.Sublist.trans _ (List.sublist_append_right _ _)
  exact List.Sublist.map chop List.filter_sublist

theorem not_looksLikePackage_of_mem {before lines : List Text} {line : Text}
    (h : line ∈ ordinaryLines before lines) : looksLikePackage line = false := by
  rw [← filter_cleanLines false] at h
  simpa using (List.mem_filter.1 h).2

/-! ## The package of the output -/

/-- Without a package line there is nothing to rename. -/
theorem renamePackageLines_eq_self (name : Text) {lines : List Text}
    (hLines : ∀ line ∈ lines, looksLikePackage line = false) :
    renamePackageLines name lines = lines := by
  induction lines with
  | nil => rfl
  | cons line lines ih =>
      obtain ⟨hLine, hLines⟩ := List.forall_mem_cons.1 hLines
      rw [looksLikePackage] at hLine
      rw [renamePackageLines, hLine, if_neg Bool.false_ne_true, ih hLines]

/-- A new package name changes no line but a package line. -/
theorem sublist_renamePackageLines {name : Text} {kept lines : List Text}
    (hKept : ∀ line ∈ kept, looksLikePackage line = false) (h : kept.Sublist lines) :
    kept.Sublist (renamePackageLines name lines) := by
  induction h with
  | slnil => exact .slnil
  | cons line hRest ih =>
      rw [renamePackageLines]
      split
      · exact hRest.cons _
      · exact (ih hKept).cons line
  | cons_cons line hRest ih =>
      have hLine : "package".toList.isPrefixOf line = false := hKept line List.mem_cons_self
      rw [renamePackageLines, hLine, if_neg Bool.false_ne_true]
      exact (ih fun other hOther => hKept other (List.mem_cons_of_mem line hOther)).cons_cons line

theorem sublist_lines_renamePackage {name text : Text} {kept : List Text}
    (hKept : ∀ line ∈ kept, looksLikePackage line = false ∧ chop line = line)
    (h : kept.Sublist (lines text)) : kept.Sublist (lines (renamePackage name text)) := by
  have hSame : kept.flatMap (fun line => lines (line ++ ['\n'])) = kept := by
    have hEach : ∀ line ∈ kept, lines (line ++ ['\n']) = [line] := by
      intro line hLine
      apply lines_append_lineFeed
      · exact not_mem_of_mem_lines (h.mem hLine)
      · intro hReturn
        rw [← (hKept line hLine).2] at hReturn
        cases getLast?_chop hReturn
    rw [List.flatMap_congr hEach]
    exact List.flatMap_singleton' kept
  have hRenamed := @sublist_renamePackageLines name _ _ (fun line hLine => (hKept line hLine).1) h
  rw [← hSame, renamePackage, lines_flatMap_append (fun line => line)]
  exact hRenamed.flatMap _

end GoTemplate.Output
