import GoTemplate.Proofs.Output.Merge

/-!
The lines of merged instances by their places. The merger goes through all lines once and keeps in
mind whether it is inside an import block and whether there has been a package line. Both can be
told from the lines above a place, and a second pass over the result finds nothing to take away.
-/

namespace GoTemplate.Output

open Text

/-! ## What is above a place -/

/-- A line above the place opens an import block, and no line between closes it. -/
def InImports (ls : List Text) (i : Nat) : Prop :=
  ∃ j < i, ls[j]?.any opensImports = true ∧
    ∀ k < i, j < k → ls[k]?.any closesImports = false

/-- A line above the place looks like a package clause and is outside every import block. -/
def PackageAbove (ls : List Text) (i : Nat) : Prop :=
  ∃ j < i, ls[j]?.any looksLikePackage = true ∧ ¬InImports ls j

instance (ls : List Text) (i : Nat) : Decidable (InImports ls i) :=
  inferInstanceAs (Decidable (∃ j < i, _))

instance (ls : List Text) (i : Nat) : Decidable (PackageAbove ls i) :=
  inferInstanceAs (Decidable (∃ j < i, _))

/-- Whether a line stays that is below a package line or not, and inside an import block or not. -/
def stays (belowPackage insideImports : Bool) (line : Text) : Bool :=
  !insideImports && !looksLikeImport line && !directive.isPrefixOf line &&
    !(looksLikePackage line && belowPackage)

/-- Whether a line stays, where `i` is its place: it is outside every import block, is no import
and no directive, and is not a package line below another. -/
def staysAt (ls : List Text) : Text × Nat → Bool
  | (line, i) => stays (PackageAbove ls i) (InImports ls i) line

variable {ls rest : List Text} {line : Text} {i : Nat}

theorem inImports_succ (hLine : ls[i]? = some line) :
    InImports ls (i + 1) ↔
      InImports ls i ∧ closesImports line = false ∨ opensImports line = true := by
  constructor
  · rintro ⟨j, hj, hOpens, hOpen⟩
    rcases Nat.lt_succ_iff_lt_or_eq.1 hj with hAbove | rfl
    · have hLast : closesImports line = false := by
        simpa [hLine] using hOpen i (Nat.lt_succ_self i) hAbove
      exact .inl ⟨⟨j, hAbove, hOpens, fun k hk => hOpen k (Nat.lt_succ_of_lt hk)⟩, hLast⟩
    · exact .inr (by simpa [hLine] using hOpens)
  · rintro (⟨⟨j, hj, hOpens, hOpen⟩, hLast⟩ | hOpens)
    · refine ⟨j, Nat.lt_succ_of_lt hj, hOpens, fun k hk hBetween => ?_⟩
      rcases Nat.lt_succ_iff_lt_or_eq.1 hk with hAbove | rfl
      · exact hOpen k hAbove hBetween
      · simpa [hLine] using hLast
    · refine ⟨i, Nat.lt_succ_self i, by simpa [hLine] using hOpens, fun k hk hBetween => ?_⟩
      omega

theorem packageAbove_succ (hLine : ls[i]? = some line) :
    PackageAbove ls (i + 1) ↔
      PackageAbove ls i ∨ looksLikePackage line = true ∧ ¬InImports ls i := by
  constructor
  · rintro ⟨j, hj, hPackage, hOutside⟩
    rcases Nat.lt_succ_iff_lt_or_eq.1 hj with hAbove | rfl
    · exact .inl ⟨j, hAbove, hPackage, hOutside⟩
    · exact .inr ⟨by simpa [hLine] using hPackage, hOutside⟩
  · rintro (⟨j, hj, hPackage, hOutside⟩ | ⟨hPackage, hOutside⟩)
    · exact ⟨j, Nat.lt_succ_of_lt hj, hPackage, hOutside⟩
    · exact ⟨i, Nat.lt_succ_self i, by simpa [hLine] using hPackage, hOutside⟩

/-! ## What the merger keeps in mind -/

theorem not_directive_of_package (h : looksLikePackage line = true) :
    directive.isPrefixOf line = false := by
  cases line with
  | nil => cases h
  | cons c line =>
      have hFirst : looksLikePackage (c :: line) = ('p' == c && "ackage".toList.isPrefixOf line) := rfl
      rw [hFirst, Bool.and_eq_true, beq_iff_eq] at h
      obtain ⟨rfl, -⟩ := h
      rfl

/-- One line of the merger's pass: what it keeps, and what it has in mind afterwards. -/
theorem cleanLines_cons (packageSeen insideImports : Bool) (line : Text) (rest : List Text) :
    cleanLines packageSeen insideImports (line :: rest) =
      (if stays packageSeen insideImports line then [line] else []) ++
        cleanLines (packageSeen || looksLikePackage line && !insideImports)
          (insideImports && !closesImports line || opensImports line) rest := by
  rw [cleanLines]
  cases insideImports with
  | true =>
      have hOpen : (!closesImports line || opensImports line) = !closesImports line := by
        cases hOpens : opensImports line with
        | false => rw [Bool.or_false]
        | true => rw [not_closes_of_opens hOpens]; rfl
      simp only [stays, Bool.not_true, Bool.false_and, Bool.and_false, Bool.or_false, Bool.true_and,
        hOpen]
      rfl
  | false =>
      change (if looksLikePackage line = true then _ else if looksLikeImport line = true then _
        else _ : List Text) = _
      by_cases hPackage : looksLikePackage line = true
      · have hImport := not_import_of_package hPackage
        have hDirective := not_directive_of_package hPackage
        rw [if_pos hPackage, opensImports, stays, hPackage, hImport, hDirective]
        cases packageSeen <;> rfl
      · by_cases hImport : looksLikeImport line = true
        · simp [stays, opensImports, hPackage, hImport]
        · by_cases hDirective : directive.isPrefixOf line = true
          · simp [stays, opensImports, hPackage, hImport, hDirective]
          · simp [stays, opensImports, hPackage, hImport, hDirective]

/-- What the merger keeps in mind is what is above the place. -/
theorem cleanLines_drop (hRest : ls.drop i = rest) :
    cleanLines (decide (PackageAbove ls i)) (decide (InImports ls i)) rest =
      ((rest.zipIdx i).filter (staysAt ls)).map Prod.fst := by
  induction rest generalizing i with
  | nil => rfl
  | cons line rest ih =>
      have hLine : ls[i]? = some line := by rw [← List.head?_drop, hRest, List.head?_cons]
      have hAfter : ls.drop (i + 1) = rest := by rw [← List.tail_drop, hRest, List.tail_cons]
      have hPackages : (decide (PackageAbove ls i) || looksLikePackage line &&
          !decide (InImports ls i)) = decide (PackageAbove ls (i + 1)) := by
        rw [Bool.eq_iff_iff, decide_eq_true_iff, packageAbove_succ hLine]
        simp
      have hImports : (decide (InImports ls i) && !closesImports line || opensImports line) =
          decide (InImports ls (i + 1)) := by
        rw [Bool.eq_iff_iff, decide_eq_true_iff, inImports_succ hLine]
        simp
      rw [cleanLines_cons, hPackages, hImports, ih hAfter, List.zipIdx_cons, List.filter_cons]
      change (if staysAt ls (line, i) = true then _ else _) ++ _ = _
      split <;> rfl

/-! ## Clean lines -/

/-- Lines from which the merger has nothing to take away, below a package line or not. -/
inductive IsClean : Bool → List Text → Prop where
  | nil {belowPackage : Bool} : IsClean belowPackage []
  | cons {belowPackage : Bool} {line : Text} {rest : List Text} :
      stays belowPackage false line = true → IsClean (belowPackage || looksLikePackage line) rest →
        IsClean belowPackage (line :: rest)

namespace IsClean

variable {belowPackage : Bool}

theorem weaken {other : Bool} (h : IsClean (belowPackage || other) ls) : IsClean belowPackage ls := by
  generalize hBelow : (belowPackage || other) = below at h
  induction h generalizing belowPackage with
  | nil => exact .nil
  | @cons _ line rest hStays _ ih =>
      have hLine : stays belowPackage false line = true := by
        cases belowPackage with
        | true => rwa [← hBelow, Bool.true_or] at hStays
        | false =>
            rw [stays, Bool.and_eq_true] at hStays ⊢
            exact ⟨hStays.1, by rw [Bool.and_false, Bool.not_false]⟩
      refine .cons hLine (ih ?_)
      rw [← hBelow, Bool.or_right_comm]

theorem no_import (h : IsClean belowPackage ls) :
    ∀ line ∈ ls, looksLikeImport line = false ∧ directive.isPrefixOf line = false := by
  induction h with
  | nil => simp
  | cons hStays _ ih =>
      simp only [stays, Bool.and_eq_true, Bool.not_eq_true'] at hStays
      obtain ⟨⟨⟨-, hImport⟩, hDirective⟩, -⟩ := hStays
      exact List.forall_mem_cons.2 ⟨⟨hImport, hDirective⟩, ih⟩

theorem countP_le (h : IsClean belowPackage ls) :
    ls.countP looksLikePackage ≤ if belowPackage then 0 else 1 := by
  induction h with
  | nil => simp
  | @cons below line rest hStays _ ih =>
      rw [List.countP_cons]
      cases hPackage : looksLikePackage line with
      | false =>
          rw [hPackage, Bool.or_false] at ih
          exact ih
      | true =>
          have hBelow : below = false := by
            rw [stays, hPackage, Bool.and_eq_true] at hStays
            simpa using hStays.2
          rw [hPackage, Bool.or_true, if_pos rfl] at ih
          rw [hBelow, if_pos rfl, if_neg Bool.false_ne_true]
          omega

theorem cleanLines_eq (h : IsClean belowPackage ls) : cleanLines belowPackage false ls = ls := by
  induction h with
  | nil => rfl
  | @cons below line rest hStays hRest ih =>
      have hImport := ((cons hStays hRest).no_import line List.mem_cons_self).1
      rw [cleanLines_cons, hStays, opensImports, hImport, Bool.not_false, Bool.and_true]
      exact congrArg (line :: ·) ih

end IsClean

theorem isClean_cleanLines (packageSeen insideImports : Bool) (ls : List Text) :
    IsClean packageSeen (cleanLines packageSeen insideImports ls) := by
  induction ls generalizing packageSeen insideImports with
  | nil => exact .nil
  | cons line rest ih =>
      rw [cleanLines_cons]
      split
      · rename_i hStays
        cases insideImports with
        | true => cases hStays
        | false =>
            rw [Bool.not_false, Bool.and_true]
            exact .cons hStays (ih _ _)
      · exact (ih _ _).weaken

/-! ## Line ends -/

/-- What a line starts with is not cut from its end. -/
theorem isPrefixOf_chop {word : Text} (h : ∀ c, word.getLast? = some c → isLineEnd c = false)
    (line : Text) : word.isPrefixOf (chop line) = word.isPrefixOf line := by
  rw [Bool.eq_iff_iff, List.isPrefixOf_iff_prefix, List.isPrefixOf_iff_prefix]
  constructor
  · exact fun hPrefix => hPrefix.trans (chop_isPrefix line)
  · rintro ⟨rest, rfl⟩
    rw [chop_append h]
    exact List.prefix_append word _

theorem looksLikePackage_chop (line : Text) : looksLikePackage (chop line) = looksLikePackage line :=
  isPrefixOf_chop (by rintro c ⟨⟩; rfl) line

theorem stays_chop (belowPackage : Bool) (line : Text) :
    stays belowPackage false (chop line) = stays belowPackage false line := by
  have hImport : looksLikeImport (chop line) = looksLikeImport line :=
    isPrefixOf_chop (by rintro c ⟨⟩; rfl) line
  have hDirective : directive.isPrefixOf (chop line) = directive.isPrefixOf line :=
    isPrefixOf_chop (by rintro c ⟨⟩; rfl) line
  rw [stays, stays, hImport, hDirective, looksLikePackage_chop]

theorem IsClean.map_chop {belowPackage : Bool} (h : IsClean belowPackage ls) :
    IsClean belowPackage (ls.map chop) := by
  induction h with
  | nil => exact .nil
  | @cons below line rest hStays _ ih =>
      refine .cons (by rwa [stays_chop]) ?_
      rwa [looksLikePackage_chop]

/-! ## Merged instances -/

theorem lines_merge_eq_map (instances : List Text) : lines (merge instances) =
    (cleanLines false false (lines (banner ++ instances.flatten))).map chop :=
  lines_flatMap_asLine fun _ hLine => not_mem_of_mem_lines ((cleanLines_sublist _ _ _).mem hLine)

theorem isClean_lines_merge (instances : List Text) : IsClean false (lines (merge instances)) := by
  rw [lines_merge_eq_map]
  exact (isClean_cleanLines _ _ _).map_chop

theorem flatMap_lines_merge (instances : List Text) :
    (lines (merge instances)).flatMap asLine = merge instances := by
  have hAgain (line : Text) : asLine (chop line) = asLine line := by
    rw [asLine_eq, chop_chop, asLine_eq]
  rw [lines_merge_eq_map, List.flatMap_map, merge]
  exact List.flatMap_congr fun line _ => hAgain line

/-- What has been merged is merged as it is. -/
theorem merge_of_merge_eq {instances : List Text} {body : Text}
    (h : merge instances = banner ++ body) : merge [body] = banner ++ body := by
  have hClean := (isClean_lines_merge instances).cleanLines_eq
  calc merge [body]
      = (cleanLines false false (lines (banner ++ body))).flatMap asLine := by
        rw [merge, List.flatten_singleton]
    _ = (lines (merge instances)).flatMap asLine := by rw [← h, hClean]
    _ = banner ++ body := by rw [flatMap_lines_merge, h]

theorem cleanLines_eq_staysAt (ls : List Text) :
    cleanLines false false ls = (ls.zipIdx.filter (staysAt ls)).map Prod.fst := by
  have hPackage : ¬PackageAbove ls 0 := fun ⟨j, hj, _⟩ => Nat.not_lt_zero j hj
  have hImports : ¬InImports ls 0 := fun ⟨j, hj, _⟩ => Nat.not_lt_zero j hj
  have hDrop := cleanLines_drop (rfl : ls.drop 0 = ls)
  rwa [decide_eq_false hPackage, decide_eq_false hImports] at hDrop

/-- The merged text is the banner and the lines of the instances that stay, in their order and each
with one line feed. No line of it is an import or a directive, at most one is a package line, and
another pass changes nothing. -/
theorem merge_eq_staysAt (instances : List Text) :
    let ls := lines instances.flatten
    let kept := (ls.zipIdx.filter (staysAt ls)).map Prod.fst
    merge instances = banner ++ kept.flatMap (fun line => chop line ++ ['\n']) ∧
      kept.Sublist ls ∧
      lines (merge instances) = bannerLines ++ kept.map chop ∧
      (∀ line ∈ lines (merge instances),
        looksLikeImport line = false ∧ directive.isPrefixOf line = false) ∧
      (lines (merge instances)).countP looksLikePackage ≤ 1 ∧
      ∀ body, merge instances = banner ++ body → merge [body] = banner ++ body := by
  intro ls kept
  have hKept : cleanLines false false ls = kept := cleanLines_eq_staysAt ls
  have hClean := isClean_lines_merge instances
  refine ⟨?_, ?_, ?_, hClean.no_import, hClean.countP_le, fun body => merge_of_merge_eq⟩
  · have hBanner : bannerLines.flatMap asLine = banner := by decide +kernel
    rw [merge, cleanLines_banner, hKept, List.flatMap_append, hBanner]
    rfl
  · rw [← hKept]
    exact cleanLines_sublist _ _ _
  · rw [lines_merge, hKept]

end GoTemplate.Output
