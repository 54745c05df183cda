import GoTemplate.Proofs.Template.LineFeeds

/-!
The lines of an instance by their places in the template. The instantiator holds a comment back
until it knows the next line. What comes of that shows in each line and the one below it, as they
stand in the template, whatever has been held back before.
-/

namespace GoTemplate.Template

variable {types : TypeSet}

/-- Whether a line stays in the instance, where `i` is its place. A marked line does not, nor does
one that becomes a comment if the line below it is marked or there is no line below it. -/
def staysAt (types : TypeSet) (ls : List Text) : Text × Nat → Bool
  | (line, i) =>
    !isMarked line &&
      !("//".toList.isPrefixOf (instantiateLine types line) && ls[i + 1]?.all isMarked)

/-- A line that holds no placeholder stays as it is. -/
theorem instantiateLine_of_not_occurs {line : Text}
    (h : ∀ entry ∈ types.entries, entry.1.occursIn line = false) :
    instantiateLine types line = line := by
  apply List.foldlRecOn (motive := fun current => current = line) types.entries _ rfl
  rintro current rfl entry hEntry
  exact if_neg (Bool.eq_false_iff.1 (h entry hEntry))

/-- The lines that stay from a place on, told by their places. -/
theorem keptLines_drop {ls rest : List Text} {i : Nat} (hRest : ls.drop i = rest) :
    keptLines types rest = ((rest.zipIdx i).filter (staysAt types ls)).map Prod.fst := by
  induction rest generalizing i with
  | nil => rfl
  | cons line rest ih =>
      have hAfter : ls.drop (i + 1) = rest := by rw [← List.tail_drop, hRest, List.tail_cons]
      have hBelow : ls[i + 1]? = rest.head? := by rw [← hAfter, List.head?_drop]
      rw [List.zipIdx_cons, keptLines, ih hAfter]
      by_cases hMarked : isMarked line = true
      · have hLost : ¬staysAt types ls (line, i) = true := by simp [staysAt, hMarked]
        rw [if_pos hMarked, List.filter_cons_of_neg hLost]
      · have hStays : staysAt types ls (line, i) = !("//".toList.isPrefixOf
            (instantiateLine types line) && rest.head?.all isMarked) := by
          rw [staysAt, hBelow, Bool.eq_false_iff.2 hMarked, Bool.not_false, Bool.true_and]
        rw [if_neg hMarked, List.filter_cons, hStays]
        split
        · rename_i hComment
          rw [hComment]
          rfl
        · rename_i hComment
          rw [Bool.eq_false_iff.2 hComment]
          rfl

/-- The instance consists of the lines that stay, in their order, each with the types in it and
with one line feed. In a line that holds no placeholder there is nothing to change. -/
theorem instantiate_eq_staysAt (types : TypeSet) (source : Text) :
    instantiate types source =
        (source.lines.zipIdx.filter (staysAt types source.lines)).flatMap
          (fun (line, _) => Text.asLine (instantiateLine types line)) ∧
      ∀ line ∈ source.lines, (∀ entry ∈ types.entries, entry.1.occursIn line = false) →
        instantiateLine types line = line := by
  refine ⟨?_, fun line _ => instantiateLine_of_not_occurs⟩
  have hKept : keptLines types source.lines =
      (source.lines.zipIdx.filter (staysAt types source.lines)).map Prod.fst := keptLines_drop rfl
  rw [instantiate_eq, hKept, List.flatMap_map]

/-- Only the last of two comments goes with a marked line. -/
example : instantiate (.ofList [("T".toList, "int".toList)])
    "// a\n// b\ntype T generic.Type\n// T\nvar x T\n// c\n".toList =
      "// a\n// int\nvar x int\n".toList := by
  decide +kernel

end GoTemplate.Template
