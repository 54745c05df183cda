import GoTemplate.Text.Basic
import Mathlib.Data.List.Basic

/-!
The pieces of a text between single characters.
-/

namespace GoTemplate.Text

variable {p : Char → Bool} {c : Char} {s t : Text}

theorem splitWhere_eq_splitOnP (p : Char → Bool) (t : Text) : splitWhere p t = t.splitOnP p := by
  induction t with
  | nil => rfl
  | cons c t ih =>
      rw [splitWhere, ih, List.splitOnP_cons_eq_if_modifyHead]
      obtain ⟨piece, pieces, hSplit⟩ := List.exists_cons_of_ne_nil (List.splitOnP_ne_nil p t)
      rw [hSplit]
      rfl

theorem splitAt_eq_splitOn (c : Char) (t : Text) : splitAt c t = t.splitOn c := by
  rw [splitAt, splitWhere_eq_splitOnP, List.splitOn_eq_splitOnP]

theorem splitWhere_of_forall (h : ∀ c ∈ t, p c = false) : splitWhere p t = [t] := by
  rw [splitWhere_eq_splitOnP, List.splitOnP_eq_singleton h]

theorem splitWhere_append_cons (h : ∀ c ∈ s, p c = false) (hc : p c = true) (t : Text) :
    splitWhere p (s ++ c :: t) = s :: splitWhere p t := by
  rw [splitWhere_eq_splitOnP, splitWhere_eq_splitOnP, List.splitOnP_append_cons_of_forall_mem h c hc]

/-- A piece between separators is made of other characters of the text. -/
theorem mem_of_mem_splitOn {piece : Text} (h : piece ∈ t.splitOn c) : ∀ d ∈ piece, d ∈ t ∧ d ≠ c := by
  induction t generalizing piece with
  | nil =>
      rw [List.splitOn_nil, List.mem_singleton] at h
      rw [h]
      exact fun d hd => nomatch hd
  | cons first t ih =>
      have hLater {other : Text} (hOther : other ∈ t.splitOn c) : ∀ d ∈ other, d ∈ first :: t ∧ d ≠ c :=
        fun d hd => (ih hOther d hd).imp_left (List.mem_cons_of_mem first)
      obtain ⟨head, tail, hSplit⟩ := List.exists_cons_of_ne_nil (List.splitOn_ne_nil c t)
      rw [List.splitOn_cons_eq_if_modifyHead] at h
      split at h
      · rcases List.mem_cons.1 h with rfl | h
        · exact fun d hd => nomatch hd
        · exact hLater h
      · rename_i hFirst
        rw [hSplit] at hLater h
        rcases List.mem_cons.1 h with rfl | h
        · refine List.forall_mem_cons.2 ⟨⟨List.mem_cons_self, by simpa using hFirst⟩, ?_⟩
          exact hLater List.mem_cons_self
        · exact hLater (List.mem_cons_of_mem head h)

end GoTemplate.Text
