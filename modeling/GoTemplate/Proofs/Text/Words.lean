import GoTemplate.Proofs.Text.Pieces
import GoTemplate.Text.Words

/-!
The words of a text, put together again with single spaces. What comes out is the text with one space
in the place of each run of white space, and without white space at its ends.
-/

namespace GoTemplate.Text

open Unicode (isWhiteSpace)

/-- The text with one space in the place of each run of white space. -/
def collapse : Text → Text
  | [] => []
  | c :: t =>
    if isWhiteSpace c then if t.head?.any isWhiteSpace then collapse t else ' ' :: collapse t
    else c :: collapse t

/-- The text without the white space at its end. -/
def trimEnd (t : Text) : Text := dropEndWhile isWhiteSpace t

theorem joinWithSpaces_cons_cons (t u : Text) (texts : List Text) :
    joinWithSpaces (t :: u :: texts) = t ++ ' ' :: joinWithSpaces (u :: texts) := by
  simp [joinWithSpaces, List.intercalate]

@[simp] theorem joinWithSpaces_singleton (t : Text) : joinWithSpaces [t] = t := by
  simp [joinWithSpaces, List.intercalate]

theorem joinWithSpaces_cons (word : Text) (words : List Text) :
    joinWithSpaces (word :: words) = word ++ words.flatMap (' ' :: ·) := by
  induction words generalizing word with
  | nil => simp
  | cons other words ih => rw [joinWithSpaces_cons_cons, ih, List.flatMap_cons, List.cons_append]

/-! ## Runs of white space -/

theorem collapse_cons_of_not {c : Char} (hc : isWhiteSpace c = false) (t : Text) :
    collapse (c :: t) = c :: collapse t := by
  rw [collapse, if_neg (by simp [hc])]

/-- What stands in the place of white space is a space. -/
theorem mem_collapse {t : Text} {c : Char} (h : c ∈ collapse t) : c = ' ' ∨ isWhiteSpace c = false := by
  fun_induction collapse t with
  | case1 => cases h
  | case2 _ _ _ _ ih => exact ih h
  | case3 _ _ _ _ ih => exact (List.mem_cons.1 h).elim .inl ih
  | case4 d t hd ih =>
      rcases List.mem_cons.1 h with rfl | h
      · exact .inr (Bool.eq_false_iff.2 hd)
      · exact ih h

theorem head?_collapse {t : Text} {c : Char} (h : (collapse t).head? = some c) :
    c = ' ' ∨ t.head? = some c := by
  fun_induction collapse t with
  | case1 => cases h
  | case2 d t _ hNext ih =>
      rcases ih h with hSpace | hHead
      · exact .inl hSpace
      · rw [hHead] at hNext
        exact .inl ((mem_collapse (List.mem_of_head? h)).resolve_right (by simpa using hNext))
  | case3 => exact .inl (Option.some.inj h).symm
  | case4 => exact .inr h

/-! ## White space at the end -/

theorem trimEnd_of_getLast? {t : Text} {c : Char} (h : t.getLast? = some c)
    (hc : isWhiteSpace c = false) : trimEnd t = t := by
  obtain ⟨u, rfl⟩ := List.getLast?_eq_some_iff.1 h
  rw [trimEnd, dropEndWhile, List.reverse_concat, List.dropWhile_cons, if_neg (by simp [hc]),
    ← List.reverse_concat, List.reverse_reverse]

theorem trimEnd_cons (c : Char) (t : Text) :
    trimEnd (c :: t) = if trimEnd t = [] ∧ isWhiteSpace c then [] else c :: trimEnd t := by
  simp only [trimEnd, dropEndWhile, List.reverse_cons, List.dropWhile_append, List.reverse_eq_nil_iff]
  cases hDrop : t.reverse.dropWhile isWhiteSpace with
  | nil =>
      cases hc : isWhiteSpace c with
      | false => simp [hc]
      | true => simp [hc]
  | cons d u => simp

theorem trimEnd_cons_of_not {c : Char} (hc : isWhiteSpace c = false) (t : Text) :
    trimEnd (c :: t) = c :: trimEnd t := by
  rw [trimEnd_cons, if_neg (by simp [hc])]

theorem head?_trimEnd {t : Text} (h : trimEnd t ≠ []) : (trimEnd t).head? = t.head? := by
  cases t with
  | nil => exact absurd rfl h
  | cons c t =>
      rw [trimEnd_cons] at h ⊢
      split at h
      · exact absurd rfl h
      · rw [if_neg ‹_›]
        rfl

/-! ## Words -/

theorem words_cons_of_isWhiteSpace {c : Char} (hc : isWhiteSpace c = true) (t : Text) :
    words (c :: t) = words t := by
  simp [words, splitWhere, hc]

/-- A character in front of white space, or at the end, is a word or the end of one. -/
theorem words_cons_of_end {c : Char} (hc : isWhiteSpace c = false) {t : Text}
    (ht : t.head?.any isWhiteSpace = true ∨ t = []) : words (c :: t) = [c] :: words t := by
  cases t with
  | nil => simp [words, splitWhere, hc]
  | cons d t =>
      have hd : isWhiteSpace d = true := by simpa using ht
      simp [words, splitWhere, hc, hd]

/-- A character in front of another belongs to its word. -/
theorem words_cons_cons {c d : Char} (hc : isWhiteSpace c = false) (hd : isWhiteSpace d = false)
    (t : Text) : ∃ word others, words (d :: t) = word :: others ∧
      words (c :: d :: t) = (c :: word) :: others := by
  simp only [words, splitWhere, hc, hd, Bool.false_eq_true, if_false]
  cases splitWhere isWhiteSpace t with
  | nil => exact ⟨[d], [], by simp, by simp⟩
  | cons piece pieces => exact ⟨d :: piece, pieces.filter (· ≠ []), by simp, by simp⟩

theorem words_eq_nil_iff {t : Text} : words t = [] ↔ trimEnd t = [] := by
  induction t with
  | nil => simp [words, splitWhere, trimEnd, dropEndWhile]
  | cons c t ih =>
      cases hc : isWhiteSpace c with
      | true =>
          rw [words_cons_of_isWhiteSpace hc, ih, trimEnd_cons]
          simp [hc]
      | false =>
          rw [trimEnd_cons_of_not hc]
          simp only [reduceCtorEq, iff_false]
          cases t with
          | nil => simp [words_cons_of_end hc (.inr rfl)]
          | cons d t =>
              cases hd : isWhiteSpace d with
              | true => simp [words_cons_of_end hc (t := d :: t) (.inl hd)]
              | false =>
                  obtain ⟨word, others, -, hWords⟩ := words_cons_cons hc hd t
                  simp [hWords]

/-- A word is not empty and holds no white space. -/
theorem word_of_mem_words {t word : Text} (h : word ∈ words t) :
    word ≠ [] ∧ ∀ c ∈ word, isWhiteSpace c = false := by
  induction t generalizing word with
  | nil => simp [words, splitWhere] at h
  | cons c t ih =>
      cases hc : isWhiteSpace c with
      | true =>
          rw [words_cons_of_isWhiteSpace hc] at h
          exact ih h
      | false =>
          by_cases ht : t.head?.any isWhiteSpace = true ∨ t = []
          · rw [words_cons_of_end hc ht, List.mem_cons] at h
            rcases h with rfl | h
            · simp [hc]
            · exact ih h
          · cases t with
            | nil => simp at ht
            | cons d t =>
                have hd : isWhiteSpace d = false := by simpa using ht
                obtain ⟨first, others, hTail, hWords⟩ := words_cons_cons hc hd t
                rw [hTail] at ih
                rw [hWords, List.mem_cons] at h
                rcases h with rfl | h
                · refine ⟨List.cons_ne_nil c first, fun e he => ?_⟩
                  rcases List.mem_cons.1 he with rfl | he
                  · exact hc
                  · exact (ih List.mem_cons_self).2 e he
                · exact ih (List.mem_cons_of_mem first h)

/-- The words of a text with single spaces between them are the text with its runs of white space
made spaces, apart from the white space at its end. -/
theorem collapse_trimEnd_eq (t : Text) : collapse (trimEnd t) =
    (if t.head?.any isWhiteSpace ∧ words t ≠ [] then [' '] else []) ++ joinWithSpaces (words t) := by
  induction t with
  | nil => rfl
  | cons c t ih =>
      cases hc : isWhiteSpace c with
      | true =>
          have hHead : (c :: t).head?.any isWhiteSpace = true := hc
          rw [words_cons_of_isWhiteSpace hc]
          by_cases hNil : trimEnd t = []
          · rw [trimEnd_cons, if_pos ⟨hNil, hc⟩, words_eq_nil_iff.2 hNil, if_neg (fun h => h.2 rfl)]
            rfl
          · have hWords : words t ≠ [] := fun h => hNil (words_eq_nil_iff.1 h)
            rw [trimEnd_cons, if_neg (fun h => hNil h.1), collapse, if_pos hc, head?_trimEnd hNil]
            by_cases hNext : t.head?.any isWhiteSpace = true
            · rw [if_pos hNext, ih, if_pos ⟨hNext, hWords⟩, if_pos ⟨hHead, hWords⟩]
            · rw [if_neg hNext, ih, if_neg (fun h => hNext h.1), if_pos ⟨hHead, hWords⟩]
              rfl
      | false =>
          rw [trimEnd_cons_of_not hc, collapse, if_neg (by simp [hc]), if_neg (by simp [hc]),
            List.nil_append, ih]
          by_cases ht : t.head?.any isWhiteSpace = true ∨ t = []
          · rw [words_cons_of_end hc ht]
            cases hWords : words t with
            | nil => simp [joinWithSpaces, List.intercalate]
            | cons word others =>
                have hHead : t.head?.any isWhiteSpace = true := by
                  rcases ht with ht | rfl
                  · exact ht
                  · cases hWords
                rw [if_pos ⟨hHead, List.cons_ne_nil _ _⟩, joinWithSpaces_cons_cons]
                rfl
          · cases t with
            | nil => simp at ht
            | cons d t =>
                have hd : isWhiteSpace d = false := by simpa using ht
                obtain ⟨word, others, hTail, hWords⟩ := words_cons_cons hc hd t
                rw [if_neg (by simp [hd]), List.nil_append, hTail, hWords]
                cases others with
                | nil => simp
                | cons next others => simp [joinWithSpaces_cons_cons]

theorem joinWithSpaces_words {t : Text} (h : t.head?.any isWhiteSpace = false) :
    joinWithSpaces (words t) = collapse (trimEnd t) := by
  rw [collapse_trimEnd_eq, if_neg (by simp [h]), List.nil_append]

/-- Words with single spaces between them are the words of what they make up. -/
theorem words_joinWithSpaces {texts : List Text}
    (h : ∀ t ∈ texts, t ≠ [] ∧ ∀ c ∈ t, isWhiteSpace c = false) :
    words (joinWithSpaces texts) = texts := by
  have hSpace : isWhiteSpace ' ' = true := by decide +kernel
  induction texts with
  | nil => rfl
  | cons t texts ih =>
      obtain ⟨hNe, hLetters⟩ := h t List.mem_cons_self
      have hRest := ih fun u hu => h u (List.mem_cons_of_mem t hu)
      cases texts with
      | nil => simp [words, splitWhere_of_forall hLetters, hNe]
      | cons u texts =>
          rw [joinWithSpaces_cons_cons, words, splitWhere_append_cons hLetters hSpace,
            List.filter_cons_of_pos (by simpa using hNe)]
          exact congrArg (t :: ·) hRest

/-- Single spaces in the place of white space change nothing about the words. -/
theorem words_collapse_trimEnd {t : Text} (h : t.head?.any isWhiteSpace = false) :
    words (collapse (trimEnd t)) = words t := by
  rw [← joinWithSpaces_words h]
  exact words_joinWithSpaces fun word hWord => word_of_mem_words hWord

end GoTemplate.Text
