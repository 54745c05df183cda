import GoTemplate.Text.Basic
import Mathlib.Data.List.Basic

/-!
Occurrences of one text in another. Taken from the left and without overlap, they cut the other text into
pieces, and to replace them is to put something else between the same pieces. Where this shares no
character with the text that was looked for, no occurrence of that text is left.
-/

namespace GoTemplate.Text

variable {needle new t : Text}

theorem occursIn_cons {c : Char} :
    needle.occursIn (c :: t) = true ↔ needle <+: c :: t ∨ needle.occursIn t = true := by
  rw [occursIn, Bool.or_eq_true, List.isPrefixOf_iff_prefix]

theorem occursIn_iff : needle.occursIn t = true ↔ ∃ u v, t = u ++ (needle ++ v) := by
  induction t with
  | nil =>
      rw [occursIn, List.isEmpty_iff]
      constructor
      · rintro rfl
        exact ⟨[], [], rfl⟩
      · rintro ⟨u, v, h⟩
        simp only [List.nil_eq, List.append_eq_nil_iff] at h
        exact h.2.1
  | cons c t ih =>
      rw [occursIn_cons, ih]
      constructor
      · rintro (⟨v, hv⟩ | ⟨u, v, rfl⟩)
        · exact ⟨[], v, hv.symm⟩
        · exact ⟨c :: u, v, rfl⟩
      · rintro ⟨u, v, h⟩
        cases u with
        | nil => exact .inl ⟨v, h.symm⟩
        | cons d u => exact .inr ⟨u, v, (List.cons_eq_cons.1 h).2⟩

theorem not_occursIn_nil (hNe : needle ≠ []) : needle.occursIn [] = false := by
  simpa [occursIn] using hNe

/-- What does not occur in a text occurs in no part of it. -/
theorem not_occursIn_of_isInfix {part : Text} (h : needle.occursIn t = false) (hPart : part <:+: t) :
    needle.occursIn part = false := by
  refine Bool.eq_false_iff.2 fun hOccurs => Bool.eq_false_iff.1 h ?_
  obtain ⟨u, v, rfl⟩ := occursIn_iff.1 hOccurs
  obtain ⟨x, y, rfl⟩ := hPart
  exact occursIn_iff.2 ⟨x ++ u, v ++ y, by simp⟩

/-! ## The pieces between occurrences -/

/-- The pieces of a text between the occurrences of `needle` in it. The occurrences are taken from
the left and without overlap: none starts before the one that ends a piece. -/
inductive CutAt (needle : Text) : Text → List Text → Prop where
  | last {t : Text} (hNone : needle.occursIn t = false) : CutAt needle t [t]
  | cons (piece : Text) {t : Text} {pieces : List Text}
      (hFirst : ∀ u v, piece ++ (needle ++ t) = u ++ (needle ++ v) → piece.length ≤ u.length)
      (hRest : CutAt needle t pieces) : CutAt needle (piece ++ (needle ++ t)) (piece :: pieces)

namespace CutAt

variable {pieces : List Text}

theorem ne_nil (h : CutAt needle t pieces) : pieces ≠ [] := by
  cases h with
  | last => simp
  | cons => simp

/-- A character at which no occurrence starts belongs to the first piece. -/
theorem prepend {c : Char} {piece : Text} (hNot : ¬needle <+: c :: t)
    (h : CutAt needle t (piece :: pieces)) : CutAt needle (c :: t) ((c :: piece) :: pieces) := by
  cases h with
  | last hNone =>
      refine .last (Bool.eq_false_iff.2 fun hOccurs => ?_)
      rcases occursIn_cons.1 hOccurs with hPrefix | hLater
      · exact hNot hPrefix
      · simp [hNone] at hLater
  | cons _ hFirst hRest =>
      refine .cons (c :: piece) (fun u v hText => ?_) hRest
      cases u with
      | nil => exact absurd ⟨v, hText.symm⟩ hNot
      | cons d u =>
          have hLength := hFirst u v (List.cons_eq_cons.1 hText).2
          simpa using hLength

/-- Every text can be cut so. -/
theorem exists_pieces (hNe : needle ≠ []) (t : Text) : ∃ piece pieces, CutAt needle t (piece :: pieces) := by
  match t with
  | [] =>
    exact ⟨[], [], .last (not_occursIn_nil hNe)⟩
  | c :: t =>
    by_cases hPrefix : needle <+: c :: t
    · obtain ⟨rest, hRest⟩ := hPrefix
      have hShorter : rest.length ≤ t.length := by
        have hLength := congrArg List.length hRest
        have hPos := List.length_pos_iff.2 hNe
        rw [List.length_append, List.length_cons] at hLength
        omega
      obtain ⟨piece, pieces, h⟩ := exists_pieces hNe rest
      rw [← hRest]
      exact ⟨[], piece :: pieces, .cons [] (fun u v _ => Nat.zero_le _) h⟩
    · obtain ⟨piece, pieces, h⟩ := exists_pieces hNe t
      exact ⟨c :: piece, pieces, h.prepend hPrefix⟩
  termination_by t.length
  decreasing_by
    · exact Nat.lt_succ_of_le hShorter
    · exact Nat.lt_succ_self t.length

/-- A text is cut in one way only. -/
theorem unique (h : CutAt needle t pieces) {others : List Text} (hOther : CutAt needle t others) :
    pieces = others := by
  induction h generalizing others with
  | last hNone =>
      cases hOther with
      | last => rfl
      | cons =>
          rw [occursIn_iff.2 ⟨_, _, rfl⟩] at hNone
          cases hNone
  | @cons piece t pieces hFirst hRest ih =>
      generalize hText : piece ++ (needle ++ t) = text at hOther
      cases hOther with
      | last hNone =>
          rw [occursIn_iff.2 ⟨_, _, hText.symm⟩] at hNone
          cases hNone
      | @cons piece' t' pieces' hFirst' hRest' =>
          have hLength : piece.length = piece'.length :=
            Nat.le_antisymm (hFirst piece' t' hText) (hFirst' piece t hText.symm)
          obtain ⟨rfl, hTail⟩ := List.append_inj hText hLength
          obtain rfl := List.append_cancel_left hTail
          rw [ih hRest']

/-- The text is its pieces with the occurrences between them. -/
theorem intercalate_eq (h : CutAt needle t pieces) : needle.intercalate pieces = t := by
  induction h with
  | last => simp
  | cons _ _ hRest ih => rw [List.intercalate_cons_of_ne_nil hRest.ne_nil, ih, List.append_assoc]

/-- Nothing occurs within a piece. -/
theorem not_occursIn (h : CutAt needle t pieces) (hNe : needle ≠ []) :
    ∀ piece ∈ pieces, needle.occursIn piece = false := by
  induction h with
  | last hNone =>
      intro piece hPiece
      obtain rfl := List.mem_singleton.1 hPiece
      exact hNone
  | @cons first t pieces hFirst _ ih =>
      intro piece hPiece
      rcases List.mem_cons.1 hPiece with rfl | hPiece
      · refine Bool.eq_false_iff.2 fun hOccurs => ?_
        obtain ⟨u, v, rfl⟩ := occursIn_iff.1 hOccurs
        have hLength := hFirst u (v ++ (needle ++ t)) (by simp)
        have hPos := List.length_pos_iff.2 hNe
        simp only [List.length_append] at hLength
        omega
      · exact ih piece hPiece

end CutAt

/-! ## Replacement -/

theorem replaceAll_cons_of_not {c : Char} (h : ¬needle <+: c :: t) :
    replaceAll needle new (c :: t) = c :: replaceAll needle new t := by
  rw [replaceAll, if_neg fun hFound => h (List.isPrefixOf_iff_prefix.1 hFound.2)]

theorem replaceAll_needle_append (hNe : needle ≠ []) :
    replaceAll needle new (needle ++ t) = new ++ replaceAll needle new t := by
  obtain ⟨c, rest, rfl⟩ := List.exists_cons_of_ne_nil hNe
  have hPrefix : (c :: rest).isPrefixOf (c :: (rest ++ t)) = true :=
    List.isPrefixOf_iff_prefix.2 ⟨t, rfl⟩
  rw [List.cons_append, replaceAll, if_pos ⟨hNe, hPrefix⟩, List.length_cons, Nat.add_sub_cancel,
    List.drop_left]

theorem replaceAll_of_not_occursIn (h : needle.occursIn t = false) : replaceAll needle new t = t := by
  induction t with
  | nil => rw [replaceAll]
  | cons c t ih =>
      obtain ⟨hPrefix, hRest⟩ := not_or.1 (mt occursIn_cons.2 (Bool.eq_false_iff.1 h))
      rw [replaceAll_cons_of_not hPrefix, ih (Bool.eq_false_iff.2 hRest)]

/-- Up to the first occurrence a text stays as it is. -/
theorem replaceAll_append_needle (hNe : needle ≠ []) {piece : Text}
    (hFirst : ∀ u v, piece ++ (needle ++ t) = u ++ (needle ++ v) → piece.length ≤ u.length) :
    replaceAll needle new (piece ++ (needle ++ t)) = piece ++ (new ++ replaceAll needle new t) := by
  induction piece with
  | nil => exact replaceAll_needle_append hNe
  | cons c piece ih =>
      have hNot : ¬needle <+: c :: (piece ++ (needle ++ t)) := by
        rintro ⟨v, hv⟩
        simpa using hFirst [] v hv.symm
      have hLater : ∀ u v, piece ++ (needle ++ t) = u ++ (needle ++ v) → piece.length ≤ u.length := by
        intro u v hText
        simpa using hFirst (c :: u) v (congrArg (c :: ·) hText)
      rw [List.cons_append, replaceAll_cons_of_not hNot, ih hLater, List.cons_append]

/-- To replace a text is to put the new one between the pieces that the old one leaves. -/
theorem CutAt.replaceAll_eq {pieces : List Text} (h : CutAt needle t pieces) (hNe : needle ≠ []) :
    replaceAll needle new t = new.intercalate pieces := by
  induction h with
  | last hNone => rw [replaceAll_of_not_occursIn hNone, List.intercalate_singleton]
  | cons _ hFirst hRest ih =>
      rw [replaceAll_append_needle hNe hFirst, ih, List.intercalate_cons_of_ne_nil hRest.ne_nil,
        List.append_assoc]

/-! ## Texts without a common character -/

variable {s : Text}

/-- No occurrence starts within a text that shares no character with what is looked for. -/
theorem occursIn_append_of_disjoint (hNe : needle ≠ []) (hDisjoint : needle.Disjoint new) (t : Text) :
    needle.occursIn (new ++ t) = needle.occursIn t := by
  induction new with
  | nil => rfl
  | cons c new ih =>
      have hNot : ¬needle <+: c :: (new ++ t) := by
        intro hPrefix
        obtain ⟨d, rest, rfl⟩ := List.exists_cons_of_ne_nil hNe
        obtain ⟨rfl, -⟩ := List.cons_prefix_cons.1 hPrefix
        exact hDisjoint List.mem_cons_self List.mem_cons_self
      rw [← ih (List.disjoint_of_disjoint_cons_right hDisjoint), List.cons_append, Bool.eq_iff_iff,
        occursIn_cons, or_iff_right hNot]

theorem not_occursIn_of_disjoint (hNe : needle ≠ []) (hDisjoint : needle.Disjoint t) :
    needle.occursIn t = false := by
  rw [← List.append_nil t, occursIn_append_of_disjoint hNe hDisjoint, not_occursIn_nil hNe]

/-- No occurrence reaches into a text that shares no character with what is looked for. -/
theorem not_occursIn_append (hNe : needle ≠ []) (hNew : new ≠ []) (hDisjoint : needle.Disjoint new)
    (hFront : needle.occursIn s = false) (hBehind : needle.occursIn t = false) :
    needle.occursIn (s ++ (new ++ t)) = false := by
  induction s with
  | nil => rw [List.nil_append, occursIn_append_of_disjoint hNe hDisjoint, hBehind]
  | cons c s ih =>
      obtain ⟨hNot, hRest⟩ := not_or.1 (mt occursIn_cons.2 (Bool.eq_false_iff.1 hFront))
      refine Bool.eq_false_iff.2 (mt occursIn_cons.1 (not_or.2 ⟨fun hPrefix => ?_, ?_⟩))
      · have hWhole : c :: s <+: c :: (s ++ (new ++ t)) := ⟨new ++ t, rfl⟩
        rcases List.prefix_or_prefix_of_prefix hPrefix hWhole with hShort | ⟨v, rfl⟩
        · exact hNot hShort
        -- An occurrence that starts before `new` and reaches into it holds its first character.
        · have hTail : v <+: new ++ t := (List.prefix_append_right_inj (c :: s)).1 hPrefix
          cases v with
          | nil => exact hNot ⟨[], by simp⟩
          | cons d v =>
              obtain ⟨e, new, rfl⟩ := List.exists_cons_of_ne_nil hNew
              obtain ⟨rfl, -⟩ := List.cons_prefix_cons.1 hTail
              have hMem : d ∈ c :: s ++ d :: v := List.mem_append_right _ List.mem_cons_self
              exact hDisjoint hMem List.mem_cons_self
      · exact Bool.eq_false_iff.1 (ih (Bool.eq_false_iff.2 hRest))

/-- Texts without occurrences have none either when something else stands between them. -/
theorem not_occursIn_intercalate {pieces : List Text} (hNe : needle ≠ []) (hNew : new ≠ [])
    (hDisjoint : needle.Disjoint new) (h : ∀ piece ∈ pieces, needle.occursIn piece = false) :
    needle.occursIn (new.intercalate pieces) = false := by
  induction pieces with
  | nil => exact not_occursIn_nil hNe
  | cons piece pieces ih =>
      obtain ⟨hPiece, hPieces⟩ := List.forall_mem_cons.1 h
      cases pieces with
      | nil => simpa using hPiece
      | cons next pieces =>
          rw [List.intercalate_cons_cons, List.append_assoc]
          exact not_occursIn_append hNe hNew hDisjoint hPiece (ih hPieces)

/-- Where the new text shares no character with the old one, nothing is left to replace. -/
theorem not_occursIn_replaceAll (hNe : needle ≠ []) (hNew : new ≠ []) (hDisjoint : needle.Disjoint new)
    (t : Text) : needle.occursIn (replaceAll needle new t) = false := by
  obtain ⟨piece, pieces, hCut⟩ := CutAt.exists_pieces hNe t
  rw [hCut.replaceAll_eq hNe]
  exact not_occursIn_intercalate hNe hNew hDisjoint (hCut.not_occursIn hNe)

end GoTemplate.Text
