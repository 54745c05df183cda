import GoTemplate.Text.Lines

/-!
Lines of texts that are put together from lines, and the place of a line in its text. A line that
has been written with its end is read back without it.
-/

namespace GoTemplate.Text

/-- A line without the line ends at its end. -/
def chop (line : Text) : Text := dropEndWhile isLineEnd line

theorem asLine_eq (line : Text) : asLine line = chop line ++ ['\n'] := rfl

/-! ## Lines of a text -/

theorem lines_ne_nil {t : Text} (h : t ≠ []) : lines t ≠ [] := by
  fun_cases lines t with
  | case1 => exact absurd rfl h
  | case2 => simp
  | case3 => simp
  | case4 c t _ _ line rest hLines => simp
  | case5 c t _ _ hLines => simp

theorem not_mem_of_mem_lines {t line : Text} (h : line ∈ lines t) : '\n' ∉ line := by
  fun_induction lines t generalizing line with
  | case1 => cases h
  | case2 t ih =>
      rcases List.mem_cons.1 h with rfl | h
      · exact List.not_mem_nil
      · exact ih h
  | case3 t ih =>
      rcases List.mem_cons.1 h with rfl | h
      · exact List.not_mem_nil
      · exact ih h
  | case4 c t hFeed _ first rest hLines ih =>
      rw [hLines] at ih
      rcases List.mem_cons.1 h with rfl | h
      · simp only [List.mem_cons, not_or]
        exact ⟨fun hc => hFeed hc.symm, ih List.mem_cons_self⟩
      · exact ih (List.mem_cons_of_mem _ h)
  | case5 c t hFeed _ hLines ih =>
      obtain rfl := List.mem_singleton.1 h
      simpa using fun hc => hFeed hc.symm

/-- A character that ends no line belongs to the line that goes on after it. -/
theorem lines_cons {c : Char} {t : Text} (hFeed : c ≠ '\n')
    (hReturn : c = '\r' → ∀ u, t ≠ '\n' :: u) :
    lines (c :: t) = (c :: (lines t).headD []) :: (lines t).tail := by
  rw [lines]
  · cases lines t with
    | nil => rfl
    | cons line rest => rfl
  · exact hFeed
  · exact fun u hc ht => hReturn hc u ht

/-- After a line feed the lines start anew. -/
theorem lines_append (s t : Text) : lines (s ++ '\n' :: t) = lines (s ++ ['\n']) ++ lines t := by
  match s with
  | [] => simp [lines]
  | [c] =>
    by_cases hFeed : c = '\n'
    · subst hFeed
      simp [lines]
    · by_cases hReturn : c = '\r'
      · subst hReturn
        simp [lines]
      · change lines (c :: '\n' :: t) = lines [c, '\n'] ++ lines t
        rw [lines_cons hFeed (absurd · hReturn), lines_cons hFeed (absurd · hReturn)]
        simp [lines]
  | c :: d :: s =>
    by_cases hFeed : c = '\n'
    · subst hFeed
      have ih := lines_append (d :: s) t
      simp only [List.cons_append, lines] at ih ⊢
      rw [ih]
    · by_cases hReturn : c = '\r' ∧ d = '\n'
      · obtain ⟨rfl, rfl⟩ := hReturn
        simp only [List.cons_append, lines, lines_append s t]
      · have hStep (u : Text) : lines (c :: d :: u) =
            (c :: (lines (d :: u)).headD []) :: (lines (d :: u)).tail := by
          apply lines_cons hFeed
          rintro hc v hv
          exact hReturn ⟨hc, (List.cons_eq_cons.1 hv).1⟩
        have ih := lines_append (d :: s) t
        have hNe : lines (d :: s ++ ['\n']) ≠ [] := lines_ne_nil (by simp)
        obtain ⟨first, others, hFirst⟩ := List.exists_cons_of_ne_nil hNe
        simp only [List.cons_append] at ih hFirst ⊢
        rw [hStep, hStep, ih, hFirst]
        rfl
  termination_by s.length

theorem lines_append_of_getLast? {s : Text} (h : s.getLast? = some '\n') (t : Text) :
    lines (s ++ t) = lines s ++ lines t := by
  obtain ⟨u, rfl⟩ := List.getLast?_eq_some_iff.1 h
  rw [List.append_assoc]
  exact lines_append u t

theorem lines_flatten {texts : List Text} (h : ∀ text ∈ texts, text.getLast? = some '\n') :
    lines texts.flatten = texts.flatMap lines := by
  induction texts with
  | nil => rfl
  | cons text texts ih =>
      have hOthers := ih fun other hOther => h other (List.mem_cons_of_mem text hOther)
      have hText := h text List.mem_cons_self
      rw [List.flatten_cons, lines_append_of_getLast? hText, hOthers, List.flatMap_cons]

/-! ## Lines with their ends -/

/-- Nothing is left to chop. -/
theorem getLast?_chop {line : Text} {c : Char} (h : (chop line).getLast? = some c) :
    isLineEnd c = false := by
  rw [chop, dropEndWhile, List.getLast?_reverse] at h
  have hHead := List.head?_dropWhile_not isLineEnd line.reverse
  rw [h] at hHead
  simpa using hHead

theorem chop_eq_self {line : Text} (h : ∀ c, line.getLast? = some c → isLineEnd c = false) :
    chop line = line := by
  have hDrop : line.reverse.dropWhile isLineEnd = line.reverse := by
    cases hReverse : line.reverse with
    | nil => rfl
    | cons c rest =>
        have hLast : line.getLast? = some c := by rw [← List.head?_reverse, hReverse]; rfl
        rw [List.dropWhile_cons, h c hLast]
        rfl
  rw [chop, dropEndWhile, hDrop, List.reverse_reverse]

/-- Behind a character that ends no line only what follows is cut. -/
theorem chop_append {s : Text} (h : ∀ c, s.getLast? = some c → isLineEnd c = false) (t : Text) :
    chop (s ++ t) = s ++ chop t := by
  have hSame : s.reverse.dropWhile isLineEnd = s.reverse := by
    rw [← List.reverse_inj, List.reverse_reverse]
    exact chop_eq_self h
  rw [chop, dropEndWhile, List.reverse_append, List.dropWhile_append, hSame]
  split
  · rename_i hNil
    rw [List.reverse_reverse, chop, dropEndWhile, List.isEmpty_iff.1 hNil, List.reverse_nil, List.append_nil]
  · rw [List.reverse_append, List.reverse_reverse]
    rfl

theorem chop_chop (line : Text) : chop (chop line) = chop line :=
  chop_eq_self fun _ => getLast?_chop

theorem chop_isPrefix (line : Text) : chop line <+: line := by
  rw [← List.reverse_suffix, chop, dropEndWhile, List.reverse_reverse]
  exact List.dropWhile_suffix _

theorem mem_of_mem_chop {line : Text} {c : Char} (h : c ∈ chop line) : c ∈ line :=
  (chop_isPrefix line).subset h

theorem lines_append_lineFeed {line : Text} (hFeed : '\n' ∉ line)
    (hReturn : line.getLast? ≠ some '\r') : lines (line ++ ['\n']) = [line] := by
  induction line with
  | nil => simp [lines]
  | cons c line ih =>
      have hc : c ≠ '\n' := by
        rintro rfl
        exact hFeed List.mem_cons_self
      have hLine : '\n' ∉ line := fun h => hFeed (List.mem_cons_of_mem c h)
      have hLast : line.getLast? ≠ some '\r' := by
        intro h
        exact hReturn (by rw [List.getLast?_cons, h]; rfl)
      have hNext : c = '\r' → ∀ u, line ++ ['\n'] ≠ '\n' :: u := by
        rintro rfl u hu
        cases line with
        | nil => exact hReturn rfl
        | cons d line => exact hLine ((List.cons_eq_cons.1 hu).1 ▸ List.mem_cons_self)
      rw [List.cons_append, lines_cons hc hNext, ih hLine hLast]
      rfl

/-- A line without a line feed is read back from its own text. -/
theorem lines_asLine {line : Text} (h : '\n' ∉ line) : lines (asLine line) = [chop line] := by
  apply lines_append_lineFeed
  · exact fun hChop => h (mem_of_mem_chop hChop)
  · intro hLast
    cases getLast?_chop hLast

/-- Texts that each end with a line feed have their own lines. -/
theorem lines_flatMap_append (g : Text → Text) (ls : List Text) :
    lines (ls.flatMap fun line => g line ++ ['\n']) =
      ls.flatMap fun line => lines (g line ++ ['\n']) := by
  induction ls with
  | nil => rfl
  | cons line ls ih =>
      rw [List.flatMap_cons, List.flatMap_cons, ← ih, List.append_assoc]
      exact lines_append _ _

/-- Lines that are written with their ends are read back. -/
theorem lines_flatMap_asLine {ls : List Text} (h : ∀ line ∈ ls, '\n' ∉ line) :
    lines (ls.flatMap asLine) = ls.map chop := by
  induction ls with
  | nil => rfl
  | cons line ls ih =>
      have hRest := ih fun other hOther => h other (List.mem_cons_of_mem line hOther)
      have hFirst := lines_asLine (h line List.mem_cons_self)
      rw [List.flatMap_cons, asLine_eq, List.append_assoc, List.map_cons, ← hRest]
      rw [asLine_eq] at hFirst
      exact (lines_append _ _).trans (congrArg (· ++ _) hFirst)

/-! ## Places of lines -/

/-- A line stands in its text behind as many line feeds as there are lines before it, and before a
line end, unless it is the last. -/
theorem exists_of_getElem?_lines {t line : Text} {k : Nat} (h : (lines t)[k]? = some line) :
    ∃ u e v, t = u ++ (line ++ (e ++ v)) ∧ u.count '\n' = k ∧
      (u = [] ∨ u.getLast? = some '\n') ∧ (e = ['\n'] ∨ e = ['\r', '\n'] ∨ e = [] ∧ v = []) := by
  fun_induction lines t generalizing k line with
  | case1 => cases h
  | case2 t ih =>
      cases k with
      | zero =>
          cases h
          exact ⟨[], ['\n'], t, rfl, rfl, .inl rfl, .inl rfl⟩
      | succ k =>
          obtain ⟨u, e, v, rfl, hCount, hStart, hEnd⟩ := ih h
          refine ⟨'\n' :: u, e, v, rfl, by simp [hCount], .inr ?_, hEnd⟩
          rcases hStart with rfl | hLast
          · rfl
          · rw [List.getLast?_cons, hLast]
            rfl
  | case3 t ih =>
      cases k with
      | zero =>
          cases h
          exact ⟨[], ['\r', '\n'], t, rfl, rfl, .inl rfl, .inr (.inl rfl)⟩
      | succ k =>
          obtain ⟨u, e, v, rfl, hCount, hStart, hEnd⟩ := ih h
          refine ⟨'\r' :: '\n' :: u, e, v, rfl, by simp [hCount], .inr ?_, hEnd⟩
          rcases hStart with rfl | hLast
          · rfl
          · rw [List.getLast?_cons, List.getLast?_cons, hLast]
            rfl
  | case4 c t hFeed _ first rest hLines ih =>
      rw [hLines] at ih
      have hc : c ≠ '\n' := fun hc => hFeed hc
      cases k with
      | zero =>
          cases h
          obtain ⟨u, e, v, hText, hCount, hStart, hEnd⟩ := ih (k := 0) rfl
          have hNil : u = [] := by
            rcases hStart with hNil | hLast
            · exact hNil
            · exact absurd (List.mem_of_getLast? hLast) (List.count_eq_zero.1 hCount)
          refine ⟨[], e, v, ?_, rfl, .inl rfl, hEnd⟩
          rw [hText, hNil]
          rfl
      | succ k =>
          obtain ⟨u, e, v, rfl, hCount, hStart, hEnd⟩ := ih (k := k + 1) h
          refine ⟨c :: u, e, v, rfl, by simp [hc, hCount], .inr ?_, hEnd⟩
          rcases hStart with rfl | hLast
          · cases hCount
          · rw [List.getLast?_cons, hLast]
            rfl
  | case5 c t hFeed _ hLines ih =>
      have hNil : t = [] := by
        cases t with
        | nil => rfl
        | cons d t => exact absurd hLines (lines_ne_nil (List.cons_ne_nil d t))
      cases k with
      | zero =>
          cases h
          exact ⟨[], [], [], by rw [hNil]; rfl, rfl, .inl rfl, .inr (.inr ⟨rfl, rfl⟩)⟩
      | succ k => cases h

theorem prefix_of_prefix_lineFeed {w s x : Text} (hFeed : '\n' ∉ w) (h : w <+: s ++ '\n' :: x) :
    w <+: s := by
  by_cases hShort : w.length ≤ s.length
  · exact List.prefix_of_prefix_length_le h (List.prefix_append s _) hShort
  · have hLine : s ++ ['\n'] <+: s ++ '\n' :: x := ⟨x, by simp⟩
    have hLong : (s ++ ['\n']).length ≤ w.length := by
      simp only [List.length_append, List.length_singleton]
      omega
    have hPrefix := List.prefix_of_prefix_length_le hLine h hLong
    exact absurd (hPrefix.subset (List.mem_append_right s List.mem_cons_self)) hFeed

/-- What stands at the place of a line and holds no line end stands in the line. -/
theorem prefix_of_prefix_line {line e v w : Text}
    (hEnd : e = ['\n'] ∨ e = ['\r', '\n'] ∨ e = [] ∧ v = []) (hFeed : '\n' ∉ w)
    (hReturn : w.getLast? ≠ some '\r') (h : w <+: line ++ (e ++ v)) : w <+: line := by
  rcases hEnd with rfl | rfl | ⟨rfl, rfl⟩
  · exact prefix_of_prefix_lineFeed hFeed h
  · have hLine : w <+: line ++ ['\r'] := by
      apply prefix_of_prefix_lineFeed (x := v) hFeed
      rwa [List.append_assoc]
    rcases List.prefix_concat_iff.1 hLine with rfl | hPrefix
    · exact absurd List.getLast?_concat hReturn
    · exact hPrefix
  · rwa [List.append_nil, List.append_nil] at h

/-- A text without line ends that stands in a line of another text stands in that text, behind as
many line feeds. -/
theorem occurs_line_iff {t line needle : Text} {k : Nat} (hLine : (lines t)[k]? = some line)
    (hNe : needle ≠ []) (hFeed : '\n' ∉ needle) (hReturn : needle.getLast? ≠ some '\r') :
    (∃ u v, line = u ++ (needle ++ v)) ↔
      ∃ u v, t = u ++ (needle ++ v) ∧ u.count '\n' = k := by
  have hNoFeed : '\n' ∉ line := not_mem_of_mem_lines (List.mem_of_getElem? hLine)
  obtain ⟨u, e, v, hText, hCount, hStart, hEnd⟩ := exists_of_getElem?_lines hLine
  constructor
  · rintro ⟨x, y, rfl⟩
    refine ⟨u ++ x, y ++ (e ++ v), by simp [hText], ?_⟩
    have hx : '\n' ∉ x := fun h => hNoFeed (List.mem_append_left _ h)
    rw [List.count_append, hCount, List.count_eq_zero.2 hx, Nat.add_zero]
  · rintro ⟨x, y, hOccurs, hPlace⟩
    obtain ⟨w, rfl, hTail⟩ : ∃ w, x = u ++ w ∧ line ++ (e ++ v) = w ++ (needle ++ y) := by
      rcases List.append_eq_append_iff.1 (hText.symm.trans hOccurs) with ⟨w, rfl, hTail⟩ | ⟨w, hw, hTail⟩
      · exact ⟨w, rfl, hTail⟩
      · have hNil : w = [] := by
          rw [hw, List.count_append, hPlace] at hCount
          have hNoneIn : '\n' ∉ w := List.count_eq_zero.1 (by omega)
          rcases hStart with hu | hLast
          · rw [hu] at hw
            exact (List.append_eq_nil_iff.1 hw.symm).2
          · cases w with
            | nil => rfl
            | cons c w =>
                rw [hw, List.getLast?_append, List.getLast?_cons, Option.some_or,
                  ← List.getLast?_cons] at hLast
                exact absurd (List.mem_of_getLast? hLast) hNoneIn
        subst hNil
        exact ⟨[], by simpa using hw.symm, by simpa using hTail.symm⟩
    have hw : '\n' ∉ w := by
      rw [List.count_append, hCount] at hPlace
      exact List.count_eq_zero.1 (by omega)
    have hPrefix : w ++ needle <+: line ++ (e ++ v) := ⟨y, by rw [hTail, List.append_assoc]⟩
    have hLast : (w ++ needle).getLast? ≠ some '\r' := by
      rw [List.getLast?_eq_some_getLast hNe] at hReturn
      rwa [List.getLast?_append, List.getLast?_eq_some_getLast hNe, Option.some_or]
    obtain ⟨z, hz⟩ := prefix_of_prefix_line hEnd (by simp [hw, hFeed]) hLast hPrefix
    exact ⟨w, z, by rw [← hz, List.append_assoc]⟩

end GoTemplate.Text
