import GoTemplate.Proofs.Text.Lines
import GoTemplate.Report.Diagnostic
import Mathlib.Data.Nat.Digits.Lemmas

/-!
The marks under a line of the source in a report. They stand to the left of what they should mark: the
row of the line begins with its number, and the row of the marks does not leave as much room.
-/

namespace GoTemplate

open Text

/-- The span lies in a line of the source. -/
structure Span.IsInLine (span : Span) (source line : Text) : Prop where
  line_pos : 1 ≤ span.line
  getElem?_line : (lines source)[span.line - 1]? = some line
  col_pos : 1 ≤ span.col
  col_le : span.col ≤ line.length
  end_le : span.col - 1 + span.length ≤ line.length

namespace Diagnostic

/-- Whether the report ends with the line and a row of marks below it, and the marks are a caret and
tildes, one for each character of the span but one at least, which begin `shift` columns to the left of
the first character of the span. -/
def MarksShifted (shift : Nat) (source line : Text) (d : Diagnostic) : Prop :=
  ∃ above number before marked behind room, line = before ++ marked ++ behind ∧
    byteSize before = d.span.col - 1 ∧ byteSize marked = d.span.length ∧
    lines (d.render source) =
      above ++ [number ++ line, room ++ '^' :: List.replicate (marked.length - 1) '~'] ∧
    '^' ∉ room ∧ '~' ∉ room ∧ room.length + shift = number.length + before.length

/-! ## Rows of the report -/

theorem isDigit_of_mem_ofNat {n : Nat} {c : Char} (h : c ∈ ofNat n) : c.isDigit = true := by
  rw [ofNat, Nat.toString_eq_repr, Nat.toList_repr] at h
  exact Nat.isDigit_of_mem_toDigits (by decide) (by decide) h

theorem isLineEnd_of_mem_lineNumber {n : Nat} {c : Char} (h : c ∈ lineNumber n) : isLineEnd c = false := by
  rcases List.mem_append.1 h with h | h
  · rw [List.eq_of_mem_replicate h]
    rfl
  · have hDigit := isDigit_of_mem_ofNat h
    rw [isLineEnd, Bool.or_eq_false_iff, beq_eq_false_iff_ne, beq_eq_false_iff_ne]
    constructor <;> (rintro rfl; cases hDigit)

theorem mem_underline {span : Span} {c : Char} (h : c ∈ underline span) : c = ' ' ∨ c = '^' ∨ c = '~' := by
  rcases List.mem_append.1 h with h | h
  · exact .inl (List.eq_of_mem_replicate h)
  · rcases List.mem_cons.1 h with h | h
    · exact .inr (.inl h)
    · exact .inr (.inr (List.eq_of_mem_replicate h))

/-- A number below a thousand is written in three columns. -/
theorem length_lineNumber {n : Nat} (h : n ≤ 999) : (lineNumber n).length = 3 := by
  have hDigits : (ofNat n).length ≤ 3 := by
    rw [ofNat, Nat.toString_eq_repr, String.length_toList]
    exact Nat.repr_length n 3 (by decide) (by omega)
  rw [lineNumber, List.length_append, List.length_replicate]
  omega

variable {source line : Text} {d : Diagnostic}

theorem mem_of_getElem?_lines {i : Nat} (h : (lines source)[i]? = some line) {c : Char} (hc : c ∈ line) :
    c ∈ source := by
  obtain ⟨u, e, v, rfl, -⟩ := exists_of_getElem?_lines h
  exact List.mem_append_right u (List.mem_append_left _ hc)

/-- A row without line ends is read back. -/
theorem lines_row {row : Text} (h : ∀ c ∈ row, isLineEnd c = false) : lines (row ++ ['\n']) = [row] := by
  apply lines_append_lineFeed
  · exact fun hFeed => Bool.noConfusion (h '\n' hFeed)
  · exact fun hLast => Bool.noConfusion (h '\r' (List.mem_of_getLast? hLast))

/-- The last rows of a report. -/
theorem exists_lines_render (h : d.span.IsInLine source line) (hReturn : '\r' ∉ source) :
    ∃ above, lines (d.render source) = above ++ [lineNumber d.span.line ++ " | ".toList ++ line,
      "  | ".toList ++ underline d.span] := by
  have hPos := h.line_pos
  have hExcerpt : excerpt source d.span = ["  |".toList, lineNumber d.span.line ++ " | ".toList ++ line,
      "  | ".toList ++ underline d.span] := by
    rw [excerpt, if_neg (by omega), h.getElem?_line]
  have hLine : ∀ c ∈ line, isLineEnd c = false := by
    intro c hc
    rw [isLineEnd, Bool.or_eq_false_iff, beq_eq_false_iff_ne, beq_eq_false_iff_ne]
    constructor
    · rintro rfl
      exact hReturn (mem_of_getElem?_lines h.getElem?_line hc)
    · rintro rfl
      exact not_mem_of_mem_lines (List.mem_of_getElem? h.getElem?_line) hc
  have hRow : lines (lineNumber d.span.line ++ " | ".toList ++ line ++ ['\n']) =
      [lineNumber d.span.line ++ " | ".toList ++ line] := by
    refine lines_row fun c hc => ?_
    rcases List.mem_append.1 hc with hc | hc
    · rcases List.mem_append.1 hc with hc | hc
      · exact isLineEnd_of_mem_lineNumber hc
      · exact (by simp [isLineEnd] : ∀ c ∈ " | ".toList, isLineEnd c = false) c hc
    · exact hLine c hc
  have hMarks : lines ("  | ".toList ++ underline d.span ++ ['\n']) =
      ["  | ".toList ++ underline d.span] := by
    refine lines_row fun c hc => ?_
    rcases List.mem_append.1 hc with hc | hc
    · exact (by simp [isLineEnd] : ∀ c ∈ "  | ".toList, isLineEnd c = false) c hc
    · rcases mem_underline hc with rfl | rfl | rfl <;> rfl
  have hEnd : ["  |".toList, lineNumber d.span.line ++ " | ".toList ++ line,
        "  | ".toList ++ underline d.span].flatMap (fun row => lines (row ++ ['\n'])) =
      lines ("  |".toList ++ ['\n']) ++
        [lineNumber d.span.line ++ " | ".toList ++ line, "  | ".toList ++ underline d.span] := by
    rw [List.flatMap_cons, List.flatMap_cons, List.flatMap_cons, hRow, hMarks]
    rfl
  rw [render, lines_flatMap_append (fun row => row), rows, hExcerpt, List.flatMap_append, hEnd,
    ← List.append_assoc]
  exact ⟨_, rfl⟩

/-! ## The marks -/

/-- In a text of single bytes the bytes of a part are its characters. -/
theorem byteSize_of_ascii {t : Text} (h : ∀ c ∈ t, c.toNat < 128) : byteSize t = t.length := by
  induction t with
  | nil => rfl
  | cons c t ih =>
      obtain ⟨hc, ht⟩ := List.forall_mem_cons.1 h
      have hSize : c.utf8Size = 1 := by
        rw [Char.utf8Size_eq_one_iff, UInt32.le_iff_toNat_le]
        exact Nat.le_of_lt_succ hc
      rw [byteSize, hSize, ih ht, List.length_cons, Nat.add_comm]

/-- The room before the caret. -/
def room (span : Span) : Text := "  | ".toList ++ List.replicate (span.col - 1) ' '

theorem marks_eq (span : Span) : "  | ".toList ++ underline span =
    room span ++ '^' :: List.replicate (span.length - 1) '~' := by
  rw [underline, room, List.append_assoc]

theorem mem_room {span : Span} {c : Char} (h : c ∈ room span) : c = ' ' ∨ c = '|' := by
  rcases List.mem_append.1 h with h | h
  · exact (by simp : ∀ c ∈ "  | ".toList, c = ' ' ∨ c = '|') c h
  · exact .inl (List.eq_of_mem_replicate h)

theorem length_room (span : Span) : (room span).length = 4 + (span.col - 1) := by
  rw [room, List.length_append, List.length_replicate]
  rfl

/-- The marks are moved to the left by one column less than the number of the line is wide. -/
theorem marksShifted_iff_length (h : d.span.IsInLine source line) (hAscii : ∀ c ∈ source, c.toNat < 128)
    (hReturn : '\r' ∉ source) (shift : Nat) :
    d.MarksShifted shift source line ↔ shift + 1 = (lineNumber d.span.line).length := by
  have hBytes {t : Text} (ht : t ⊆ line) : byteSize t = t.length :=
    byteSize_of_ascii fun c hc => hAscii c (mem_of_getElem?_lines h.getElem?_line (ht hc))
  obtain ⟨above, hRows⟩ := exists_lines_render h hReturn
  rw [marks_eq] at hRows
  obtain ⟨-, -, hCol, -, hEnd⟩ := h
  have hCaret : '^' ∉ room d.span := fun hMem => by rcases mem_room hMem with hc | hc <;> cases hc
  have hTilde : '~' ∉ room d.span := fun hMem => by rcases mem_room hMem with hc | hc <;> cases hc
  have hRoom := length_room d.span
  constructor
  · rintro ⟨above', number, before, marked, behind, left, hSplit, hBefore, -, hRender, hLeft, -, hPlace⟩
    -- Both ways to take the last rows apart are the same.
    have hPair := (List.append_inj' (hRender.symm.trans hRows) rfl).2
    obtain ⟨hNumber, hMarks⟩ : number ++ line = lineNumber d.span.line ++ " | ".toList ++ line ∧
        left ++ '^' :: _ = room d.span ++ '^' :: _ := by simpa using hPair
    have hSame : left.length = (room d.span).length := by
      have hIndex := congrArg (List.idxOf '^') hMarks
      rw [List.idxOf_append_of_notMem hLeft, List.idxOf_append_of_notMem hCaret,
        List.idxOf_cons_self, List.idxOf_cons_self] at hIndex
      exact hIndex
    have hWidth : number.length = (lineNumber d.span.line).length + 3 := by
      rw [List.append_cancel_right hNumber, List.length_append]
      rfl
    have hLength : before.length = d.span.col - 1 := by
      rw [← hBefore, hBytes (hSplit ▸ by simp)]
    omega
  · intro hShift
    have hSplit : line = line.take (d.span.col - 1) ++ (line.drop (d.span.col - 1)).take d.span.length ++
        (line.drop (d.span.col - 1)).drop d.span.length := by
      rw [List.append_assoc, List.take_append_drop, List.take_append_drop]
    have hBefore : (line.take (d.span.col - 1)).length = d.span.col - 1 := by
      rw [List.length_take]
      omega
    have hMarked : ((line.drop (d.span.col - 1)).take d.span.length).length = d.span.length := by
      rw [List.length_take, List.length_drop]
      omega
    refine ⟨above, lineNumber d.span.line ++ " | ".toList, _, _, _, room d.span, hSplit, ?_, ?_, ?_, hCaret,
      hTilde, ?_⟩
    · rw [hBytes (List.take_subset _ _), hBefore]
    · rw [hBytes (List.Subset.trans (List.take_subset _ _) (List.drop_subset _ _)), hMarked]
    · rw [hRows, hMarked]
    · rw [List.length_append, hBefore, hRoom]
      change _ = _ + 3 + _
      omega

/-- The marks under a line never stand below the characters of the span. In a source of single bytes and
without carriage returns, for a span that lies in one of its first 999 lines, they are the caret and
tildes that the span asks for, but always two columns to the left. -/
theorem marksShifted_iff (h : d.span.IsInLine source line) (hAscii : ∀ c ∈ source, c.toNat < 128)
    (hReturn : '\r' ∉ source) (hLine : d.span.line ≤ 999) (shift : Nat) :
    d.MarksShifted shift source line ↔ shift = 2 := by
  rw [marksShifted_iff_length h hAscii hReturn, length_lineNumber hLine]
  omega

/-- An import behind another declaration: six characters are marked. -/
theorem marksShifted_iff_lateImport :
    let source : Text := "package p\nvar x int\n import \"a\"".toList
    ∃ rejection d, SourceFile.parse source = .error rejection ∧ rejection.diagnostics = [d] ∧
      d.span = ⟨3, 2, 6⟩ ∧ d.MarksShifted 2 source " import \"a\"".toList := by
  intro source
  have hReport : (match SourceFile.parse source with | .ok _ => [] | .error e => e.diagnostics) =
      [⟨.expectedDeclaration, ⟨3, 2, 6⟩, "imports must appear before other declarations"⟩] := by
    decide +kernel
  cases hParse : SourceFile.parse source with
  | ok file => rw [hParse] at hReport; cases hReport
  | error rejection =>
      rw [hParse] at hReport
      refine ⟨rejection, _, rfl, hReport, rfl, ?_⟩
      exact (marksShifted_iff ⟨by decide, by decide +kernel, by decide, by decide, by decide⟩ (by simp [source])
        (by decide) (by decide) 2).2 rfl

/-- The caret does not stand below the only character of a source. -/
theorem exists_not_marksShifted_zero : ∃ rejection d, SourceFile.parse "p".toList = .error rejection ∧
    rejection.diagnostics = [d] ∧ d.span.IsInLine "p".toList "p".toList ∧
      ¬d.MarksShifted 0 "p".toList "p".toList := by
  have hReport : (match SourceFile.parse "p".toList with | .ok _ => [] | .error e => e.diagnostics) =
      [⟨.expectedPackage, ⟨1, 1, 1⟩, "expected 'package', found identifier"⟩] := by
    decide +kernel
  cases hParse : SourceFile.parse "p".toList with
  | ok file => rw [hParse] at hReport; cases hReport
  | error rejection =>
      rw [hParse] at hReport
      have hSpan : (⟨1, 1, 1⟩ : Span).IsInLine "p".toList "p".toList :=
        ⟨by decide, by decide, by decide, by decide, by decide⟩
      refine ⟨rejection, _, rfl, hReport, hSpan, fun hMarks => ?_⟩
      have hShift := (marksShifted_iff_length hSpan (by simp) (by decide) 0).1 hMarks
      revert hShift
      decide +kernel

end Diagnostic

end GoTemplate
