import GoTemplate.Proofs.Lexical.Verbatim
import GoTemplate.Proofs.Text.Occurrences
import GoTemplate.Template.Instance

/-!
Markers in the tokens of a template. Where the text of a marker stands in a source, either one token
or comment holds it as a whole, or it is the end of an identifier, a point, and the start of another
identifier.
-/

namespace GoTemplate

namespace Template

/-- The name of the package of markers. -/
abbrev markerPackage : Text := "generic".toList

/-- The starts of the names that make a member of the package a marker. -/
def markerMembers : List Text := ["Type".toList, "Number".toList]

theorem exists_of_mem_markers {marker : Text} (h : marker ∈ markers) :
    ∃ member ∈ markerMembers, marker = markerPackage ++ '.' :: member := by
  have hAll : ∀ marker ∈ markers, ∃ member ∈ markerMembers,
      marker = markerPackage ++ '.' :: member := by decide
  exact hAll marker h

theorem isMarked_iff {line : Text} :
    isMarked line = true ↔ ∃ marker ∈ markers, ∃ u v, line = u ++ (marker ++ v) := by
  simp only [isMarked, List.any_eq_true, Text.occursIn_iff]

end Template

/-! ## The token at a marker -/

namespace Lexeme

theorem isStop_g : Numeral.IsStop 'g' where
  digit base := by simp [isDigitOf, Char.isDigit]
  mark := by decide
  radix := rfl
  imaginary := by decide

theorem not_mem_symbol_g {c : Char} (hc : c ≠ 'g') (t : Text) : 'g' ∉ (symbol c t).text :=
  not_mem_text_of_stop [c] (symbol_append_stop (by decide +kernel) c) (source_symbol c)
    (by simpa using hc.symm) t

theorem not_mem_numeral_g (t : Text) : 'g' ∉ (Numeral.scan t).text :=
  not_mem_text_of_stop [] (Numeral.scan_append_stop isStop_g) Numeral.source_scan
    List.not_mem_nil t

open Template in
/-- What starts before a marker and goes on into it holds all of it, or ends with the name of the
package. -/
theorem scan_marker {c : Char} {t p q member v : Text} (hMember : member ∈ markerMembers)
    (hSource : c :: t = p ++ (markerPackage ++ '.' :: member ++ v))
    (hText : (scan c t).text = p ++ 'g' :: q) :
    (∃ q', (scan c t).text = p ++ (markerPackage ++ '.' :: member ++ q')) ∨
      ((scan c t).text = p ++ markerPackage ∧ (scan c t).rest = '.' :: member ++ v ∧
        '\n' ∉ (scan c t).text) := by
  have hPackage : markerPackage = 'g' :: "eneric".toList := rfl
  have hWhole : q ++ (scan c t).rest = ("eneric".toList ++ '.' :: member) ++ v := by
    have hBoth := source_scan c t
    rw [source, hSource, hText, hPackage] at hBoth
    simpa using hBoth
  have hMem : 'g' ∈ (scan c t).text := by
    rw [hText]
    exact List.mem_append_right p List.mem_cons_self
  rcases scan_cases c t with hDelimited | hNumeral | ⟨hStart, hWord⟩ | ⟨hStart, hSymbol⟩
  · rcases List.append_eq_append_iff.1 hWhole with ⟨more, hTail, hRest⟩ | ⟨q', rfl, -⟩
    · -- Only the end of the marker may still be missing: no delimiter stands before that.
      have hPlain : ∀ member ∈ markerMembers, ("generic".toList ++ '.' :: member).all
          (· ∉ ['\n', '\r'] ++ ['"', '`', '\'', '/']) = true := by decide
      cases more with
      | nil =>
          refine .inl ⟨[], ?_⟩
          rw [List.append_nil] at hTail
          rw [hText, ← hTail, hPackage]
          simp
      | cons d more =>
          have hMarker : 'g' :: q ++ d :: more = "generic".toList ++ '.' :: member := by
            rw [List.cons_append, ← hTail]
            rfl
          have hIn : ∀ e ∈ 'g' :: q ++ d :: more, e ∉ ['\n', '\r'] ++ ['"', '`', '\'', '/'] := by
            rw [hMarker]
            exact fun e he => of_decide_eq_true (List.all_eq_true.1 (hPlain member hMember) e he)
          rcases hDelimited with hNil | ⟨e, he, hHead⟩ | ⟨e, he, hLast⟩
          · rw [hNil] at hRest
            cases hRest
          · rw [hRest] at hHead
            cases hHead
            exact absurd (List.mem_append_left _ he) (hIn d (by simp))
          · rw [hText, List.getLast?_append, List.getLast?_cons, Option.some_or,
              ← List.getLast?_cons] at hLast
            have hMember := List.mem_append_left (d :: more) (List.mem_of_getLast? hLast)
            exact absurd (List.mem_append_right _ he) (hIn e hMember)
    · refine .inl ⟨q', ?_⟩
      rw [hText, hPackage]
      simp
  · rw [hNumeral] at hMem
    exact absurd hMem (not_mem_numeral_g _)
  · have hPart : isIdentifierPart c = true := by rw [isIdentifierPart, hStart, Bool.true_or]
    have hPoint : isIdentifierPart '.' = false := by decide +kernel
    have hFeed : isIdentifierPart '\n' = false := by decide +kernel
    have hName : ∀ d ∈ markerPackage, isIdentifierPart d = true :=
      List.all_eq_true.1 (by decide +kernel)
    have hTake : (scan c t).text = (c :: t).takeWhile isIdentifierPart := by
      rw [hWord, List.takeWhile_cons, if_pos hPart]
      rfl
    have hDrop : (scan c t).rest = (c :: t).dropWhile isIdentifierPart := by
      rw [hWord, List.dropWhile_cons, if_pos hPart]
      rfl
    have hAll : ∀ d ∈ (scan c t).text, isIdentifierPart d = true := by
      rw [hTake]
      exact List.all_eq_true.1 List.all_takeWhile
    have hFront : ∀ d ∈ p ++ markerPackage, isIdentifierPart d = true := by
      intro d hd
      rcases List.mem_append.1 hd with hd | hd
      · exact hAll d (by rw [hText]; exact List.mem_append_left _ hd)
      · exact hName d hd
    have hSplit : c :: t = (p ++ markerPackage) ++ '.' :: (member ++ v) := by
      rw [hSource]
      simp
    refine .inr ⟨?_, ?_, ?_⟩
    · rw [hTake, hSplit, takeWhile_append_stop hPoint, List.takeWhile_eq_self_iff.2 hFront]
    · rw [hDrop, hSplit, dropWhile_append_stop hPoint, List.dropWhile_eq_nil_iff.2 hFront]
      rfl
    · intro hMemFeed
      rw [hAll '\n' hMemFeed] at hFeed
      cases hFeed
  · have hNe : c ≠ 'g' := by
      rintro rfl
      rw [show isIdentifierStart 'g' = true by decide +kernel] at hStart
      cases hStart
    rw [hSymbol] at hMem
    exact absurd hMem (not_mem_symbol_g hNe t)

end Lexeme

/-! ## The tokens at a marker -/

namespace Lexeme

/-- A point before a letter is a token of its own. -/
theorem scan_point {d : Char} (hDigit : d.isDigit = false)
    (hLetter : ∀ entry ∈ symbolTable, d ∉ entry.1) (t : Text) :
    scan '.' (d :: t) = ⟨.ok .dot, ['.'], d :: t⟩ := by
  have hFind : symbolTable.find? (fun entry => entry.1.isPrefixOf ['.']) = some (['.'], .dot) := by
    decide +kernel
  have hAlone : symbol '.' [] = ⟨.ok .dot, ['.'], []⟩ := by
    rw [symbol, hFind]
    rfl
  have hNumber : ('.'.isDigit || ('.' == '.' && ((d :: t).head?.any Char.isDigit))) = false := by
    simp [hDigit, show '.'.isDigit = false by decide]
  have hStart : isIdentifierStart '.' = false := by decide +kernel
  have hSymbol := symbol_append_stop hLetter '.' [] t
  rw [List.nil_append, hAlone] at hSymbol
  rw [scan_of_ne (by simp) (by decide) (by decide) (by decide), hNumber, hStart, hSymbol]
  rfl

open Template in
/-- A member of the package is a word that starts with its first letter. -/
theorem exists_scan_member {member : Text} (hMember : member ∈ markerMembers) (v : Text) :
    ∃ c t q, member ++ v = c :: t ∧ c.isDigit = false ∧ (∀ entry ∈ symbolTable, c ∉ entry.1) ∧
      Lexer.splitGap false (c :: t) = ([], c :: t) ∧ (scan c t).text = member ++ q := by
  have hAll : ∀ member ∈ markerMembers, member = member.headD 'T' :: member.tail ∧
      (member.headD 'T').isDigit = false ∧ (∀ entry ∈ symbolTable, member.headD 'T' ∉ entry.1) ∧
      isIdentifierStart (member.headD 'T') = true ∧ Lexer.isBlank (member.headD 'T') = false ∧
      member.headD 'T' ≠ '\uFEFF' ∧ member.tail.all isIdentifierPart = true := by decide +kernel
  obtain ⟨hCons, hDigit, hLetter, hStart, hBlank, hMark, hTail⟩ := hAll member hMember
  have hParts : ∀ d ∈ member.tail, isIdentifierPart d = true := List.all_eq_true.1 hTail
  generalize member.headD 'T' = c at hCons hDigit hLetter hStart hBlank hMark
  have hScan := scan_of_isIdentifierStart hStart (member.tail ++ v)
  refine ⟨c, member.tail ++ v, v.takeWhile isIdentifierPart, ?_, hDigit, hLetter, ?_, ?_⟩
  · rw [← List.cons_append, ← hCons]
  · simp [Lexer.splitGap, hBlank, hMark]
  · rw [hScan, word, List.takeWhile_append_of_pos hParts, ← List.cons_append, ← hCons]

end Lexeme

namespace Template

/-- The marker after `before` lies within one of the tokens. -/
def InToken (ts : List Token) (marker before : Text) : Prop :=
  ∃ t ∈ ts, ∃ x p q, before = x ++ p ∧ t.StandsAfter x ∧ t.lexeme = p ++ (marker ++ q)

/-- The marker after `before` is made of three of the tokens in a row. -/
def InUse (ts : List Token) (member before : Text) : Prop :=
  ∃ as package dot name bs, ts = as ++ package :: dot :: name :: bs ∧ ∃ x p q,
    before = x ++ p ∧ package.lexeme = p ++ markerPackage ∧ '\n' ∉ package.lexeme ∧
      dot.lexeme = ['.'] ∧ name.lexeme = member ++ q ∧ package.StandsAfter x ∧
      dot.StandsAfter (before ++ markerPackage) ∧
      name.StandsAfter (before ++ (markerPackage ++ ['.']))

end Template

namespace Template

theorem InToken.cons {ts : List Token} {marker before : Text} (h : InToken ts marker before)
    (t : Token) : InToken (t :: ts) marker before := by
  obtain ⟨u, hu, hHolds⟩ := h
  exact ⟨u, List.mem_cons_of_mem t hu, hHolds⟩

theorem InUse.cons {ts : List Token} {member before : Text} (h : InUse ts member before)
    (t : Token) : InUse (t :: ts) member before := by
  obtain ⟨as, package, dot, name, bs, rfl, hHolds⟩ := h
  exact ⟨t :: as, package, dot, name, bs, rfl, hHolds⟩

end Template

namespace Lexer

open Template

/-- Where a marker stands in what a reader has before it, its tokens hold it. -/
theorem marker_mem_run {member : Text} (hMember : member ∈ markerMembers) (l : Lexer) :
    ∀ before u v, l.IsVerbatim → l.position = .atEnd before →
      l.rest = u ++ (markerPackage ++ '.' :: member ++ v) →
      InToken l.run.tokens (markerPackage ++ '.' :: member) (before ++ u) ∨
        InUse l.run.tokens member (before ++ u) := by
  induction hLength : l.rest.length using Nat.strong_induction_on generalizing l with
  | _ n ih =>
      intro before u v hVerbatim hPosition hRest
      obtain ⟨gap, here, hGap⟩ : ∃ gap here, splitGap false l.rest = (gap, here) := ⟨_, _, rfl⟩
      have hText : gap ++ here = u ++ (markerPackage ++ '.' :: member ++ v) := by
        have hBoth := splitGap_append false l.rest
        rw [hGap] at hBoth
        exact hBoth.trans hRest
      have hLetter : 'g' ∉ gap := by
        intro hMem
        have hBlank := isBlank_splitGap false l.rest
        rw [hGap] at hBlank
        have hFalse : ¬(isBlank 'g' = true ∨ 'g' = '\uFEFF') := by decide
        exact hFalse (hBlank 'g' hMem)
      cases here with
      | nil =>
          rw [List.append_nil] at hText
          refine absurd ?_ hLetter
          rw [hText]
          exact List.mem_append_right _ (List.mem_append_left _ (List.mem_append_left _ (by decide)))
      | cons c t =>
          obtain ⟨token, after, hTokens, hLexeme, hPlace, hAfter, hAfterRest, hAfterPosition⟩ :=
            hVerbatim.exists_step hPosition hGap
          have hSource : (Lexeme.scan c t).text ++ (Lexeme.scan c t).rest = c :: t :=
            Lexeme.source_scan c t
          have hLess : after.rest.length < n := by
            have hScan := Lexeme.rest_scan_length c t
            have hWhole := congrArg List.length (splitGap_append false l.rest)
            rw [hGap] at hWhole
            simp only [List.length_append, List.length_cons] at hWhole
            rw [hAfterRest]
            omega
          have hLater (u' : Text) (hu : u = gap ++ (Lexeme.scan c t).text ++ u')
              (hTail : (Lexeme.scan c t).rest = u' ++ (markerPackage ++ '.' :: member ++ v)) :
              InToken l.run.tokens (markerPackage ++ '.' :: member) (before ++ u) ∨
                InUse l.run.tokens member (before ++ u) := by
            have hOthers := ih _ hLess after rfl _ u' v hAfter hAfterPosition
              (hAfterRest.trans hTail)
            rw [List.append_assoc, ← hu] at hOthers
            rw [hTokens]
            exact hOthers.imp (·.cons token) (·.cons token)
          rw [← hSource, ← List.append_assoc] at hText
          rcases List.append_eq_append_iff.1 hText with ⟨u', hu, hTail⟩ | ⟨w, hw, hTail⟩
          · exact hLater u' hu hTail
          cases w with
          | nil => exact hLater [] (by simpa using hw.symm) (by simpa using hTail.symm)
          | cons d q =>
              obtain rfl : d = 'g' := (List.cons_eq_cons.1 hTail).1.symm
              obtain ⟨p, rfl, hp⟩ : ∃ p, u = gap ++ p ∧ (Lexeme.scan c t).text = p ++ 'g' :: q := by
                rcases List.append_eq_append_iff.1 hw with ⟨p, hu, hp⟩ | ⟨w, rfl, hp⟩
                · exact ⟨p, hu, hp⟩
                · cases w with
                  | nil => exact ⟨[], by simp, by simpa using hp.symm⟩
                  | cons e w =>
                      obtain ⟨rfl, -⟩ := List.cons_eq_cons.1 hp
                      exact absurd (List.mem_append_right u List.mem_cons_self) hLetter
              have hHere : c :: t = p ++ (markerPackage ++ '.' :: member ++ v) := by
                rw [← hSource, hp, List.append_assoc]
                exact congrArg (p ++ ·) hTail.symm
              rcases Lexeme.scan_marker hMember hHere hp with ⟨q', hWhole⟩ | ⟨hName, hNext, hFeed⟩
              · refine .inl ⟨token, ?_, before ++ gap, p, q', (List.append_assoc _ _ _).symm, hPlace,
                  hLexeme.trans hWhole⟩
                rw [hTokens]
                exact List.mem_cons_self
              · obtain ⟨e, rest, q', hMemberText, hDigit, hSymbol, hNoGap, hMemberScan⟩ :=
                  Lexeme.exists_scan_member hMember v
                have hPoint := Lexeme.scan_point hDigit hSymbol rest
                have hPointGap : splitGap false after.rest = ([], '.' :: e :: rest) := by
                  rw [hAfterRest, hNext, List.cons_append, hMemberText]
                  simp [splitGap, isBlank]
                obtain ⟨dot, second, hDotTokens, hDot, hDotPlace, hSecond, hSecondRest, hSecondPosition⟩ :=
                  hAfter.exists_step hAfterPosition hPointGap
                rw [hPoint] at hDot hSecondRest hSecondPosition
                have hMemberGap : splitGap false second.rest = ([], e :: rest) := by
                  rw [hSecondRest]
                  exact hNoGap
                obtain ⟨name, third, hNameTokens, hNameLexeme, hNamePlace, -⟩ :=
                  hSecond.exists_step hSecondPosition hMemberGap
                refine .inr ⟨[], token, dot, name, third.run.tokens, ?_, before ++ gap, p, q',
                  (List.append_assoc _ _ _).symm, hLexeme.trans hName, ?_, hDot,
                  hNameLexeme.trans hMemberScan, hPlace, ?_, ?_⟩
                · rw [hTokens, hDotTokens, hNameTokens]
                  rfl
                · rw [hLexeme]
                  exact hFeed
                · simpa [hName] using hDotPlace
                · simpa [hName] using hNamePlace

end Lexer

end GoTemplate
