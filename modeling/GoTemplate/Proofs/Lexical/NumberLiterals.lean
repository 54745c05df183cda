import GoTemplate.Proofs.Lexical.Faults
import GoTemplate.Proofs.Lexical.Spelling
import GoTemplate.Proofs.Lexical.Tiling

/-!
Number literals in a source. A stretch of text that starts as a number does is a literal or an error, as
the parts of the number say: all the rules for numbers are kept, but that the exponent of a hexadecimal
number needs a digit.
-/

namespace GoTemplate

/-- Whether the tokens of a kind are numbers. -/
def TokenKind.isNumeral : TokenKind → Bool
  | .literal .int | .literal .float | .literal .imaginary => true
  | _ => false

/-- What the kind of a number puts behind its parts. -/
def TokenKind.numeralEnd (kind : TokenKind) : Text := if kind = .literal .imaginary then ['i'] else []

/-- Whether the token is written as a number with the parts of `n`. -/
def Token.IsWrittenAs (t : Token) (n : Numeral) : Prop :=
  n.IsWritten ∧ t.lexeme = n.text ++ t.kind.numeralEnd

namespace Numeral

/-- The rules for numbers: there is a digit before the exponent, the exponent has a digit, and a
hexadecimal number with a point has an exponent. -/
structure IsComplete (n : Numeral) : Prop where
  mantissa : ∃ c ∈ n.whole ++ n.fraction.getD [], isDigitOf n.radix.base c = true
  exponent : ∀ e ∈ n.exponent, ∃ c ∈ e.digits, isDigitOf 10 c = true
  point : n.radix.base = 16 → n.fraction.isSome = true → n.exponent.isSome = true

/-- A hexadecimal number with an exponent without digits, and no other fault. -/
structure EndsInHexadecimalMark (n : Numeral) : Prop where
  base : n.radix.base = 16
  mantissa : ∃ c ∈ n.whole ++ n.fraction.getD [], isDigitOf 16 c = true
  exponent : ∃ e ∈ n.exponent, ∀ c ∈ e.digits, isDigitOf 10 c = false

variable {n : Numeral} {t : Text}

theorem EndsInHexadecimalMark.not_isComplete (h : n.EndsInHexadecimalMark) : ¬n.IsComplete := by
  intro hComplete
  obtain ⟨e, he, hNone⟩ := h.exponent
  obtain ⟨c, hc, hDigit⟩ := hComplete.exponent e he
  rw [hNone c hc] at hDigit
  cases hDigit

theorem hasMantissaDigit_iff : n.hasMantissaDigit = true ↔
    ∃ c ∈ n.whole ++ n.fraction.getD [], isDigitOf n.radix.base c = true := by
  rw [hasMantissaDigit, ← List.any_append, List.any_eq_true]

theorem fault?_eq_none_of_decimal (hRadix : n.radix = .decimal) :
    n.fault? = none ↔ ∀ e ∈ n.exponent, ∃ c ∈ e.digits, isDigitOf 10 c = true := by
  rw [fault?, hRadix]
  cases n.exponent with
  | none => simp
  | some e => simp

theorem fault?_eq_none_of_ne (hRadix : n.radix ≠ .decimal) :
    n.fault? = none ↔ (n.fraction.isSome = true → n.exponent.isSome = true) ∧ n.hasMantissaDigit = true := by
  have hFault : n.fault? = if n.fraction.isSome && n.exponent.isNone then
      some .hexadecimalPointWithoutExponent
      else if n.hasMantissaDigit then none else some .radixWithoutDigits := by
    rw [fault?]
    cases hSystem : n.radix with
    | decimal => exact absurd hSystem hRadix
    | hexadecimal _ => rfl
    | octal _ => rfl
    | binary _ => rfl
  rw [hFault]
  cases n.fraction <;> cases n.exponent <;> cases n.hasMantissaDigit <;> simp

/-- No fault is found where all rules are kept, and where nothing but the digits of a hexadecimal
exponent is missing. -/
theorem fault?_eq_none_iff (h : n.IsWritten) (hDecimal : n.radix = .decimal → n.hasMantissaDigit = true) :
    n.fault? = none ↔ n.IsComplete ∨ n.EndsInHexadecimalMark := by
  by_cases hRadix : n.radix = .decimal
  · have hNot : n.radix.base ≠ 16 := by rw [hRadix]; decide
    rw [fault?_eq_none_of_decimal hRadix]
    constructor
    · intro hExponent
      exact .inl ⟨hasMantissaDigit_iff.1 (hDecimal hRadix), hExponent, fun hBase => absurd hBase hNot⟩
    · rintro (hComplete | hEnds)
      · exact hComplete.exponent
      · exact absurd hEnds.base hNot
  · rw [fault?_eq_none_of_ne hRadix, hasMantissaDigit_iff]
    rcases Radix.exponentLetters_of_base hRadix with ⟨hBase, -⟩ | hBase
    · constructor
      · rintro ⟨hPoint, hMantissa⟩
        by_cases hExponent : ∀ e ∈ n.exponent, ∃ c ∈ e.digits, isDigitOf 10 c = true
        · exact .inl ⟨hMantissa, hExponent, fun _ => hPoint⟩
        · push Not at hExponent
          exact .inr ⟨hBase, hBase ▸ hMantissa, by simpa using hExponent⟩
      · rintro (hComplete | hEnds)
        · exact ⟨hComplete.point hBase, hComplete.mantissa⟩
        · obtain ⟨e, he, -⟩ := hEnds.exponent
          exact ⟨fun _ => Option.isSome_of_mem he, hBase.symm ▸ hEnds.mantissa⟩
    · have hNot : n.radix.base ≠ 16 := by rintro hSame; simp [hSame] at hBase
      obtain ⟨hFraction, hExponent⟩ := h.only_whole hBase
      constructor
      · rintro ⟨-, hMantissa⟩
        exact .inl ⟨hMantissa, by simp [hExponent], fun hSame => absurd hSame hNot⟩
      · rintro (hComplete | hEnds)
        · exact ⟨by simp [hFraction], hComplete.mantissa⟩
        · exact absurd hEnds.base hNot

/-- What starts as a number does has a digit before the exponent, if it is decimal. -/
theorem hasMantissaDigit_of_starts (hStarts : startsNumeral t = true) (hRadix : (read t).1.radix = .decimal) :
    (read t).1.hasMantissaDigit = true := by
  have hDecimal : ∀ c u, t = '0' :: c :: u → Radix.ofLetter? c = none := by
    rintro c u rfl
    refine Option.eq_none_iff_forall_ne_some.2 fun radix hLetter => ?_
    have hPrefixed : (readPrefixed radix u).1.radix = radix := by
      unfold readPrefixed
      dsimp only
      split <;> rfl
    rw [read, hLetter] at hRadix
    exact Radix.ne_decimal_of_ofLetter? hLetter (hPrefixed.symm.trans hRadix)
  rw [read_of_decimal hDecimal, hasMantissaDigit_iff]
  obtain _ | ⟨c, t⟩ := t
  · cases hStarts
  · have hDigits (d : Char) (u : Text) (hDigit : d.isDigit = true) : d ∈ (splitDigits 10 (d :: u)).1 := by
      rw [splitDigits, List.takeWhile_cons_of_pos (by simp [isDigitOf_ten hDigit])]
      exact List.mem_cons_self
    rw [startsNumeral, Bool.or_eq_true, Bool.and_eq_true, beq_iff_eq] at hStarts
    rcases hStarts with hDigit | ⟨rfl, hDigit⟩
    · exact ⟨c, List.mem_append_left _ (hDigits c t hDigit), isDigitOf_ten hDigit⟩
    · obtain ⟨d, hHead, hDigit⟩ := (Option.any_eq_true ..).1 hDigit
      obtain ⟨u, rfl⟩ := List.head?_eq_some_iff.1 hHead
      have hFraction : (readDecimal ('.' :: d :: u)).1.fraction = some (splitDigits 10 (d :: u)).1 := by
        have hPoint : '.' ≠ d := by rintro rfl; cases hDigit
        have hWhole : splitDigits 10 ('.' :: d :: u) = ([], '.' :: d :: u) := rfl
        have hEllipsis : "...".toList.isPrefixOf ('.' :: d :: u) = false := by simp [List.isPrefixOf, hPoint]
        simp only [readDecimal, hWhole, hEllipsis, Bool.false_eq_true, if_false, readFraction?]
      rw [hFraction]
      exact ⟨d, List.mem_append_right _ (hDigits d u hDigit), isDigitOf_ten hDigit⟩

end Numeral

/-! ## Lexemes -/

namespace Lexeme

theorem startsNumeral_of_scan {c : Char} {t : Text} {kind : TokenKind} (h : (scan c t).reading = .ok kind)
    (hKind : kind.isNumeral = true) : startsNumeral (scan c t).text = true := by
  obtain ⟨l, rfl⟩ : ∃ l, kind = .literal l := by
    cases kind with
    | literal l => exact ⟨l, rfl⟩
    | _ => cases hKind
  rcases literal_cases h with hQuote | ⟨-, hStarts, hScan⟩
  · cases l with
    | int => cases hQuote
    | float => cases hQuote
    | imaginary => cases hQuote
    | rune => cases hKind
    | string => cases hKind
    | rawString => cases hKind
  · rw [hScan]
    exact Numeral.startsNumeral_text_scan hStarts

theorem scan_numeral {c : Char} {t : Text} (h : startsNumeral (scan c t).text = true) :
    ∃ n : Numeral, n.IsWritten ∧ (n.radix = .decimal → n.hasMantissaDigit = true) ∧
      ((∃ kind, (scan c t).reading = .ok kind ∧ n.fault? = none ∧ kind.isNumeral = true ∧
        (scan c t).text = n.text ++ kind.numeralEnd) ∨
      ∃ fault, (scan c t).reading = .error (.invalidNumeral fault) ∧ n.fault? = some fault ∧
        (scan c t).text = n.text) := by
  have hStarts : startsNumeral (c :: t) = true := by
    rw [← source_scan c t]
    exact startsNumeral_of_append h
  rw [scan_of_startsNumeral hStarts]
  refine ⟨(Numeral.read (c :: t)).1, Numeral.isWritten_read _, Numeral.hasMantissaDigit_of_starts hStarts, ?_⟩
  unfold Numeral.scan
  dsimp only
  cases hFault : (Numeral.read (c :: t)).1.fault? with
  | some fault => exact .inr ⟨fault, rfl, rfl, rfl⟩
  | none =>
      refine .inl ?_
      dsimp only
      split
      · exact ⟨_, rfl, rfl, rfl, rfl⟩
      · refine ⟨_, rfl, rfl, ?_, ?_⟩
        · unfold Numeral.literal
          split <;> rfl
        · unfold Numeral.literal
          split <;> simp [TokenKind.numeralEnd]

end Lexeme

/-! ## Runs -/

namespace Lexer

theorem accept_errors (l : Lexer) (lexeme : Lexeme) : l.errors ⊆ (l.accept lexeme).errors := by
  unfold accept
  split
  · exact List.Subset.refl _
  · exact List.Subset.refl _
  · exact List.subset_append_left ..

theorem next_errors_subset (l : Lexer) : l.errors ⊆ l.next.2.errors := by
  obtain ⟨gap, rest, -, hNext⟩ := l.exists_skips
  rw [hNext]
  unfold nextHere
  split
  · exact List.Subset.refl _
  · split
    · exact List.Subset.refl _
    · exact accept_errors (l.moveOn gap rest) _

/-- A run keeps the faults that were met before. -/
theorem run_errors_subset (l : Lexer) : l.errors ⊆ l.run.after.errors := by
  fun_induction run l with
  | case1 l token after hNext _ =>
      have hErrors := l.next_errors_subset
      rw [hNext] at hErrors
      exact hErrors
  | case2 l token after hNext hEnd others =>
      rename_i ih
      have hErrors := l.next_errors_subset
      rw [hNext] at hErrors
      exact List.Subset.trans hErrors ih

/-- A token that a reader finds is an automatic semicolon, or it was scanned, and its fault recorded. -/
theorem next_cases (l : Lexer) (hEnd : l.next.1.kind ≠ .endOfSource) : l.next.1.isAutomatic = true ∨
    ∃ (here : Lexer) (c : Char) (t : Text), l.next.1 = here.token (Lexeme.scan c t) ∧
      ∀ fault, (Lexeme.scan c t).reading = .error fault → ⟨fault, l.next.1.span⟩ ∈ l.next.2.errors := by
  obtain ⟨gap, rest, -, hNext⟩ := l.exists_skips
  rw [hNext] at hEnd ⊢
  unfold nextHere at hEnd ⊢
  split
  · exact .inl rfl
  · rename_i hGoesOn
    rw [if_neg hGoesOn] at hEnd
    split
    · rename_i hRest
      rw [hRest] at hEnd
      exact absurd rfl hEnd
    · rename_i c t _
      refine .inr ⟨l.moveOn gap rest, c, t, rfl, fun fault hFault => ?_⟩
      rw [accept, hFault]
      exact List.mem_append_right _ (List.mem_singleton_self _)

theorem run_cases (l : Lexer) : ∀ t ∈ l.run.tokens, t.isAutomatic = true ∨
    ∃ (here : Lexer) (c : Char) (u : Text), t = here.token (Lexeme.scan c u) ∧
      ∀ fault, (Lexeme.scan c u).reading = .error fault → ⟨fault, t.span⟩ ∈ l.run.after.errors := by
  fun_induction run l with
  | case1 => rintro _ ⟨⟩
  | case2 l token after hNext hEnd others ih =>
      refine List.forall_mem_cons.2 ⟨?_, ih⟩
      have hToken := l.next_cases (by rw [hNext]; exact hEnd)
      rw [hNext] at hToken
      refine hToken.imp_right ?_
      rintro ⟨here, c, u, hScan, hErrors⟩
      exact ⟨here, c, u, hScan, fun fault hFault => after.run_errors_subset (hErrors fault hFault)⟩

/-- **Number literals keep all rules but one.** The tokens that are numbers start as one, and what starts
as a number is a token that can be written in one way only, as some parts. It is a number literal where its
parts keep all rules, and where nothing but the digits of a hexadecimal exponent is missing. Otherwise it is
invalid, with the fault of its parts on record. -/
theorem run_numerals {mode : LexerMode} {source : Text} {t : Token}
    (ht : t ∈ (ofSource mode source).run.tokens) :
    (t.kind.isNumeral = true → startsNumeral t.lexeme = true) ∧
      (startsNumeral t.lexeme = true → ∃ n, t.IsWrittenAs n ∧ (∀ m, t.IsWrittenAs m → m = n) ∧
        (t.kind.isNumeral = true ↔ n.IsComplete ∨ n.EndsInHexadecimalMark) ∧
        (t.kind.isNumeral = false → t.kind = .invalid ∧ ∃ fault, n.fault? = some fault ∧
          ⟨.invalidNumeral fault, t.span⟩ ∈ (ofSource mode source).run.after.errors)) := by
  rcases (ofSource mode source).run_cases t ht with hAutomatic | ⟨here, c, u, rfl, hErrors⟩
  · rw [Token.isAutomatic, Bool.and_eq_true, beq_iff_eq, beq_iff_eq] at hAutomatic
    obtain ⟨hKind, hLexeme⟩ := hAutomatic
    rw [hKind, hLexeme]
    exact ⟨by rintro ⟨⟩, by rintro ⟨⟩⟩
  · refine ⟨fun hKind => ?_, fun hStarts => ?_⟩
    · cases hReading : (Lexeme.scan c u).reading with
      | error fault =>
          rw [token, hReading] at hKind
          cases hKind
      | ok kind =>
          rw [kind_token_of_ok hReading] at hKind
          exact Lexeme.startsNumeral_of_scan hReading hKind
    · obtain ⟨n, hWritten, hDecimal, hScan⟩ := Lexeme.scan_numeral hStarts
      have hSame {m : Numeral} (hText : n.text = m.text) (hm : m.IsWritten) : m = n :=
        Numeral.eq_of_text_eq hm hWritten hText.symm
      have hFault := Numeral.fault?_eq_none_iff hWritten hDecimal
      rcases hScan with ⟨kind, hReading, hNone, hKind, hText⟩ | ⟨fault, hReading, hSome, hText⟩
      · have hToken := kind_token_of_ok (l := here) hReading
        refine ⟨n, ⟨hWritten, by rw [hToken]; exact hText⟩, ?_, ?_, ?_⟩
        · rintro m ⟨hm, hSource⟩
          rw [hToken] at hSource
          exact hSame (List.append_cancel_right (hText.symm.trans hSource)) hm
        · rw [hToken]
          exact iff_of_true hKind (hFault.1 hNone)
        · rw [hToken, hKind]
          rintro ⟨⟩
      · have hToken : (here.token (Lexeme.scan c u)).kind = .invalid := by rw [token, hReading]
        refine ⟨n, ⟨hWritten, ?_⟩, ?_, ?_, fun _ => ⟨hToken, fault, hSome, hErrors _ hReading⟩⟩
        · rw [hToken]
          exact hText.trans (List.append_nil _).symm
        · rintro m ⟨hm, hSource⟩
          rw [hToken] at hSource
          exact hSame (hText.symm.trans (hSource.trans (List.append_nil _))) hm
        · rw [hToken, ← hFault, hSome]
          exact iff_of_false Bool.false_ne_true (by rintro ⟨⟩)

/-- A hexadecimal number with all its parts. -/
theorem run_numerals_imaginary : ∃ t ∈ (ofSource .statements "0x1.8p-3i".toList).run.tokens,
    t.kind = .literal .imaginary ∧ ∃ n, t.IsWrittenAs n ∧ n.IsComplete := by
  let t : Token := ⟨.literal .imaginary, "0x1.8p-3i".toList, ⟨1, 1, 9⟩⟩
  have ht : t ∈ (ofSource .statements "0x1.8p-3i".toList).run.tokens := by decide +kernel
  obtain ⟨n, hWritten, hOnly, hKind, -⟩ := (run_numerals ht).2 (by decide)
  refine ⟨t, ht, rfl, n, hWritten, ?_⟩
  rcases hKind.1 rfl with hComplete | hEnds
  · exact hComplete
  · have hParts : t.IsWrittenAs ⟨.hexadecimal 'x', ['1'], some ['8'], some ⟨'p', ['-'], ['3']⟩⟩ := by
      refine ⟨⟨.inr ⟨'x', rfl⟩, List.all_eq_true.1 rfl, ?_, ?_⟩, rfl⟩
      · rintro _ ⟨⟩
        exact ⟨by decide, List.all_eq_true.1 rfl⟩
      · rintro _ ⟨⟩
        exact ⟨by decide, by decide, List.all_eq_true.1 rfl⟩
    rw [← hOnly _ hParts] at hEnds
    obtain ⟨_, ⟨⟩, hNone⟩ := hEnds.exponent
    exact absurd (hNone '3' (by decide)) (by decide)

/-- The exponent of a hexadecimal number may lack its digits: the number is taken as a literal, and no
fault is recorded. -/
theorem run_hexadecimal_mark : let run := (ofSource .statements "0x1p".toList).run
    run.after.errors = [] ∧ ∃ t ∈ run.tokens, t.kind = .literal .float ∧
      ∃ n, t.IsWrittenAs n ∧ ¬n.IsComplete := by
  refine ⟨by decide +kernel, ⟨.literal .float, "0x1p".toList, ⟨1, 1, 4⟩⟩, by decide +kernel, rfl,
    ⟨.hexadecimal 'x', ['1'], none, some ⟨'p', [], []⟩⟩,
    ⟨⟨.inr ⟨'x', rfl⟩, List.all_eq_true.1 rfl, by rintro _ ⟨⟩, ?_⟩, rfl⟩, ?_⟩
  · rintro _ ⟨⟩
    exact ⟨by decide, by decide, List.all_eq_true.1 rfl⟩
  · exact Numeral.EndsInHexadecimalMark.not_isComplete
      ⟨rfl, ⟨'1', by simp, by decide⟩, _, rfl, by rintro _ ⟨⟩⟩

end Lexer

end GoTemplate
