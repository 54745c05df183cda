import GoTemplate.Lexical.Numeral
import Mathlib.Data.List.TakeWhile

/-!
How numbers are written. The parts of a number hold digits, underscores and marks in their places, so
that a number has one reading only: the parts are found again in the text they make up.
-/

namespace GoTemplate

/-- The letters that start an exponent. -/
def Radix.exponentLetters : Radix → Text
  | decimal => ['e', 'E']
  | hexadecimal _ => ['p', 'P']
  | octal _ => []
  | binary _ => []

/-- Whether the parts of an exponent hold what they are for. -/
structure Exponent.IsWritten (letters : Text) (e : Exponent) : Prop where
  letter : e.letter ∈ letters
  sign : e.sign = [] ∨ e.sign = ['+'] ∨ e.sign = ['-']
  digits : ∀ c ∈ e.digits, (isDigitOf 10 c || c == '_') = true

/-- Whether the parts of a number hold what they are for. -/
structure Numeral.IsWritten (n : Numeral) : Prop where
  radix : n.radix = .decimal ∨ ∃ letter, Radix.ofLetter? letter = some n.radix
  whole : ∀ c ∈ n.whole, (isDigitOf n.radix.base c || c == '_') = true
  fraction : ∀ digits ∈ n.fraction, n.radix.base ∈ [10, 16] ∧
    ∀ c ∈ digits, (isDigitOf n.radix.base c || c == '_') = true
  exponent : ∀ e ∈ n.exponent, e.IsWritten n.radix.exponentLetters

namespace Radix

variable {c : Char}

/-- The point and the letters of exponents are no digits. -/
theorem not_isDigitOf_of_mark (radix : Radix) (h : c = '.' ∨ c ∈ radix.exponentLetters) :
    (isDigitOf radix.base c || c == '_') = false := by
  have hMark (base : Nat) (letters : Text)
      (hAll : ('.' :: letters).all (fun c => !(isDigitOf base c || c == '_')) = true)
      (hc : c = '.' ∨ c ∈ letters) : (isDigitOf base c || c == '_') = false := by
    simpa using List.all_eq_true.1 hAll c (List.mem_cons.2 hc)
  cases radix with
  | decimal => exact hMark 10 ['e', 'E'] (by decide) h
  | hexadecimal _ => exact hMark 16 ['p', 'P'] (by decide) h
  | octal _ => exact hMark 8 [] (by decide) h
  | binary _ => exact hMark 2 [] (by decide) h

theorem point_not_mem_exponentLetters (radix : Radix) : '.' ∉ radix.exponentLetters := by
  cases radix <;> simp [exponentLetters]

/-- Besides the system in tens only the hexadecimal one has exponents. -/
theorem exponentLetters_of_base {radix : Radix} (hRadix : radix ≠ .decimal) :
    (radix.base = 16 ∧ radix.exponentLetters = ['p', 'P']) ∨
      radix.base ∉ [10, 16] := by
  cases radix with
  | decimal => exact absurd rfl hRadix
  | hexadecimal _ => exact .inl ⟨rfl, rfl⟩
  | octal _ => exact .inr (by simp [base])
  | binary _ => exact .inr (by simp [base])

theorem ne_decimal_of_ofLetter? {radix : Radix} (h : ofLetter? c = some radix) : radix ≠ .decimal := by
  rintro rfl
  unfold ofLetter? at h
  split at h
  · cases h
  · split at h
    · cases h
    · split at h <;> cases h

theorem mem_of_ofLetter? {radix : Radix} (h : ofLetter? c = some radix) :
    c ∈ ['x', 'X', 'o', 'O', 'b', 'B'] := by
  unfold ofLetter? at h
  split at h
  · rename_i hc
    rcases hc with rfl | rfl <;> simp
  · split at h
    · rename_i hc
      rcases hc with rfl | rfl <;> simp
    · split at h
      · rename_i hc
        rcases hc with rfl | rfl <;> simp
      · cases h

/-- A letter that names a radix stands nowhere in a decimal number. -/
theorem ofLetter?_eq_none (h : (isDigitOf 10 c || c == '_') = true ∨ c ∈ ['.', 'e', 'E', '+', '-']) :
    ofLetter? c = none := by
  refine Option.eq_none_iff_forall_ne_some.2 fun radix hLetter => ?_
  have hAll : ['x', 'X', 'o', 'O', 'b', 'B'].all (fun c =>
      !(isDigitOf 10 c || c == '_') && !(['.', 'e', 'E', '+', '-'].contains c)) = true := by decide
  have hc := List.all_eq_true.1 hAll c (mem_of_ofLetter? hLetter)
  simp only [Bool.and_eq_true, Bool.not_eq_true', List.contains_eq_mem, decide_eq_false_iff_not] at hc
  rcases h with hDigit | hMark
  · rw [hc.1] at hDigit
    cases hDigit
  · exact hc.2 hMark

end Radix

namespace Exponent

variable {letters : Text} {exponent : Option Exponent} {e : Exponent}

theorem isWritten_read {letter : Char} (h : letter ∈ letters) (t : Text) :
    (read letter t).1.IsWritten letters := by
  have hDigits (u : Text) : ∀ c ∈ u.takeWhile fun c => isDigitOf 10 c || c == '_',
      (isDigitOf 10 c || c == '_') = true := fun _ => List.mem_takeWhile_imp
  unfold read
  split
  · exact ⟨h, .inl rfl, by simp⟩
  · rename_i c u
    dsimp only
    split
    · rename_i hSign
      exact ⟨h, .inr (by simpa using hSign), hDigits u⟩
    · exact ⟨h, .inl rfl, hDigits (c :: u)⟩

theorem isWritten_read? (letters t : Text) : ∀ e ∈ (read? letters t).1, e.IsWritten letters := by
  unfold read?
  split
  · rintro _ ⟨⟩
  · split
    · rename_i hLetter
      rintro _ ⟨⟩
      exact isWritten_read hLetter _
    · rintro _ ⟨⟩

theorem read_of_isWritten (h : e.IsWritten letters) : read e.letter (e.sign ++ e.digits) = (e, []) := by
  obtain ⟨letter, sign, digits⟩ := e
  have hTake : digits.takeWhile (fun c => isDigitOf 10 c || c == '_') = digits :=
    List.takeWhile_eq_self_iff.2 h.digits
  have hDrop : digits.dropWhile (fun c => isDigitOf 10 c || c == '_') = [] :=
    List.dropWhile_eq_nil_iff.2 h.digits
  obtain rfl | rfl | rfl : sign = [] ∨ sign = ['+'] ∨ sign = ['-'] := h.sign
  · cases digits with
    | nil => rfl
    | cons c digits =>
        have hDigit := h.digits c List.mem_cons_self
        have hSign : ¬(c = '+' ∨ c = '-') := by
          rintro (rfl | rfl)
          · exact absurd hDigit (by decide)
          · exact absurd hDigit (by decide)
        simp only [List.nil_append, read, if_neg hSign, hTake, hDrop]
  · simp [read, hTake, hDrop]
  · simp [read, hTake, hDrop]

/-- An exponent is found again from its own text. -/
theorem read?_of_isWritten (h : ∀ e ∈ exponent, e.IsWritten letters) :
    read? letters (Numeral.exponentText exponent) = (exponent, []) := by
  cases exponent with
  | none => rfl
  | some e =>
      have hWritten := h e rfl
      change read? letters (e.letter :: (e.sign ++ e.digits)) = _
      rw [read?, if_pos hWritten.letter, read_of_isWritten hWritten]

theorem mem_of_head?_text (h : ∀ e ∈ exponent, e.IsWritten letters) {c : Char}
    (hHead : c ∈ (Numeral.exponentText exponent).head?) : c ∈ letters := by
  cases exponent with
  | none => cases hHead
  | some e =>
      obtain rfl : e.letter = c := Option.some.inj hHead
      exact (h e rfl).letter

end Exponent

namespace Numeral

variable {base : Nat} {digits z : Text} {fraction : Option Text} {n m : Numeral}

theorem splitDigits_of_isDigitOf (hDigits : ∀ c ∈ digits, (isDigitOf base c || c == '_') = true)
    (hz : ∀ c ∈ z.head?, (isDigitOf base c || c == '_') = false) :
    splitDigits base (digits ++ z) = (digits, z) := by
  rw [splitDigits, List.takeWhile_append_of_pos hDigits, List.dropWhile_append_of_pos hDigits]
  cases z with
  | nil => simp
  | cons c z =>
      rw [List.takeWhile_cons, List.dropWhile_cons, hz c rfl]
      simp

theorem readFraction?_of_isDigitOf
    (hFraction : ∀ digits ∈ fraction, ∀ c ∈ digits, (isDigitOf base c || c == '_') = true)
    (hz : ∀ c ∈ z.head?, c ≠ '.' ∧ (isDigitOf base c || c == '_') = false) :
    readFraction? base (fractionText fraction ++ z) = (fraction, z) := by
  cases fraction with
  | none =>
      change readFraction? base z = _
      unfold readFraction?
      split
      · exact absurd rfl (hz '.' rfl).1
      · rfl
  | some digits =>
      change readFraction? base ('.' :: (digits ++ z)) = _
      rw [readFraction?, splitDigits_of_isDigitOf (hFraction digits rfl) fun c hc => (hz c hc).2]

theorem read_of_decimal {t : Text} (h : ∀ c u, t = '0' :: c :: u → Radix.ofLetter? c = none) :
    read t = readDecimal t := by
  unfold read
  split
  · rename_i c u
    rw [h c u rfl]
  · rfl

theorem isWritten_splitDigits (base : Nat) (t : Text) :
    ∀ c ∈ (splitDigits base t).1, (isDigitOf base c || c == '_') = true :=
  fun _ => List.mem_takeWhile_imp

theorem isWritten_readFraction? (base : Nat) (t : Text) :
    ∀ digits ∈ (readFraction? base t).1, ∀ c ∈ digits, (isDigitOf base c || c == '_') = true := by
  unfold readFraction?
  split
  · rintro _ ⟨⟩
    exact isWritten_splitDigits base _
  · rintro _ ⟨⟩

theorem isWritten_readDecimal (t : Text) : (readDecimal t).1.IsWritten := by
  unfold readDecimal
  dsimp only
  split
  · exact ⟨.inl rfl, isWritten_splitDigits 10 t, by rintro _ ⟨⟩, Exponent.isWritten_read? _ _⟩
  · exact ⟨.inl rfl, isWritten_splitDigits 10 t,
      fun digits h => ⟨List.mem_cons_self, isWritten_readFraction? 10 _ digits h⟩, Exponent.isWritten_read? _ _⟩

theorem isWritten_readPrefixed {letter : Char} {radix : Radix} (h : Radix.ofLetter? letter = some radix)
    (t : Text) : (readPrefixed radix t).1.IsWritten := by
  unfold readPrefixed
  dsimp only
  rcases Radix.exponentLetters_of_base (Radix.ne_decimal_of_ofLetter? h) with ⟨hBase, hLetters⟩ | hBase
  · rw [if_pos hBase]
    refine ⟨.inr ⟨letter, h⟩, isWritten_splitDigits _ t, fun digits hDigits => ⟨by simp [hBase], ?_⟩, ?_⟩
    · change ∀ c ∈ digits, (isDigitOf radix.base c || c == '_') = true
      rw [hBase]
      exact isWritten_readFraction? 16 _ digits hDigits
    · change ∀ e ∈ _, Exponent.IsWritten radix.exponentLetters e
      rw [hLetters]
      exact Exponent.isWritten_read? _ _
  · rw [if_neg (by simp_all)]
    exact ⟨.inr ⟨letter, h⟩, isWritten_splitDigits _ t, by rintro _ ⟨⟩, by rintro _ ⟨⟩⟩

/-- The parts that are read off a text hold what they are for. -/
theorem isWritten_read (t : Text) : (read t).1.IsWritten := by
  unfold read
  split
  · split
    · exact isWritten_readPrefixed ‹_› _
    · exact isWritten_readDecimal _
  · exact isWritten_readDecimal _

namespace IsWritten

variable (h : n.IsWritten)

include h

theorem head?_exponentText {c : Char} (hHead : c ∈ (exponentText n.exponent).head?) :
    c ≠ '.' ∧ (isDigitOf n.radix.base c || c == '_') = false := by
  have hLetter := Exponent.mem_of_head?_text h.exponent hHead
  exact ⟨by rintro rfl; exact n.radix.point_not_mem_exponentLetters hLetter,
    n.radix.not_isDigitOf_of_mark (.inr hLetter)⟩

theorem head?_behind_whole {c : Char}
    (hHead : c ∈ (fractionText n.fraction ++ exponentText n.exponent).head?) :
    (isDigitOf n.radix.base c || c == '_') = false := by
  cases hFraction : n.fraction with
  | none =>
      rw [hFraction] at hHead
      exact (h.head?_exponentText hHead).2
  | some digits =>
      rw [hFraction] at hHead
      obtain rfl := Option.some.inj hHead
      exact n.radix.not_isDigitOf_of_mark (.inl rfl)

/-- What follows the whole part does not start an ellipsis. -/
theorem not_isPrefixOf_behind_whole :
    "...".toList.isPrefixOf (fractionText n.fraction ++ exponentText n.exponent) = false := by
  rw [Bool.eq_false_iff]
  intro hPrefix
  obtain ⟨u, hu⟩ := List.isPrefixOf_iff_prefix.1 hPrefix
  have hExponent (v : Text) : '.' :: v ≠ exponentText n.exponent := fun hv =>
    (h.head?_exponentText (c := '.') (by rw [← hv]; rfl)).1 rfl
  cases hFraction : n.fraction with
  | none =>
      rw [hFraction] at hu
      exact hExponent _ hu
  | some digits =>
      rw [hFraction] at hu
      cases digits with
      | nil => exact hExponent _ (List.cons_eq_cons.1 hu).2
      | cons d digits =>
          obtain rfl : '.' = d := (List.cons_eq_cons.1 (List.cons_eq_cons.1 hu).2).1
          have hDigit := (h.fraction _ hFraction).2 '.' List.mem_cons_self
          rw [n.radix.not_isDigitOf_of_mark (.inl rfl)] at hDigit
          cases hDigit

/-- Only numbers in tens and hexadecimal ones have a fraction or an exponent. -/
theorem only_whole (hBase : n.radix.base ∉ [10, 16]) : n.fraction = none ∧ n.exponent = none := by
  refine ⟨Option.eq_none_iff_forall_ne_some.2 fun digits hd => hBase (h.fraction digits hd).1,
    Option.eq_none_iff_forall_ne_some.2 fun e he => ?_⟩
  have hLetter := (h.exponent e he).letter
  cases hRadix : n.radix with
  | decimal => simp [hRadix, Radix.base] at hBase
  | hexadecimal _ => simp [hRadix, Radix.base] at hBase
  | octal _ => rw [hRadix] at hLetter; cases hLetter
  | binary _ => rw [hRadix] at hLetter; cases hLetter

theorem readDecimal_eq (hRadix : n.radix = .decimal) : readDecimal n.text = (n, []) := by
  have hWhole := splitDigits_of_isDigitOf h.whole fun c => h.head?_behind_whole
  have hFraction := readFraction?_of_isDigitOf (fun digits hd => (h.fraction digits hd).2)
    fun c => h.head?_exponentText
  have hExponent := Exponent.read?_of_isWritten h.exponent
  have hEllipsis := h.not_isPrefixOf_behind_whole
  obtain ⟨radix, whole, fraction, exponent⟩ := n
  obtain rfl : radix = .decimal := hRadix
  dsimp only [Radix.base, Radix.exponentLetters] at hWhole hFraction hExponent hEllipsis
  simp only [readDecimal, text, Radix.lead, List.nil_append, List.append_assoc, hWhole, hEllipsis,
    Bool.false_eq_true, if_false, hFraction, hExponent]

theorem readPrefixed_eq (hRadix : n.radix ≠ .decimal) :
    ∃ body, n.text = n.radix.lead ++ body ∧ readPrefixed n.radix body = (n, []) := by
  have hWhole := splitDigits_of_isDigitOf h.whole fun c => h.head?_behind_whole
  have hFraction := readFraction?_of_isDigitOf (fun digits hd => (h.fraction digits hd).2)
    fun c => h.head?_exponentText
  have hExponent := Exponent.read?_of_isWritten h.exponent
  refine ⟨n.whole ++ (fractionText n.fraction ++ exponentText n.exponent),
    by simp only [text, List.append_assoc], ?_⟩
  rcases Radix.exponentLetters_of_base hRadix with ⟨hBase, hLetters⟩ | hBase
  · rw [hBase] at hFraction
    rw [hLetters] at hExponent
    simp only [readPrefixed, hWhole, if_pos hBase, hFraction, hExponent]
  · obtain ⟨hNoFraction, hNoExponent⟩ := h.only_whole hBase
    obtain ⟨radix, whole, fraction, exponent⟩ := n
    obtain rfl : fraction = none := hNoFraction
    obtain rfl : exponent = none := hNoExponent
    simp only [readPrefixed, hWhole, if_neg (show ¬radix.base = 16 by simp_all)]
    rfl

/-- A decimal number holds digits, underscores and marks only. -/
theorem isDigitOf_or_mark (hRadix : n.radix = .decimal) {c : Char} (hc : c ∈ n.text) :
    (isDigitOf 10 c || c == '_') = true ∨ c ∈ ['.', 'e', 'E', '+', '-'] := by
  obtain ⟨-, hWhole, hFraction, hExponent⟩ := h
  rw [hRadix] at hWhole hFraction hExponent
  simp only [text, hRadix, Radix.lead, List.nil_append, List.mem_append] at hc
  rcases hc with (hc | hc) | hc
  · exact .inl (hWhole c hc)
  · cases hPart : n.fraction with
    | none => rw [hPart] at hc; cases hc
    | some digits =>
        rw [hPart] at hc
        rcases List.mem_cons.1 hc with rfl | hc
        · exact .inr List.mem_cons_self
        · exact .inl ((hFraction digits hPart).2 c hc)
  · cases hPart : n.exponent with
    | none => rw [hPart] at hc; cases hc
    | some e =>
        obtain ⟨hLetter, hSign, hDigits⟩ := hExponent e hPart
        rw [hPart] at hc
        change c ∈ e.letter :: (e.sign ++ e.digits) at hc
        rcases List.mem_cons.1 hc with rfl | hc
        · exact .inr (List.mem_cons_of_mem '.' (List.mem_append_left ['+', '-'] hLetter))
        · rcases List.mem_append.1 hc with hc | hc
          · refine .inr ?_
            rcases hSign with hSign | hSign | hSign
            · rw [hSign] at hc; cases hc
            · rw [hSign] at hc; rw [List.mem_singleton.1 hc]; decide
            · rw [hSign] at hc; rw [List.mem_singleton.1 hc]; decide
          · exact .inl (hDigits c hc)

/-- A number that is written as such is read off its text. -/
theorem read_eq : read n.text = (n, []) := by
  rcases h.radix with hRadix | ⟨letter, hLetter⟩
  · rw [← h.readDecimal_eq hRadix]
    refine read_of_decimal fun c u hText => Radix.ofLetter?_eq_none (h.isDigitOf_or_mark hRadix ?_)
    rw [hText]
    simp
  · obtain ⟨body, hText, hRead⟩ := h.readPrefixed_eq (Radix.ne_decimal_of_ofLetter? hLetter)
    rw [hText, lead_of_ofLetter? hLetter]
    change read ('0' :: letter :: body) = _
    rw [read, hLetter]
    exact hRead

end IsWritten

/-- A text is the way to write one number at most. -/
theorem eq_of_text_eq (hn : n.IsWritten) (hm : m.IsWritten) (h : n.text = m.text) : n = m := by
  have hRead := hn.read_eq
  rw [h, hm.read_eq] at hRead
  exact (congrArg Prod.fst hRead).symm

end Numeral

end GoTemplate
