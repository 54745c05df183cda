import GoTemplate.Lexical.Lexeme

/-!
Number literals: the parts of a number as it is written, how they are read off a text, and which
combinations of parts are a number.
-/

namespace GoTemplate

/-- How the digits of a number are counted: in tens, or by the radix that a letter after a
leading zero names. -/
inductive Radix where
  | decimal
  | hexadecimal (letter : Char)
  | octal (letter : Char)
  | binary (letter : Char)
  deriving DecidableEq

namespace Radix

/-- The number of digits. -/
def base : Radix → Nat
  | decimal => 10
  | hexadecimal _ => 16
  | octal _ => 8
  | binary _ => 2

/-- What the radix puts before the digits. -/
def lead : Radix → Text
  | decimal => []
  | hexadecimal letter => ['0', letter]
  | octal letter => ['0', letter]
  | binary letter => ['0', letter]

/-- The radix that a letter after a leading zero names. -/
def ofLetter? (c : Char) : Option Radix :=
  if c = 'x' ∨ c = 'X' then some (hexadecimal c)
  else if c = 'o' ∨ c = 'O' then some (octal c)
  else if c = 'b' ∨ c = 'B' then some (binary c)
  else none

end Radix

/-- Whether `c` is a digit in a system of `base` digits, 16 at most. -/
def isDigitOf (base : Nat) (c : Char) : Bool :=
  if c.isDigit then c.toNat - '0'.toNat < base
  else base == 16 && (('a' ≤ c && c ≤ 'f') || ('A' ≤ c && c ≤ 'F'))

/-- The exponent of a number: its letter, its sign if it has one, and what is in the place of its
digits. -/
structure Exponent where
  letter : Char
  sign : Text
  digits : Text
  deriving DecidableEq

/-- A number as it is written, apart from a final `i`. Between digits, and in their place, there
may be underscores. `fraction` is what follows the point, if there is a point. -/
structure Numeral where
  radix : Radix
  whole : Text
  fraction : Option Text
  exponent : Option Exponent
  deriving DecidableEq

namespace Exponent

/-- The exponent as it is written. -/
def text (e : Exponent) : Text := e.letter :: e.sign ++ e.digits

/-- An optional sign and the digits after an exponent's letter, and the rest. -/
def read (letter : Char) : Text → Exponent × Text
  | [] => (⟨letter, [], []⟩, [])
  | c :: t =>
    let isDecimal := fun c => isDigitOf 10 c || c == '_'
    if c = '+' ∨ c = '-' then (⟨letter, [c], t.takeWhile isDecimal⟩, t.dropWhile isDecimal)
    else (⟨letter, [], (c :: t).takeWhile isDecimal⟩, (c :: t).dropWhile isDecimal)

/-- An exponent, if the text starts with one of its letters, and the rest. -/
def read? (letters : Text) : Text → Option Exponent × Text
  | [] => (none, [])
  | c :: t => if c ∈ letters then ((read c t).1, (read c t).2) else (none, c :: t)

end Exponent

namespace Numeral

/-- The digits and underscores at the front of a text, and the rest. -/
def splitDigits (base : Nat) (t : Text) : Text × Text :=
  (t.takeWhile fun c => isDigitOf base c || c == '_',
    t.dropWhile fun c => isDigitOf base c || c == '_')

/-- A point with the digits after it, if the text starts with a point, and the rest. -/
def readFraction? (base : Nat) : Text → Option Text × Text
  | '.' :: t => (some (splitDigits base t).1, (splitDigits base t).2)
  | t => (none, t)

/-- The decimal number at the front of a text. Three points in a row are an ellipsis, and do not
belong to the number. -/
def readDecimal (t : Text) : Numeral × Text :=
  let (whole, t) := splitDigits 10 t
  let (fraction, t) := if "...".toList.isPrefixOf t then (none, t) else readFraction? 10 t
  let (exponent, t) := Exponent.read? ['e', 'E'] t
  (⟨.decimal, whole, fraction, exponent⟩, t)

/-- The number after a leading zero and a radix letter. Only hexadecimal numbers have fractions
and exponents. -/
def readPrefixed (radix : Radix) (t : Text) : Numeral × Text :=
  let (whole, t) := splitDigits radix.base t
  if radix.base = 16 then
    let (fraction, t) := readFraction? 16 t
    let (exponent, t) := Exponent.read? ['p', 'P'] t
    (⟨radix, whole, fraction, exponent⟩, t)
  else (⟨radix, whole, none, none⟩, t)

/-- The number at the front of a text, read as far as it goes. -/
def read : Text → Numeral × Text
  | '0' :: c :: t =>
    match Radix.ofLetter? c with
    | some radix => readPrefixed radix t
    | none => readDecimal ('0' :: c :: t)
  | t => readDecimal t

/-- A point and the digits after it, as they are written. -/
def fractionText : Option Text → Text
  | some digits => '.' :: digits
  | none => []

/-- An exponent that may be missing, as it is written. -/
def exponentText : Option Exponent → Text
  | some e => e.text
  | none => []

/-- The number as it is written. -/
def text (n : Numeral) : Text :=
  n.radix.lead ++ n.whole ++ fractionText n.fraction ++ exponentText n.exponent

/-- Whether there is a digit before the exponent. -/
def hasMantissaDigit (n : Numeral) : Bool :=
  n.whole.any (isDigitOf n.radix.base) || (n.fraction.getD []).any (isDigitOf n.radix.base)

/-- What is wrong with the number. A decimal exponent needs a digit, a hexadecimal number with a
point needs an exponent, and a radix letter needs a digit before the exponent. -/
def fault? (n : Numeral) : Option NumeralFault :=
  match n.radix with
  | .decimal =>
    match n.exponent with
    | some e => if e.digits.any (isDigitOf 10) then none else some .exponentWithoutDigits
    | none => none
  | _ =>
    if n.fraction.isSome && n.exponent.isNone then some .hexadecimalPointWithoutExponent
    else if n.hasMantissaDigit then none
    else some .radixWithoutDigits

/-- The literal that the number is: one with a point or an exponent is a float. -/
def literal (n : Numeral) : Literal :=
  if n.fraction.isSome || n.exponent.isSome then .float else .int

/-- The number literal at the front of a text. A final `i` makes a number without fault
imaginary. -/
def scan (t : Text) : Lexeme :=
  let (n, t) := read t
  match n.fault? with
  | some fault => ⟨.error (.invalidNumeral fault), n.text, t⟩
  | none =>
    match t with
    | 'i' :: t => ⟨.ok (.literal .imaginary), n.text ++ ['i'], t⟩
    | t => ⟨.ok (.literal n.literal), n.text, t⟩

private theorem splitDigits_append (base : Nat) (t : Text) :
    (splitDigits base t).1 ++ (splitDigits base t).2 = t :=
  List.takeWhile_append_dropWhile

private theorem readFraction?_append (base : Nat) (t : Text) :
    fractionText (readFraction? base t).1 ++ (readFraction? base t).2 = t := by
  unfold readFraction?
  split <;> simp [fractionText, splitDigits_append]

private theorem readExponent_append (letter : Char) (t : Text) :
    (Exponent.read letter t).1.text ++ (Exponent.read letter t).2 = letter :: t := by
  unfold Exponent.read
  split
  · rfl
  · dsimp only
    split <;> simp [Exponent.text, List.takeWhile_append_dropWhile]

private theorem readExponent?_append (letters t : Text) :
    exponentText (Exponent.read? letters t).1 ++ (Exponent.read? letters t).2 = t := by
  unfold Exponent.read?
  split
  · rfl
  · split
    · exact readExponent_append _ _
    · rfl

private theorem readDecimal_append (t : Text) :
    (readDecimal t).1.text ++ (readDecimal t).2 = t := by
  have hWhole := splitDigits_append 10 t
  unfold readDecimal
  generalize splitDigits 10 t = whole at hWhole
  dsimp only
  split
  · simp [text, Radix.lead, fractionText, readExponent?_append, hWhole]
  · simp [text, Radix.lead, readExponent?_append, readFraction?_append, hWhole]

private theorem readPrefixed_append (radix : Radix) (t : Text) :
    (readPrefixed radix t).1.text ++ (readPrefixed radix t).2 = radix.lead ++ t := by
  have hWhole := splitDigits_append radix.base t
  unfold readPrefixed
  generalize splitDigits radix.base t = whole at hWhole
  dsimp only
  split
  · simp [text, readExponent?_append, readFraction?_append, hWhole]
  · simp [text, fractionText, exponentText, hWhole]

theorem lead_of_ofLetter? {c : Char} {radix : Radix} (h : Radix.ofLetter? c = some radix) :
    radix.lead = ['0', c] := by
  unfold Radix.ofLetter? at h
  split at h
  · cases h; rfl
  · split at h
    · cases h; rfl
    · split at h
      · cases h; rfl
      · simp at h

theorem read_append (t : Text) : (read t).1.text ++ (read t).2 = t := by
  unfold read
  split
  · rename_i c t
    split
    · rename_i radix hRadix
      rw [readPrefixed_append, lead_of_ofLetter? hRadix]; rfl
    · exact readDecimal_append _
  · exact readDecimal_append _

theorem source_scan (t : Text) : (scan t).source = t := by
  have hRead := read_append t
  simp only [scan, Lexeme.source]
  split
  · exact hRead
  · split
    · rename_i hRest
      simpa [hRest] using hRead
    · exact hRead

theorem isDigitOf_ten {c : Char} (hDigit : c.isDigit) : isDigitOf 10 c = true := by
  simp only [Char.isDigit, Bool.and_eq_true, decide_eq_true_eq, UInt32.le_iff_toNat_le] at hDigit
  have hLow : 48 ≤ c.toNat := hDigit.1
  have hHigh : c.toNat ≤ 57 := hDigit.2
  simp [isDigitOf, Char.isDigit, UInt32.le_iff_toNat_le]
  omega

private theorem readDecimal_digit_text_ne_nil {c : Char} (hDigit : c.isDigit) (t : Text) :
    (readDecimal (c :: t)).1.text ≠ [] := by
  simp [readDecimal, splitDigits, text, isDigitOf_ten hDigit, Radix.lead]

private theorem readDecimal_point_text_ne_nil {d : Char} (hDigit : d.isDigit) (t : Text) :
    (readDecimal ('.' :: d :: t)).1.text ≠ [] := by
  have hPoint : d ≠ '.' := by rintro rfl; simp [Char.isDigit] at hDigit
  have hNoDigit : isDigitOf 10 '.' = false := by decide
  simp [readDecimal, splitDigits, text, hNoDigit, hPoint.symm, readFraction?, fractionText,
    Radix.lead]

/-- A number takes at least one character where its scan starts at a digit or at a point before
a digit. -/
theorem text_scan_ne_nil {c : Char} {t : Text}
    (h : c.isDigit || (c == '.' && t.head?.any Char.isDigit)) : (scan (c :: t)).text ≠ [] := by
  have hRead : (read (c :: t)).1.text ≠ [] := by
    have hDecimal : (readDecimal (c :: t)).1.text ≠ [] := by
      simp only [Bool.or_eq_true, Bool.and_eq_true, beq_iff_eq] at h
      rcases h with hDigit | ⟨rfl, hDigit⟩
      · exact readDecimal_digit_text_ne_nil hDigit t
      · cases t with
        | nil => simp at hDigit
        | cons d t => exact readDecimal_point_text_ne_nil (by simpa using hDigit) t
    unfold read
    split
    · rename_i letter t hText
      split
      · rename_i radix hRadix
        have hAppend := readPrefixed_append radix t
        unfold readPrefixed
        dsimp only
        split <;> simp [text, lead_of_ofLetter? hRadix]
      · simpa [hText] using hDecimal
    · exact hDecimal
  simp only [scan]
  split
  · exact hRead
  · split <;> simp [hRead]

end Numeral

end GoTemplate
