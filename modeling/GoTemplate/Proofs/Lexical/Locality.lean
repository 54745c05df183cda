import GoTemplate.Lexical.Scan
import Mathlib.Data.List.Find

/-!
Scanning up to a character that stops it. Numbers, words and symbols end before such a character,
apart from raw strings and block comments no token goes beyond a line feed, and those two go on to
their own ends. Whatever comes after the line in which a token ends makes no difference to the
token.
-/

namespace GoTemplate

/-- The lexeme in a longer text. -/
def Lexeme.followedBy (l : Lexeme) (t : Text) : Lexeme := { l with rest := l.rest ++ t }

/-- Whether a lexeme is a token. -/
def Lexeme.IsToken (l : Lexeme) : Prop := ∃ kind, l.reading = .ok kind

/-! ## Runs of characters -/

section

variable {p : Char → Bool} {stop : Char}

theorem takeWhile_append_stop (hp : p stop = false) (u t : Text) :
    (u ++ stop :: t).takeWhile p = u.takeWhile p := by
  induction u with
  | nil => simp [hp]
  | cons c u ih =>
      rw [List.cons_append, List.takeWhile_cons, List.takeWhile_cons, ih]

theorem dropWhile_append_stop (hp : p stop = false) (u t : Text) :
    (u ++ stop :: t).dropWhile p = u.dropWhile p ++ stop :: t := by
  induction u with
  | nil => simp [hp]
  | cons c u ih =>
      rw [List.cons_append, List.dropWhile_cons, List.dropWhile_cons, ih]
      split <;> rfl

theorem isPrefixOf_append_stop {s : Text} (hs : stop ∉ s) (u t : Text) :
    s.isPrefixOf (u ++ stop :: t) = s.isPrefixOf u := by
  induction s generalizing u with
  | nil => cases u <;> rfl
  | cons c s ih =>
      rw [List.mem_cons, not_or] at hs
      cases u with
      | nil => simp [List.isPrefixOf, Ne.symm hs.1]
      | cons d u =>
          rw [List.cons_append, List.isPrefixOf, List.isPrefixOf, ih hs.2]

end

/-! ## Numbers -/

namespace Numeral

/-- The character belongs to no part of a number. It may be the `i` that makes one imaginary. -/
structure IsEnd (stop : Char) : Prop where
  digit : ∀ base, isDigitOf base stop = false
  mark : stop ∉ ['_', '.', '+', '-', 'e', 'E', 'p', 'P']
  radix : Radix.ofLetter? stop = none

/-- No number goes on with the character. -/
structure IsStop (stop : Char) : Prop extends IsEnd stop where
  imaginary : stop ≠ 'i'

theorem isStop_lineFeed : IsStop '\n' where
  digit base := by simp [isDigitOf, Char.isDigit]
  mark := by decide
  radix := rfl
  imaginary := by decide

theorem isStop_return : IsStop '\r' where
  digit base := by simp [isDigitOf, Char.isDigit]
  mark := by decide
  radix := rfl
  imaginary := by decide

theorem isStop_space : IsStop ' ' where
  digit base := by simp [isDigitOf, Char.isDigit]
  mark := by decide
  radix := rfl
  imaginary := by decide

theorem read_of_ne {t : Text} (h : ∀ c u, t ≠ '0' :: c :: u) : read t = readDecimal t := by
  unfold read
  split
  · exact absurd rfl (h _ _)
  · rfl

section

variable {stop : Char} (hStop : IsEnd stop)

include hStop

theorem ne_of_isEnd {c : Char} (hc : c ∈ ['_', '.', '+', '-', 'e', 'E', 'p', 'P']) :
    stop ≠ c := by
  rintro rfl
  exact hStop.mark hc

theorem isDigitOf_or_of_isEnd (base : Nat) : (isDigitOf base stop || stop == '_') = false := by
  have hMark : stop ≠ '_' := ne_of_isEnd hStop (by decide)
  simp [hStop.digit base, hMark]

theorem splitDigits_append_stop (base : Nat) (u t : Text) :
    splitDigits base (u ++ stop :: t) =
      ((splitDigits base u).1, (splitDigits base u).2 ++ stop :: t) := by
  have hDigit := isDigitOf_or_of_isEnd hStop base
  rw [splitDigits, takeWhile_append_stop hDigit, dropWhile_append_stop hDigit]
  rfl

theorem readFraction?_append_stop (base : Nat) (u t : Text) :
    readFraction? base (u ++ stop :: t) =
      ((readFraction? base u).1, (readFraction? base u).2 ++ stop :: t) := by
  have hNone (c : Char) (hc : c ≠ '.') (v : Text) :
      readFraction? base (c :: v) = (none, c :: v) := by
    unfold readFraction?
    split
    · rename_i hText
      exact absurd (List.cons_eq_cons.1 hText).1 hc
    · rfl
  cases u with
  | nil => exact hNone stop (ne_of_isEnd hStop (by decide)) t
  | cons c u =>
      by_cases hc : c = '.'
      · subst hc
        rw [List.cons_append, readFraction?, splitDigits_append_stop hStop]
        rfl
      · rw [List.cons_append, hNone c hc, hNone c hc]
        rfl

theorem readExponent_append_stop (letter : Char) (u t : Text) :
    Exponent.read letter (u ++ stop :: t) =
      ((Exponent.read letter u).1, (Exponent.read letter u).2 ++ stop :: t) := by
  have hDigit := isDigitOf_or_of_isEnd hStop 10
  cases u with
  | nil =>
      have hSign : ¬(stop = '+' ∨ stop = '-') := by
        rintro (hPlus | hMinus)
        · exact ne_of_isEnd hStop (by decide) hPlus
        · exact ne_of_isEnd hStop (by decide) hMinus
      simp only [List.nil_append, Exponent.read, if_neg hSign, List.takeWhile_cons,
        List.dropWhile_cons, hDigit]
      rfl
  | cons c u =>
      rw [List.cons_append, Exponent.read, Exponent.read]
      split
      · rw [takeWhile_append_stop hDigit, dropWhile_append_stop hDigit]
      · rw [← List.cons_append, takeWhile_append_stop hDigit, dropWhile_append_stop hDigit]

theorem readExponent?_append_stop {letters : Text} (h : stop ∉ letters) (u t : Text) :
    Exponent.read? letters (u ++ stop :: t) =
      ((Exponent.read? letters u).1, (Exponent.read? letters u).2 ++ stop :: t) := by
  cases u with
  | nil => simp [Exponent.read?, h]
  | cons c u =>
      rw [List.cons_append, Exponent.read?, Exponent.read?]
      split
      · rw [readExponent_append_stop hStop]
      · rfl

theorem readDecimal_append_stop (u t : Text) :
    readDecimal (u ++ stop :: t) = ((readDecimal u).1, (readDecimal u).2 ++ stop :: t) := by
  have hPoint : stop ≠ '.' := ne_of_isEnd hStop (by decide)
  have hLower : stop ≠ 'e' := ne_of_isEnd hStop (by decide)
  have hUpper : stop ≠ 'E' := ne_of_isEnd hStop (by decide)
  rw [readDecimal, readDecimal, splitDigits_append_stop hStop]
  dsimp only
  rw [isPrefixOf_append_stop (by simp [hPoint])]
  split
  · rw [readExponent?_append_stop hStop (by simp [hLower, hUpper])]
  · rw [readFraction?_append_stop hStop,
      readExponent?_append_stop hStop (by simp [hLower, hUpper])]

theorem readPrefixed_append_stop (radix : Radix) (u t : Text) :
    readPrefixed radix (u ++ stop :: t) =
      ((readPrefixed radix u).1, (readPrefixed radix u).2 ++ stop :: t) := by
  have hLower : stop ≠ 'p' := ne_of_isEnd hStop (by decide)
  have hUpper : stop ≠ 'P' := ne_of_isEnd hStop (by decide)
  rw [readPrefixed, readPrefixed, splitDigits_append_stop hStop]
  dsimp only
  split
  · rw [readFraction?_append_stop hStop,
      readExponent?_append_stop hStop (by simp [hLower, hUpper])]
  · rfl

theorem read_append_stop (u t : Text) :
    read (u ++ stop :: t) = ((read u).1, (read u).2 ++ stop :: t) := by
  match u with
  | [] =>
    have hDecimal : read (stop :: t) = readDecimal (stop :: t) := by
      by_cases hZero : ∃ c u, stop :: t = '0' :: c :: u
      · obtain ⟨c, u, hText⟩ := hZero
        obtain ⟨rfl, -⟩ := List.cons_eq_cons.1 hText
        have hNotDigit := hStop.digit 10
        cases hNotDigit
      · exact read_of_ne fun c u hText => hZero ⟨c, u, hText⟩
    rw [List.nil_append, hDecimal]
    exact readDecimal_append_stop hStop [] t
  | [c] =>
    have hDecimal : read [c] = readDecimal [c] := read_of_ne (by simp)
    rw [hDecimal]
    by_cases hc : c = '0'
    · subst hc
      rw [List.singleton_append, read, hStop.radix]
      exact readDecimal_append_stop hStop ['0'] t
    · rw [read_of_ne (by simp [hc])]
      exact readDecimal_append_stop hStop [c] t
  | c :: d :: u =>
    by_cases hc : c = '0'
    · subst hc
      rw [List.cons_append, List.cons_append, read, read]
      cases Radix.ofLetter? d with
      | none => exact readDecimal_append_stop hStop ('0' :: d :: u) t
      | some radix => exact readPrefixed_append_stop hStop radix u t
    · rw [read_of_ne (by simp [hc]), read_of_ne (by simp [hc])]
      exact readDecimal_append_stop hStop (c :: d :: u) t

end

theorem scan_append_stop {stop : Char} (hStop : IsStop stop) (u t : Text) :
    scan (u ++ stop :: t) = (scan u).followedBy (stop :: t) := by
  rw [scan, scan, read_append_stop hStop.toIsEnd]
  dsimp only
  split
  · rfl
  · cases (read u).2 with
    | nil => simp [hStop.imaginary, Lexeme.followedBy]
    | cons c v =>
        by_cases hc : c = 'i'
        · subst hc
          rfl
        · simp [hc, Lexeme.followedBy]

end Numeral

/-! ## Comments -/

namespace Comment

theorem splitLine_cons {c : Char} {t : Text} (hFeed : c ≠ '\n')
    (hReturn : ∀ u, c :: t ≠ '\r' :: '\n' :: u) :
    splitLine (c :: t) = (c :: (splitLine t).1, (splitLine t).2) := by
  rw [splitLine]
  · exact hFeed
  · rintro u rfl rfl
    exact hReturn u rfl

theorem splitLine_lineFeed (u : Text) :
    ∃ body v, ∀ t, splitLine (u ++ '\n' :: t) = (body, v ++ '\n' :: t) := by
  induction u with
  | nil => exact ⟨[], [], fun t => rfl⟩
  | cons c u ih =>
      obtain ⟨body, v, hSplit⟩ := ih
      by_cases hFeed : c = '\n'
      · subst hFeed
        exact ⟨[], '\n' :: u, fun t => rfl⟩
      by_cases hReturn : ∃ w, c = '\r' ∧ (u = [] ∨ u = '\n' :: w)
      · obtain ⟨w, rfl, rfl | rfl⟩ := hReturn
        · exact ⟨[], ['\r'], fun t => rfl⟩
        · exact ⟨[], '\r' :: '\n' :: w, fun t => rfl⟩
      · refine ⟨c :: body, v, fun t => ?_⟩
        have hNext : ∀ w, c :: (u ++ '\n' :: t) ≠ '\r' :: '\n' :: w := by
          intro w hText
          obtain ⟨rfl, hRest⟩ := List.cons_eq_cons.1 hText
          cases u with
          | nil => exact hReturn ⟨[], rfl, .inl rfl⟩
          | cons d u =>
              obtain ⟨rfl, -⟩ := List.cons_eq_cons.1 hRest
              exact hReturn ⟨u, rfl, .inr rfl⟩
        rw [List.cons_append, splitLine_cons hFeed hNext, hSplit]

theorem splitClose?_cons {c : Char} {t : Text} (h : ∀ u, c :: t ≠ '*' :: '/' :: u) :
    splitClose? (c :: t) = (splitClose? t).map fun (body, rest) => (c :: body, rest) := by
  rw [splitClose?]
  rintro u rfl rfl
  exact h u rfl

theorem splitClose?_append_of_some {u body rest : Text} (h : splitClose? u = some (body, rest))
    (t : Text) : splitClose? (u ++ t) = some (body, rest ++ t) := by
  fun_induction splitClose? u generalizing body with
  | case1 => cases h
  | case2 u =>
      cases h
      rfl
  | case3 c u hNext ih =>
      obtain ⟨⟨inner, last⟩, hInner, hPair⟩ := Option.map_eq_some_iff.1 h
      cases hPair
      have hLonger : ∀ w, c :: (u ++ t) ≠ '*' :: '/' :: w := by
        intro w hText
        obtain ⟨hStar, hRest⟩ := List.cons_eq_cons.1 hText
        cases u with
        | nil => cases hInner
        | cons d u => exact hNext u hStar (congrArg (· :: u) (List.cons_eq_cons.1 hRest).1)
      rw [List.cons_append, splitClose?_cons hLonger, ih hInner]
      rfl

theorem splitClose?_concat {u : Text} {stop : Char} (hStop : stop ≠ '/') (h : splitClose? u = none) :
    splitClose? (u ++ [stop]) = none := by
  fun_induction splitClose? u with
  | case1 => exact splitClose?_cons (by simp)
  | case2 u => cases h
  | case3 c u hNext ih =>
      have hLonger : ∀ w, c :: (u ++ [stop]) ≠ '*' :: '/' :: w := by
        intro w hText
        obtain ⟨hStar, hRest⟩ := List.cons_eq_cons.1 hText
        cases u with
        | nil => exact hStop (List.cons_eq_cons.1 hRest).1
        | cons d u => exact hNext u hStar (congrArg (· :: u) (List.cons_eq_cons.1 hRest).1)
      rw [List.cons_append, splitClose?_cons hLonger, ih (Option.map_eq_none_iff.1 h)]
      rfl

/-- A comment that does not end before a line feed and ends after it holds the line feed. -/
theorem mem_of_splitClose? {u t body rest : Text} (hOpen : splitClose? (u ++ ['\n']) = none)
    (h : splitClose? (u ++ '\n' :: t) = some (body, rest)) : '\n' ∈ body := by
  induction u generalizing body with
  | nil =>
      rw [List.nil_append, splitClose?_cons (by simp)] at h
      obtain ⟨_, -, hPair⟩ := Option.map_eq_some_iff.1 h
      cases hPair
      exact List.mem_cons_self
  | cons c u ih =>
      by_cases hNext : c = '*' ∧ u.head? = some '/'
      · obtain ⟨rfl, hHead⟩ := hNext
        obtain ⟨v, rfl⟩ := List.head?_eq_some_iff.1 hHead
        cases hOpen
      · have hNot : ∀ w v, u ++ '\n' :: w = '/' :: v → c ≠ '*' := by
          rintro w v hText rfl
          cases u with
          | nil => cases hText
          | cons d u =>
              obtain ⟨rfl, -⟩ := List.cons_eq_cons.1 hText
              exact hNext ⟨rfl, rfl⟩
        have hStep (w : Text) : splitClose? (c :: (u ++ '\n' :: w)) =
            (splitClose? (u ++ '\n' :: w)).map fun (body, rest) => (c :: body, rest) := by
          apply splitClose?_cons
          intro v hText
          obtain ⟨hStar, hRest⟩ := List.cons_eq_cons.1 hText
          exact hNot w v hRest hStar
        rw [List.cons_append, hStep, Option.map_eq_none_iff] at hOpen
        rw [List.cons_append, hStep, Option.map_eq_some_iff] at h
        obtain ⟨⟨inner, last⟩, hInner, hPair⟩ := h
        cases hPair
        exact List.mem_cons_of_mem c (ih hOpen hInner)

theorem lineEnds_cons_cons {c d : Char} (h : ¬(c = '/' ∧ d = '*')) (t : Text) :
    lineEnds (c :: d :: t) = (c == '\n' || c == '/' && d == '/') := by
  unfold lineEnds
  split <;> simp_all

theorem lineEnds_lineFeed (u t : Text) : lineEnds (u ++ '\n' :: t) = lineEnds (u ++ ['\n']) := by
  match u with
  | [] => rfl
  | [c] =>
    have hStar : ¬(c = '/' ∧ '\n' = '*') := by simp
    exact (lineEnds_cons_cons hStar t).trans (lineEnds_cons_cons hStar []).symm
  | c :: d :: u =>
    by_cases hStar : c = '/' ∧ d = '*'
    · obtain ⟨rfl, rfl⟩ := hStar
      simp only [List.cons_append, lineEnds]
      cases hClose : splitClose? (u ++ ['\n']) with
      | some split =>
          have hLonger := splitClose?_append_of_some hClose t
          rw [List.append_assoc] at hLonger
          rw [show u ++ '\n' :: t = u ++ (['\n'] ++ t) from rfl, hLonger]
      | none =>
          cases hLonger : splitClose? (u ++ '\n' :: t) with
          | none => rfl
          | some split =>
              have hMem := mem_of_splitClose? hClose hLonger
              simpa using hMem
    · exact (lineEnds_cons_cons hStar _).trans (lineEnds_cons_cons hStar _).symm

end Comment

/-! ## Literals in quotes -/

namespace Quoted

theorem body_lineFeed (kind : Literal) (fault : LexicalFault) (quote : Char) (u t : Text) :
    body kind fault quote (u ++ '\n' :: t) =
      (body kind fault quote u).followedBy ('\n' :: t) := by
  have hLineFeed : body kind fault quote ('\n' :: t) = ⟨.error fault, [], '\n' :: t⟩ := by
    cases t <;> rfl
  fun_induction body kind fault quote u with
  | case1 => exact hLineFeed
  | case2 => rfl
  | case3 hFeed =>
      change body kind fault quote (quote :: '\n' :: t) = _
      rw [body, if_neg hFeed, if_pos rfl]
      rfl
  | case4 c hFeed hQuote =>
      change body kind fault quote (c :: '\n' :: t) = _
      rw [body, if_neg hFeed, if_neg hQuote, if_neg (by simp), hLineFeed]
      rfl
  | case5 d v =>
      change body kind fault quote ('\n' :: d :: (v ++ '\n' :: t)) = _
      rw [body, if_pos rfl]
      rfl
  | case6 d v hFeed =>
      change body kind fault quote (quote :: d :: (v ++ '\n' :: t)) = _
      rw [body, if_neg hFeed, if_pos rfl]
      rfl
  | case7 c d v hFeed hQuote hEscape ih =>
      change body kind fault quote (c :: d :: (v ++ '\n' :: t)) = _
      rw [body, if_neg hFeed, if_neg hQuote, if_pos hEscape, ih]
      rfl
  | case8 c d v hFeed hQuote hEscape ih =>
      change body kind fault quote (c :: d :: (v ++ '\n' :: t)) = _
      rw [body, if_neg hFeed, if_neg hQuote, if_neg hEscape]
      exact congrArg (Lexeme.prepend [c]) ih

theorem rawBody_append {u : Text} (h : (rawBody u).IsToken) (t : Text) :
    rawBody (u ++ t) = (rawBody u).followedBy t := by
  induction u with
  | nil =>
      obtain ⟨kind, hKind⟩ := h
      cases hKind
  | cons c u ih =>
      rw [List.cons_append, rawBody, rawBody]
      by_cases hQuote : c = '`'
      · rw [if_pos hQuote, if_pos hQuote]
        rfl
      · rw [rawBody, if_neg hQuote] at h
        rw [if_neg hQuote, if_neg hQuote]
        exact congrArg (Lexeme.prepend [c]) (ih h)

theorem isToken_rawBody {u : Text} (h : (rawBody (u ++ ['\n'])).IsToken) : (rawBody u).IsToken := by
  induction u with
  | nil => exact h
  | cons c u ih =>
      rw [List.cons_append, rawBody] at h
      rw [rawBody]
      by_cases hQuote : c = '`'
      · rw [if_pos hQuote]
        exact ⟨_, rfl⟩
      · rw [if_neg hQuote] at h ⊢
        exact ih h

end Quoted

/-! ## Words and symbols -/

namespace Lexeme

theorem word_append_stop {stop : Char} (hStop : isIdentifierPart stop = false) (c : Char)
    (u t : Text) : word c (u ++ stop :: t) = (word c u).followedBy (stop :: t) := by
  rw [word, takeWhile_append_stop hStop, dropWhile_append_stop hStop]
  rfl

/-- The symbol found does not go beyond a character that is in none. -/
theorem find?_append_stop {stop : Char} (hStop : ∀ entry ∈ symbolTable, stop ∉ entry.1) (c : Char)
    (u t : Text) :
    (symbolTable.find? fun (spelling, _) => spelling.isPrefixOf (c :: (u ++ stop :: t))) =
      symbolTable.find? fun (spelling, _) => spelling.isPrefixOf (c :: u) :=
  List.find?_congr fun entry hEntry => isPrefixOf_append_stop (hStop entry hEntry) (c :: u) t

theorem symbol_append_stop {stop : Char} (hStop : ∀ entry ∈ symbolTable, stop ∉ entry.1) (c : Char)
    (u t : Text) : symbol c (u ++ stop :: t) = (symbol c u).followedBy (stop :: t) := by
  rw [symbol, symbol, find?_append_stop hStop]
  cases hFound : symbolTable.find? fun (spelling, _) => spelling.isPrefixOf (c :: u) with
  | none => rfl
  | some entry =>
      obtain ⟨spelling, kind⟩ := entry
      have hPrefix : spelling.isPrefixOf (c :: u) = true := by simpa using List.find?_some hFound
      have hLength : spelling.length - 1 ≤ u.length := by
        have := (List.isPrefixOf_iff_prefix.1 hPrefix).length_le
        simp only [List.length_cons] at this
        omega
      simp only [followedBy, List.take_append_of_le_length hLength,
        List.drop_append_of_le_length hLength]

/-! ## Tokens -/

theorem scan_of_ne {c : Char} {t : Text}
    (hComment : c = '/' → ∀ u, t ≠ '/' :: u ∧ t ≠ '*' :: u) (hString : c ≠ '"') (hRaw : c ≠ '`') (hRune : c ≠ '\'') :
    scan c t =
      if c.isDigit || (c == '.' && (t.head?.any Char.isDigit)) then Numeral.scan (c :: t)
      else if isIdentifierStart c then word c t
      else symbol c t := by
  unfold scan
  split
  · exact absurd rfl (hComment rfl _).1
  · exact absurd rfl (hComment rfl _).2
  · exact absurd rfl hString
  · exact absurd rfl hRaw
  · exact absurd rfl hRune
  · rfl

theorem not_isIdentifierStart_of_isDigit {c : Char} (h : c.isDigit = true) :
    isIdentifierStart c = false := by
  have hDigits : ∀ code ∈ List.range' 48 10, isIdentifierStart (Char.ofNat code) = false := by
    decide +kernel
  have hCode : c.toNat ∈ List.range' 48 10 := by
    simp only [Char.isDigit, Bool.and_eq_true, decide_eq_true_iff, ge_iff_le, UInt32.le_iff_toNat_le] at h
    rw [List.mem_range'_1]
    exact ⟨h.1, Nat.lt_succ_of_le h.2⟩
  have hNot := hDigits c.toNat hCode
  rwa [Char.ofNat_toNat] at hNot

/-- What starts like an identifier is a word. -/
theorem scan_of_isIdentifierStart {c : Char} (hStart : isIdentifierStart c = true) (t : Text) :
    scan c t = word c t := by
  have hDigit : c.isDigit = false := Bool.eq_false_iff.2 fun hDigit => by
    rw [not_isIdentifierStart_of_isDigit hDigit] at hStart
    cases hStart
  have hSigns : ∀ d ∈ ['/', '"', '`', '\'', '.'], c ≠ d := by
    have hNot : ['/', '"', '`', '\'', '.'].all (fun d => !isIdentifierStart d) = true := by decide +kernel
    rintro d hd rfl
    have hc := List.all_eq_true.1 hNot c hd
    rw [hStart] at hc
    cases hc
  rw [scan_of_ne (fun hSlash => absurd hSlash (hSigns '/' (by simp))) (hSigns '"' (by simp))
    (hSigns '`' (by simp)) (hSigns '\'' (by simp)), hStart]
  simp [hDigit, hSigns '.']

/-- No number, word or symbol goes on with the character. -/
structure IsStop (stop : Char) : Prop where
  numeral : Numeral.IsStop stop
  word : isIdentifierPart stop = false
  symbol : ∀ entry ∈ symbolTable, stop ∉ entry.1

theorem isStop_lineFeed : IsStop '\n' where
  numeral := Numeral.isStop_lineFeed
  word := by decide +kernel
  symbol := by decide +kernel

theorem isStop_return : IsStop '\r' where
  numeral := Numeral.isStop_return
  word := by decide +kernel
  symbol := by decide +kernel

theorem isStop_space : IsStop ' ' where
  numeral := Numeral.isStop_space
  word := by decide +kernel
  symbol := by decide +kernel

/-- What is neither a comment nor in quotes does not go beyond such a character. -/
theorem scan_append_stop {stop : Char} (hStop : IsStop stop) {c : Char} {u : Text}
    (hComment : c = '/' → ∀ v, u ≠ '/' :: v ∧ u ≠ '*' :: v) (hString : c ≠ '"') (hRaw : c ≠ '`')
    (hRune : c ≠ '\'') (t : Text) : scan c (u ++ stop :: t) = (scan c u).followedBy (stop :: t) := by
  have hSlash : stop ≠ '/' := by
    rintro rfl
    exact hStop.symbol ("/".toList, .operator .quo) (by decide +kernel) (by decide)
  have hStar : stop ≠ '*' := by
    rintro rfl
    exact hStop.symbol ("*".toList, .operator .mul) (by decide +kernel) (by decide)
  have hDigit : stop.isDigit = false := by
    by_contra h
    have hBase := hStop.numeral.digit (stop.toNat + 1)
    rw [isDigitOf, if_pos (Bool.eq_true_of_not_eq_false h), decide_eq_false_iff_not] at hBase
    omega
  have hLonger : c = '/' → ∀ v, u ++ stop :: t ≠ '/' :: v ∧ u ++ stop :: t ≠ '*' :: v := by
    intro hc v
    cases u with
    | nil => simp [hSlash, hStar]
    | cons d u =>
        obtain ⟨hSlash', hStar'⟩ := hComment hc u
        simp only [List.cons_append, ne_eq, List.cons.injEq, not_and]
        exact ⟨fun h => absurd (h ▸ rfl) hSlash', fun h => absurd (h ▸ rfl) hStar'⟩
  have hHead : (u ++ stop :: t).head?.any Char.isDigit = u.head?.any Char.isDigit := by
    cases u with
    | nil => exact hDigit
    | cons d u => rfl
  rw [scan_of_ne hLonger hString hRaw hRune, scan_of_ne hComment hString hRaw hRune, hHead]
  split
  · exact Numeral.scan_append_stop hStop.numeral (c :: u) t
  · split
    · exact word_append_stop hStop.word c u t
    · exact symbol_append_stop hStop.symbol c u t

/-- Of a token that ends before a line feed nothing depends on what comes after the line feed. -/
theorem scan_lineFeed {c : Char} {u : Text} (h : (scan c (u ++ ['\n'])).IsToken) :
    ∃ l : Lexeme, ∀ t, scan c (u ++ '\n' :: t) = l.followedBy ('\n' :: t) := by
  by_cases hLine : c = '/' ∧ u.head? = some '/'
  · obtain ⟨rfl, hHead⟩ := hLine
    obtain ⟨v, rfl⟩ := List.head?_eq_some_iff.1 hHead
    obtain ⟨body, rest, hSplit⟩ := Comment.splitLine_lineFeed v
    refine ⟨⟨.ok .comment, '/' :: '/' :: body, rest⟩, fun t => ?_⟩
    change Comment.line (v ++ '\n' :: t) = _
    rw [Comment.line, hSplit]
    rfl
  by_cases hBlock : c = '/' ∧ u.head? = some '*'
  · obtain ⟨rfl, hHead⟩ := hBlock
    obtain ⟨v, rfl⟩ := List.head?_eq_some_iff.1 hHead
    change (Comment.block (v ++ ['\n'])).IsToken at h
    cases hClose : Comment.splitClose? v with
    | none =>
        obtain ⟨kind, hKind⟩ := h
        rw [Comment.block, Comment.splitClose?_concat (by decide) hClose] at hKind
        cases hKind
    | some split =>
        obtain ⟨body, rest⟩ := split
        refine ⟨⟨.ok .comment, '/' :: '*' :: body, rest⟩, fun t => ?_⟩
        change Comment.block (v ++ '\n' :: t) = _
        rw [Comment.block, Comment.splitClose?_append_of_some hClose]
        rfl
  by_cases hString : c = '"'
  · subst hString
    exact ⟨Quoted.string u, fun t =>
      congrArg (Lexeme.prepend ['"']) (Quoted.body_lineFeed _ _ _ u t)⟩
  by_cases hRaw : c = '`'
  · subst hRaw
    have hClosed : (Quoted.rawBody u).IsToken := Quoted.isToken_rawBody h
    exact ⟨Quoted.rawString u, fun t =>
      congrArg (Lexeme.prepend ['`']) (Quoted.rawBody_append hClosed _)⟩
  by_cases hRune : c = '\''
  · subst hRune
    exact ⟨Quoted.rune u, fun t =>
      congrArg (Lexeme.prepend ['\'']) (Quoted.body_lineFeed _ _ _ u t)⟩
  refine ⟨scan c u, scan_append_stop isStop_lineFeed ?_ hString hRaw hRune⟩
  intro hSlash v
  exact ⟨fun h => hLine ⟨hSlash, by rw [h]; rfl⟩, fun h => hBlock ⟨hSlash, by rw [h]; rfl⟩⟩

end Lexeme

end GoTemplate
