import GoTemplate.Proofs.Lexical.Spelling
import GoTemplate.Unicode.WhiteSpace

/-!
How far a reader looks behind a token. What is not in quotes ends before the first character that goes
on with no token, and nothing behind that character makes a difference to it. White space is of this
kind, all that Unicode has of it.
-/

namespace GoTemplate

/-! ## Ends of tokens -/

namespace Quoted

theorem getLast?_body {kind : Literal} {fault : LexicalFault} {quote : Char} {t : Text}
    (h : (body kind fault quote t).IsToken) : (body kind fault quote t).text.getLast? = some quote := by
  have hLonger {l : Lexeme} (s : Text) (hLast : l.text.getLast? = some quote) :
      (l.prepend s).text.getLast? = some quote := by
    rw [Lexeme.text_prepend, List.getLast?_append, hLast]
    rfl
  fun_induction body kind fault quote t with
  | case1 => obtain ⟨_, ⟨⟩⟩ := h
  | case2 => obtain ⟨_, ⟨⟩⟩ := h
  | case3 => rfl
  | case4 => obtain ⟨_, ⟨⟩⟩ := h
  | case5 => obtain ⟨_, ⟨⟩⟩ := h
  | case6 => rfl
  | case7 _ _ _ _ _ _ ih => exact hLonger _ (ih h)
  | case8 _ _ _ _ _ _ ih => exact hLonger _ (ih h)

theorem getLast?_rawBody {t : Text} (h : (rawBody t).IsToken) : (rawBody t).text.getLast? = some '`' := by
  fun_induction rawBody t with
  | case1 => obtain ⟨_, ⟨⟩⟩ := h
  | case2 => rfl
  | case3 c t _ ih =>
      rw [Lexeme.text_prepend, List.getLast?_append, ih h]
      rfl

end Quoted

namespace Lexeme

/-- What is in quotes is found whatever comes after it. -/
theorem scan_append_of_quote {c : Char} {v : Text} (hQuote : c ∈ ['"', '`', '\''])
    (hToken : (scan c v).IsToken) (z : Text) : scan c (v ++ z) = (scan c v).followedBy z := by
  simp only [List.mem_cons, List.not_mem_nil, or_false] at hQuote
  rcases hQuote with rfl | rfl | rfl
  · exact congrArg (prepend ['"']) (Quoted.body_append hToken z)
  · exact congrArg (prepend ['`']) (Quoted.rawBody_append hToken z)
  · exact congrArg (prepend ['\'']) (Quoted.body_append hToken z)

/-- What is in quotes ends with a quote. -/
theorem getLast?_of_quote {c : Char} {v : Text} (hQuote : c ∈ ['"', '`', '\''])
    (hToken : (scan c v).IsToken) : (scan c v).text.getLast? = some c := by
  have hLonger {l : Lexeme} (hLast : l.text.getLast? = some c) : (l.prepend [c]).text.getLast? = some c := by
    rw [text_prepend, List.getLast?_append, hLast]
    rfl
  simp only [List.mem_cons, List.not_mem_nil, or_false] at hQuote
  rcases hQuote with rfl | rfl | rfl
  · exact hLonger (Quoted.getLast?_body hToken)
  · exact hLonger (Quoted.getLast?_rawBody hToken)
  · exact hLonger (Quoted.getLast?_body hToken)

/-- What starts like a comment is one or no token. -/
theorem comment_of_opening {c : Char} {t : Text} {kind : TokenKind} (h : (scan c t).reading = .ok kind)
    (hOpening : c = '/' ∧ (t.head? = some '/' ∨ t.head? = some '*')) : kind = .comment := by
  obtain ⟨rfl, hHead | hHead⟩ := hOpening
  · obtain ⟨v, rfl⟩ := List.head?_eq_some_iff.1 hHead
    exact (Except.ok.inj h).symm
  · obtain ⟨v, rfl⟩ := List.head?_eq_some_iff.1 hHead
    change (Comment.block v).reading = _ at h
    rw [Comment.block] at h
    split at h
    · exact (Except.ok.inj h).symm
    · cases h

theorem not_opening_of_ne_comment {c : Char} {t : Text} {kind : TokenKind} (h : (scan c t).reading = .ok kind)
    (hKind : kind ≠ .comment) : c = '/' → ∀ u, t ≠ '/' :: u ∧ t ≠ '*' :: u := fun hSlash u =>
  ⟨fun ht => hKind (comment_of_opening h ⟨hSlash, .inl (by rw [ht]; rfl)⟩),
    fun ht => hKind (comment_of_opening h ⟨hSlash, .inr (by rw [ht]; rfl)⟩)⟩

/-- A character with which no token goes on starts none, unless it is a quote. -/
theorem not_isToken_of_isStop {stop : Char} (hStop : IsStop stop) (hQuote : stop ∉ ['"', '`', '\''])
    (t : Text) : ¬(scan stop t).IsToken := by
  have hSign {sign : Char} {kind : TokenKind} (hEntry : ([sign], kind) ∈ symbolTable) : stop ≠ sign := by
    rintro rfl
    exact hStop.symbol _ hEntry (List.mem_singleton_self _)
  have hDigit : stop.isDigit = false := by
    by_contra hDigit
    have hBase := hStop.numeral.digit (stop.toNat + 1)
    rw [isDigitOf, if_pos (Bool.eq_true_of_not_eq_false hDigit), decide_eq_false_iff_not] at hBase
    omega
  have hStart : isIdentifierStart stop = false := by
    have hPart := hStop.word
    rw [isIdentifierPart, Bool.or_eq_false_iff] at hPart
    exact hPart.1
  have hSlash : (['/'], .operator .quo) ∈ symbolTable := by decide +kernel
  have hPoint : (['.'], .dot) ∈ symbolTable := by decide +kernel
  refine not_isToken hDigit hStart ?_ (fun entry hEntry hHead => ?_) t
  · simp only [List.mem_cons, List.not_mem_nil, or_false, not_or] at hQuote ⊢
    exact ⟨hSign hSlash, hSign hPoint, hQuote⟩
  · exact hStop.symbol entry hEntry (List.mem_of_head? hHead)

/-- A character with which no token goes on ends none, unless it is a quote. -/
theorem getLast?_ne_of_isStop {t : Text} {kind : TokenKind} {stop : Char} (h : Spells kind t)
    (hKind : kind ≠ .comment) (hStop : IsStop stop) (hQuote : stop ∉ ['"', '`', '\'']) :
    t.getLast? ≠ some stop := by
  intro hLast
  obtain ⟨u, rfl⟩ := List.getLast?_eq_some_iff.1 hLast
  cases u with
  | nil =>
      exact not_isToken_of_isStop hStop hQuote [] ⟨kind, congrArg reading h⟩
  | cons c u =>
      have hScan : scan c (u ++ [stop]) = ⟨.ok kind, c :: (u ++ [stop]), []⟩ := h
      have hToken : (scan c (u ++ [stop])).reading = .ok kind := congrArg reading hScan
      by_cases hc : c ∈ ['"', '`', '\'']
      · have hEnd := getLast?_of_quote hc ⟨kind, hToken⟩
        rw [hScan, ← List.cons_append, List.getLast?_concat] at hEnd
        exact hQuote (Option.some.inj hEnd ▸ hc)
      · simp only [List.mem_cons, List.not_mem_nil, or_false, not_or] at hc
        have hComment : c = '/' → ∀ v, u ≠ '/' :: v ∧ u ≠ '*' :: v := fun hSlash v =>
          (not_opening_of_ne_comment hToken hKind hSlash (v ++ [stop])).imp
            (fun hNot hu => hNot (by rw [hu]; rfl)) fun hNot hu => hNot (by rw [hu]; rfl)
        have hRest := congrArg rest (scan_append_stop hStop hComment hc.1 hc.2.1 hc.2.2 [])
        rw [hScan] at hRest
        exact absurd hRest.symm (List.append_ne_nil_of_right_ne_nil _ (List.cons_ne_nil _ _))

/-! ## What is behind a token -/

/-- A token is read from a text that is cut off behind it as it is read from the whole text. -/
theorem scan_cut {c : Char} {v z y : Text} {kind : TokenKind} (hSpares : SparesEllipsis z y)
    (hKind : kind ≠ .comment) (h : scan c (v ++ (z ++ y)) = ⟨.ok kind, c :: v, z ++ y⟩) :
    scan c (v ++ z) = ⟨.ok kind, c :: v, z⟩ := by
  have hReading : (scan c (v ++ (z ++ y))).reading = .ok kind := congrArg reading h
  by_cases hc : c ∈ ['"', '`', '\'']
  · have hSpells := spells_scan hReading
    rw [h] at hSpells
    have hScan : scan c v = ⟨.ok kind, c :: v, []⟩ := hSpells
    rw [scan_append_of_quote hc ⟨kind, congrArg reading hScan⟩, hScan]
    rfl
  · simp only [List.mem_cons, List.not_mem_nil, or_false, not_or] at hc
    exact scan_cut_of_ne hSpares (not_opening_of_ne_comment hReading hKind) hc.1 hc.2.1 hc.2.2 h

/-- A character with which no token goes on is in no ellipsis. -/
theorem sparesEllipsis_of_isStop {z y : Text} (hy : ∀ stop ∈ y.head?, IsStop stop) : SparesEllipsis z y := by
  intro hDots
  refine .inr ?_
  cases y with
  | nil => rwa [List.append_nil] at hDots
  | cons stop y =>
      have hEntry : ("...".toList, .operator .ellipsis) ∈ symbolTable := by decide +kernel
      rwa [isPrefixOf_append_stop ((hy stop rfl).symbol _ hEntry)] at hDots

/-- A token stays what it is when, behind a character with which no token goes on, the text is another. -/
theorem scan_append_congr {c : Char} {v r z z' : Text} {kind : TokenKind} (hKind : kind ≠ .comment)
    (h : scan c (v ++ (r ++ z)) = ⟨.ok kind, c :: v, r ++ z⟩) (hz : ∀ stop ∈ z.head?, IsStop stop)
    (hz' : ∀ stop ∈ z'.head?, IsStop stop) : scan c (v ++ (r ++ z')) = ⟨.ok kind, c :: v, r ++ z'⟩ := by
  have hScan : scan c (v ++ r) = ⟨.ok kind, c :: v, r⟩ := scan_cut (sparesEllipsis_of_isStop hz) hKind h
  have hToken : (scan c (v ++ r)).reading = .ok kind := congrArg reading hScan
  have hLine : ¬(c = '/' ∧ (v ++ r).head? = some '/') := fun ⟨hSlash, hHead⟩ =>
    hKind (comment_of_opening hToken ⟨hSlash, .inl hHead⟩)
  rw [← List.append_assoc, scan_append_of_isToken ⟨kind, hToken⟩ hLine hz', hScan]
  rfl

/-! ## White space -/

theorem isStop_of_isWhiteSpace {c : Char} (h : Unicode.isWhiteSpace c = true) : IsStop c := by
  let codes := [0x09, 0x0A, 0x0B, 0x0C, 0x0D, 0x20, 0x85, 0xA0, 0x1680, 0x2000, 0x2001, 0x2002, 0x2003,
    0x2004, 0x2005, 0x2006, 0x2007, 0x2008, 0x2009, 0x200A, 0x2028, 0x2029, 0x202F, 0x205F, 0x3000]
  have hCodes : codes.all (fun code =>
      let d := Char.ofNat code
      decide ((d.isDigit || ('a' ≤ d && d ≤ 'f') || ('A' ≤ d && d ≤ 'F')) = false ∧
        d ∉ ['_', '.', '+', '-', 'e', 'E', 'p', 'P'] ∧ Radix.ofLetter? d = none ∧ d ≠ 'i' ∧
          isIdentifierPart d = false ∧ ∀ entry ∈ symbolTable, d ∉ entry.1)) = true := by
    decide +kernel
  have hMem : c.toNat ∈ codes := by
    simp only [Unicode.isWhiteSpace, Bool.or_eq_true, Bool.and_eq_true, decide_eq_true_iff, beq_iff_eq] at h
    simp only [codes, List.mem_cons, List.not_mem_nil, or_false]
    omega
  have hCode := of_decide_eq_true (List.all_eq_true.1 hCodes c.toNat hMem)
  rw [Char.ofNat_toNat] at hCode
  obtain ⟨hDigit, hMark, hRadix, hImaginary, hWord, hSymbol⟩ := hCode
  simp only [Bool.or_eq_false_iff] at hDigit
  obtain ⟨⟨hDecimal, hLower⟩, hUpper⟩ := hDigit
  exact {
    numeral := {
      digit := fun base => by simp [isDigitOf, hDecimal, hLower, hUpper]
      mark := hMark
      radix := hRadix
      imaginary := hImaginary }
    word := hWord
    symbol := hSymbol }

end Lexeme

end GoTemplate
