import GoTemplate.Proofs.Lexical.BareTokens
import GoTemplate.Proofs.Lexical.WrittenNumerals

/-!
Texts that are cut off somewhere behind a token. What stands in front of the cut is read as before, since
readers look at the next character only. But a number also looks for three points in a row, which are an
ellipsis and do not belong to it.
-/

namespace GoTemplate

/-! ## Readers of the front of a text -/

/-- A reader that takes the front of a text takes it also where the text is cut off later. -/
def Text.Cuts {α : Type} (f : Text → α × Text) : Prop :=
  ∀ t z y, (f t).2 = z ++ y → ∃ s, t = s ++ (z ++ y) ∧ f (s ++ z) = ((f t).1, z)

namespace Text

variable {α β : Type}

theorem cuts_pure (a : α) : Cuts fun t => (a, t) := by
  rintro _ z y rfl
  exact ⟨[], rfl, rfl⟩

theorem Cuts.bind {f : Text → α × Text} {g : α → Text → β × Text} (hf : Cuts f) (hg : ∀ a, Cuts (g a)) :
    Cuts fun t => g (f t).1 (f t).2 := by
  intro t z y h
  obtain ⟨u, hRest, hSecond⟩ := hg _ _ z y h
  obtain ⟨s, hText, hFirst⟩ := hf t (u ++ z) y (by rw [hRest, List.append_assoc])
  refine ⟨s ++ u, ?_, ?_⟩
  · rw [hText]
    simp only [List.append_assoc]
  · rw [List.append_assoc]
    simp only [hFirst]
    exact hSecond

theorem cuts_span (p : Char → Bool) : Cuts fun t => (t.takeWhile p, t.dropWhile p) := by
  intro t z y h
  change t.dropWhile p = z ++ y at h
  refine ⟨t.takeWhile p, by rw [← h, List.takeWhile_append_dropWhile], ?_⟩
  have hAll : ∀ c ∈ t.takeWhile p, p c = true := fun _ => List.mem_takeWhile_imp
  change ((t.takeWhile p ++ z).takeWhile p, (t.takeWhile p ++ z).dropWhile p) = (t.takeWhile p, z)
  rw [List.takeWhile_append_of_pos hAll, List.dropWhile_append_of_pos hAll]
  cases z with
  | nil => simp
  | cons c z =>
      have hStop := List.head?_dropWhile_not p t
      rw [h] at hStop
      change p c = false at hStop
      simp [hStop]

end Text

/-! ## Numbers -/

/-- Whether there is no ellipsis that starts in front of the cut and ends behind it. -/
def SparesEllipsis (z y : Text) : Prop :=
  "...".toList.isPrefixOf (z ++ y) = true → z = [] ∨ "...".toList.isPrefixOf z = true

namespace Exponent

theorem cuts_read (letter : Char) : Text.Cuts (read letter) := by
  intro t z y h
  cases t with
  | nil =>
      obtain ⟨rfl, rfl⟩ := List.append_eq_nil_iff.1 h.symm
      exact ⟨[], rfl, rfl⟩
  | cons c u =>
      rw [read] at h ⊢
      by_cases hSign : c = '+' ∨ c = '-'
      · simp only [if_pos hSign] at h ⊢
        obtain ⟨s, hu, hs⟩ := Text.cuts_span (fun c => isDigitOf 10 c || c == '_') u z y h
        obtain ⟨hTake, hDrop⟩ := Prod.mk.inj hs
        exact ⟨c :: s, by rw [hu]; rfl, by simp only [List.cons_append, read, if_pos hSign, hTake, hDrop]⟩
      · simp only [if_neg hSign] at h ⊢
        obtain ⟨s, hText, hs⟩ := Text.cuts_span (fun c => isDigitOf 10 c || c == '_') (c :: u) z y h
        obtain ⟨hTake, hDrop⟩ := Prod.mk.inj hs
        refine ⟨s, hText, ?_⟩
        cases hShort : s ++ z with
        | nil =>
            rw [hShort] at hTake hDrop
            have hNone : (c :: u).takeWhile (fun c => isDigitOf 10 c || c == '_') = [] := hTake.symm
            rw [hNone, ← hDrop]
            rfl
        | cons d v =>
            obtain rfl : c = d := by
              rw [← List.append_assoc, hShort] at hText
              exact (List.cons_eq_cons.1 hText).1
            rw [hShort] at hTake hDrop
            simp only [read, if_neg hSign, hTake, hDrop]

theorem cuts_read? (letters : Text) : Text.Cuts (read? letters) := by
  intro t z y h
  cases t with
  | nil =>
      obtain ⟨rfl, rfl⟩ := List.append_eq_nil_iff.1 h.symm
      exact ⟨[], rfl, rfl⟩
  | cons c u =>
      rw [read?] at h ⊢
      by_cases hLetter : c ∈ letters
      · simp only [if_pos hLetter] at h ⊢
        obtain ⟨s, hu, hs⟩ := cuts_read c u z y h
        exact ⟨c :: s, by rw [hu]; rfl, by simp only [List.cons_append, read?, if_pos hLetter, hs]⟩
      · simp only [if_neg hLetter] at h ⊢
        refine ⟨[], h, ?_⟩
        cases z with
        | nil => rfl
        | cons d z =>
            obtain ⟨rfl, -⟩ := List.cons_eq_cons.1 h
            rw [List.nil_append, read?, if_neg hLetter]

end Exponent

namespace Numeral

theorem cuts_splitDigits (base : Nat) : Text.Cuts (splitDigits base) := Text.cuts_span _

theorem cuts_readFraction? (base : Nat) : Text.Cuts (readFraction? base) := by
  have hNone {c : Char} (hc : c ≠ '.') (v : Text) : readFraction? base (c :: v) = (none, c :: v) := by
    unfold readFraction?
    split
    · rename_i hText
      exact absurd (List.cons_eq_cons.1 hText).1 hc
    · rfl
  intro t z y h
  cases t with
  | nil =>
      obtain ⟨rfl, rfl⟩ := List.append_eq_nil_iff.1 h.symm
      exact ⟨[], rfl, rfl⟩
  | cons c u =>
      by_cases hc : c = '.'
      · subst hc
        obtain ⟨s, hu, hs⟩ := cuts_splitDigits base u z y h
        exact ⟨'.' :: s, by rw [hu]; rfl, by simp only [List.cons_append, readFraction?, hs]⟩
      · rw [hNone hc] at h ⊢
        refine ⟨[], h, ?_⟩
        cases z with
        | nil => rfl
        | cons d z =>
            obtain ⟨rfl, -⟩ := List.cons_eq_cons.1 h
            rw [List.nil_append, hNone hc]

theorem cuts_readPrefixed (radix : Radix) : Text.Cuts (readPrefixed radix) := by
  by_cases hBase : radix.base = 16
  · have hParts := (cuts_splitDigits radix.base).bind fun whole => (cuts_readFraction? 16).bind
      fun fraction => (Exponent.cuts_read? ['p', 'P']).bind
        fun exponent => Text.cuts_pure (⟨radix, whole, fraction, exponent⟩ : Numeral)
    convert hParts using 2
    simp only [readPrefixed, if_pos hBase]
  · have hWhole := (cuts_splitDigits radix.base).bind
      fun whole => Text.cuts_pure (⟨radix, whole, none, none⟩ : Numeral)
    convert hWhole using 2
    simp only [readPrefixed, if_neg hBase]

section

variable {t z y : Text} (hSpares : SparesEllipsis z y)

include hSpares

theorem readDecimal_cut (h : (readDecimal t).2 = z ++ y) :
    ∃ s, t = s ++ (z ++ y) ∧ readDecimal (s ++ z) = ((readDecimal t).1, z) := by
  unfold readDecimal at h ⊢
  by_cases hDots : "...".toList.isPrefixOf (splitDigits 10 t).2 = true
  · -- The number ends in front of the ellipsis.
    have hNone {u : Text} (hu : u = [] ∨ "...".toList.isPrefixOf u = true) :
        Exponent.read? ['e', 'E'] u = (none, u) ∧
          (if "...".toList.isPrefixOf u then (none, u) else readFraction? 10 u) = (none, u) := by
      rcases hu with rfl | hu
      · exact ⟨rfl, rfl⟩
      · obtain ⟨v, rfl⟩ := List.isPrefixOf_iff_prefix.1 hu
        exact ⟨rfl, if_pos hu⟩
    simp only [if_pos hDots, (hNone (.inr hDots)).1] at h ⊢
    obtain ⟨s, hText, hs⟩ := cuts_splitDigits 10 t z y h
    have hz := hSpares (h ▸ hDots)
    exact ⟨s, hText, by simp only [hs, (hNone hz).2, (hNone hz).1]⟩
  · simp only [if_neg hDots] at h ⊢
    have hBehind := (cuts_readFraction? 10).bind fun fraction => (Exponent.cuts_read? ['e', 'E']).bind
      fun exponent => Text.cuts_pure (fraction, exponent)
    obtain ⟨u, hRest, hu⟩ := hBehind (splitDigits 10 t).2 z y h
    obtain ⟨s, hText, hs⟩ := cuts_splitDigits 10 t (u ++ z) y (by rw [hRest, List.append_assoc])
    have hNot : ¬"...".toList.isPrefixOf (u ++ z) = true := by
      rw [List.isPrefixOf_iff_prefix] at hDots ⊢
      rw [hRest, ← List.append_assoc] at hDots
      exact fun hPrefix => hDots (hPrefix.trans (List.prefix_append _ _))
    obtain ⟨hPair, hEnd⟩ := Prod.mk.inj hu
    obtain ⟨hFraction, hExponent⟩ := Prod.mk.inj hPair
    refine ⟨s ++ u, by rw [hText]; simp only [List.append_assoc], ?_⟩
    rw [List.append_assoc]
    simp only [hs, if_neg hNot]
    simp only [hFraction, hExponent, hEnd]

theorem read_cut (h : (read t).2 = z ++ y) :
    ∃ s, t = s ++ (z ++ y) ∧ read (s ++ z) = ((read t).1, z) := by
  by_cases hLetter : ∃ c u radix, t = '0' :: c :: u ∧ Radix.ofLetter? c = some radix
  · obtain ⟨c, u, radix, rfl, hRadix⟩ := hLetter
    have hRead (v : Text) : read ('0' :: c :: v) = readPrefixed radix v := by rw [read, hRadix]
    rw [hRead] at h ⊢
    obtain ⟨s, rfl, hs⟩ := cuts_readPrefixed radix u z y h
    exact ⟨'0' :: c :: s, rfl, (hRead _).trans hs⟩
  · have hDecimal : ∀ c u, t = '0' :: c :: u → Radix.ofLetter? c = none := by
      intro c u hText
      exact Option.eq_none_iff_forall_ne_some.2 fun radix hRadix => hLetter ⟨c, u, radix, hText, hRadix⟩
    rw [read_of_decimal hDecimal] at h ⊢
    obtain ⟨s, hText, hs⟩ := readDecimal_cut hSpares h
    refine ⟨s, hText, (read_of_decimal fun c u hShort => hDecimal c (u ++ y) ?_).trans hs⟩
    rw [hText, ← List.append_assoc, hShort]
    rfl

omit hSpares in
theorem scan_of_imaginary {n : Numeral} {u : Text} (hRead : read t = (n, 'i' :: u))
    (hFault : n.fault? = none) : scan t = ⟨.ok (.literal .imaginary), n.text ++ ['i'], u⟩ := by
  simp only [scan, hRead, hFault]

omit hSpares in
theorem scan_of_read {n : Numeral} {u : Text} (hRead : read t = (n, u)) (hFault : n.fault? = none)
    (hNot : u.head? ≠ some 'i') : scan t = ⟨.ok (.literal n.literal), n.text, u⟩ := by
  simp only [scan, hRead, hFault]
  split
  · exact absurd rfl hNot
  · rfl

theorem scan_cut {kind : TokenKind} {x : Text} (h : scan t = ⟨.ok kind, x, z ++ y⟩) :
    scan (x ++ z) = ⟨.ok kind, x, z⟩ := by
  have hCut {z' : Text} (hSpares' : SparesEllipsis z' y) (hRest : (read t).2 = z' ++ y) :
      read ((read t).1.text ++ z') = ((read t).1, z') := by
    obtain ⟨s, hText, hs⟩ := read_cut hSpares' hRest
    have hAppend := read_append t
    rw [hRest] at hAppend
    rwa [List.append_cancel_right (hAppend.trans hText)]
  cases hFault : (read t).1.fault? with
  | some fault =>
      rw [scan] at h
      simp only [hFault] at h
      cases h
  | none =>
      by_cases hImaginary : (read t).2.head? = some 'i'
      · obtain ⟨u, hRest⟩ := List.head?_eq_some_iff.1 hImaginary
        rw [scan_of_imaginary (Prod.ext rfl hRest) hFault] at h
        obtain ⟨hKind, rfl, rfl⟩ := Lexeme.mk.inj h
        obtain rfl := Except.ok.inj hKind
        rw [List.append_assoc]
        exact scan_of_imaginary (hCut (by rintro ⟨⟩) hRest) hFault
      · have hRead : read t = ((read t).1, (read t).2) := rfl
        rw [scan_of_read hRead hFault hImaginary] at h
        obtain ⟨hKind, rfl, hRest⟩ := Lexeme.mk.inj h
        obtain rfl := Except.ok.inj hKind
        refine scan_of_read (hCut hSpares hRest) hFault fun hHead => hImaginary ?_
        rw [hRest, List.head?_append, hHead]
        rfl

end

end Numeral

/-! ## Tokens -/

namespace Lexeme

variable {c : Char} {v z y : Text} {kind : TokenKind}

theorem word_cut (h : word c (v ++ (z ++ y)) = ⟨.ok kind, c :: v, z ++ y⟩) :
    word c (v ++ z) = ⟨.ok kind, c :: v, z⟩ := by
  obtain ⟨hKind, hText, hRest⟩ := Lexeme.mk.inj h
  have hWord : (v ++ (z ++ y)).takeWhile isIdentifierPart = v := (List.cons_eq_cons.1 hText).2
  obtain ⟨s, hSplit, hs⟩ := Text.cuts_span isIdentifierPart _ z y hRest
  obtain rfl : v = s := List.append_cancel_right hSplit
  have hTake : (v ++ z).takeWhile isIdentifierPart = v := (Prod.mk.inj hs).1.trans hWord
  have hDrop : (v ++ z).dropWhile isIdentifierPart = z := (Prod.mk.inj hs).2
  rw [hWord] at hKind
  rw [word, hTake, hDrop, hKind]

/-- The first symbol that starts a text is also the first that starts the text cut off behind it. -/
theorem symbol_cut (h : symbol c (v ++ (z ++ y)) = ⟨.ok kind, c :: v, z ++ y⟩) :
    symbol c (v ++ z) = ⟨.ok kind, c :: v, z⟩ := by
  cases hFind : symbolTable.find? fun entry => entry.1.isPrefixOf (c :: (v ++ (z ++ y))) with
  | none =>
      rw [symbol, hFind] at h
      cases h
  | some entry =>
      obtain ⟨spelling, found⟩ := entry
      obtain ⟨hFound, before, after, hTable, hBefore⟩ := List.find?_eq_some_iff_append.1 hFind
      have hNe : spelling ≠ [] := by
        have hAll : ∀ entry ∈ symbolTable, entry.1 ≠ [] := by decide +kernel
        exact hAll _ (List.mem_of_find?_eq_some hFind)
      obtain ⟨d, tail, rfl⟩ := List.exists_cons_of_ne_nil hNe
      obtain ⟨rfl, hTail⟩ := List.cons_prefix_cons.1 (List.isPrefixOf_iff_prefix.1 hFound)
      rw [symbol, hFind] at h
      obtain ⟨hKind, hText, -⟩ := Lexeme.mk.inj h
      obtain rfl := Except.ok.inj hKind
      obtain rfl : tail = v := (List.prefix_iff_eq_take.1 hTail).trans (List.cons_eq_cons.1 hText).2
      have hAgain : (symbolTable.find? fun entry => entry.1.isPrefixOf (d :: (tail ++ z))) =
          some (d :: tail, found) := by
        refine List.find?_eq_some_iff_append.2 ⟨?_, before, after, hTable, fun entry hEntry => ?_⟩
        · exact List.isPrefixOf_iff_prefix.2 (List.prefix_append (d :: tail) z)
        · have hNot := hBefore entry hEntry
          rw [Bool.not_eq_true', Bool.eq_false_iff] at hNot ⊢
          refine fun hShorter => hNot (List.isPrefixOf_iff_prefix.2 ?_)
          refine (List.isPrefixOf_iff_prefix.1 hShorter).trans ⟨y, ?_⟩
          rw [List.cons_append, List.append_assoc]
      rw [symbol, hAgain]
      simp

/-- What is no comment and in no quotes is read from a text that is cut off behind it as it is read from
the whole text. -/
theorem scan_cut_of_ne (hSpares : SparesEllipsis z y)
    (hComment : c = '/' → ∀ u, v ++ (z ++ y) ≠ '/' :: u ∧ v ++ (z ++ y) ≠ '*' :: u) (hString : c ≠ '"')
    (hRaw : c ≠ '`') (hRune : c ≠ '\'') (h : scan c (v ++ (z ++ y)) = ⟨.ok kind, c :: v, z ++ y⟩) :
    scan c (v ++ z) = ⟨.ok kind, c :: v, z⟩ := by
  have hShorter : c = '/' → ∀ u, v ++ z ≠ '/' :: u ∧ v ++ z ≠ '*' :: u := fun hSlash u =>
    ⟨fun hu => (hComment hSlash (u ++ y)).1 (by rw [← List.append_assoc, hu]; rfl),
      fun hu => (hComment hSlash (u ++ y)).2 (by rw [← List.append_assoc, hu]; rfl)⟩
  by_cases hNumeral : startsNumeral (c :: (v ++ (z ++ y))) = true
  · rw [scan_of_startsNumeral hNumeral] at h
    have hText : startsNumeral (c :: v) = true := by
      have hStarts := Numeral.startsNumeral_text_scan hNumeral
      rwa [h] at hStarts
    have hShort : startsNumeral (c :: (v ++ z)) = true := startsNumeral_of_append hText
    rw [scan_of_startsNumeral hShort]
    exact Numeral.scan_cut hSpares h
  · have hNot : ¬startsNumeral (c :: (v ++ z)) = true := fun hStarts => hNumeral <| by
      rw [← List.append_assoc]
      exact startsNumeral_of_append hStarts
    rw [scan_of_ne hComment hString hRaw hRune, if_neg (by exact hNumeral)] at h
    rw [scan_of_ne hShorter hString hRaw hRune, if_neg (by exact hNot)]
    split at h
    · rw [if_pos ‹_›]
      exact word_cut h
    · rw [if_neg ‹_›]
      exact symbol_cut h

end Lexeme

end GoTemplate
