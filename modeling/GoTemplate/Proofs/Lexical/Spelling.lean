import GoTemplate.Proofs.Lexical.Cuts
import GoTemplate.Proofs.Lexical.LineByLine
import GoTemplate.Proofs.Text.Words

/-!
How tokens are spelled. The spelling of a token is read as this token again, by itself and in front of
a space. So tokens whose spellings are put together with single spaces are found again.
-/

namespace GoTemplate

/-! ## Literals in quotes -/

namespace Quoted

variable {kind : Literal} {fault : LexicalFault} {quote : Char}

theorem body_text {t : Text} {k : TokenKind} (h : (body kind fault quote t).reading = .ok k) :
    body kind fault quote (body kind fault quote t).text =
      ⟨.ok k, (body kind fault quote t).text, []⟩ := by
  fun_induction body kind fault quote t with
  | case1 => cases h
  | case2 => cases h
  | case3 hFeed =>
      cases h
      rw [body, if_neg hFeed, if_pos rfl]
  | case4 => cases h
  | case5 => cases h
  | case6 d v hFeed =>
      cases h
      rw [body, if_neg hFeed, if_pos rfl]
  | case7 c d v hFeed hQuote hEscape ih =>
      rw [Lexeme.text_prepend, List.cons_append, List.singleton_append, body, if_neg hFeed,
        if_neg hQuote, if_pos hEscape, ih h]
      rfl
  | case8 c d v hFeed hQuote hEscape ih =>
      have hSource := source_body kind fault quote (d :: v)
      have hBody := ih h
      obtain ⟨w, hw⟩ : ∃ w, (body kind fault quote (d :: v)).text = d :: w := by
        cases hText : (body kind fault quote (d :: v)).text with
        | nil =>
            rw [hText] at hBody
            cases hBody
        | cons e w =>
            rw [Lexeme.source, hText] at hSource
            exact ⟨w, by rw [(List.cons_eq_cons.1 hSource).1]⟩
      rw [hw] at hBody
      rw [Lexeme.text_prepend, List.singleton_append, hw, body, if_neg hFeed, if_neg hQuote,
        if_neg hEscape, hBody]
      rfl

theorem rawBody_text {t : Text} {k : TokenKind} (h : (rawBody t).reading = .ok k) :
    rawBody (rawBody t).text = ⟨.ok k, (rawBody t).text, []⟩ := by
  induction t with
  | nil => cases h
  | cons c t ih =>
      rw [rawBody] at h ⊢
      by_cases hQuote : c = '`'
      · rw [if_pos hQuote] at h ⊢
        cases h
        rw [rawBody, if_pos hQuote]
      · rw [if_neg hQuote] at h ⊢
        rw [Lexeme.text_prepend, List.singleton_append, rawBody, if_neg hQuote, ih h]
        rfl

end Quoted

/-! ## Tokens -/

namespace Lexeme

/-- Whether a text as a whole is one token of the kind. -/
def Spells (kind : TokenKind) : Text → Prop
  | [] => False
  | c :: t => scan c t = ⟨.ok kind, c :: t, []⟩

instance (kind : TokenKind) : (t : Text) → Decidable (Spells kind t)
  | [] => .isFalse id
  | c :: t => decidable_of_iff ((scan c t).reading = .ok kind ∧ (scan c t).rest = []) <| by
      constructor
      · rintro ⟨hReading, hRest⟩
        have hSource := source_scan c t
        rw [source, hRest, List.append_nil] at hSource
        rw [Spells, ← hReading, ← hSource, ← hRest]
      · intro h
        exact ⟨congrArg reading h, congrArg rest h⟩

/-- The text of a token spells it. -/
theorem spells_scan {c : Char} {t : Text} {kind : TokenKind} (h : (scan c t).reading = .ok kind) :
    Spells kind (scan c t).text := by
  obtain ⟨x, hText, hRest⟩ := exists_text_scan c t
  rw [hText]
  change scan c x = _
  by_cases hLine : c = '/' ∧ t.head? = some '/'
  · obtain ⟨rfl, hHead⟩ := hLine
    obtain ⟨v, rfl⟩ := List.head?_eq_some_iff.1 hHead
    obtain ⟨-, rfl⟩ := List.cons_eq_cons.1 hText
    cases h
    change Comment.line (Comment.splitLine v).1 = _
    rw [Comment.line, Comment.splitLine_eq_self (Comment.lineFeed_not_mem_splitLine v)]
  by_cases hBlock : c = '/' ∧ t.head? = some '*'
  · obtain ⟨rfl, hHead⟩ := hBlock
    obtain ⟨v, rfl⟩ := List.head?_eq_some_iff.1 hHead
    cases hClose : Comment.splitClose? v with
    | none =>
        change (Comment.block v).reading = _ at h
        rw [Comment.block, hClose] at h
        cases h
    | some split =>
        obtain ⟨body, rest⟩ := split
        change (Comment.block v).reading = _ at h
        change (Comment.block v).text = _ at hText
        rw [Comment.block, hClose] at h hText
        obtain ⟨-, rfl⟩ := List.cons_eq_cons.1 hText
        cases h
        change Comment.block body = _
        rw [Comment.block, Comment.splitClose?_self hClose]
  by_cases hString : c = '"'
  · subst hString
    obtain ⟨-, rfl⟩ := List.cons_eq_cons.1 hText
    exact congrArg (Lexeme.prepend ['"']) (Quoted.body_text h)
  by_cases hRaw : c = '`'
  · subst hRaw
    obtain ⟨-, rfl⟩ := List.cons_eq_cons.1 hText
    exact congrArg (Lexeme.prepend ['`']) (Quoted.rawBody_text h)
  by_cases hRune : c = '\''
  · subst hRune
    obtain ⟨-, rfl⟩ := List.cons_eq_cons.1 hText
    exact congrArg (Lexeme.prepend ['\'']) (Quoted.body_text h)
  -- Anything else is read from the text that is cut off right behind it.
  have hScan : scan c (x ++ ([] ++ (scan c t).rest)) = ⟨.ok kind, c :: x, [] ++ (scan c t).rest⟩ := by
    rw [List.nil_append, hRest, ← h, ← hText]
  have hCut := scan_cut_of_ne (fun _ => .inl rfl) (fun hSlash v => ?_) hString hRaw hRune hScan
  · rwa [List.append_nil] at hCut
  · rw [List.nil_append, hRest]
    exact ⟨fun hv => hLine ⟨hSlash, by rw [hv]; rfl⟩, fun hv => hBlock ⟨hSlash, by rw [hv]; rfl⟩⟩

/-- A spelling is found in front of a space, unless it is a line comment, which takes the space in. -/
theorem Spells.scan_append {kind : TokenKind} {c : Char} {x : Text} (h : Spells kind (c :: x))
    (hLine : ¬(c = '/' ∧ x.head? = some '/')) (z : Text) :
    scan c (x ++ ' ' :: z) = ⟨.ok kind, c :: x, ' ' :: z⟩ := by
  have hToken : (scan c x).IsToken := ⟨kind, congrArg reading h⟩
  rw [scan_append_of_isToken hToken hLine (by rintro _ ⟨⟩; exact isStop_space), h]
  rfl

/-- A word is found in front of what is no letter and no digit. -/
theorem Spells.scan_append_of_word {kind : TokenKind} {c : Char} {x z : Text} (h : Spells kind (c :: x))
    (hStart : isIdentifierStart c = true) (hz : ∀ d ∈ z.head?, isIdentifierPart d = false) :
    scan c (x ++ z) = ⟨.ok kind, c :: x, z⟩ := by
  have hWord : word c x = ⟨.ok kind, c :: x, []⟩ := (scan_of_isIdentifierStart hStart x).symm.trans h
  have hAll : ∀ d ∈ x, isIdentifierPart d = true := List.dropWhile_eq_nil_iff.1 (congrArg rest hWord)
  have hSplit : (x ++ z).takeWhile isIdentifierPart = x.takeWhile isIdentifierPart ∧
      (x ++ z).dropWhile isIdentifierPart = z := by
    rw [List.takeWhile_append_of_pos hAll, List.dropWhile_append_of_pos hAll, List.takeWhile_eq_self_iff.2 hAll]
    cases z with
    | nil => simp
    | cons d z => simp [hz d rfl]
  rw [scan_of_isIdentifierStart hStart, word, hSplit.1, hSplit.2]
  exact congrArg (fun found => ({ found with rest := z } : Lexeme)) hWord

theorem Spells.splitGap {kind : TokenKind} {c : Char} {x : Text} (h : Spells kind (c :: x))
    (due : Bool) (t : Text) : (Lexer.splitGap due (c :: t)).2 = c :: t := by
  have hToken : (scan c x).IsToken := ⟨kind, congrArg reading h⟩
  have hMark : c ≠ '\uFEFF' := by
    rintro rfl
    exact not_isToken_mark x hToken
  have hBlank : Lexer.isBlank c = false := by
    by_contra hBlank
    exact not_isToken_of_isBlank (Bool.eq_true_of_not_eq_false hBlank) x hToken
  rw [Lexer.splitGap_snd, Lexer.dropMark, if_neg (by simpa using hMark), List.dropWhile_cons,
    Lexer.isGap, hBlank]
  rfl

end Lexeme

/-! ## Spellings in a row -/

namespace Lexeme

theorem Spells.exists_cons {kind : TokenKind} {t : Text} (h : Spells kind t) : ∃ c x, t = c :: x := by
  cases t with
  | nil => exact h.elim
  | cons c x => exact ⟨c, x, rfl⟩

end Lexeme

/-- The text of tokens with single spaces between them. -/
def Token.row (ws : List Token) : Text := Text.joinWithSpaces (ws.map Token.lexeme)

theorem Token.row_cons_cons (w v : Token) (ws : List Token) :
    row (w :: v :: ws) = w.lexeme ++ ' ' :: row (v :: ws) :=
  Text.joinWithSpaces_cons_cons _ _ _

theorem Token.row_singleton (w : Token) : row [w] = w.lexeme := Text.joinWithSpaces_singleton _

/-- A row starts with its first token. -/
theorem Lexeme.Spells.splitGap_row {w : Token} (h : Spells w.kind w.lexeme) (due : Bool)
    (ws : List Token) : (Lexer.splitGap due (Token.row (w :: ws))).2 = Token.row (w :: ws) ∧
      (Lexer.splitGap due (' ' :: Token.row (w :: ws))).2 = Token.row (w :: ws) := by
  obtain ⟨c, x, hText⟩ := h.exists_cons
  obtain ⟨y, hy⟩ : ∃ y, Token.row (w :: ws) = c :: y := by
    cases ws with
    | nil => exact ⟨x, (Token.row_singleton w).trans hText⟩
    | cons v ws => exact ⟨_, (Token.row_cons_cons w v ws).trans (by rw [hText]; rfl)⟩
  rw [hText] at h
  have hMark : c ≠ '\uFEFF' := by
    rintro rfl
    exact not_isToken_mark x ⟨w.kind, congrArg reading h⟩
  have hSpace : Lexer.isGap due ' ' = true := by cases due <;> rfl
  have hFirst := h.splitGap due y
  rw [hy]
  refine ⟨hFirst, ?_⟩
  rw [Lexer.splitGap_snd, Lexer.dropMark, if_neg (by simpa using hMark)] at hFirst
  rw [Lexer.splitGap_snd, Lexer.dropMark, if_neg (by simp), List.dropWhile_cons, if_pos hSpace, hFirst]

/-- Tokens that are spelled with single spaces between them are found, as long as none but the last is
a line comment. -/
theorem StandingTokens.row {ws : List Token} (hSpells : ∀ w ∈ ws, Lexeme.Spells w.kind w.lexeme)
    (hLine : ∀ w ∈ ws.dropLast, ¬['/', '/'] <+: w.lexeme) :
    StandingTokens (Token.row ws) (ws.map Token.bare) := by
  induction ws with
  | nil => exact .stop rfl
  | cons w ws ih =>
      have hw := hSpells w List.mem_cons_self
      obtain ⟨hGap, -⟩ := hw.splitGap_row false ws
      obtain ⟨c, x, hText⟩ := hw.exists_cons
      rw [hText] at hw
      cases ws with
      | nil =>
          rw [Token.row_singleton, hText] at hGap ⊢
          have hStop : StandingTokens (Lexeme.scan c x).rest [] := by
            rw [hw]
            exact .stop rfl
          have hToken := token hGap (congrArg Lexeme.reading hw) hStop
          rw [hw] at hToken
          rw [List.map_singleton, Token.bare, hText]
          exact hToken
      | cons v ws =>
          have hNext := ih (fun u hu => hSpells u (List.mem_cons_of_mem w hu))
            fun u hu => hLine u (List.mem_cons_of_mem w hu)
          obtain ⟨hFirst, hSpace⟩ :=
            (hSpells v (List.mem_cons_of_mem w List.mem_cons_self)).splitGap_row false ws
          have hNot : ¬(c = '/' ∧ x.head? = some '/') := by
            rintro ⟨rfl, hHead⟩
            obtain ⟨y, rfl⟩ := List.head?_eq_some_iff.1 hHead
            exact hLine w List.mem_cons_self ⟨y, hText.symm⟩
          have hScan := hw.scan_append hNot (Token.row (v :: ws))
          rw [Token.row_cons_cons, hText, List.cons_append] at hGap ⊢
          have hToken := token hGap (congrArg Lexeme.reading hScan)
            (by rw [hScan]; exact hNext.of_splitGap (hFirst.trans hSpace.symm))
          rw [hScan] at hToken
          rw [List.map_cons, Token.bare, hText]
          exact hToken

end GoTemplate
