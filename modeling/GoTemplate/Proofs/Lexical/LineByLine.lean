import GoTemplate.Proofs.Lexical.StandingTokens
import GoTemplate.Proofs.Text.Lines

/-!
Reading a text line by line. Where no token goes beyond its line, the tokens of a text are those of
its lines, one line after the other. What a line end is to the lines of a text, a line feed or a
carriage return and a line feed, is no part of a token either.
-/

namespace GoTemplate

namespace Text

/-- How a line ends that something may follow: with a line feed, or with a carriage return and a
line feed. Before a line feed alone the line does not end with a carriage return. -/
def EndsLine (line ending : Text) : Prop :=
  ending = ['\r', '\n'] ∨ ending = ['\n'] ∧ line.getLast? ≠ some '\r'

theorem EndsLine.of_append {u line ending : Text} (h : EndsLine (u ++ line) ending) :
    EndsLine line ending := by
  rcases h with hBoth | ⟨hFeed, hLast⟩
  · exact .inl hBoth
  · refine .inr ⟨hFeed, fun hReturn => hLast ?_⟩
    rw [List.getLast?_append, hReturn]
    rfl

theorem EndsLine.of_suffix {t line ending : Text} (hSuffix : t <:+ line) (h : EndsLine line ending) :
    EndsLine t ending := by
  obtain ⟨u, rfl⟩ := hSuffix
  exact h.of_append

/-- A line end starts with a character that no number, word or symbol goes on with. -/
theorem EndsLine.exists_head {line ending : Text} (h : EndsLine line ending) :
    ∃ stop more, ending = stop :: more ∧ (stop = '\r' ∨ stop = '\n') := by
  rcases h with rfl | ⟨rfl, -⟩
  · exact ⟨'\r', ['\n'], rfl, .inl rfl⟩
  · exact ⟨'\n', [], rfl, .inr rfl⟩

/-- Behind a line and perhaps the carriage return of its end there is a line feed. -/
theorem EndsLine.exists_lineFeed {line ending : Text} (h : EndsLine line ending) :
    ∃ r, ending = r ++ ['\n'] ∧ (r = [] ∨ r = ['\r']) := by
  rcases h with rfl | ⟨rfl, -⟩
  · exact ⟨['\r'], rfl, .inr rfl⟩
  · exact ⟨[], rfl, .inl rfl⟩

/-- What comes behind a line: a line end and more, or nothing. -/
abbrev EndsLineWith (line ending after : Text) : Prop :=
  EndsLine line ending ∨ ending = [] ∧ after = []

theorem EndsLineWith.of_suffix {t line ending after : Text} (hSuffix : t <:+ line)
    (h : EndsLineWith line ending after) : EndsLineWith t ending after :=
  h.imp_left (.of_suffix hSuffix)

theorem EndsLineWith.of_append {u line ending after : Text} (h : EndsLineWith (u ++ line) ending after) :
    EndsLineWith line ending after :=
  h.of_suffix (List.suffix_append u line)

/-- A text starts with its first line, which ends with a line end or with the text. -/
theorem exists_line {t : Text} (h : t ≠ []) :
    ∃ line ending rest, t = line ++ (ending ++ rest) ∧ lines t = line :: lines rest ∧
      EndsLineWith line ending rest := by
  fun_induction lines t with
  | case1 => exact absurd rfl h
  | case2 t => exact ⟨[], ['\n'], t, rfl, rfl, .inl (.inr ⟨rfl, by simp⟩)⟩
  | case3 t => exact ⟨[], ['\r', '\n'], t, rfl, rfl, .inl (.inl rfl)⟩
  | case4 c t hFeed hReturn first others hLines ih =>
      have hNe : t ≠ [] := by
        rintro rfl
        cases hLines
      obtain ⟨line, ending, rest, hText, hSplit, hEnd⟩ := ih hNe
      obtain ⟨rfl, rfl⟩ := List.cons_eq_cons.1 (hLines.symm.trans hSplit)
      refine ⟨c :: first, ending, rest, congrArg (c :: ·) hText, rfl, hEnd.imp_left ?_⟩
      rintro (hBoth | ⟨hOnly, hLast⟩)
      · exact .inl hBoth
      · refine .inr ⟨hOnly, fun hLonger => ?_⟩
        cases first with
        | nil =>
            obtain rfl : c = '\r' := by simpa using hLonger
            exact hReturn rest rfl (by rw [hText, hOnly]; rfl)
        | cons d first => exact hLast (by simpa using hLonger)
  | case5 c t hFeed hReturn hLines =>
      obtain rfl : t = [] := by
        by_contra hNe
        exact lines_ne_nil hNe hLines
      exact ⟨[c], [], [], rfl, rfl, .inr ⟨rfl, rfl⟩⟩

end Text

open Text

/-! ## Tokens up to the end of their line -/

namespace Comment

theorem splitLine_eq_self {t : Text} (hFeed : '\n' ∉ t) : splitLine t = (t, []) := by
  induction t with
  | nil => rfl
  | cons c t ih =>
      rw [List.mem_cons, not_or] at hFeed
      have hNext : ∀ u, c :: t ≠ '\r' :: '\n' :: u := by
        intro u hText
        exact hFeed.2 ((List.cons_eq_cons.1 hText).2 ▸ List.mem_cons_self)
      rw [splitLine_cons (Ne.symm hFeed.1) hNext, ih hFeed.2]

theorem splitLine_append_ending {line ending : Text} (hFeed : '\n' ∉ line)
    (hEnd : EndsLine line ending) (rest : Text) :
    splitLine (line ++ (ending ++ rest)) = (line, ending ++ rest) := by
  induction line with
  | nil =>
      rcases hEnd with rfl | ⟨rfl, -⟩
      · rfl
      · rfl
  | cons c line ih =>
      rw [List.mem_cons, not_or] at hFeed
      have hNext : ∀ u, c :: (line ++ (ending ++ rest)) ≠ '\r' :: '\n' :: u := by
        intro u hText
        obtain ⟨rfl, hRest⟩ := List.cons_eq_cons.1 hText
        cases line with
        | nil =>
            rcases hEnd with rfl | ⟨rfl, hLast⟩
            · cases hRest
            · exact hLast rfl
        | cons d line => exact hFeed.2 ((List.cons_eq_cons.1 hRest).1 ▸ List.mem_cons_self)
      have hLater : EndsLine line ending := EndsLine.of_append (u := [c]) hEnd
      rw [List.cons_append, splitLine_cons (Ne.symm hFeed.1) hNext, ih hFeed.2 hLater]

/-- A block comment without line feed ends in the line in which it starts. -/
theorem exists_splitClose?_line {line ending rest body after : Text} (hEnd : EndsLine line ending)
    (h : splitClose? (line ++ (ending ++ rest)) = some (body, after)) (hFeed : '\n' ∉ body) :
    ∃ split, splitClose? line = some split := by
  obtain ⟨r, rfl, hReturn⟩ := hEnd.exists_lineFeed
  rw [List.append_assoc, ← List.append_assoc] at h
  by_contra hNone
  have hOpen : splitClose? line = none := Option.eq_none_iff_forall_ne_some.2 fun split hSome =>
    hNone ⟨split, hSome⟩
  have hLonger : splitClose? (line ++ r) = none := by
    rcases hReturn with rfl | rfl
    · rwa [List.append_nil]
    · exact splitClose?_concat (by decide) hOpen
  exact hFeed (mem_of_splitClose? (splitClose?_concat (by decide) hLonger) h)

end Comment

namespace Quoted

variable {kind : Literal} {fault : LexicalFault} {quote : Char}

/-- A literal that is closed does not depend on what comes after it. -/
theorem body_append {u : Text} (h : (body kind fault quote u).IsToken) (t : Text) :
    body kind fault quote (u ++ t) = (body kind fault quote u).followedBy t := by
  have hFault {l : Lexeme} (hReading : l.reading = .error fault) (hToken : l.IsToken) : False := by
    obtain ⟨k, hKind⟩ := hToken
    cases hReading.symm.trans hKind
  fun_induction body kind fault quote u with
  | case1 => exact (hFault rfl h).elim
  | case2 => exact (hFault rfl h).elim
  | case3 hFeed =>
      cases t with
      | nil => rw [List.append_nil, body, if_neg hFeed, if_pos rfl]; rfl
      | cons d t => rw [List.cons_append, List.nil_append, body, if_neg hFeed, if_pos rfl]; rfl
  | case4 => exact (hFault rfl h).elim
  | case5 => exact (hFault rfl h).elim
  | case6 d v hFeed =>
      rw [List.cons_append, List.cons_append, body, if_neg hFeed, if_pos rfl]
      rfl
  | case7 c d v hFeed hQuote hEscape ih =>
      rw [List.cons_append, List.cons_append, body, if_neg hFeed, if_neg hQuote, if_pos hEscape,
        ih h]
      rfl
  | case8 c d v hFeed hQuote hEscape ih =>
      rw [List.cons_append, List.cons_append, body, if_neg hFeed, if_neg hQuote, if_neg hEscape]
      exact congrArg (Lexeme.prepend [c]) (ih h)

/-- A carriage return closes no literal. -/
theorem isToken_body {u : Text} (hQuote : quote ≠ '\r')
    (h : (body kind fault quote (u ++ ['\r'])).IsToken) : (body kind fault quote u).IsToken := by
  have hOpen : ¬(body kind fault quote ['\r']).IsToken := by
    rw [body, if_neg (by decide), if_neg (Ne.symm hQuote)]
    rintro ⟨k, ⟨⟩⟩
  fun_induction body kind fault quote u with
  | case1 => exact absurd h hOpen
  | case2 =>
      obtain ⟨k, hKind⟩ := h
      cases hKind
  | case3 => exact ⟨_, rfl⟩
  | case4 c hFeed hNot =>
      rw [List.cons_append, List.nil_append, body, if_neg hFeed, if_neg hNot] at h
      split at h
      · obtain ⟨k, hKind⟩ := h
        cases hKind
      · exact absurd h hOpen
  | case5 =>
      obtain ⟨k, hKind⟩ := h
      cases hKind
  | case6 => exact ⟨_, rfl⟩
  | case7 c d v hFeed hNot hEscape ih =>
      rw [List.cons_append, List.cons_append, body, if_neg hFeed, if_neg hNot, if_pos hEscape] at h
      exact ih h
  | case8 c d v hFeed hNot hEscape ih =>
      rw [List.cons_append, List.cons_append, body, if_neg hFeed, if_neg hNot, if_neg hEscape] at h
      exact ih h

/-- A literal that ends in its line is the same without what comes after the line. -/
theorem body_append_ending {line ending : Text} (hQuote : quote ≠ '\r') (hEnd : EndsLine line ending)
    (rest : Text) (h : (body kind fault quote (line ++ (ending ++ rest))).IsToken) :
    body kind fault quote (line ++ (ending ++ rest)) =
      (body kind fault quote line).followedBy (ending ++ rest) := by
  obtain ⟨r, rfl, hReturn⟩ := hEnd.exists_lineFeed
  rcases hReturn with rfl | rfl
  · exact body_lineFeed _ _ _ _ _
  · have hSplit : line ++ ((['\r'] ++ ['\n']) ++ rest) = (line ++ ['\r']) ++ '\n' :: rest := by simp
    rw [hSplit, body_lineFeed] at h
    exact body_append (isToken_body hQuote h) _

/-- A raw string without line feed ends in the line in which it starts. -/
theorem isToken_rawBody_line {line ending : Text} (hEnd : EndsLine line ending) (rest : Text)
    (h : (rawBody (line ++ (ending ++ rest))).IsToken)
    (hFeed : '\n' ∉ (rawBody (line ++ (ending ++ rest))).text) : (rawBody line).IsToken := by
  induction line with
  | nil =>
      exfalso
      apply hFeed
      rcases hEnd with rfl | ⟨rfl, -⟩
      · simp [rawBody]
      · simp [rawBody]
  | cons c line ih =>
      rw [List.cons_append, rawBody] at h hFeed
      rw [rawBody]
      by_cases hQuote : c = '`'
      · rw [if_pos hQuote]
        exact ⟨_, rfl⟩
      · rw [if_neg hQuote] at h hFeed ⊢
        refine ih (EndsLine.of_append (u := [c]) hEnd) h fun hMem => hFeed ?_
        exact List.mem_cons_of_mem c hMem

end Quoted

namespace Lexeme

/-- What is closed is found in front of a character that no number, word or symbol goes on with, unless
it is a line comment, which takes the character in. -/
theorem scan_append_of_isToken {c : Char} {u z : Text} (hToken : (scan c u).IsToken)
    (hLine : ¬(c = '/' ∧ u.head? = some '/')) (hStop : ∀ stop ∈ z.head?, IsStop stop) :
    scan c (u ++ z) = (scan c u).followedBy z := by
  by_cases hBlock : c = '/' ∧ u.head? = some '*'
  · obtain ⟨rfl, hHead⟩ := hBlock
    obtain ⟨v, rfl⟩ := List.head?_eq_some_iff.1 hHead
    change Comment.block (v ++ z) = (Comment.block v).followedBy z
    cases hClose : Comment.splitClose? v with
    | none =>
        obtain ⟨kind, hKind⟩ := hToken
        change (Comment.block v).reading = _ at hKind
        rw [Comment.block, hClose] at hKind
        cases hKind
    | some split =>
        rw [Comment.block, Comment.block, Comment.splitClose?_append_of_some hClose, hClose]
        rfl
  by_cases hString : c = '"'
  · subst hString
    exact congrArg (Lexeme.prepend ['"']) (Quoted.body_append hToken z)
  by_cases hRaw : c = '`'
  · subst hRaw
    exact congrArg (Lexeme.prepend ['`']) (Quoted.rawBody_append hToken z)
  by_cases hRune : c = '\''
  · subst hRune
    exact congrArg (Lexeme.prepend ['\'']) (Quoted.body_append hToken z)
  cases z with
  | nil => simp [followedBy]
  | cons stop z =>
      refine scan_append_stop (hStop stop rfl) (fun hSlash v => ?_) hString hRaw hRune z
      exact ⟨fun h => hLine ⟨hSlash, by rw [h]; rfl⟩, fun h => hBlock ⟨hSlash, by rw [h]; rfl⟩⟩

/-- What is closed within a line is found there as in the whole text. -/
theorem scan_append_ending_of_isToken {c : Char} {line ending : Text} (hToken : (scan c line).IsToken)
    (hFeed : '\n' ∉ line) (hEnd : EndsLine line ending) (rest : Text) :
    scan c (line ++ (ending ++ rest)) = (scan c line).followedBy (ending ++ rest) := by
  by_cases hLine : c = '/' ∧ line.head? = some '/'
  · obtain ⟨rfl, hHead⟩ := hLine
    obtain ⟨v, rfl⟩ := List.head?_eq_some_iff.1 hHead
    change Comment.line (v ++ (ending ++ rest)) = (Comment.line v).followedBy (ending ++ rest)
    rw [List.mem_cons, not_or] at hFeed
    rw [Comment.line, Comment.splitLine_append_ending hFeed.2 (.of_append (u := ['/']) hEnd),
      Comment.line, Comment.splitLine_eq_self hFeed.2]
    rfl
  · refine scan_append_of_isToken hToken hLine fun stop hStop => ?_
    obtain ⟨first, more, rfl, hFirst⟩ := hEnd.exists_head
    obtain rfl : first = stop := Option.some.inj hStop
    rcases hFirst with rfl | rfl
    · exact isStop_return
    · exact isStop_lineFeed

/-- What is closed somewhere in a text is closed in its line, unless it is a block comment or a raw
string. -/
theorem isToken_line {c : Char} {line ending rest : Text} (hEnd : EndsLine line ending)
    (hToken : (scan c (line ++ (ending ++ rest))).IsToken) :
    (scan c line).IsToken ∨ (∃ v, c :: line = '/' :: '*' :: v ∧ Comment.splitClose? v = none) ∨
      c = '`' ∧ ¬(Quoted.rawBody line).IsToken := by
  by_cases hLine : c = '/' ∧ line.head? = some '/'
  · obtain ⟨rfl, hHead⟩ := hLine
    obtain ⟨v, rfl⟩ := List.head?_eq_some_iff.1 hHead
    exact .inl ⟨.comment, rfl⟩
  by_cases hBlock : c = '/' ∧ line.head? = some '*'
  · obtain ⟨rfl, hHead⟩ := hBlock
    obtain ⟨v, rfl⟩ := List.head?_eq_some_iff.1 hHead
    cases hClose : Comment.splitClose? v with
    | none => exact .inr (.inl ⟨v, rfl, hClose⟩)
    | some split =>
        refine .inl ⟨.comment, ?_⟩
        change (Comment.block v).reading = _
        rw [Comment.block, hClose]
  by_cases hRaw : c = '`'
  · by_cases hClosed : (Quoted.rawBody line).IsToken
    · subst hRaw
      exact .inl hClosed
    · exact .inr (.inr ⟨hRaw, hClosed⟩)
  left
  obtain ⟨kind, hKind⟩ := hToken
  by_cases hString : c = '"'
  · subst hString
    refine ⟨kind, ?_⟩
    rw [← hKind]
    exact (congrArg Lexeme.reading
      (Quoted.body_append_ending (by decide) hEnd rest ⟨kind, hKind⟩)).symm
  by_cases hRune : c = '\''
  · subst hRune
    refine ⟨kind, ?_⟩
    rw [← hKind]
    exact (congrArg Lexeme.reading
      (Quoted.body_append_ending (by decide) hEnd rest ⟨kind, hKind⟩)).symm
  obtain ⟨stop, more, rfl, hStops⟩ := hEnd.exists_head
  have hStopper : IsStop stop := by
    rcases hStops with rfl | rfl
    · exact isStop_return
    · exact isStop_lineFeed
  rw [List.cons_append, scan_append_stop hStopper (fun hSlash v => ?_) hString hRaw hRune] at hKind
  · exact ⟨kind, hKind⟩
  · exact ⟨fun h => hLine ⟨hSlash, by rw [h]; rfl⟩, fun h => hBlock ⟨hSlash, by rw [h]; rfl⟩⟩

/-- A token without line feed is found in its line as in the whole text. -/
theorem scan_append_ending {c : Char} {line ending rest : Text} (hFeed : '\n' ∉ line)
    (hEnd : EndsLine line ending) (hToken : (scan c (line ++ (ending ++ rest))).IsToken)
    (hText : '\n' ∉ (scan c (line ++ (ending ++ rest))).text) :
    scan c (line ++ (ending ++ rest)) = (scan c line).followedBy (ending ++ rest) := by
  rcases isToken_line hEnd hToken with hClosed | ⟨v, hBlock, hOpen⟩ | ⟨rfl, hOpen⟩
  · exact scan_append_ending_of_isToken hClosed hFeed hEnd rest
  · obtain ⟨rfl, rfl⟩ := List.cons_eq_cons.1 hBlock
    change (Comment.block (v ++ (ending ++ rest))).IsToken at hToken
    change '\n' ∉ (Comment.block (v ++ (ending ++ rest))).text at hText
    cases hClose : Comment.splitClose? (v ++ (ending ++ rest)) with
    | none =>
        obtain ⟨kind, hKind⟩ := hToken
        rw [Comment.block, hClose] at hKind
        cases hKind
    | some split =>
        rw [Comment.block, hClose] at hText
        obtain ⟨_, hClosed⟩ :=
          Comment.exists_splitClose?_line (.of_append (u := ['*']) hEnd) hClose fun hMem =>
            hText (List.mem_cons_of_mem _ (List.mem_cons_of_mem _ hMem))
        rw [hOpen] at hClosed
        cases hClosed
  · exact absurd (Quoted.isToken_rawBody_line hEnd rest hToken fun hMem =>
      hText (List.mem_cons_of_mem _ hMem)) hOpen

/-- What a token leaves is the end of the text behind its first character. -/
theorem rest_scan_suffix (c : Char) (t : Text) : (scan c t).rest <:+ t := by
  obtain ⟨text, -, hRest⟩ := exists_text_scan c t
  exact ⟨text, hRest⟩

/-- A character that starts no number, word, symbol or literal starts no token. -/
theorem not_isToken {c : Char} (hDigit : c.isDigit = false) (hWord : isIdentifierStart c = false)
    (hQuotes : c ∉ ['/', '.', '"', '`', '\''])
    (hTable : ∀ entry ∈ symbolTable, entry.1.head? ≠ some c) (t : Text) : ¬(scan c t).IsToken := by
  rintro ⟨kind, hKind⟩
  simp only [List.mem_cons, List.not_mem_nil, or_false, not_or] at hQuotes
  obtain ⟨hSlash, hPoint, hString, hRaw, hRune⟩ := hQuotes
  have hSymbol : scan c t = symbol c t := by
    rw [scan_of_ne (fun h => absurd h hSlash) hString hRaw hRune, if_neg (by simp [hDigit, hPoint]),
      if_neg (Bool.eq_false_iff.1 hWord)]
  have hStart := congrArg List.head? (source_scan c t)
  rcases symbol_cases c t with ⟨_, spelling, -, hMem, hText⟩ | ⟨fault, hFault⟩
  · apply hTable _ hMem
    have hNe := text_scan_ne_nil c t
    rw [source, List.head?_append_of_ne_nil _ hNe, hSymbol, hText] at hStart
    exact hStart
  · rw [hSymbol, hFault] at hKind
    cases hKind

/-- No token starts with a byte order mark. -/
theorem not_isToken_mark (t : Text) : ¬(scan '\uFEFF' t).IsToken :=
  not_isToken rfl (by decide +kernel) (by decide) (by decide +kernel) t

/-- No token starts with a blank. -/
theorem not_isToken_of_isBlank {c : Char} (h : Lexer.isBlank c = true) (t : Text) :
    ¬(scan c t).IsToken := by
  simp only [Lexer.isBlank, Bool.or_eq_true, beq_iff_eq] at h
  rcases h with ((rfl | rfl) | rfl) | rfl
  · exact not_isToken rfl (by decide +kernel) (by decide) (by decide +kernel) t
  · exact not_isToken rfl (by decide +kernel) (by decide) (by decide +kernel) t
  · exact not_isToken rfl (by decide +kernel) (by decide) (by decide +kernel) t
  · exact not_isToken rfl (by decide +kernel) (by decide) (by decide +kernel) t

end Lexeme

/-- What is closed in a line is found there whatever comes behind the line. -/
theorem Text.EndsLineWith.scan_append {line ending after : Text} (h : EndsLineWith line ending after) {c : Char}
    (hToken : (Lexeme.scan c line).IsToken) (hFeed : '\n' ∉ line) :
    Lexeme.scan c (line ++ (ending ++ after)) = (Lexeme.scan c line).followedBy (ending ++ after) := by
  rcases h with hEnd | ⟨rfl, rfl⟩
  · exact Lexeme.scan_append_ending_of_isToken hToken hFeed hEnd after
  · simp [Lexeme.followedBy]

/-! ## Texts line by line -/

namespace Lexer

/-- What stands behind the blanks of a text is the end of the text. -/
theorem suffix_of_splitGap {due : Bool} {t x : Text} (hGap : (splitGap due t).2 = x) : x <:+ t :=
  ⟨_, by rw [← hGap]; exact splitGap_append due t⟩

theorem splitGap_append_of_cons {due : Bool} {s u : Text} {c : Char} (h : (splitGap due s).2 = c :: u)
    (t : Text) : (splitGap due (s ++ t)).2 = c :: (u ++ t) := by
  have hNe : s ≠ [] := by
    rintro rfl
    cases h
  rw [splitGap_snd] at h
  rw [splitGap_snd, dropMark_append hNe, List.dropWhile_append, h]
  rfl

/-- A byte order mark is skipped at the front of a text only. -/
theorem splitGap_append_mark {blanks : Text} (hNe : blanks ≠ []) (hBlanks : (splitGap false blanks).2 = [])
    (t : Text) : (splitGap false (blanks ++ '\uFEFF' :: t)).2 = '\uFEFF' :: t := by
  rw [splitGap_snd] at hBlanks
  rw [splitGap_snd, dropMark_append hNe, List.dropWhile_append, hBlanks]
  rfl

end Lexer

namespace StandingTokens

theorem of_splitGap {s t : Text} {ws : List Token} (h : StandingTokens s ws)
    (hGap : (Lexer.splitGap false s).2 = (Lexer.splitGap false t).2) : StandingTokens t ws := by
  cases h with
  | stop hStop => exact .stop (hGap.symm.trans hStop)
  | token hToken hScan hRest => exact .token (hGap.symm.trans hToken) hScan hRest

/-- Behind blanks a byte order mark would be a token. -/
theorem head?_ne_mark {blanks t : Text} {ws : List Token} (hNe : blanks ≠ [])
    (hBlanks : (Lexer.splitGap false blanks).2 = []) (h : StandingTokens (blanks ++ t) ws) :
    t.head? ≠ some '\uFEFF' := by
  intro hHead
  obtain ⟨u, rfl⟩ := List.head?_eq_some_iff.1 hHead
  have hGap := Lexer.splitGap_append_mark hNe hBlanks u
  cases h with
  | stop hStop =>
      rw [hGap] at hStop
      cases hStop
  | token hToken hScan hRest =>
      rw [hGap] at hToken
      obtain ⟨rfl, rfl⟩ := List.cons_eq_cons.1 hToken
      exact Lexeme.not_isToken_mark _ ⟨_, hScan⟩

/-- The tokens of a line come before those of the text behind the line. -/
theorem split_line {t line ending rest : Text} {ws : List Token} (h : StandingTokens t ws)
    (hText : t = line ++ (ending ++ rest)) (hFeed : '\n' ∉ line) (hEnd : EndsLine line ending)
    (hTokens : ∀ w ∈ ws, '\n' ∉ w.lexeme) :
    ∃ us vs, ws = us ++ vs ∧ StandingTokens line us ∧ StandingTokens rest vs := by
  -- The line gets shorter with each of its tokens, until only blanks are left of it.
  have hBlank {line : Text} {ws : List Token} (hEnd : EndsLine line ending)
      (h : StandingTokens (line ++ (ending ++ rest)) ws) (hGap : (Lexer.splitGap false line).2 = []) :
      ∃ us vs, ws = us ++ vs ∧ StandingTokens line us ∧ StandingTokens rest vs := by
    have hEnding : (Lexer.splitGap false (line ++ ending)).2 = [] := by
      rw [Lexer.splitGap_append_of_nil hGap]
      · rcases hEnd with rfl | ⟨rfl, -⟩
        · rfl
        · rfl
      · rcases hEnd with rfl | ⟨rfl, -⟩
        · simp
        · simp
    have hNe : line ++ ending ≠ [] := by
      obtain ⟨stop, more, rfl, -⟩ := hEnd.exists_head
      simp
    rw [← List.append_assoc] at h
    have hMark := head?_ne_mark hNe hEnding h
    exact ⟨[], ws, rfl, .stop hGap, h.of_splitGap (Lexer.splitGap_append_of_nil hEnding hMark)⟩
  induction h generalizing line with
  | stop hGap =>
      subst hText
      refine hBlank hEnd (.stop hGap) ?_
      cases hLine : (Lexer.splitGap false line).2 with
      | nil => rfl
      | cons c u =>
          rw [Lexer.splitGap_append_of_cons hLine] at hGap
          cases hGap
  | @token t u c kind ws hGap hScan hRest ih =>
      subst hText
      cases hLine : (Lexer.splitGap false line).2 with
      | nil => exact hBlank hEnd (.token hGap hScan hRest) hLine
      | cons d x =>
          rw [Lexer.splitGap_append_of_cons hLine] at hGap
          obtain ⟨rfl, rfl⟩ := List.cons_eq_cons.1 hGap
          have hPart : x <:+ line := (List.suffix_cons d x).trans (Lexer.suffix_of_splitGap hLine)
          have hSame := Lexeme.scan_append_ending (fun hMem => hFeed (hPart.subset hMem))
            (hEnd.of_suffix hPart) ⟨kind, hScan⟩ (hTokens _ List.mem_cons_self)
          have hRestText : (Lexeme.scan d (x ++ (ending ++ rest))).rest =
              (Lexeme.scan d x).rest ++ (ending ++ rest) := by
            rw [hSame]
            rfl
          have hRestPart := (Lexeme.rest_scan_suffix d x).trans hPart
          obtain ⟨us, vs, rfl, hUs, hVs⟩ := ih hRestText (fun hMem => hFeed (hRestPart.subset hMem))
            (hEnd.of_suffix hRestPart) fun w hw => hTokens w (List.mem_cons_of_mem _ hw)
          refine ⟨_ :: us, vs, rfl, ?_, hVs⟩
          have hKind : (Lexeme.scan d x).reading = .ok kind := by
            rw [← hScan, hSame]
            rfl
          have hToken := token hLine hKind hUs
          rw [hSame]
          exact hToken

/-- Where no token holds a line feed, each line has its own tokens. -/
theorem lines {t : Text} {ws : List Token} (h : StandingTokens t ws)
    (hTokens : ∀ w ∈ ws, '\n' ∉ w.lexeme) :
    ∃ parts, List.Forall₂ StandingTokens (Text.lines t) parts ∧ ws = parts.flatten := by
  by_cases hNil : t = []
  · subst hNil
    cases h with
    | stop => exact ⟨[], .nil, rfl⟩
    | token hGap => cases hGap
  · obtain ⟨line, ending, rest, hText, hLines, hEnd⟩ := exists_line hNil
    have hFeed : '\n' ∉ line := not_mem_of_mem_lines (t := t) (by rw [hLines]; exact List.mem_cons_self)
    rw [hLines]
    rcases hEnd with hEnd | ⟨rfl, rfl⟩
    · have hLess : rest.length < t.length := by
        obtain ⟨stop, more, rfl, -⟩ := hEnd.exists_head
        simp only [hText, List.length_append, List.length_cons]
        omega
      obtain ⟨us, vs, rfl, hUs, hVs⟩ := h.split_line hText hFeed hEnd hTokens
      obtain ⟨parts, hParts, rfl⟩ := hVs.lines fun w hw => hTokens w (List.mem_append_right us hw)
      exact ⟨us :: parts, .cons hUs hParts, rfl⟩
    · rw [List.append_nil, List.append_nil] at hText
      subst hText
      exact ⟨[ws], .cons h .nil, by simp⟩
  termination_by t.length

end StandingTokens

/-- In a text without faults whose tokens hold no line feed, reading each line by itself gives the
same tokens in the same order as reading the whole text, apart from their places. -/
theorem verbatimTokens_flatMap_lines {source : Text}
    (hErrors : (Lexer.ofSource .verbatim source).run.after.errors = [])
    (hTokens : ∀ t ∈ verbatimTokens source, '\n' ∉ t.lexeme) :
    (source.lines.flatMap verbatimTokens).map Token.bare = (verbatimTokens source).map Token.bare := by
  have hLines {ls : List Text} {parts : List (List Token)}
      (h : List.Forall₂ StandingTokens ls parts) :
      (ls.flatMap fun line => (verbatimTokens line).map Token.bare) = parts.flatten := by
    induction h with
    | nil => rfl
    | cons hLine _ ih =>
        rw [List.flatMap_cons, List.flatten_cons, ih, (standingTokens_iff.1 hLine).2]
  have hStanding := standingTokens_iff.2 ⟨hErrors, rfl⟩
  obtain ⟨parts, hParts, hSame⟩ := hStanding.lines (by simpa [Token.bare] using hTokens)
  rw [hSame, List.map_flatMap, hLines hParts]

/-- A text with a byte order mark, a comment before a carriage return and a number that would go on
in the next line. -/
theorem verbatimTokens_flatMap_lines_comment :
    let source : Text := "\uFEFFx // c\r\n\t1\n.5\r".toList
    (Lexer.ofSource .verbatim source).run.after.errors = [] ∧
      (∀ t ∈ verbatimTokens source, '\n' ∉ t.lexeme) ∧
      (source.lines.flatMap verbatimTokens).map Token.bare = (verbatimTokens source).map Token.bare := by
  intro source
  have hErrors : (Lexer.ofSource .verbatim source).run.after.errors = [] := by decide +kernel
  have hTokens : ∀ t ∈ verbatimTokens source, '\n' ∉ t.lexeme := by decide +kernel
  exact ⟨hErrors, hTokens, verbatimTokens_flatMap_lines hErrors hTokens⟩

end GoTemplate
