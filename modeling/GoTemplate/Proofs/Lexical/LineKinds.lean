import GoTemplate.Proofs.Lexical.OpenLines
import GoTemplate.Proofs.Lexical.Semicolons

/-!
The kinds of what a grammar reads, line by line. They depend on the kinds of the tokens of each line and
on what a line leaves open, and on nothing else in the line.
-/

namespace GoTemplate

open Text

/-- Whether a grammar reads tokens of the kind. -/
def TokenKind.isRead (k : TokenKind) : Bool := k ≠ .comment && k ≠ .invalid

/-- The kinds of what a grammar reads in a line with tokens of these kinds. Where a semicolon is due, the
line end is one, unless it is part of a raw string. -/
def lineKinds (left : Option Opening) : Bool → List TokenKind → List TokenKind
  | due, [] => if due && left ≠ some .rawString then [.semicolon] else []
  | due, k :: ks =>
    if k.isRead then k :: lineKinds left k.endsStatement ks else lineKinds left due ks

/-- What a grammar reads in a text is of these kinds. -/
def HasKinds (due : Bool) (t : Text) (ks : List TokenKind) : Prop :=
  ∃ ws, BareTokens due t ws ∧ ws.map Token.kind = ks

/-- What a grammar reads in a text at whose start something may be open is of these kinds. -/
def KindsFrom : Option Opening → Text → List TokenKind → Prop
  | none, t, ks => HasKinds false t ks
  | some q, t, ks => ∃ rest ks', q.closeIn? t = some rest ∧
      HasKinds q.kind.endsStatement rest ks' ∧ ks = [q.kind].filter TokenKind.isRead ++ ks'

/-! ## Steps -/

/-- Before a token the line goes on. -/
theorem Lexeme.lineEnds_eq_false {c : Char} {t : Text} {kind : TokenKind}
    (h : (scan c t).reading = .ok kind) (hKind : kind ≠ .comment) : Comment.lineEnds (c :: t) = false := by
  by_contra hEnds
  rcases Comment.of_lineEnds (Bool.eq_true_of_not_eq_false hEnds) with hNil | ⟨u, hu⟩ | ⟨u, hu⟩ | ⟨u, hu, -⟩
  · cases hNil
  · obtain ⟨rfl, -⟩ := List.cons_eq_cons.1 hu
    exact not_isToken_of_isBlank rfl t ⟨kind, h⟩
  · cases hu
    exact hKind (Except.ok.inj h).symm
  · cases hu
    change (Comment.block u).reading = _ at h
    rw [Comment.block] at h
    split at h
    · exact hKind (Except.ok.inj h).symm
    · cases h

/-- Before a block comment that ends in its line the line goes on. -/
theorem Comment.lineEnds_block {v body rest : Text} (hClose : splitClose? v = some (body, rest))
    (hFeed : '\n' ∉ v) (t : Text) : lineEnds ('/' :: '*' :: (v ++ t)) = false := by
  have hBody : '\n' ∉ body := fun hMem => hFeed (by
    rw [← splitClose?_append hClose]
    exact List.mem_append_left rest hMem)
  simp [lineEnds, splitClose?_append_of_some hClose, hBody]

/-- A block comment that does not end in its line ends the line. -/
theorem Comment.lineEnds_open {v ending : Text} (hOpen : splitClose? v = none)
    (hEnd : EndsLine v ending) (t : Text) : lineEnds ('/' :: '*' :: (v ++ (ending ++ t))) = true := by
  cases hClose : splitClose? (v ++ (ending ++ t)) with
  | none => simp [lineEnds, hClose]
  | some split =>
      by_contra hGoesOn
      have hBody : '\n' ∉ split.1 := by simpa [lineEnds, hClose] using hGoesOn
      obtain ⟨other, hClosed⟩ := exists_splitClose?_line hEnd hClose hBody
      rw [hOpen] at hClosed
      cases hClosed

namespace HasKinds

variable {due : Bool} {t u : Text} {c : Char} {kind : TokenKind} {ks : List TokenKind}

theorem of_splitGap (h : HasKinds due t ks)
    (hGap : (Lexer.splitGap due u).2 = (Lexer.splitGap due t).2) : HasKinds due u ks := by
  obtain ⟨ws, hWs, rfl⟩ := h
  exact ⟨ws, hWs.of_splitGap hGap, rfl⟩

theorem token (hGap : (Lexer.splitGap due t).2 = c :: u) (hScan : (Lexeme.scan c u).reading = .ok kind)
    (hKind : kind ≠ .comment) (hRest : HasKinds kind.endsStatement (Lexeme.scan c u).rest ks) :
    HasKinds due t (kind :: ks) := by
  obtain ⟨ws, hWs, rfl⟩ := hRest
  have hGoesOn : (due && Comment.lineEnds (c :: u)) = false := by
    rw [Lexeme.lineEnds_eq_false hScan hKind, Bool.and_false]
  exact ⟨_, .token hGap hGoesOn hScan hKind hWs, rfl⟩

theorem comment (hGap : (Lexer.splitGap due t).2 = c :: u)
    (hGoesOn : (due && Comment.lineEnds (c :: u)) = false)
    (hScan : (Lexeme.scan c u).reading = .ok .comment)
    (hRest : HasKinds due (Lexeme.scan c u).rest ks) : HasKinds due t ks := by
  obtain ⟨ws, hWs, rfl⟩ := hRest
  exact ⟨ws, .comment hGap hGoesOn hScan hWs, rfl⟩

/-- A comment that ends the line counts as a line end where a semicolon is due. -/
theorem comment_of_lineEnds (hGap : (Lexer.splitGap due t).2 = '/' :: u)
    (hEnds : Comment.lineEnds ('/' :: u) = true)
    (hScan : (Lexeme.scan '/' u).reading = .ok .comment)
    (hRest : HasKinds false (Lexeme.scan '/' u).rest ks) :
    HasKinds due t ((if due then [.semicolon] else []) ++ ks) := by
  cases due with
  | false => exact comment hGap rfl hScan hRest
  | true =>
      have hSlash : (Lexer.splitGap false ('/' :: u)).2 = '/' :: u :=
        congrArg Prod.snd (Lexer.splitGap_slash false u)
      obtain ⟨ws, hWs, rfl⟩ := comment hSlash rfl hScan hRest
      exact ⟨_, .semicolon hGap hEnds hWs, rfl⟩

end HasKinds

namespace Lexer

theorem splitGap_of_lineFeed_not_mem {t : Text} (hFeed : '\n' ∉ t) (due : Bool) :
    (splitGap due t).2 = (splitGap false t).2 := by
  have hSame (u : Text) (hu : '\n' ∉ u) : u.dropWhile (isGap due) = u.dropWhile (isGap false) := by
    induction u with
    | nil => rfl
    | cons c u ih =>
        rw [List.mem_cons, not_or] at hu
        have hc : isGap due c = isGap false c := by simp [isGap, Ne.symm hu.1]
        rw [List.dropWhile_cons, List.dropWhile_cons, hc, ih hu.2]
  rw [splitGap_snd, splitGap_snd]
  refine hSame _ fun hMem => hFeed ?_
  rw [dropMark] at hMem
  split at hMem
  · exact List.mem_of_mem_tail hMem
  · exact hMem

/-- Behind the blanks of a line in which nothing else stands a semicolon is found where one is due. -/
theorem splitGap_lineFeed_of_nil {line ending : Text} (hGap : (splitGap false line).2 = [])
    (hFeed : '\n' ∉ line) (hEnd : EndsLine line ending) (rest : Text) :
    (splitGap true (line ++ (ending ++ rest))).2 = '\n' :: rest := by
  have hBlank : (splitGap true line).2 = [] := (splitGap_of_lineFeed_not_mem hFeed true).trans hGap
  have hEnding : (ending ++ rest).dropWhile (isGap true) = '\n' :: rest := by
    rcases hEnd with rfl | ⟨rfl, -⟩
    · rfl
    · rfl
  cases line with
  | nil =>
      rw [List.nil_append, splitGap_snd, dropMark, if_neg, hEnding]
      rcases hEnd with rfl | ⟨rfl, -⟩
      · simp
      · simp
  | cons c line =>
      rw [splitGap_snd] at hBlank
      rw [splitGap_snd, dropMark_append (List.cons_ne_nil c line), List.dropWhile_append, hBlank]
      exact hEnding

/-- Behind the blanks of a line in which nothing else stands, where no semicolon is due. -/
theorem splitGap_line_of_nil {line ending rest : Text} (hGap : (splitGap false line).2 = [])
    (hEnd : EndsLineWith line ending rest) (hMark : rest.head? ≠ some '\uFEFF') :
    (splitGap false (line ++ (ending ++ rest))).2 = (splitGap false rest).2 := by
  rcases hEnd with hEnd | ⟨rfl, rfl⟩
  · have hEnding : (splitGap false (line ++ ending)).2 = [] := by
      rw [splitGap_append_of_nil hGap]
      · rcases hEnd with rfl | ⟨rfl, -⟩
        · rfl
        · rfl
      · rcases hEnd with rfl | ⟨rfl, -⟩
        · simp
        · simp
    rw [← List.append_assoc, splitGap_append_of_nil hEnding hMark]
  · rw [List.append_nil, List.append_nil, hGap]
    rfl

/-- What stands first in a line stands first with more behind the line, a semicolon due or not. -/
theorem splitGap_line_of_cons {line x : Text} {c : Char} (hGap : (splitGap false line).2 = c :: x)
    (hFeed : '\n' ∉ line) (due : Bool) (t : Text) : (splitGap due (line ++ t)).2 = c :: (x ++ t) :=
  splitGap_append_of_cons ((splitGap_of_lineFeed_not_mem hFeed due).trans hGap) t

end Lexer

/-! ## From lines to kinds -/

/-- What a grammar reads of a line and of the text behind it. -/
theorem LineTokens.hasKinds {line y : Text} {ws : List Token} {left : Option Opening}
    {ks : List TokenKind} (h : LineTokens line ws left) (hFeed : '\n' ∉ line)
    (hReturn : line.getLast? ≠ some '\r') (hRest : KindsFrom left y ks)
    (hMark : left = none → y.head? ≠ some '\uFEFF') (due : Bool) :
    HasKinds due (line ++ '\n' :: y) (lineKinds left due (ws.map Token.kind) ++ ks) := by
  induction h generalizing due with
  | @stop t hGap =>
      cases due with
      | false => exact hRest.of_splitGap (Lexer.splitGap_line_of_nil hGap (.inl (.inr ⟨rfl, hReturn⟩)) (hMark rfl))
      | true =>
          obtain ⟨vs, hVs, rfl⟩ := hRest
          exact ⟨_, .semicolon (Lexer.splitGap_lineFeed_of_nil hGap hFeed (.inr ⟨rfl, hReturn⟩) y) rfl hVs,
            rfl⟩
  | @token t u c kind ws left hGap hScan hTokens ih =>
      have hPart : u <:+ t := (List.suffix_cons c u).trans (Lexer.suffix_of_splitGap hGap)
      have hRestPart := (Lexeme.rest_scan_suffix c u).trans hPart
      have hu : '\n' ∉ u := fun hMem => hFeed (hPart.subset hMem)
      have hEnd : EndsLine t ['\n'] := .inr ⟨rfl, hReturn⟩
      have hLater := ih (fun hMem => hFeed (hRestPart.subset hMem))
        ((hEnd.of_suffix hRestPart).resolve_left (by simp)).2 hRest hMark
      have hSame : Lexeme.scan c (u ++ '\n' :: y) = (Lexeme.scan c u).followedBy ('\n' :: y) :=
        Lexeme.scan_append_ending_of_isToken ⟨kind, hScan⟩ hu (hEnd.of_suffix hPart) y
      have hGap' : (Lexer.splitGap due (t ++ '\n' :: y)).2 = c :: (u ++ '\n' :: y) :=
        Lexer.splitGap_line_of_cons hGap hFeed due _
      have hScan' : (Lexeme.scan c (u ++ '\n' :: y)).reading = .ok kind := by rw [hSame]; exact hScan
      have hRest' (due : Bool) : HasKinds due (Lexeme.scan c (u ++ '\n' :: y)).rest
          (lineKinds left due (ws.map Token.kind) ++ ks) := by rw [hSame]; exact hLater due
      by_cases hComment : kind = .comment
      · subst hComment
        change HasKinds due _ (lineKinds left due (ws.map Token.kind) ++ ks)
        obtain ⟨rfl, ⟨v, rfl, hLine⟩ | ⟨v, body, rest, rfl, hClose, -⟩⟩ := Lexeme.scan_of_comment hScan
        · -- Behind a line comment there is only the line end.
          have hNil : (Lexeme.scan '/' ('/' :: v)).rest = [] := by
            rw [hLine, Comment.line, Comment.splitLine_eq_self fun hMem => hu (List.mem_cons_of_mem _ hMem)]
          rw [hNil] at hTokens
          obtain ⟨rfl, rfl⟩ := hTokens.of_nil
          have hKinds := HasKinds.comment_of_lineEnds hGap' rfl hScan' (hRest' false)
          cases due <;> exact hKinds
        · refine .comment hGap' ?_ hScan' (hRest' due)
          rw [List.cons_append, Comment.lineEnds_block hClose (fun hMem => hu (List.mem_cons_of_mem _ hMem)),
            Bool.and_false]
      · have hRead : kind.isRead = true := by
          have hValid : kind ≠ .invalid := fun hInvalid =>
            Lexeme.reading_ne (.inr hInvalid) c u hScan
          simp [TokenKind.isRead, hComment, hValid]
        rw [List.map_cons, lineKinds, if_pos hRead]
        exact .token hGap' hScan' hComment (hRest' _)
  | @opening t u q hGap hOpen =>
      obtain ⟨rest, ks', hClose, hKinds, rfl⟩ := hRest
      have hLonger : q.closeIn? (u ++ '\n' :: y) = some rest :=
        (Opening.closeIn?_line hOpen (.inr rfl) y).trans hClose
      obtain ⟨c, v, hStart, hClosed, -⟩ := q.scan_opener (u ++ '\n' :: y)
      obtain ⟨hScan, hRestText⟩ := hClosed rest hLonger
      have hGap' : (Lexer.splitGap due (t ++ '\n' :: y)).2 = c :: v := by
        obtain ⟨d, x, hText, -⟩ := q.scan_opener u
        rw [hText] at hGap
        rw [← hStart, ← List.append_assoc, hText]
        exact Lexer.splitGap_line_of_cons hGap hFeed due _
      rw [← hRestText] at hKinds
      cases q with
      | comment =>
          obtain ⟨rfl, rfl⟩ := List.cons_eq_cons.1 hStart
          have hPart : u <:+ t := (List.suffix_append ['/', '*'] u).trans (Lexer.suffix_of_splitGap hGap)
          have hEnd : EndsLine u ['\n'] := .of_suffix hPart (.inr ⟨rfl, hReturn⟩)
          have hEnds : Comment.lineEnds ('/' :: '*' :: (u ++ '\n' :: y)) = true :=
            Comment.lineEnds_open (Option.map_eq_none_iff.1 hOpen) hEnd y
          have hAll := HasKinds.comment_of_lineEnds hGap' hEnds hScan hKinds
          cases due <;> exact hAll
      | rawString =>
          have hAll := HasKinds.token hGap' hScan (by rintro ⟨⟩) hKinds
          cases due <;> exact hAll

/-! ## From kinds to lines -/

namespace LineTokens

variable {c : Char} {x z : Text} {us : List Token} {left : Option Opening}

/-- Where a line comment starts, nothing else stands. -/
theorem of_lineComment {y : Text} (h : LineTokens ('/' :: '/' :: y) us left) (hFeed : '\n' ∉ y) :
    us.map Token.kind = [.comment] ∧ left = none := by
  have hSlash : (Lexer.splitGap false ('/' :: '/' :: y)).2 = '/' :: '/' :: y :=
    congrArg Prod.snd (Lexer.splitGap_slash false _)
  have hNil : (Comment.line y).rest = [] := by
    rw [Comment.line, Comment.splitLine_eq_self hFeed]
  cases h with
  | stop hGap => cases hSlash.symm.trans hGap
  | @opening _ _ q hGap => cases q <;> cases hSlash.symm.trans hGap
  | token hGap hScan hRest =>
      obtain ⟨rfl, rfl⟩ := List.cons_eq_cons.1 (hSlash.symm.trans hGap)
      cases hScan
      change LineTokens (Comment.line y).rest _ left at hRest
      rw [hNil] at hRest
      obtain ⟨rfl, rfl⟩ := hRest.of_nil
      exact ⟨rfl, rfl⟩

/-- A comment that ends the line is the last that stands in it, and the semicolon comes before it. -/
theorem lineKinds_of_lineEnds (h : LineTokens (c :: x) us left) (hFeed : '\n' ∉ c :: x)
    (hHead : z.head? ≠ some '/' ∧ z.head? ≠ some '*') (hEnds : Comment.lineEnds (c :: (x ++ z)) = true) :
    c = '/' ∧ lineKinds left true (us.map Token.kind) =
      .semicolon :: lineKinds left false (us.map Token.kind) := by
  have hSecond {d : Char} {v : Text} (hText : x ++ z = d :: v) (hz : z.head? ≠ some d) :
      ∃ y, x = d :: y := by
    cases x with
    | nil => exact absurd (congrArg List.head? hText) hz
    | cons e y =>
        obtain ⟨rfl, -⟩ := List.cons_eq_cons.1 hText
        exact ⟨y, rfl⟩
  have hSlash (v : Text) : (Lexer.splitGap false ('/' :: v)).2 = '/' :: v :=
    congrArg Prod.snd (Lexer.splitGap_slash false v)
  rcases Comment.of_lineEnds hEnds with hNil | ⟨v, hv⟩ | ⟨v, hv⟩ | ⟨v, hv, -⟩
  · cases hNil
  · exact absurd ((List.cons_eq_cons.1 hv).1 ▸ List.mem_cons_self) hFeed
  · obtain ⟨rfl, hText⟩ := List.cons_eq_cons.1 hv
    obtain ⟨y, rfl⟩ := hSecond hText hHead.1
    obtain ⟨hKinds, rfl⟩ := h.of_lineComment fun hMem => hFeed (by simp [hMem])
    rw [hKinds]
    exact ⟨rfl, rfl⟩
  · obtain ⟨rfl, hText⟩ := List.cons_eq_cons.1 hv
    obtain ⟨y, rfl⟩ := hSecond hText hHead.2
    refine ⟨rfl, ?_⟩
    cases h with
    | stop hGap => cases (hSlash _).symm.trans hGap
    | @opening _ _ q hGap =>
        cases q with
        | comment => rfl
        | rawString => cases (hSlash _).symm.trans hGap
    | token hGap hScan hRest =>
        obtain ⟨rfl, rfl⟩ := List.cons_eq_cons.1 ((hSlash _).symm.trans hGap)
        change (Comment.block y).reading = _ at hScan
        rw [Comment.block] at hScan
        split at hScan
        · rename_i body rest hClose
          rw [List.cons_append, Comment.lineEnds_block hClose fun hMem => hFeed (by simp [hMem])] at hEnds
          cases hEnds
        · cases hScan

end LineTokens

/-- Whether a semicolon is due behind a token. -/
def TokenKind.dueBehind (kind : TokenKind) (due : Bool) : Bool :=
  if kind = .comment then due else kind.endsStatement

theorem lineKinds_cons {kind : TokenKind} (hKind : kind ≠ .invalid) (left : Option Opening) (due : Bool)
    (ks : List TokenKind) : lineKinds left due (kind :: ks) =
      [kind].filter TokenKind.isRead ++ lineKinds left (kind.dueBehind due) ks := by
  by_cases hComment : kind = .comment
  · subst hComment
    rfl
  · have hRead : kind.isRead = true := by simp [TokenKind.isRead, hComment, hKind]
    simp [lineKinds, hRead, TokenKind.dueBehind, hComment]

/-- A line has tokens, and what a grammar reads in it and in the text behind it is of these kinds, unless
that text starts with a byte order mark. -/
def ReadsLine (due : Bool) (line rest : Text) (ks : List TokenKind) : Prop :=
  ∃ us left, LineTokens line us left ∧ (rest.head? ≠ some '\uFEFF' → ∃ ks', KindsFrom left rest ks' ∧
    ks = lineKinds left due (us.map Token.kind) ++ ks')

/-- A token or a comment at the front of a text is the first of its line, is left open by its line, or
stands behind a line in which nothing else stands. -/
private theorem exists_line_of_scan {due : Bool} {line ending rest u : Text} {c : Char} {kind : TokenKind}
    {ks : List TokenKind} (hGap : (Lexer.splitGap due (line ++ (ending ++ rest))).2 = c :: u)
    (hGoesOn : (due && Comment.lineEnds (c :: u)) = false)
    (hScan : (Lexeme.scan c u).reading = .ok kind) (hFeed : '\n' ∉ line)
    (hEnd : EndsLineWith line ending rest)
    (hWhole : HasKinds due (line ++ (ending ++ rest)) ([kind].filter TokenKind.isRead ++ ks))
    (hRest : HasKinds (kind.dueBehind due) (Lexeme.scan c u).rest ks)
    (hLater : ∀ later : Text, (Lexeme.scan c u).rest = later ++ (ending ++ rest) → '\n' ∉ later →
      EndsLineWith later ending rest → ReadsLine (kind.dueBehind due) later rest ks) :
    ReadsLine due line rest ([kind].filter TokenKind.isRead ++ ks) := by
  cases hLine : (Lexer.splitGap false line).2 with
  | nil =>
      refine ⟨[], none, .stop hLine, fun hMark => ?_⟩
      cases due with
      | false => exact ⟨_, hWhole.of_splitGap (Lexer.splitGap_line_of_nil hLine hEnd hMark).symm, rfl⟩
      | true =>
          exfalso
          rcases hEnd with hEnd | ⟨rfl, rfl⟩
          · rw [Lexer.splitGap_lineFeed_of_nil hLine hFeed hEnd] at hGap
            obtain ⟨rfl, -⟩ := List.cons_eq_cons.1 hGap
            cases hGoesOn
          · rw [List.append_nil, List.append_nil, Lexer.splitGap_of_lineFeed_not_mem hFeed, hLine] at hGap
            cases hGap
  | cons d x =>
      rw [Lexer.splitGap_line_of_cons hLine hFeed] at hGap
      obtain ⟨rfl, rfl⟩ := List.cons_eq_cons.1 hGap
      have hPart : x <:+ line := (List.suffix_cons d x).trans (Lexer.suffix_of_splitGap hLine)
      have hEndX := hEnd.of_suffix hPart
      have hClosed (hToken : (Lexeme.scan d x).IsToken) :
          ReadsLine due line rest ([kind].filter TokenKind.isRead ++ ks) := by
        have hSame := hEndX.scan_append hToken fun hMem => hFeed (hPart.subset hMem)
        rw [hSame] at hScan
        have hRestPart := (Lexeme.rest_scan_suffix d x).trans hPart
        obtain ⟨us, left, hUs, hBehind⟩ := hLater (Lexeme.scan d x).rest (by rw [hSame]; rfl)
          (fun hMem => hFeed (hRestPart.subset hMem)) (hEnd.of_suffix hRestPart)
        refine ⟨_, left, .token hLine hScan hUs, fun hMark => ?_⟩
        obtain ⟨ks', hKs, rfl⟩ := hBehind hMark
        refine ⟨ks', hKs, ?_⟩
        rw [List.map_cons, lineKinds_cons fun hInvalid => Lexeme.reading_ne (.inr hInvalid) d x hScan,
          List.append_assoc]
      have hOpen {q : Opening} {v : Text} (hText : d :: x = q.opener ++ v) (hNone : q.closeIn? v = none)
          (hEndX : EndsLine x ending) : ReadsLine due line rest ([kind].filter TokenKind.isRead ++ ks) := by
        obtain ⟨e, y, hStart, hFound, hFault⟩ := q.scan_opener (v ++ (ending ++ rest))
        have hPassed : q.closeIn? (v ++ (ending ++ rest)) = q.closeIn? rest :=
          Opening.closeIn?_line hNone (Or.imp_right And.left hEndX) rest
        rw [← List.append_assoc, ← hText, List.cons_append] at hStart
        obtain ⟨rfl, rfl⟩ := List.cons_eq_cons.1 hStart
        cases hClose : q.closeIn? rest with
        | none =>
            obtain ⟨fault, hOther⟩ := hFault (hPassed.trans hClose)
            rw [hOther] at hScan
            cases hScan
        | some after =>
            obtain ⟨hReading, hAfter⟩ := hFound after (hPassed.trans hClose)
            obtain rfl : kind = q.kind := Except.ok.inj (hScan.symm.trans hReading)
            rw [hAfter] at hRest
            refine ⟨_, _, .opening (hLine.trans hText) hNone, fun _ => ?_⟩
            cases q with
            | comment =>
                obtain ⟨rfl, rfl⟩ := List.cons_eq_cons.1 hText
                have hEnds : Comment.lineEnds ('/' :: '*' :: (v ++ (ending ++ rest))) = true :=
                  Comment.lineEnds_open (Option.map_eq_none_iff.1 hNone) (.of_append (u := ['*']) hEndX) rest
                change (due && Comment.lineEnds ('/' :: '*' :: (v ++ (ending ++ rest)))) = false at hGoesOn
                rw [hEnds, Bool.and_true] at hGoesOn
                subst hGoesOn
                exact ⟨_, ⟨after, ks, hClose, hRest, rfl⟩, rfl⟩
            | rawString =>
                refine ⟨_, ⟨after, ks, hClose, hRest, rfl⟩, ?_⟩
                cases due <;> rfl
      rcases hEndX with hEndX | ⟨rfl, rfl⟩
      · rcases Lexeme.isToken_or_opening hEndX ⟨kind, hScan⟩ with hToken | ⟨q, v, hText, hNone⟩
        · exact hClosed hToken
        · exact hOpen hText hNone hEndX
      · rw [List.append_nil, List.append_nil] at hScan
        exact hClosed ⟨kind, hScan⟩

/-- What a grammar reads of a text is what it reads of the first line, and behind the line what the rest
of the text is from there. -/
theorem BareTokens.exists_line {due : Bool} {t : Text} {ws : List Token} (h : BareTokens due t ws)
    {line ending rest : Text} (hText : t = line ++ (ending ++ rest)) (hFeed : '\n' ∉ line)
    (hEnd : EndsLineWith line ending rest) : ReadsLine due line rest (ws.map Token.kind) := by
  induction h generalizing line with
  | stop hGap =>
      subst hText
      cases hLine : (Lexer.splitGap false line).2 with
      | nil =>
          refine ⟨[], none, .stop hLine, fun hMark => ?_⟩
          have hRest : (Lexer.splitGap false rest).2 = [] :=
            (Lexer.splitGap_line_of_nil hLine hEnd hMark).symm.trans hGap
          exact ⟨[], ⟨[], .stop hRest, rfl⟩, rfl⟩
      | cons c x =>
          rw [Lexer.splitGap_append_of_cons hLine] at hGap
          cases hGap
  | @semicolon t u ws hGap hEnds hRest ih =>
      subst hText
      cases hLine : (Lexer.splitGap false line).2 with
      | nil =>
          refine ⟨[], none, .stop hLine, fun _ => ⟨ws.map Token.kind, ⟨ws, ?_, rfl⟩, rfl⟩⟩
          rcases hEnd with hEnd | ⟨rfl, rfl⟩
          · rw [Lexer.splitGap_lineFeed_of_nil hLine hFeed hEnd] at hGap
            subst hGap
            exact hRest
          · rw [List.append_nil, List.append_nil, Lexer.splitGap_of_lineFeed_not_mem hFeed, hLine] at hGap
            subst hGap
            exact hRest
      | cons c x =>
          rw [Lexer.splitGap_line_of_cons hLine hFeed] at hGap
          subst hGap
          have hPart := Lexer.suffix_of_splitGap hLine
          have hx : '\n' ∉ c :: x := fun hMem => hFeed (hPart.subset hMem)
          have hNoFeed : c ≠ '\n' := fun hc => hx (hc ▸ List.mem_cons_self)
          rw [if_neg (by simpa using hNoFeed)] at hRest ih
          have hSame : c :: (x ++ (ending ++ rest)) = (c :: x) ++ (ending ++ rest) := rfl
          obtain ⟨us, left, hUs, hBehind⟩ := ih hSame hx (hEnd.of_suffix hPart)
          have hHead : (ending ++ rest).head? ≠ some '/' ∧ (ending ++ rest).head? ≠ some '*' := by
            rcases hEnd with (rfl | ⟨rfl, -⟩) | ⟨rfl, rfl⟩
            · simp
            · simp
            · simp
          obtain ⟨rfl, hSemicolon⟩ := hUs.lineKinds_of_lineEnds hx hHead hEnds
          have hSplit : (Lexer.splitGap false ('/' :: x)).2 = '/' :: x :=
            congrArg Prod.snd (Lexer.splitGap_slash false x)
          refine ⟨us, left, hUs.of_splitGap (hSplit.trans hLine.symm), fun hMark => ?_⟩
          obtain ⟨ks, hKs, hKinds⟩ := hBehind hMark
          refine ⟨ks, hKs, ?_⟩
          rw [List.map_cons, hKinds, hSemicolon]
          rfl
  | comment hGap hGoesOn hScan hRest ih =>
      subst hText
      exact exists_line_of_scan hGap hGoesOn hScan hFeed hEnd
        ⟨_, .comment hGap hGoesOn hScan hRest, rfl⟩ ⟨_, hRest, rfl⟩
        fun later hLater hNoFeed hEnds => ih hLater hNoFeed hEnds
  | @token due t u c kind ws hGap hGoesOn hScan hKind hRest ih =>
      subst hText
      have hRead : [kind].filter TokenKind.isRead = [kind] := by
        have hValid : kind ≠ .invalid := fun hInvalid => Lexeme.reading_ne (.inr hInvalid) c u hScan
        simp [TokenKind.isRead, hKind, hValid]
      have hDue : kind.dueBehind due = kind.endsStatement := if_neg hKind
      have hKinds : HasKinds (kind.dueBehind due) (Lexeme.scan c u).rest (ws.map Token.kind) :=
        ⟨ws, by rw [hDue]; exact hRest, rfl⟩
      have hStep := exists_line_of_scan hGap hGoesOn hScan hFeed hEnd
        ⟨_, .token hGap hGoesOn hScan hKind hRest, by rw [hRead]; rfl⟩ hKinds
        fun later hLater hNoFeed hEnds => by rw [hDue]; exact ih hLater hNoFeed hEnds
      rw [hRead] at hStep
      exact hStep

end GoTemplate
