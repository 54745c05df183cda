import GoTemplate.Proofs.Lexical.LineByLine

/-!
Lines that leave a comment or a raw string open. These two are the only tokens that go on behind a line
end. What stands in a line are then tokens that end in it, and perhaps, as the last of them, the start of
such a token.
-/

namespace GoTemplate

open Text

/-- What may go on behind the end of a line: a block comment or a raw string. -/
inductive Opening where
  | comment
  | rawString
  deriving DecidableEq

namespace Opening

/-- What it starts with. -/
def opener : Opening → Text
  | comment => ['/', '*']
  | rawString => ['`']

/-- What it ends with. -/
def closer : Opening → Text
  | comment => ['*', '/']
  | rawString => ['`']

/-- The kind of the token that it is. -/
def kind : Opening → TokenKind
  | comment => .comment
  | rawString => .literal .rawString

/-- What is left of a text behind the first place where it ends there. -/
def closeIn? : Opening → Text → Option Text
  | comment, t => (Comment.splitClose? t).map Prod.snd
  | rawString, t => (Quoted.rawBody t).reading.toOption.map fun _ => (Quoted.rawBody t).rest

variable {q : Opening}

theorem closeIn?_append_of_some {u rest : Text} (h : q.closeIn? u = some rest) (t : Text) :
    q.closeIn? (u ++ t) = some (rest ++ t) := by
  cases q with
  | comment =>
      obtain ⟨⟨body, rest⟩, hClose, rfl⟩ := Option.map_eq_some_iff.1 h
      rw [closeIn?, Comment.splitClose?_append_of_some hClose]
      rfl
  | rawString =>
      obtain ⟨kind, hKind, rfl⟩ := Option.map_eq_some_iff.1 h
      have hToken : (Quoted.rawBody u).IsToken := by
        refine ⟨kind, ?_⟩
        cases hReading : (Quoted.rawBody u).reading with
        | error fault => rw [hReading] at hKind; cases hKind
        | ok found => rw [hReading] at hKind; cases hKind; rfl
      rw [closeIn?, Quoted.rawBody_append hToken]
      simp [Lexeme.followedBy, hKind]

theorem closeIn?_closer (q : Opening) (t : Text) : q.closeIn? (q.closer ++ t) = some t := by
  cases q <;> rfl

/-- A character with which it does not end is passed over. -/
theorem closeIn?_cons_of_ne {c : Char} {t : Text} (h : ∀ u, c :: t ≠ q.closer ++ u) :
    q.closeIn? (c :: t) = q.closeIn? t := by
  cases q with
  | comment =>
      rw [closeIn?, closeIn?, Comment.splitClose?_cons h, Option.map_map]
      rfl
  | rawString =>
      have hc : c ≠ '`' := fun hc => h t (by rw [hc]; rfl)
      rw [closeIn?, closeIn?, Quoted.rawBody, if_neg hc]
      rfl

/-- A character that is in no closing sign is passed over. -/
theorem closeIn?_cons {c : Char} (hStar : c ≠ '*') (hQuote : c ≠ '`') (t : Text) :
    q.closeIn? (c :: t) = q.closeIn? t := by
  refine closeIn?_cons_of_ne fun u hu => ?_
  cases q with
  | comment => exact hStar (List.cons_eq_cons.1 hu).1
  | rawString => exact hQuote (List.cons_eq_cons.1 hu).1

/-- What does not end in a text ends where it ends behind it. -/
theorem closeIn?_append_of_none {u t : Text} (h : q.closeIn? u = none) (hHead : t.head? ≠ some '/') :
    q.closeIn? (u ++ t) = q.closeIn? t := by
  induction u with
  | nil => rfl
  | cons c u ih =>
      cases q with
      | comment =>
          have hNext : ∀ v, c :: u ≠ '*' :: '/' :: v := by
            rintro v ⟨⟩
            cases h
          have hLonger : ∀ v, c :: (u ++ t) ≠ '*' :: '/' :: v := by
            intro v hText
            obtain ⟨rfl, hRest⟩ := List.cons_eq_cons.1 hText
            cases u with
            | nil => exact hHead (by rw [← List.nil_append t, hRest]; rfl)
            | cons d u => exact hNext u (by rw [(List.cons_eq_cons.1 hRest).1])
          rw [closeIn?, Comment.splitClose?_cons hNext, Option.map_map] at h
          rw [List.cons_append, closeIn?, Comment.splitClose?_cons hLonger, Option.map_map]
          exact ih h
      | rawString =>
          by_cases hc : c = '`'
          · subst hc
            cases h
          · rw [closeIn?, Quoted.rawBody, if_neg hc] at h
            rw [List.cons_append, closeIn?, Quoted.rawBody, if_neg hc]
            exact ih h

/-- What does not end in a line ends where it ends behind the line. -/
theorem closeIn?_line {line ending : Text} (h : q.closeIn? line = none)
    (hEnd : ending = ['\r', '\n'] ∨ ending = ['\n']) (rest : Text) :
    q.closeIn? (line ++ (ending ++ rest)) = q.closeIn? rest := by
  rcases hEnd with rfl | rfl
  · rw [closeIn?_append_of_none h (by simp)]
    exact (closeIn?_cons (by decide) (by decide) _).trans (closeIn?_cons (by decide) (by decide) rest)
  · rw [closeIn?_append_of_none h (by simp)]
    exact closeIn?_cons (by decide) (by decide) rest

/-- It does not end in a text that does not hold its closing sign. -/
theorem closeIn?_eq_none_iff {t : Text} : q.closeIn? t = none ↔ ¬q.closer <:+: t := by
  induction t with
  | nil => cases q <;> simp [closeIn?, closer, Comment.splitClose?, Quoted.rawBody, Except.toOption]
  | cons c t ih =>
      by_cases hClose : ∃ u, c :: t = q.closer ++ u
      · obtain ⟨u, hu⟩ := hClose
        rw [hu, closeIn?_closer]
        exact iff_of_false (by simp) fun h => h (List.prefix_append _ u).isInfix
      · rw [closeIn?_cons_of_ne fun u hu => hClose ⟨u, hu⟩, ih, List.infix_cons_iff, not_or]
        refine ⟨fun h => ⟨?_, h⟩, And.right⟩
        rintro ⟨u, hu⟩
        exact hClose ⟨u, hu.symm⟩

theorem closeIn?_of_isInfix {s t : Text} (hInfix : s <:+: t) (h : q.closeIn? t = none) :
    q.closeIn? s = none :=
  closeIn?_eq_none_iff.2 fun hCloser => closeIn?_eq_none_iff.1 h (hCloser.trans hInfix)

/-- What a text holds up to where it ends, and behind that. -/
theorem exists_of_closeIn? {t rest : Text} (h : q.closeIn? t = some rest) :
    ∃ u, t = u ++ (q.closer ++ rest) ∧ q.closeIn? (u ++ q.closer) = some [] := by
  induction t with
  | nil => cases q <;> cases h
  | cons c t ih =>
      by_cases hClose : ∃ u, c :: t = q.closer ++ u
      · obtain ⟨u, hu⟩ := hClose
        rw [hu, closeIn?_closer] at h
        cases h
        refine ⟨[], hu, ?_⟩
        have hEnd := closeIn?_closer q []
        rwa [List.append_nil] at hEnd
      · rw [closeIn?_cons_of_ne fun u hu => hClose ⟨u, hu⟩] at h
        obtain ⟨u, rfl, hEnd⟩ := ih h
        refine ⟨c :: u, rfl, ?_⟩
        rw [List.cons_append, closeIn?_cons_of_ne, hEnd]
        intro v hv
        exact hClose ⟨v ++ rest, by simp [← List.append_assoc, ← hv]⟩

/-- The text of a comment or raw string that ends, or does not, in the text behind its start. -/
theorem scan_opener (q : Opening) (t : Text) : ∃ c u, q.opener ++ t = c :: u ∧
    (∀ rest, q.closeIn? t = some rest →
      (Lexeme.scan c u).reading = .ok q.kind ∧ (Lexeme.scan c u).rest = rest) ∧
    (q.closeIn? t = none → ∃ fault, Lexeme.scan c u = ⟨.error fault, c :: u, []⟩) := by
  cases q with
  | comment =>
      refine ⟨'/', '*' :: t, rfl, fun rest h => ?_, fun h => ⟨.unterminatedComment, ?_⟩⟩
      · obtain ⟨⟨body, rest⟩, hClose, rfl⟩ := Option.map_eq_some_iff.1 h
        change (Comment.block t).reading = _ ∧ (Comment.block t).rest = _
        rw [Comment.block, hClose]
        exact ⟨rfl, rfl⟩
      · change Comment.block t = _
        rw [Comment.block, Option.map_eq_none_iff.1 h]
  | rawString =>
      refine ⟨'`', t, rfl, fun rest h => ?_, fun h => ⟨.unterminatedRawString, ?_⟩⟩
      · obtain ⟨kind, hKind, rfl⟩ := Option.map_eq_some_iff.1 h
        refine ⟨?_, rfl⟩
        change (Quoted.rawBody t).reading = _
        rcases Lexeme.reading_rawBody t with hRead | hRead
        · exact hRead
        · rw [hRead] at hKind
          cases hKind
      · change Quoted.rawString t = _
        have hOpen : Quoted.rawBody t = ⟨.error .unterminatedRawString, t, []⟩ := by
          induction t with
          | nil => rfl
          | cons c t ih =>
              rw [Quoted.rawBody]
              by_cases hc : c = '`'
              · subst hc
                cases h
              · rw [closeIn?, Quoted.rawBody, if_neg hc] at h
                rw [if_neg hc, ih h]
                rfl
        rw [Quoted.rawString, hOpen]
        rfl

end Opening

open Lexer in
/-- What stands in a line: its tokens, comments included, and what it leaves open. The start of what it
leaves open counts as a token that is not valid. -/
inductive LineTokens : Text → List Token → Option Opening → Prop where
  | stop {t : Text} (hGap : (splitGap false t).2 = []) : LineTokens t [] none
  | token {t u : Text} {c : Char} {kind : TokenKind} {ws : List Token} {left : Option Opening}
      (hGap : (splitGap false t).2 = c :: u) (hScan : (Lexeme.scan c u).reading = .ok kind)
      (hRest : LineTokens (Lexeme.scan c u).rest ws left) :
      LineTokens t (⟨kind, (Lexeme.scan c u).text, .none⟩ :: ws) left
  | opening {t u : Text} {q : Opening} (hGap : (splitGap false t).2 = q.opener ++ u)
      (hOpen : q.closeIn? u = none) : LineTokens t [⟨.invalid, q.opener ++ u, .none⟩] (some q)

namespace LineTokens

variable {t : Text} {ws : List Token} {left : Option Opening}

theorem of_splitGap {s : Text} (h : LineTokens s ws left)
    (hGap : (Lexer.splitGap false s).2 = (Lexer.splitGap false t).2) : LineTokens t ws left := by
  cases h with
  | stop hStop => exact .stop (hGap.symm.trans hStop)
  | token hToken hScan hRest => exact .token (hGap.symm.trans hToken) hScan hRest
  | opening hStart hOpen => exact .opening (hGap.symm.trans hStart) hOpen

/-- Where nothing is left open, the tokens of a line are those that stand in it. -/
theorem standing (h : LineTokens t ws none) : StandingTokens t ws := by
  generalize hLeft : (none : Option Opening) = left at h
  induction h with
  | stop hGap => exact .stop hGap
  | token hGap hScan _ ih => exact .token hGap hScan (ih hLeft)
  | opening => cases hLeft

/-- A reader that keeps comments finds the tokens of a line. -/
theorem run_eq (h : LineTokens t ws left) {l : Lexer} (hl : l.IsVerbatim) (hRest : l.rest = t) :
    l.run.tokens.map Token.bare = ws := by
  induction h generalizing l with
  | stop hGap =>
      rw [hl.run_of_nil (hRest ▸ hGap)]
      rfl
  | @token t u c kind ws left hGap hScan _ ih =>
      rw [hl.run_of_cons (hRest ▸ hGap), List.map_cons,
        ih (hl.skipGap.accept _) (Lexer.accept_rest _ _), Token.bare, Lexer.token, hScan]
  | @opening t u q hGap hOpen =>
      obtain ⟨c, v, hText, -, hFault⟩ := q.scan_opener u
      obtain ⟨fault, hScan⟩ := hFault hOpen
      rw [hText] at hGap ⊢
      have hNil : (Lexer.splitGap false (l.skipGap.accept (Lexeme.scan c v)).rest).2 = [] := by
        rw [Lexer.accept_rest, hScan]
        rfl
      rw [hl.run_of_cons (hRest ▸ hGap), (hl.skipGap.accept _).run_of_nil hNil, hScan]
      rfl

theorem verbatimTokens_eq (h : LineTokens t ws left) : (verbatimTokens t).map Token.bare = ws :=
  h.run_eq (Lexer.isVerbatim_ofSource t) rfl

/-- In an empty line nothing stands. -/
theorem of_nil (h : LineTokens [] ws left) : ws = [] ∧ left = none := by
  generalize hText : ([] : Text) = t at h
  cases h with
  | stop => exact ⟨rfl, rfl⟩
  | token hGap =>
      subst hText
      cases hGap
  | @opening _ _ q hGap =>
      subst hText
      cases q <;> cases hGap

end LineTokens

/-! ## Finding what is left open -/

/-- What a text starts. -/
def Opening.startedBy? (t : Text) : Option Opening := [comment, rawString].find? (·.opener.isPrefixOf t)

theorem Opening.startedBy?_append (q : Opening) (t : Text) : startedBy? (q.opener ++ t) = some q := by
  cases q <;> rfl

theorem Opening.exists_of_startedBy? {q : Opening} {t : Text} (h : startedBy? t = some q) :
    ∃ u, t = q.opener ++ u := by
  have hPrefix := List.find?_some (p := fun q : Opening => q.opener.isPrefixOf t) h
  obtain ⟨u, hu⟩ := List.isPrefixOf_iff_prefix.1 hPrefix
  exact ⟨u, hu.symm⟩

/-- What tokens leave open, if all are valid but for the start of it. -/
def leftOpen? : List Token → Option (Option Opening)
  | [] => some none
  | t :: ts =>
    if t.kind ≠ .invalid then leftOpen? ts
    else if ts = [] then (Opening.startedBy? t.lexeme).map some
    else none

namespace Lexer

/-- A run that finds tokens, and at the end at most the start of what is left open, finds what stands in
its line. -/
theorem lineTokens_run {l : Lexer} (h : l.IsVerbatim) {left : Option Opening}
    (hLeft : leftOpen? (l.run.tokens.map Token.bare) = some left) :
    LineTokens l.rest (l.run.tokens.map Token.bare) left := by
  cases hGap : (splitGap false l.rest).2 with
  | nil =>
      rw [h.run_of_nil hGap] at hLeft ⊢
      cases hLeft
      exact .stop hGap
  | cons c t =>
      have hLess := h.rest_scan_length_lt hGap
      rw [h.run_of_cons hGap, List.map_cons] at hLeft ⊢
      cases hScan : (Lexeme.scan c t).reading with
      | ok kind =>
          have hToken : (l.skipGap.token (Lexeme.scan c t)).bare = ⟨kind, (Lexeme.scan c t).text, .none⟩ := by
            rw [Token.bare, token, hScan]
          have hValid : kind ≠ .invalid := fun hInvalid => Lexeme.reading_ne (.inr hInvalid) c t hScan
          rw [hToken, leftOpen?, if_pos hValid] at hLeft
          have hRest := lineTokens_run (h.skipGap.accept _) hLeft
          rw [accept_rest] at hRest
          rw [hToken]
          exact .token hGap hScan hRest
      | error fault =>
          have hToken : (l.skipGap.token (Lexeme.scan c t)).bare =
              ⟨.invalid, (Lexeme.scan c t).text, .none⟩ := by
            rw [Token.bare, token, hScan]
          rw [hToken, leftOpen?, if_neg (not_not_intro rfl)] at hLeft
          split at hLeft
          · rename_i hLast
            obtain ⟨q, hStart, rfl⟩ := Option.map_eq_some_iff.1 hLeft
            obtain ⟨u, hu⟩ := Opening.exists_of_startedBy? hStart
            have hSource : q.opener ++ (u ++ (Lexeme.scan c t).rest) = c :: t := by
              rw [← List.append_assoc, ← hu]
              exact Lexeme.source_scan c t
            -- Had it ended in the line, it would be a token.
            obtain ⟨d, v, hText, hEnds, hOpen⟩ := q.scan_opener (u ++ (Lexeme.scan c t).rest)
            obtain ⟨rfl, rfl⟩ := List.cons_eq_cons.1 (hSource.symm.trans hText)
            cases hClose : q.closeIn? (u ++ (Lexeme.scan c t).rest) with
            | some rest =>
                obtain ⟨hValid, -⟩ := hEnds rest hClose
                cases hScan.symm.trans hValid
            | none =>
                obtain ⟨fault, hWhole⟩ := hOpen hClose
                have hWholeText : (Lexeme.scan c t).text = c :: t := by rw [hWhole]
                rw [hLast, hToken, hWholeText, ← hSource]
                exact .opening (hGap.trans hSource.symm) hClose
          · cases hLeft
  termination_by l.rest.length

end Lexer

/-- What stands in a line, and what it leaves open, shows in what a reader finds that keeps comments. -/
theorem lineTokens_iff {t : Text} {ws : List Token} {left : Option Opening} :
    LineTokens t ws left ↔ (verbatimTokens t).map Token.bare = ws ∧ leftOpen? ws = some left := by
  constructor
  · intro h
    refine ⟨h.verbatimTokens_eq, ?_⟩
    induction h with
    | stop => rfl
    | @token _ u c kind _ _ _ hScan _ ih =>
        rw [leftOpen?, if_pos fun hInvalid => Lexeme.reading_ne (.inr hInvalid) c u hScan]
        exact ih
    | @opening _ u q => simp [leftOpen?, q.startedBy?_append u]
  · intro h
    obtain ⟨rfl, hLeft⟩ := h
    exact Lexer.lineTokens_run (Lexer.isVerbatim_ofSource t) hLeft

/-! ## Carriage returns -/

/-- What is a token of a text ends in its line, or the line leaves it open. -/
theorem Lexeme.isToken_or_opening {c : Char} {line ending rest : Text} (hEnd : EndsLine line ending)
    (hToken : (scan c (line ++ (ending ++ rest))).IsToken) :
    (scan c line).IsToken ∨ ∃ (q : Opening) (v : Text), c :: line = q.opener ++ v ∧ q.closeIn? v = none := by
  rcases isToken_line hEnd hToken with hClosed | ⟨v, hText, hNone⟩ | ⟨rfl, hNone⟩
  · exact .inl hClosed
  · exact .inr ⟨.comment, v, hText, by rw [Opening.closeIn?, hNone]; rfl⟩
  · refine .inr ⟨.rawString, line, rfl, ?_⟩
    rw [Opening.closeIn?]
    cases hReading : (Quoted.rawBody line).reading with
    | error fault => rfl
    | ok kind => exact absurd ⟨kind, hReading⟩ hNone

/-- A carriage return closes nothing. -/
theorem Lexeme.isToken_of_return {c : Char} {u : Text} (hFeed : '\n' ∉ u)
    (h : (scan c (u ++ ['\r'])).IsToken) : (scan c u).IsToken := by
  by_cases hLine : c = '/' ∧ u.head? = some '/'
  · obtain ⟨rfl, hHead⟩ := hLine
    obtain ⟨v, rfl⟩ := List.head?_eq_some_iff.1 hHead
    exact ⟨.comment, rfl⟩
  have hLonger : (scan c (u ++ (['\r', '\n'] ++ []))).IsToken := by
    have hNot : ¬(c = '/' ∧ (u ++ ['\r']).head? = some '/') := by
      rintro ⟨hc, hHead⟩
      cases u with
      | nil => cases hHead
      | cons d u => exact hLine ⟨hc, hHead⟩
    have hSame := scan_append_of_isToken h hNot (z := ['\n']) (by rintro _ ⟨⟩; exact isStop_lineFeed)
    rw [List.append_assoc] at hSame
    obtain ⟨kind, hKind⟩ := h
    exact ⟨kind, (congrArg reading hSame).trans hKind⟩
  refine (isToken_or_opening (.inl rfl) hLonger).resolve_right fun ⟨q, v, hText, hNone⟩ => ?_
  -- What is open in the line is open behind the carriage return.
  obtain ⟨d, x, hStart, -, hFault⟩ := q.scan_opener (v ++ ['\r'])
  obtain ⟨fault, hScan⟩ := hFault
    ((Opening.closeIn?_append_of_none hNone (by simp)).trans (by cases q <;> rfl))
  rw [← List.append_assoc, ← hText, List.cons_append] at hStart
  obtain ⟨rfl, rfl⟩ := List.cons_eq_cons.1 hStart
  obtain ⟨kind, hKind⟩ := h
  rw [hScan] at hKind
  cases hKind

namespace LineTokens

variable {line : Text} {ws : List Token} {left : Option Opening}

/-- A carriage return at the end of a line belongs to its last token at most. -/
theorem of_return (h : LineTokens (line ++ ['\r']) ws left) (hFeed : '\n' ∉ line) :
    ∃ ws', LineTokens line ws' left ∧ ws'.map Token.kind = ws.map Token.kind := by
  generalize hText : line ++ ['\r'] = t at h
  have hBlank {u : Text} {c : Char} {line : Text} (hGap : (Lexer.splitGap false (line ++ ['\r'])).2 = c :: u) :
      ∃ x, (Lexer.splitGap false line).2 = c :: x ∧ u = x ++ ['\r'] := by
    cases hLine : (Lexer.splitGap false line).2 with
    | nil =>
        rw [Lexer.splitGap_append_of_nil hLine (by simp)] at hGap
        cases hGap
    | cons d x =>
        rw [Lexer.splitGap_append_of_cons hLine] at hGap
        obtain ⟨rfl, rfl⟩ := List.cons_eq_cons.1 hGap
        exact ⟨x, rfl, rfl⟩
  induction h generalizing line with
  | stop hGap =>
      subst hText
      refine ⟨[], .stop ?_, rfl⟩
      cases hLine : (Lexer.splitGap false line).2 with
      | nil => rfl
      | cons c u =>
          rw [Lexer.splitGap_append_of_cons hLine] at hGap
          cases hGap
  | @token t u c kind ws left hGap hScan hRest ih =>
      subst hText
      obtain ⟨x, hLine, rfl⟩ := hBlank hGap
      have hPart : x <:+ line := (List.suffix_cons c x).trans (Lexer.suffix_of_splitGap hLine)
      have hx : '\n' ∉ x := fun hMem => hFeed (hPart.subset hMem)
      have hToken := Lexeme.isToken_of_return hx ⟨kind, hScan⟩
      by_cases hComment : c = '/' ∧ x.head? = some '/'
      · obtain ⟨rfl, hHead⟩ := hComment
        obtain ⟨v, rfl⟩ := List.head?_eq_some_iff.1 hHead
        have hv : '\n' ∉ v := fun hMem => hx (List.mem_cons_of_mem _ hMem)
        cases hScan
        have hNil : (Comment.line (v ++ ['\r'])).rest = (Comment.line v).rest := by
          rw [Comment.line, Comment.line, Comment.splitLine_eq_self hv,
            Comment.splitLine_eq_self (by simpa using hv)]
        change LineTokens (Comment.line (v ++ ['\r'])).rest ws left at hRest
        rw [hNil] at hRest
        exact ⟨_, .token hLine rfl hRest, rfl⟩
      · have hSame := Lexeme.scan_append_of_isToken hToken hComment (z := ['\r'])
          (by rintro _ ⟨⟩; exact Lexeme.isStop_return)
        rw [hSame] at hScan
        have hRestFeed : '\n' ∉ (Lexeme.scan c x).rest := fun hMem =>
          hx ((Lexeme.rest_scan_suffix c x).subset hMem)
        have hRestText : (Lexeme.scan c x).rest ++ ['\r'] = (Lexeme.scan c (x ++ ['\r'])).rest := by
          rw [hSame]
          rfl
        obtain ⟨ws', hWs, hKinds⟩ := ih hRestFeed hRestText
        exact ⟨_, .token hLine hScan hWs, by rw [List.map_cons, List.map_cons, hKinds]⟩
  | @opening t u q hGap hOpen =>
      subst hText
      obtain ⟨c, v, hStart, -, -⟩ := q.scan_opener u
      obtain ⟨x, hLine, rfl⟩ := hBlank (hGap.trans hStart)
      obtain ⟨u, rfl⟩ : ∃ u', u = u' ++ ['\r'] := by
        rcases List.eq_nil_or_concat u with rfl | ⟨u', d, rfl⟩
        · have hLast := congrArg List.getLast? hStart
          rw [← List.cons_append, List.getLast?_concat] at hLast
          cases q <;> cases hLast
        · refine ⟨u', ?_⟩
          rw [List.concat_eq_append, ← List.append_assoc, ← List.cons_append] at hStart
          obtain ⟨-, hLast⟩ := List.append_inj' hStart rfl
          rw [List.concat_eq_append, hLast]
      rw [← List.append_assoc, ← List.cons_append] at hStart
      obtain ⟨hText, -⟩ := List.append_inj' hStart rfl
      refine ⟨_, .opening (hLine.trans hText.symm) ?_, rfl⟩
      by_contra hSome
      obtain ⟨rest, hRest⟩ := Option.ne_none_iff_exists'.1 hSome
      rw [Opening.closeIn?_append_of_some hRest] at hOpen
      cases hOpen

/-- Without the carriage returns at its end a line has tokens of the same kinds. -/
theorem exists_chop (h : LineTokens line ws left) (hFeed : '\n' ∉ line) :
    ∃ ws', LineTokens (chop line) ws' left ∧ ws'.map Token.kind = ws.map Token.kind := by
  induction line using List.reverseRecOn generalizing ws with
  | nil => exact ⟨ws, h, rfl⟩
  | append_singleton line c ih =>
      have hLine : '\n' ∉ line := fun hMem => hFeed (List.mem_append_left _ hMem)
      by_cases hc : c = '\r'
      · subst hc
        obtain ⟨us, hUs, hKinds⟩ := h.of_return hLine
        obtain ⟨ws', hWs, hSame⟩ := ih hUs hLine
        have hChop : chop (line ++ ['\r']) = chop line := by
          simp [chop, dropEndWhile, isLineEnd]
        exact ⟨ws', hChop ▸ hWs, hSame.trans hKinds⟩
      · refine ⟨ws, ?_, rfl⟩
        rw [chop_eq_self]
        · exact h
        · intro d hd
          obtain rfl : c = d := by simpa using hd
          have hNot : c ≠ '\n' := by
            rintro rfl
            exact hFeed (by simp)
          simp [isLineEnd, hc, hNot]

end LineTokens

end GoTemplate
