import GoTemplate.Proofs.Lexical.BareSteps
import GoTemplate.Proofs.Lexical.Tiling
import GoTemplate.Proofs.Lexical.TokenReach

/-!
Stretches of a source. The stretch from the start of one token to the end of a later one is covered by
the span that their spans make together, and by itself it has the same tokens.
-/

namespace GoTemplate

/-! ## Gaps -/

namespace Lexer

/-- Behind a gap any text may stand that starts like the one behind it. -/
theorem splitGap_cut {due : Bool} {t u : Text} {c : Char} (h : (splitGap due t).2 = c :: u)
    (hMark : c ≠ '\uFEFF') (v : Text) : (splitGap due ((splitGap due t).1 ++ c :: v)).2 = c :: v := by
  have hStop : isGap due c = false := by
    have hHead := List.head?_dropWhile_not (isGap due) (dropMark t)
    rw [← splitGap_snd, h] at hHead
    exact hHead
  have hSkip (w : Text) : (w.takeWhile (isGap due) ++ c :: v).dropWhile (isGap due) = c :: v := by
    rw [List.dropWhile_append_of_pos fun _ => List.mem_takeWhile_imp, List.dropWhile_cons, hStop]
    rfl
  by_cases hFirst : t.head? = some '\uFEFF'
  · obtain ⟨w, rfl⟩ := List.head?_eq_some_iff.1 hFirst
    exact hSkip w
  · have hBlanks : (splitGap due t).1 = t.takeWhile (isGap due) := by
      unfold splitGap
      split
      · exact absurd rfl hFirst
      · rfl
    rw [hBlanks, splitGap_snd, dropMark, if_neg, hSkip]
    intro hHead
    rw [List.head?_append] at hHead
    cases hTake : t.takeWhile (isGap due) with
    | nil =>
        rw [hTake] at hHead
        exact hMark (Option.some.inj hHead)
    | cons d w =>
        rw [hTake] at hHead
        obtain rfl : d = '\uFEFF' := Option.some.inj hHead
        have hBlank : isGap due '\uFEFF' = true :=
          (List.mem_takeWhile_imp (p := isGap due) (hTake ▸ List.mem_cons_self) :)
        rw [isGap] at hBlank
        cases hBlank

end Lexer

/-- On one line a line comment leaves nothing. -/
theorem Comment.splitLine_snd_eq_nil {t : Text} (hFeed : '\n' ∉ t) : (splitLine t).2 = [] := by
  rw [← splitLine_append t, List.mem_append, not_or] at hFeed
  rcases splitLine_snd t with hNil | ⟨u, hRest | hRest⟩
  · exact hNil
  · exact absurd (hRest ▸ List.mem_cons_self) hFeed.2
  · exact absurd (hRest ▸ List.mem_cons_of_mem _ List.mem_cons_self) hFeed.2

/-- On one line, what is behind a gap is read behind it. -/
theorem Skips.bareTokens {due : Bool} {t gap rest u v : Text} {c : Char} {ws : List Token}
    (h : Skips .statements due t gap rest) (hRest : rest = c :: u) (hMark : c ≠ '\uFEFF')
    (hFeed : '\n' ∉ t) (hGap : (Lexer.splitGap due (c :: v)).2 = c :: v)
    (hTokens : BareTokens due (c :: v) ws) : BareTokens due (gap ++ c :: v) ws := by
  induction h with
  | stop => exact hTokens.of_splitGap ((Lexer.splitGap_cut hRest hMark v).trans hGap.symm)
  | @comment t u₀ gap rest c₀ hSplit hGoesOn hScan _ hSkips ih =>
      have hFeed' : '\n' ∉ (Lexer.splitGap due t).2 := fun hMem =>
        hFeed (Lexer.splitGap_append due t ▸ List.mem_append_right _ hMem)
      rw [hSplit] at hFeed'
      obtain ⟨rfl, ⟨w, rfl, hLine⟩ | ⟨w, body, r, rfl, hClose, hBlock⟩⟩ := Lexeme.scan_of_comment hScan
      · -- A line comment would leave nothing on the line.
        have hNothing : (Comment.line w).rest = [] :=
          Comment.splitLine_snd_eq_nil fun hMem => hFeed' (by simp [hMem])
        rw [hLine, hNothing] at hSkips
        cases hRest.symm.trans (List.append_eq_nil_iff.1 hSkips.append_eq).2
      · have hClose' := Comment.splitClose?_append_of_some (Comment.splitClose?_self hClose) (gap ++ c :: v)
        have hScan' : Lexeme.scan '/' ('*' :: (body ++ (gap ++ c :: v))) =
            ⟨.ok .comment, '/' :: '*' :: body, gap ++ c :: v⟩ := by
          change Comment.block _ = _
          rw [Comment.block, hClose']
          rfl
        have hGoesOn' : (due && Comment.lineEnds ('/' :: '*' :: (body ++ (gap ++ c :: v)))) = false := by
          rw [Comment.lineEnds, hClose']
          rwa [Comment.lineEnds, hClose] at hGoesOn
        have hLater : BareTokens due (gap ++ c :: v) ws := by
          refine ih hRest fun hMem => ?_
          rw [hBlock] at hMem
          rw [← Comment.splitClose?_append hClose] at hFeed'
          have hLater : '\n' ∈ r := hMem
          exact hFeed' (by simp [hLater])
        have hBehind : BareTokens due (Lexeme.scan '/' ('*' :: (body ++ (gap ++ c :: v)))).rest ws := by
          rw [hScan']
          exact hLater
        rw [hBlock, List.append_assoc, List.append_assoc]
        exact .comment (Lexer.splitGap_cut hSplit (by decide) _) hGoesOn' (congrArg Lexeme.reading hScan')
          hBehind

/-! ## Tokens -/

/-- A reader that finds `t` behind a gap and is then `m`. -/
structure Lexer.Finds (l : Lexer) (gap : Text) (t : Token) (m : Lexer) : Prop where
  rest_eq : l.rest = gap ++ (t.lexeme ++ m.rest)
  place : t.span = .startingAt (l.position.after gap) t.lexeme.byteSize
  position_eq : m.position = (l.position.after gap).after t.lexeme
  /-- The token is found, whether a semicolon is due or not, where the text is cut off later. -/
  token : ∀ {z y : Text} {ws : List Token} (due : Bool), m.rest = z ++ y → SparesEllipsis z y →
    BareTokens m.semicolonDue z ws → BareTokens due (t.lexeme ++ z) (t.bare :: ws)
  behindGap : ∀ {z : Text} {ws : List Token}, BareTokens l.semicolonDue (t.lexeme ++ z) ws →
    BareTokens l.semicolonDue (gap ++ (t.lexeme ++ z)) ws
  spares : ∀ {z y : Text}, m.rest = z ++ y → SparesEllipsis (t.lexeme ++ z) y ∧
    SparesEllipsis (gap ++ (t.lexeme ++ z)) y

theorem Lexeme.text_scan_ellipsis (t : Text) : (scan '.' ('.' :: '.' :: t)).text = "...".toList := rfl

namespace Skips

variable {due : Bool} {t gap rest : Text}

theorem stops (h : Skips .statements due t gap rest) : (due && Comment.lineEnds rest) = true ∨
    ∀ c u, rest = c :: u → (Lexeme.scan c u).reading ≠ .ok .comment := by
  induction h with
  | stop hStop => exact hStop.imp_right fun h c u hRest hScan => by cases h c u hRest hScan
  | comment _ _ _ _ _ ih => exact ih

/-- No gap starts with a point. -/
theorem gap_eq_nil (h : Skips .statements due t gap rest) (hPoint : t.head? = some '.') : gap = [] := by
  obtain ⟨u, rfl⟩ := List.head?_eq_some_iff.1 hPoint
  have hSplit : Lexer.splitGap due ('.' :: u) = ([], '.' :: u) := by cases due <;> rfl
  cases h with
  | stop => rw [hSplit]
  | comment hGap _ hScan =>
      rw [hSplit] at hGap
      obtain ⟨rfl, -⟩ := List.cons_eq_cons.1 hGap
      cases (Lexeme.scan_of_comment hScan).1

end Skips

/-- What is behind an ellipsis spares it. -/
theorem sparesEllipsis_of_scan {c : Char} {u v z y : Text} (hText : (Lexeme.scan c u).text = c :: v)
    (hRest : (Lexeme.scan c u).rest = z ++ y) : SparesEllipsis (c :: v ++ z) y := by
  have hSource : c :: v ++ (z ++ y) = c :: u := by
    rw [← hText, ← hRest]
    exact Lexeme.source_scan c u
  intro hDots
  rw [List.append_assoc, hSource] at hDots
  obtain ⟨w, hw⟩ := List.isPrefixOf_iff_prefix.1 hDots
  have hPoints : '.' :: '.' :: '.' :: w = c :: u := hw
  obtain ⟨rfl, rfl⟩ := List.cons_eq_cons.1 hPoints
  refine .inr (List.isPrefixOf_iff_prefix.2 ?_)
  rw [← hText, Lexeme.text_scan_ellipsis]
  exact List.prefix_append _ z

namespace Lexer

/-- What is found at a place is an automatic semicolon, the end of the source, or stands there. -/
theorem nextHere_cases (l : Lexer) : l.nextHere.1.isAutomatic = true ∨
    l.nextHere.1.kind = .endOfSource ∨ ∃ c u, l.rest = c :: u ∧
      (l.semicolonDue && Comment.lineEnds (c :: u)) = false ∧
      l.nextHere = (l.token (Lexeme.scan c u), l.accept (Lexeme.scan c u)) := by
  by_cases hDue : (l.semicolonDue && Comment.lineEnds l.rest) = true
  · rw [nextHere, if_pos hDue]
    exact .inl rfl
  · rw [nextHere, if_neg hDue]
    cases hRest : l.rest with
    | nil => exact .inr (.inl rfl)
    | cons c u => exact .inr (.inr ⟨c, u, rfl, by rwa [hRest, Bool.not_eq_true] at hDue, rfl⟩)

/-- What is found and is no automatic semicolon and not the end is a token behind a gap. -/
theorem exists_skips_token {l : Lexer} (hMode : l.mode = .statements) (hErrors : l.next.2.errors = [])
    (hEnd : l.next.1.kind ≠ .endOfSource) (hAutomatic : l.next.1.isAutomatic = false) :
    ∃ gap c u kind, Skips .statements l.semicolonDue l.rest gap (c :: u) ∧
      (Lexeme.scan c u).reading = .ok kind ∧ kind ≠ .comment ∧ l.next =
        ((l.moveOn gap (c :: u)).token (Lexeme.scan c u), (l.moveOn gap (c :: u)).accept (Lexeme.scan c u)) := by
  obtain ⟨gap, rest, hSkips, hNext⟩ := l.exists_skips
  rw [hMode] at hSkips
  rw [hNext] at hErrors hEnd hAutomatic ⊢
  obtain hSame | hSame | ⟨c, u, hRest, hGoesOn, hSame⟩ := (l.moveOn gap rest).nextHere_cases
  · rw [hSame] at hAutomatic
    cases hAutomatic
  · exact absurd hSame hEnd
  obtain rfl : rest = c :: u := hRest
  change (l.semicolonDue && Comment.lineEnds (c :: u)) = false at hGoesOn
  cases hReading : (Lexeme.scan c u).reading with
  | error fault =>
      rw [hSame, accept, hReading] at hErrors
      exact absurd hErrors (List.append_ne_nil_of_right_ne_nil _ (List.cons_ne_nil _ _))
  | ok kind =>
      refine ⟨gap, c, u, kind, hSkips, hReading, ?_, hSame⟩
      rintro rfl
      rcases hSkips.stops with hEnds | hToken
      · rw [hEnds] at hGoesOn
        cases hGoesOn
      · exact hToken c u rfl hReading

/-- On one line a token behind a gap is found wherever the text is cut off later. -/
theorem finds_of_skips {l : Lexer} {gap u : Text} {c : Char} {kind : TokenKind} (hMode : l.mode = .statements)
    (hFeed : '\n' ∉ l.rest) (hSkips : Skips .statements l.semicolonDue l.rest gap (c :: u))
    (hReading : (Lexeme.scan c u).reading = .ok kind) (hKind : kind ≠ .comment) :
    l.Finds gap ((l.moveOn gap (c :: u)).token (Lexeme.scan c u))
      ((l.moveOn gap (c :: u)).accept (Lexeme.scan c u)) := by
  obtain ⟨v, hText, hSource⟩ := Lexeme.exists_text_scan c u
  have hToken : (l.moveOn gap (c :: u)).token (Lexeme.scan c u) =
      ⟨kind, c :: v, .startingAt (l.position.after gap) (Text.byteSize (c :: v))⟩ := by
    rw [token, hReading, hText]
    rfl
  have hDue : ((l.moveOn gap (c :: u)).accept (Lexeme.scan c u)).semicolonDue = kind.endsStatement := by
    rw [accept_semicolonDue_of_ok hReading hKind]
    change (l.mode.semicolons && _) = _
    rw [hMode]
    rfl
  have hSpells : Lexeme.Spells kind (c :: v) := hText ▸ Lexeme.spells_scan hReading
  have hMark : c ≠ '\uFEFF' := by
    rintro rfl
    exact Lexeme.not_isToken_mark u ⟨kind, hReading⟩
  rw [hToken]
  exact {
    rest_eq := by
      rw [accept_rest, ← hSkips.append_eq]
      exact congrArg (fun behind => gap ++ c :: behind) hSource.symm
    place := rfl
    position_eq := by
      rw [accept_position, hText]
      rfl
    token := by
      intro z y ws due hRest hSpares hTokens
      rw [accept_rest] at hRest
      rw [hDue] at hTokens
      have hScan : Lexeme.scan c (v ++ (z ++ y)) = ⟨.ok kind, c :: v, z ++ y⟩ := by
        rw [← hRest, hSource, ← hReading, ← hText]
      have hCut := Lexeme.scan_cut hSpares hKind hScan
      refine (BareTokens.token_iff (hSpells.splitGap due (v ++ z)) (by rw [hCut]) hKind).2 ?_
      rw [hCut]
      exact ⟨ws, hTokens, rfl⟩
    behindGap := fun hTokens => hSkips.bareTokens rfl hMark hFeed (hSpells.splitGap _ _) hTokens
    spares := by
      intro z y hRest
      rw [accept_rest] at hRest
      have hSpares := sparesEllipsis_of_scan hText hRest
      refine ⟨hSpares, fun hDots => ?_⟩
      -- Three points in front of the cut start with the token, not with the gap.
      obtain rfl : gap = [] := by
        refine hSkips.gap_eq_nil ?_
        obtain ⟨w, hw⟩ := List.isPrefixOf_iff_prefix.1 hDots
        have hFront : gap ++ (c :: v ++ z) ++ y = '.' :: '.' :: '.' :: w := hw.symm
        have hWhole : l.rest = gap ++ (c :: v ++ z) ++ y := by
          rw [← hSkips.append_eq, ← hSource, hRest]
          simp
        rw [hWhole, hFront]
        rfl
      exact hSpares hDots }

theorem exists_finds {l : Lexer} (hMode : l.mode = .statements) (hErrors : l.next.2.errors = [])
    (hEnd : l.next.1.kind ≠ .endOfSource) (hAutomatic : l.next.1.isAutomatic = false)
    (hFeed : '\n' ∉ l.rest) : ∃ gap, l.Finds gap l.next.1 l.next.2 := by
  obtain ⟨gap, c, u, kind, hSkips, hReading, hKind, hNext⟩ := exists_skips_token hMode hErrors hEnd hAutomatic
  rw [hNext]
  exact ⟨gap, finds_of_skips hMode hFeed hSkips hReading hKind⟩

end Lexer

/-! ## Automatic semicolons -/

namespace BareTokens

variable {due : Bool} {t : Text} {ws : List Token}

theorem eq_nil_of_nil (h : BareTokens false [] ws) : ws = [] := by
  cases h with
  | stop => rfl
  | comment hGap => cases hGap
  | token hGap => cases hGap

/-- Where a line ends and no other follows, there are no tokens. -/
theorem eq_nil_of_lineEnds (h : BareTokens false t ws) (hEnds : Comment.lineEnds t = true)
    (hFeed : '\n' ∉ t) : ws = [] := by
  rcases Comment.of_lineEnds hEnds with rfl | ⟨u, rfl⟩ | ⟨u, rfl⟩ | ⟨u, rfl, hClose⟩
  · exact h.eq_nil_of_nil
  · exact absurd List.mem_cons_self hFeed
  · have hGap := congrArg Prod.snd (Lexer.splitGap_slash false ('/' :: u))
    have hRest : BareTokens false (Comment.splitLine u).2 ws := (comment_iff hGap rfl).1 h
    rw [Comment.splitLine_snd_eq_nil fun hMem => hFeed (by simp [hMem])] at hRest
    exact hRest.eq_nil_of_nil
  · obtain ⟨kind, hKind⟩ := h.isToken_of_slash (congrArg Prod.snd (Lexer.splitGap_slash false ('*' :: u)))
    change (Comment.block u).reading = _ at hKind
    cases hSplit : Comment.splitClose? u with
    | none =>
        rw [Comment.block, hSplit] at hKind
        cases hKind
    | some split =>
        have hMem : '\n' ∈ u := Comment.splitClose?_append hSplit ▸
          List.mem_append_left _ (hClose split hSplit)
        exact absurd (List.mem_cons_of_mem _ (List.mem_cons_of_mem _ hMem)) hFeed

/-- On one line nothing follows on an automatic semicolon. -/
theorem eq_nil_of_automatic (h : BareTokens due t ws) (hFeed : '\n' ∉ t) {us vs : List Token} {w : Token}
    (hTokens : ws = us ++ w :: vs) (hAutomatic : w.isAutomatic = true) : vs = [] := by
  have hRest {due : Bool} {t u : Text} {c : Char} (hFeed : '\n' ∉ t)
      (hGap : (Lexer.splitGap due t).2 = c :: u) : '\n' ∉ (Lexeme.scan c u).rest := by
    intro hMem
    refine hFeed (Lexer.splitGap_append due t ▸ List.mem_append_right _ ?_)
    rw [hGap, ← Lexeme.source_scan c u]
    exact List.mem_append_right _ hMem
  induction h generalizing us with
  | stop => cases us <;> cases hTokens
  | @semicolon t u ws hGap hEnds hBehind =>
      have hFeed' : '\n' ∉ u := fun hMem =>
        hFeed (Lexer.splitGap_append true t ▸ List.mem_append_right _ (hGap ▸ hMem))
      rw [if_neg fun hHead : u.head? = some '\n' => hFeed' (List.mem_of_mem_head? hHead)] at hBehind
      obtain rfl := hBehind.eq_nil_of_lineEnds hEnds hFeed'
      cases us with
      | nil => exact (List.cons_eq_cons.1 hTokens).2.symm
      | cons _ us => cases us <;> cases hTokens
  | comment hGap _ _ _ ih => exact ih (hRest hFeed hGap) hTokens
  | @token _ _ u c _ _ hGap _ hScan _ _ ih =>
      cases us with
      | nil =>
          obtain ⟨rfl, -⟩ := List.cons_eq_cons.1 hTokens
          rw [Token.isAutomatic, Bool.and_eq_true, beq_iff_eq, beq_iff_eq] at hAutomatic
          have hText : (Lexeme.scan c u).text = ['\n'] := hAutomatic.2
          have hSpells := Lexeme.spells_scan hScan
          rw [hText] at hSpells
          exact absurd ⟨_, congrArg Lexeme.reading hSpells⟩ (Lexeme.not_isToken_of_isBlank rfl [])
      | cons _ us => exact ih (hRest hFeed hGap) (List.cons_eq_cons.1 hTokens).2

end BareTokens

/-! ## Stretches -/

/-- Behind `before` the text reaches from the start of the first of the tokens to the end of the last one.
By itself it has these tokens, and perhaps an automatic semicolon behind them. -/
structure IsStretch (before : Text) (us : List Token) (text : Text) : Prop where
  first : ∃ t others behind, us = t :: others ∧ t.StandsAfter before ∧ text = t.source ++ behind
  last : ∃ others t front, us = others ++ [t] ∧ t.StandsAfter (before ++ front) ∧ text = front ++ t.source
  tokens : ∃ tail, (tail = [] ∨ tail = [.automatic]) ∧
    ∀ due, BareTokens due text (us.map Token.bare ++ tail)

/-- The spans of the first and the last token make up the span of the stretch. -/
theorem IsStretch.merge_span {before text : Text} {us : List Token} {t u : Token}
    (h : IsStretch before us text) (hFeed : '\n' ∉ text) (hFirst : us.head? = some t)
    (hLast : us.getLast? = some u) : t.span.merge u.span = .startingAt (.atEnd before) text.byteSize := by
  obtain ⟨_, others, behind, rfl, ht, hText⟩ := h.first
  obtain ⟨others', _, front, hSplit, hu, hText'⟩ := h.last
  obtain rfl := Option.some.inj hFirst
  rw [hSplit, List.getLast?_concat] at hLast
  obtain rfl := Option.some.inj hLast
  have hFront : '\n' ∉ front := fun hMem => hFeed (hText' ▸ List.mem_append_left _ hMem)
  have hSize := congrArg Text.byteSize hText
  have hSize' := congrArg Text.byteSize hText'
  rw [Text.byteSize_append] at hSize hSize'
  rw [ht, hu, Span.merge, Span.startingAt, Span.startingAt, Position.atEnd_line_append,
    Position.atEnd_col_append hFront, List.count_eq_zero_of_not_mem hFront]
  simp only [Nat.add_zero, if_true, Span.startingAt]
  congr 1 <;> omega

namespace Lexer.Finds

variable {l m : Lexer} {gap before : Text} {t : Token}

variable (h : l.Finds gap t m) (hPosition : l.position = .atEnd before) (hAutomatic : t.isAutomatic = false)

include h hPosition hAutomatic

theorem standsAfter : t.StandsAfter (before ++ gap) := by
  rw [Token.StandsAfter, Token.source_of_not_automatic hAutomatic, h.place, hPosition, Position.after_atEnd]

/-- A token is a stretch. -/
theorem isStretch : IsStretch (before ++ gap) [t] t.lexeme where
  first := by
    refine ⟨t, [], [], rfl, h.standsAfter hPosition hAutomatic, ?_⟩
    rw [Token.source_of_not_automatic hAutomatic, List.append_nil]
  last := by
    have hStands := h.standsAfter hPosition hAutomatic
    refine ⟨[], t, [], rfl, by rwa [List.append_nil], ?_⟩
    rw [Token.source_of_not_automatic hAutomatic, List.nil_append]
  tokens := by
    obtain ⟨tail, hTail, hEmpty⟩ : ∃ tail, (tail = [] ∨ tail = [.automatic]) ∧
        BareTokens m.semicolonDue [] tail := by
      cases m.semicolonDue with
      | false => exact ⟨[], .inl rfl, .stop rfl⟩
      | true => exact ⟨[.automatic], .inr rfl, .semicolon rfl rfl (.stop rfl)⟩
    refine ⟨tail, hTail, fun due => ?_⟩
    have hToken := h.token due rfl (fun _ => .inl rfl) hEmpty
    rwa [List.append_nil] at hToken

/-- A token, a gap and a stretch make up a stretch. -/
theorem isStretch_cons {us : List Token} {gap' text behind : Text} (hRest : m.rest = gap' ++ text ++ behind)
    (hStretch : IsStretch (before ++ gap ++ t.lexeme ++ gap') us text)
    (hSpares : SparesEllipsis (gap' ++ text) behind)
    (hGap : ∀ ws, BareTokens m.semicolonDue text ws → BareTokens m.semicolonDue (gap' ++ text) ws) :
    IsStretch (before ++ gap) (t :: us) (t.lexeme ++ (gap' ++ text)) where
  first := by
    refine ⟨t, us, gap' ++ text, rfl, h.standsAfter hPosition hAutomatic, ?_⟩
    rw [Token.source_of_not_automatic hAutomatic]
  last := by
    obtain ⟨others, w, front, hSplit, hw, hText⟩ := hStretch.last
    refine ⟨t :: others, w, t.lexeme ++ (gap' ++ front), by rw [hSplit]; rfl, ?_, ?_⟩
    · simpa only [List.append_assoc] using hw
    · rw [hText]
      simp only [List.append_assoc]
  tokens := by
    obtain ⟨tail, hTail, hAll⟩ := hStretch.tokens
    exact ⟨tail, hTail, fun due => h.token due hRest hSpares (hGap _ (hAll _))⟩

end Lexer.Finds

namespace Lexer

theorem run_cons {l : Lexer} {t : Token} {ts : List Token} (h : l.run.tokens = t :: ts) :
    l.next.1.kind ≠ .endOfSource ∧ l.next.1 = t ∧ l.next.2.run.tokens = ts ∧
      l.next.2.run.after = l.run.after := by
  rw [run_eq l] at h
  split at h
  · cases h
  · rename_i hEnd
    obtain ⟨hToken, hRest⟩ := List.cons_eq_cons.1 h
    rw [run_eq l, if_neg hEnd]
    exact ⟨hEnd, hToken, hRest, rfl⟩

/-- The reader that some tokens leave. -/
theorem exists_run_append {bs us : List Token} {l : Lexer} {before : Text}
    (hPosition : l.position = .atEnd before) (h : l.run.tokens = bs ++ us) :
    ∃ (m : Lexer) (front : Text), m.mode = l.mode ∧ m.run.tokens = us ∧ m.run.after = l.run.after ∧
      l.rest = front ++ m.rest ∧ m.position = .atEnd (before ++ front) := by
  induction bs generalizing l before with
  | nil => exact ⟨l, [], rfl, h, rfl, rfl, by rw [List.append_nil, hPosition]⟩
  | cons b bs ih =>
      obtain ⟨-, -, hTokens, hAfter⟩ := run_cons h
      obtain ⟨gap, used, -, -, hRest, -, hNext⟩ := l.exists_next
      rw [hPosition, Position.after_atEnd, Position.after_atEnd, Position.after_atEnd] at hNext
      obtain ⟨m, front, hMode, hm, hSame, hFront, hPlace⟩ := ih hNext hTokens
      refine ⟨m, gap ++ (l.next.1.source ++ (used ++ front)), hMode.trans l.next_mode, hm,
        hSame.trans hAfter, ?_, ?_⟩
      · rw [hRest, hFront]
        simp only [List.append_assoc]
      · rw [hPlace]
        simp only [List.append_assoc]

/-- On one line tokens in a row make up a stretch, with a gap in front of it. -/
theorem exists_isStretch {us vs : List Token} {l : Lexer} {before : Text} (hMode : l.mode = .statements)
    (hPosition : l.position = .atEnd before) (hFeed : '\n' ∉ l.rest) (hErrors : l.run.after.errors = [])
    (hTokens : l.run.tokens = us ++ vs) (hNe : us ≠ []) (hAutomatic : ∀ t ∈ us, t.isAutomatic = false) :
    ∃ gap text behind, l.rest = gap ++ (text ++ behind) ∧ IsStretch (before ++ gap) us text ∧
      SparesEllipsis (gap ++ text) behind ∧
      ∀ ws, BareTokens l.semicolonDue text ws → BareTokens l.semicolonDue (gap ++ text) ws := by
  induction us generalizing l before with
  | nil => exact absurd rfl hNe
  | cons t us ih =>
      obtain ⟨hEnd, rfl, hRest, hAfter⟩ := run_cons hTokens
      obtain ⟨ht, hOthers⟩ := List.forall_mem_cons.1 hAutomatic
      have hNextMode : l.next.2.mode = .statements := l.next_mode.trans hMode
      have hNextErrors : l.next.2.run.after.errors = [] := hAfter ▸ hErrors
      obtain ⟨gap, hFinds⟩ :=
        exists_finds hMode (bareTokens_run hNextMode hNextErrors).1 hEnd ht hFeed
      cases us with
      | nil =>
          refine ⟨gap, l.next.1.lexeme, l.next.2.rest, hFinds.rest_eq, hFinds.isStretch hPosition ht, ?_, ?_⟩
          · have hSpares := (hFinds.spares (z := []) rfl).2
            rwa [List.append_nil] at hSpares
          · intro ws hText
            have hGap := hFinds.behindGap (z := []) (by rwa [List.append_nil])
            rwa [List.append_nil] at hGap
      | cons u us =>
          have hPlace : l.next.2.position = .atEnd (before ++ gap ++ l.next.1.lexeme) := by
            rw [hFinds.position_eq, hPosition, Position.after_atEnd, Position.after_atEnd]
          have hFeed' : '\n' ∉ l.next.2.rest := fun hMem =>
            hFeed (hFinds.rest_eq ▸ by simp [hMem])
          obtain ⟨gap', text, behind, hNext, hStretch, hSpares, hGap⟩ :=
            ih hNextMode hPlace hFeed' hNextErrors hRest (List.cons_ne_nil u us) hOthers
          rw [← List.append_assoc] at hNext
          refine ⟨gap, l.next.1.lexeme ++ (gap' ++ text), behind, ?_,
            hFinds.isStretch_cons hPosition ht hNext hStretch hSpares hGap, (hFinds.spares hNext).2,
            fun ws => hFinds.behindGap⟩
          rw [hFinds.rest_eq, hNext]
          simp only [List.append_assoc]

end Lexer

/-- On one line, tokens in a row the last of which is no semicolon make up a stretch of the source. -/
theorem Lexer.exists_isStretch_of_run {source : Text} (hFeed : '\n' ∉ source)
    (hErrors : (ofSource .statements source).run.after.errors = []) {bs us vs : List Token}
    (hTokens : (ofSource .statements source).run.tokens = bs ++ (us ++ vs)) (hNe : us ≠ [])
    (hLast : ∀ t, us.getLast? = some t → t.kind ≠ .semicolon) :
    ∃ before text behind, source = before ++ (text ++ behind) ∧ IsStretch before us text := by
  have hAutomatic : ∀ t ∈ us, t.isAutomatic = false := by
    intro t ht
    rw [Bool.eq_false_iff]
    intro hSemicolon
    obtain ⟨front, behind, rfl⟩ := List.append_of_mem ht
    obtain ⟨-, hBare⟩ := bareTokens_run (l := ofSource .statements source) rfl hErrors
    have hWhole : (ofSource .statements source).run.tokens.map Token.bare =
        (bs ++ front).map Token.bare ++ t.bare :: (behind ++ vs).map Token.bare := by
      rw [hTokens]
      simp
    have hNothing := hBare.eq_nil_of_automatic hFeed hWhole hSemicolon
    obtain rfl : behind = [] := by simpa using (List.append_eq_nil_iff.1 (List.map_eq_nil_iff.1 hNothing)).1
    refine hLast t List.getLast?_concat ?_
    rw [Token.isAutomatic, Bool.and_eq_true, beq_iff_eq] at hSemicolon
    exact hSemicolon.1
  have hStart : (ofSource .statements source).position = .atEnd [] := rfl
  obtain ⟨m, front, hMode, hRun, hAfter, hFront, hPlace⟩ := exists_run_append hStart hTokens
  have hSource : source = front ++ m.rest := hFront
  obtain ⟨gap, text, behind, hRest, hStretch, -⟩ :=
    exists_isStretch hMode hPlace (fun hMem => hFeed (hSource ▸ List.mem_append_right _ hMem))
      (hAfter ▸ hErrors) hRun hNe hAutomatic
  refine ⟨front ++ gap, text, behind, ?_, hStretch⟩
  rw [hSource, hRest, List.append_assoc]

end GoTemplate
