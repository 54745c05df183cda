import GoTemplate.Proofs.Lexical.BareSteps
import GoTemplate.Proofs.Lexical.LineEnds
import GoTemplate.Proofs.Template.RewrittenLines

/-!
A line with single spaces in the place of its white space. Where its tokens, comments apart, hold no
other white space than single spaces, what a grammar reads in it and behind it stays the same.
-/

namespace GoTemplate

open Text (collapse trimEnd EndsLine)

/-! ## Single spaces -/

namespace Text

open Unicode (isWhiteSpace)

section

variable {s : Text} {c : Char} (hLast : s.getLast? = some c) (hc : isWhiteSpace c = false)

include hLast hc

theorem trimEnd_append (t : Text) : trimEnd (s ++ t) = s ++ trimEnd t := by
  induction s with
  | nil => cases hLast
  | cons d s ih =>
      cases s with
      | nil =>
          obtain rfl : d = c := by simpa using hLast
          exact trimEnd_cons_of_not hc t
      | cons e s =>
          rw [List.cons_append, trimEnd_cons, ih (by simpa using hLast), if_neg (fun h => by cases h.1)]
          rfl

theorem collapse_append (t : Text) : collapse (s ++ t) = collapse s ++ collapse t := by
  induction s with
  | nil => cases hLast
  | cons d s ih =>
      cases s with
      | nil =>
          obtain rfl : d = c := by simpa using hLast
          rw [List.singleton_append, collapse_cons_of_not hc, collapse_cons_of_not hc]
          rfl
      | cons e s =>
          have hStep (u : Text) : collapse (d :: e :: u) =
              (if isWhiteSpace d then if isWhiteSpace e then [] else [' '] else [d]) ++ collapse (e :: u) := by
            rw [collapse, List.head?_cons, Option.any_some]
            split
            · split
              · rfl
              · rfl
            · rfl
          have hLater := ih (by simpa using hLast)
          rw [List.cons_append] at hLater
          rw [List.cons_append, List.cons_append, hStep, hStep, hLater, List.append_assoc]

end

/-- What holds no white space stays as it is. -/
theorem collapse_trimEnd_append {s : Text} (hs : ∀ c ∈ s, isWhiteSpace c = false) (t : Text) :
    collapse (trimEnd (s ++ t)) = s ++ collapse (trimEnd t) := by
  induction s with
  | nil => rfl
  | cons c s ih =>
      obtain ⟨hc, hs⟩ := List.forall_mem_cons.1 hs
      rw [List.cons_append, trimEnd_cons_of_not hc, collapse_cons_of_not hc, ih hs]
      rfl

theorem trimEnd_eq_nil {t : Text} (h : ∀ c ∈ t, isWhiteSpace c = true) : trimEnd t = [] := by
  induction t with
  | nil => rfl
  | cons c t ih =>
      obtain ⟨hc, ht⟩ := List.forall_mem_cons.1 h
      rw [trimEnd_cons, if_pos ⟨ih ht, hc⟩]

/-- White space before something else becomes one space. -/
theorem collapse_trimEnd_gap {gap : Text} (hGap : ∀ c ∈ gap, isWhiteSpace c = true) {c : Char}
    (hc : isWhiteSpace c = false) (t : Text) : collapse (trimEnd (gap ++ c :: t)) =
      (if gap = [] then [] else [' ']) ++ c :: collapse (trimEnd t) := by
  induction gap with
  | nil =>
      rw [List.nil_append, trimEnd_cons_of_not hc, collapse_cons_of_not hc]
      rfl
  | cons d gap ih =>
      obtain ⟨hd, hGap⟩ := List.forall_mem_cons.1 hGap
      have hLater := ih hGap
      have hNe : trimEnd (gap ++ c :: t) ≠ [] := by
        intro hNil
        rw [hNil] at hLater
        exact List.append_ne_nil_of_right_ne_nil _ (List.cons_ne_nil _ _) hLater.symm
      rw [List.cons_append, trimEnd_cons, if_neg fun h => hNe h.1, collapse, if_pos hd, head?_trimEnd hNe, hLater]
      cases gap with
      | nil => simp [hc]
      | cons e gap => simp [hGap e List.mem_cons_self]

/-- Of a line only single spaces and what is no white space is left. -/
theorem lineEnd_not_mem_collapse {t : Text} {c : Char} (hc : isLineEnd c = true) : c ∉ collapse t := by
  intro hMem
  rcases mem_collapse hMem with rfl | hNot
  · cases hc
  · rw [isLineEnd, Bool.or_eq_true, beq_iff_eq, beq_iff_eq] at hc
    rcases hc with rfl | rfl
    · exact absurd hNot (by decide +kernel)
    · exact absurd hNot (by decide +kernel)

theorem EndsLine.collapse {line ending : Text} (h : EndsLine line ending) (t : Text) :
    EndsLine (collapse t) ending := by
  rcases h with hBoth | ⟨hFeed, -⟩
  · exact .inl hBoth
  · exact .inr ⟨hFeed, fun hLast => lineEnd_not_mem_collapse rfl (List.mem_of_getLast? hLast)⟩

end Text

/-! ## Gaps -/

namespace Lexer

theorem isWhiteSpace_of_isBlank {c : Char} (h : isBlank c = true) : Unicode.isWhiteSpace c = true := by
  simp only [isBlank, Bool.or_eq_true, beq_iff_eq] at h
  rcases h with ((rfl | rfl) | rfl) | rfl
  · decide +kernel
  · decide +kernel
  · decide +kernel
  · decide +kernel

theorem isWhiteSpace_mark : Unicode.isWhiteSpace '\uFEFF' = false := by decide +kernel

variable {line z : Text}

theorem dropMark_cons_mark (t : Text) : dropMark ('\uFEFF' :: t) = t := rfl

theorem dropMark_of_head? {t : Text} (h : t.head? ≠ some '\uFEFF') : dropMark t = t := if_neg h

/-- A byte order mark stays in front of a line. -/
theorem collapse_trimEnd_mark (t : Text) :
    collapse (trimEnd ('\uFEFF' :: t)) = '\uFEFF' :: collapse (trimEnd t) := by
  rw [Text.trimEnd_cons_of_not isWhiteSpace_mark, Text.collapse_cons_of_not isWhiteSpace_mark]

/-- A blank line ends where it did. -/
theorem splitGap_collapse_of_nil (hGap : (splitGap false line).2 = []) (hFeed : '\n' ∉ line)
    (hMark : z.head? ≠ some '\uFEFF') (due : Bool) :
    (splitGap due (collapse (trimEnd line) ++ z)).2 = (splitGap due (line ++ z)).2 := by
  have hBlank {t : Text} (hDrop : t.dropWhile (isGap false) = []) : collapse (trimEnd t) = [] := by
    rw [Text.trimEnd_eq_nil]
    · rfl
    · intro c hc
      have hPassed := List.dropWhile_eq_nil_iff.1 hDrop c hc
      rw [isGap, Bool.and_eq_true] at hPassed
      exact isWhiteSpace_of_isBlank hPassed.1
  have hLeft : collapse (trimEnd line) = [] ∨ collapse (trimEnd line) = ['\uFEFF'] := by
    rw [splitGap_snd] at hGap
    by_cases hHead : line.head? = some '\uFEFF'
    · obtain ⟨t, rfl⟩ := List.head?_eq_some_iff.1 hHead
      rw [collapse_trimEnd_mark]
      exact .inr (congrArg _ (hBlank hGap))
    · rw [dropMark_of_head? hHead] at hGap
      exact .inl (hBlank hGap)
  have hNone : (splitGap due (collapse (trimEnd line))).2 = [] := by
    rcases hLeft with hNil | hOnly
    · rw [hNil]
      rfl
    · rw [hOnly]
      rfl
  rw [splitGap_append_of_nil hNone hMark,
    splitGap_append_of_nil ((splitGap_of_lineFeed_not_mem hFeed due).trans hGap) hMark]

/-- What stands first in a line is still there. -/
theorem splitGap_collapse_of_cons {c : Char} {x : Text} (hGap : (splitGap false line).2 = c :: x)
    (hc : Unicode.isWhiteSpace c = false) (due : Bool) :
    (splitGap due (collapse (trimEnd line) ++ z)).2 = c :: (collapse (trimEnd x) ++ z) := by
  have hGapC : isGap due c = false := by
    rw [isGap, Bool.and_eq_false_iff]
    exact .inl (Bool.eq_false_iff.2 fun hBlank => by rw [isWhiteSpace_of_isBlank hBlank] at hc; cases hc)
  -- Behind a byte order mark or not, there are blanks and then what stands first.
  have hFront {t : Text} (hDrop : t.dropWhile (isGap false) = c :: x) :
      (t = c :: x ∨ (collapse (trimEnd t)).head? = some ' ') ∧
        (collapse (trimEnd t) ++ z).dropWhile (isGap due) = c :: (collapse (trimEnd x) ++ z) := by
    have hText : t.takeWhile (isGap false) ++ c :: x = t := by
      rw [← hDrop, List.takeWhile_append_dropWhile]
    have hSpaces : ∀ d ∈ t.takeWhile (isGap false), Unicode.isWhiteSpace d = true := fun d hd => by
      have hPassed := List.mem_takeWhile_imp hd
      rw [isGap, Bool.and_eq_true] at hPassed
      exact isWhiteSpace_of_isBlank hPassed.1
    have hCollapsed := Text.collapse_trimEnd_gap hSpaces hc x
    rw [hText] at hCollapsed
    rw [hCollapsed]
    split
    · rename_i hNil
      rw [hNil] at hText
      refine ⟨.inl hText.symm, ?_⟩
      rw [List.nil_append, List.cons_append, List.dropWhile_cons, hGapC, if_neg Bool.false_ne_true]
    · have hSpace : isGap due ' ' = true := by cases due <;> rfl
      refine ⟨.inr rfl, ?_⟩
      rw [List.append_assoc, List.singleton_append, List.dropWhile_cons, hSpace, if_pos rfl,
        List.cons_append, List.dropWhile_cons, hGapC, if_neg Bool.false_ne_true]
  rw [splitGap_snd] at hGap ⊢
  by_cases hHead : line.head? = some '\uFEFF'
  · obtain ⟨t, rfl⟩ := List.head?_eq_some_iff.1 hHead
    rw [dropMark_cons_mark] at hGap
    rw [collapse_trimEnd_mark, List.cons_append, dropMark_cons_mark]
    exact (hFront hGap).2
  · rw [dropMark_of_head? hHead] at hGap
    obtain ⟨hStart, hDrop⟩ := hFront hGap
    rw [dropMark_of_head?, hDrop]
    rcases hStart with rfl | hSpace
    · rw [Text.trimEnd_cons_of_not hc, Text.collapse_cons_of_not hc]
      exact hHead
    · obtain ⟨t, ht⟩ := List.head?_eq_some_iff.1 hSpace
      rw [ht]
      simp

end Lexer

/-! ## Tokens and comments -/

namespace Text.EndsLineWith

variable {line ending after : Text}

theorem collapse (h : EndsLineWith line ending after) (t : Text) :
    EndsLineWith (collapse t) ending after :=
  h.imp_left fun hEnd => hEnd.collapse t

/-- What comes behind a line starts with white space. -/
theorem isWhiteSpace_head (h : EndsLineWith line ending after) :
    ∀ c ∈ (ending ++ after).head?, Unicode.isWhiteSpace c = true := by
  rcases h with (rfl | ⟨rfl, -⟩) | ⟨rfl, rfl⟩
  · rintro _ ⟨⟩
    decide +kernel
  · rintro _ ⟨⟩
    decide +kernel
  · rintro _ ⟨⟩

theorem splitLine (h : EndsLineWith line ending after) (hFeed : '\n' ∉ line) :
    Comment.splitLine (line ++ (ending ++ after)) = (line, ending ++ after) := by
  rcases h with hEnd | ⟨rfl, rfl⟩
  · exact Comment.splitLine_append_ending hFeed hEnd after
  · simpa using Comment.splitLine_eq_self hFeed

end Text.EndsLineWith

/-- No quote is white space. -/
theorem Unicode.not_quote_of_isWhiteSpace {c : Char} (h : isWhiteSpace c = true) : c ∉ ['"', '`', '\''] := by
  have hQuotes : ['"', '`', '\''].all (fun d => !isWhiteSpace d) = true := by decide +kernel
  intro hQuote
  have hNot := List.all_eq_true.1 hQuotes c hQuote
  rw [h] at hNot
  cases hNot

namespace Lexeme

variable {u ending after : Text}

theorem isWhiteSpace_of_isToken {c : Char} (h : (scan c u).IsToken) : Unicode.isWhiteSpace c = false := by
  by_contra hSpace
  have hSpace := Bool.eq_true_of_not_eq_false hSpace
  exact not_isToken_of_isStop (isStop_of_isWhiteSpace hSpace) (Unicode.not_quote_of_isWhiteSpace hSpace) u h

theorem Spells.isWhiteSpace_of_getLast? {t : Text} {kind : TokenKind} {c : Char} (h : Spells kind t)
    (hKind : kind ≠ .comment) (hLast : t.getLast? = some c) : Unicode.isWhiteSpace c = false := by
  by_contra hSpace
  have hSpace := Bool.eq_true_of_not_eq_false hSpace
  exact getLast?_ne_of_isStop h hKind (isStop_of_isWhiteSpace hSpace)
    (Unicode.not_quote_of_isWhiteSpace hSpace) hLast

/-- A token with single spaces stays what it is when what comes behind it gets single spaces. -/
theorem scan_collapse {c : Char} {kind : TokenKind} (hScan : (scan c u).reading = .ok kind)
    (hKind : kind ≠ .comment) (hText : collapse (trimEnd (scan c u).text) = (scan c u).text)
    (hFeed : '\n' ∉ u) (hEnd : Text.EndsLineWith u ending after) :
    scan c (collapse (trimEnd u) ++ (ending ++ after)) =
      ⟨.ok kind, (scan c u).text, collapse (trimEnd (scan c u).rest) ++ (ending ++ after)⟩ := by
  have hc := isWhiteSpace_of_isToken ⟨kind, hScan⟩
  have hSpells := spells_scan hScan
  have hSame := hEnd.scan_append ⟨kind, hScan⟩ hFeed
  have hSource : (scan c u).text ++ (scan c u).rest = c :: u := source_scan c u
  generalize scan c u = found at hScan hText hSpells hSame hSource ⊢
  obtain ⟨reading, text, rest⟩ := found
  obtain rfl : reading = .ok kind := hScan
  obtain ⟨e, v, rfl⟩ := hSpells.exists_cons
  obtain ⟨rfl, rfl⟩ : e = c ∧ v ++ rest = u := List.cons_eq_cons.1 hSource
  have hLast : (e :: v).getLast? = some ((e :: v).getLast (List.cons_ne_nil e v)) :=
    List.getLast?_eq_some_getLast _
  have hd := hSpells.isWhiteSpace_of_getLast? hKind hLast
  rw [Text.trimEnd_of_getLast? hLast hd] at hText
  have hLonger : collapse (trimEnd (v ++ rest)) = v ++ collapse (trimEnd rest) := by
    have hWhole : collapse (trimEnd ((e :: v) ++ rest)) = (e :: v) ++ collapse (trimEnd rest) := by
      rw [Text.trimEnd_append hLast hd, Text.collapse_append hLast hd, hText]
    rw [List.cons_append, Text.trimEnd_cons_of_not hc, Text.collapse_cons_of_not hc] at hWhole
    exact (List.cons_eq_cons.1 hWhole).2
  -- The text up to the next white space stays, whatever tokens there are in it.
  let isBefore : Char → Bool := fun d => !Unicode.isWhiteSpace d
  obtain ⟨r, y, rfl, hr, hy⟩ : ∃ r y, rest = r ++ y ∧ (∀ d ∈ r, Unicode.isWhiteSpace d = false) ∧
      ∀ d ∈ y.head?, Unicode.isWhiteSpace d = true := by
    refine ⟨rest.takeWhile isBefore, rest.dropWhile isBefore, List.takeWhile_append_dropWhile.symm,
      fun d hd => by simpa [isBefore] using List.mem_takeWhile_imp hd, fun d hd => ?_⟩
    have hHead := List.head?_dropWhile_not isBefore rest
    rw [hd] at hHead
    simpa [isBefore] using hHead
  have hStop {x : Text} (hx : ∀ d ∈ x.head?, Unicode.isWhiteSpace d = true) :
      ∀ d ∈ (x ++ (ending ++ after)).head?, IsStop d := by
    intro d hd
    cases x with
    | nil => exact isStop_of_isWhiteSpace (hEnd.isWhiteSpace_head d hd)
    | cons f x => exact isStop_of_isWhiteSpace (hx d hd)
  rw [hLonger, Text.collapse_trimEnd_append hr, List.append_assoc, List.append_assoc]
  refine scan_append_congr hKind ?_ (hStop hy) (hStop fun d hd => ?_)
  · rw [List.append_assoc, List.append_assoc] at hSame
    rw [hSame, followedBy, List.append_assoc]
  · rcases Text.head?_collapse hd with rfl | hHead
    · decide +kernel
    · refine hy d ?_
      rw [← Text.head?_trimEnd fun hNil => by rw [hNil] at hHead; cases hHead]
      exact hHead

/-- A comment stays one. -/
theorem scan_collapse_comment (hScan : (scan '/' u).reading = .ok .comment) (hFeed : '\n' ∉ u)
    (hEnd : Text.EndsLineWith u ending after) :
    ∃ text, scan '/' (collapse (trimEnd u) ++ (ending ++ after)) =
        ⟨.ok .comment, text, collapse (trimEnd (scan '/' u).rest) ++ (ending ++ after)⟩ ∧
      Comment.lineEnds ('/' :: (collapse (trimEnd u) ++ (ending ++ after))) =
        Comment.lineEnds ('/' :: (u ++ (ending ++ after))) := by
  have hSlash : Unicode.isWhiteSpace '/' = false := by decide +kernel
  have hStar : Unicode.isWhiteSpace '*' = false := by decide +kernel
  obtain ⟨-, ⟨v, rfl, hLine⟩ | ⟨v, body, rest, rfl, hClose, hBlock⟩⟩ := scan_of_comment hScan
  · have hv : '\n' ∉ v := fun hMem => hFeed (List.mem_cons_of_mem _ hMem)
    have hNil : (Comment.line v).rest = [] := by rw [Comment.line, Comment.splitLine_eq_self hv]
    have hEndV := (Text.EndsLineWith.of_append (u := ['/']) hEnd).collapse (trimEnd v)
    rw [hLine, hNil, Text.trimEnd_cons_of_not hSlash, Text.collapse_cons_of_not hSlash]
    refine ⟨'/' :: '/' :: collapse (trimEnd v), ?_, rfl⟩
    change Comment.line (collapse (trimEnd v) ++ (ending ++ after)) = _
    rw [Comment.line, hEndV.splitLine (Text.lineEnd_not_mem_collapse rfl)]
    rfl
  · have hv : '\n' ∉ v := fun hMem => hFeed (List.mem_cons_of_mem _ hMem)
    have hLast := Comment.getLast?_of_splitClose? hClose
    have hText : collapse (trimEnd ('*' :: v)) = '*' :: (collapse body ++ collapse (trimEnd rest)) := by
      rw [Text.trimEnd_cons_of_not hStar, Text.collapse_cons_of_not hStar, ← Comment.splitClose?_append hClose,
        Text.trimEnd_append hLast hSlash, Text.collapse_append hLast hSlash]
    have hSame : Comment.splitClose? (collapse body ++ collapse (trimEnd rest)) =
        some (collapse body, collapse (trimEnd rest)) :=
      Comment.splitClose?_append_of_some (Comment.splitClose?_collapse (Comment.splitClose?_self hClose)) _
    have hNone : '\n' ∉ collapse body ++ collapse (trimEnd rest) := fun hMem =>
      (List.mem_append.1 hMem).elim (Text.lineEnd_not_mem_collapse rfl) (Text.lineEnd_not_mem_collapse rfl)
    rw [hBlock, hText, List.cons_append, List.cons_append]
    refine ⟨'/' :: '*' :: collapse body, ?_, ?_⟩
    · change Comment.block _ = _
      rw [Comment.block, Comment.splitClose?_append_of_some hSame]
    · rw [Comment.lineEnds_block hSame hNone, Comment.lineEnds_block hClose hv]

end Lexeme

/-- What does not end in a line ends where it ends behind the line. -/
theorem Opening.closeIn?_append_line {q : Opening} {line ending after : Text} (h : q.closeIn? line = none)
    (hEnd : Text.EndsLineWith line ending after) :
    q.closeIn? (line ++ (ending ++ after)) = q.closeIn? after := by
  rcases hEnd with hEnd | ⟨rfl, rfl⟩
  · exact closeIn?_line h (Or.imp_right And.left hEnd) after
  · rw [List.append_nil, List.append_nil, h]
    cases q <;> rfl

namespace Lexeme

variable {u ending after : Text}

/-- A comment that is open at the end of a line is closed behind it. -/
theorem exists_closeIn? (hOpen : Opening.comment.closeIn? u = none) (hEnd : Text.EndsLineWith u ending after)
    (hToken : (scan '/' ('*' :: (u ++ (ending ++ after)))).IsToken) :
    ∃ rest, Opening.comment.closeIn? after = some rest := by
  obtain ⟨c, v, hText, -, hFault⟩ := Opening.comment.scan_opener (u ++ (ending ++ after))
  obtain ⟨rfl, rfl⟩ := List.cons_eq_cons.1 hText
  cases hClose : Opening.comment.closeIn? after with
  | some rest => exact ⟨rest, rfl⟩
  | none =>
      obtain ⟨fault, hScan⟩ := hFault ((Opening.closeIn?_append_line hOpen hEnd).trans hClose)
      obtain ⟨kind, hKind⟩ := hToken
      cases (congrArg reading hScan).symm.trans hKind

/-- It is skipped up to there whatever stands in the line, as long as it is not closed in it. -/
theorem scan_open_comment (hOpen : Opening.comment.closeIn? u = none)
    (hEnd : Text.EndsLineWith u ending after) {rest : Text}
    (hClose : Opening.comment.closeIn? after = some rest) :
    (scan '/' ('*' :: (u ++ (ending ++ after)))).reading = .ok .comment ∧
      (scan '/' ('*' :: (u ++ (ending ++ after)))).rest = rest ∧
        Comment.lineEnds ('/' :: '*' :: (u ++ (ending ++ after))) = true := by
  obtain ⟨c, v, hText, hFound, -⟩ := Opening.comment.scan_opener (u ++ (ending ++ after))
  obtain ⟨rfl, rfl⟩ := List.cons_eq_cons.1 hText
  obtain ⟨hScan, hRest⟩ := hFound rest ((Opening.closeIn?_append_line hOpen hEnd).trans hClose)
  refine ⟨hScan, hRest, ?_⟩
  rcases hEnd with hEnd | ⟨-, rfl⟩
  · exact Comment.lineEnds_open (Option.map_eq_none_iff.1 hOpen) hEnd after
  · cases hClose

end Lexeme

/-- What does not end in a line does not end in it with single spaces either. -/
theorem Opening.closeIn?_collapse_trimEnd {q : Opening} {t : Text} (h : q.closeIn? t = none) :
    q.closeIn? (collapse (trimEnd t)) = none := by
  have hWords : q.closeIn? (Text.joinWithSpaces t.words) = none :=
    closeIn?_joinWithSpaces fun word hWord => closeIn?_of_isInfix (Text.infix_of_mem_words hWord) h
  rw [Text.collapse_trimEnd_eq]
  split
  · rw [List.singleton_append, closeIn?_cons (by decide) (by decide), hWords]
  · exact hWords

/-! ## Lines -/

/-- Whether a text starts as a comment does. -/
def Text.StartsComment (t : Text) : Prop := ['/', '/'] <+: t ∨ ['/', '*'] <+: t

instance (t : Text) : Decidable t.StartsComment := inferInstanceAs (Decidable (_ ∨ _))

theorem Lexeme.Spells.not_startsComment {t : Text} {kind : TokenKind} (h : Spells kind t)
    (hKind : kind ≠ .comment) : ¬t.StartsComment := by
  rintro (⟨u, rfl⟩ | ⟨u, rfl⟩)
  · exact hKind (comment_of_opening (congrArg reading h) ⟨rfl, .inl rfl⟩)
  · exact hKind (comment_of_opening (congrArg reading h) ⟨rfl, .inr rfl⟩)

/-- A token with no other white space than single spaces, or a comment or the start of one. -/
def Token.IsSpaced (t : Token) : Prop :=
  t.lexeme.StartsComment ∨ collapse (trimEnd t.lexeme) = t.lexeme

instance (t : Token) : Decidable t.IsSpaced := inferInstanceAs (Decidable (_ ∨ _))

namespace LineTokens

variable {line ending after : Text} {us : List Token} {left : Option Opening}

/-- With single spaces in the place of its white space, a line and what comes after it are read as
before. -/
theorem bareTokens_collapse (hLine : LineTokens line us left) (hSpaced : ∀ w ∈ us, w.IsSpaced)
    (hFeed : '\n' ∉ line) (hEnd : Text.EndsLineWith line ending after) {due : Bool}
    {ws : List Token} (h : BareTokens due (line ++ (ending ++ after)) ws) :
    BareTokens due (collapse (trimEnd line) ++ (ending ++ after)) ws := by
  have hMark : (ending ++ after).head? ≠ some '\uFEFF' := by
    rcases hEnd with (rfl | ⟨rfl, -⟩) | ⟨rfl, rfl⟩
    · simp
    · simp
    · simp
  induction hLine generalizing due ws with
  | stop hGap => exact h.of_splitGap (Lexer.splitGap_collapse_of_nil hGap hFeed hMark due)
  | @token t u c kind us left hGap hScan _ ih =>
      obtain ⟨hHere, hLater⟩ := List.forall_mem_cons.1 hSpaced
      have hc := Lexeme.isWhiteSpace_of_isToken ⟨kind, hScan⟩
      have hPart : u <:+ t := (List.suffix_cons c u).trans (Lexer.suffix_of_splitGap hGap)
      have hRestPart := (Lexeme.rest_scan_suffix c u).trans hPart
      have hu : '\n' ∉ u := fun hMem => hFeed (hPart.subset hMem)
      have hEndU := hEnd.of_suffix hPart
      have hOld : (Lexer.splitGap due (t ++ (ending ++ after))).2 = c :: (u ++ (ending ++ after)) :=
        Lexer.splitGap_line_of_cons hGap hFeed due _
      have hNew := Lexer.splitGap_collapse_of_cons (z := ending ++ after) hGap hc due
      have hSame := hEndU.scan_append ⟨kind, hScan⟩ hu
      have hScan' : (Lexeme.scan c (u ++ (ending ++ after))).reading = .ok kind := by rw [hSame]; exact hScan
      have hRest {due : Bool} {ws : List Token}
          (h : BareTokens due ((Lexeme.scan c u).rest ++ (ending ++ after)) ws) :
          BareTokens due (collapse (trimEnd (Lexeme.scan c u).rest) ++ (ending ++ after)) ws :=
        ih hLater (fun hMem => hFeed (hRestPart.subset hMem)) (hEnd.of_suffix hRestPart) h
      by_cases hKind : kind = .comment
      · subst hKind
        obtain ⟨rfl, -⟩ := Lexeme.scan_of_comment hScan
        obtain ⟨text, hFound, hEnds⟩ := Lexeme.scan_collapse_comment hScan hu hEndU
        refine h.of_comment hOld hNew hScan' (by rw [hFound]) hEnds fun due ws h => ?_
        rw [hSame] at h
        rw [hFound]
        exact hRest h
      · have hText := hHere.resolve_left ((Lexeme.spells_scan hScan).not_startsComment hKind)
        have hFound := Lexeme.scan_collapse hScan hKind hText hu hEndU
        obtain ⟨later, hBehind, rfl⟩ := (BareTokens.token_iff hOld hScan' hKind).1 h
        rw [hSame] at hBehind
        refine (BareTokens.token_iff hNew (by rw [hFound]) hKind).2 ⟨later, ?_, ?_⟩
        · rw [hFound]
          exact hRest hBehind
        · rw [hFound, hSame]
          rfl
  | @opening t u q hGap hOpen =>
      have hSlash : Unicode.isWhiteSpace '/' = false := by decide +kernel
      have hStar : Unicode.isWhiteSpace '*' = false := by decide +kernel
      have hQuote : Unicode.isWhiteSpace '`' = false := by decide +kernel
      cases q with
      | rawString =>
          change (Lexer.splitGap false t).2 = '`' :: u at hGap
          have hText := (hSpaced _ List.mem_cons_self).resolve_left (by rintro (⟨_, ⟨⟩⟩ | ⟨_, ⟨⟩⟩))
          change collapse (trimEnd ('`' :: u)) = '`' :: u at hText
          rw [Text.trimEnd_cons_of_not hQuote, Text.collapse_cons_of_not hQuote] at hText
          refine h.of_splitGap ?_
          rw [Lexer.splitGap_collapse_of_cons hGap hQuote, (List.cons_eq_cons.1 hText).2]
          exact (Lexer.splitGap_line_of_cons hGap hFeed due _).symm
      | comment =>
          change (Lexer.splitGap false t).2 = '/' :: '*' :: u at hGap
          have hPart : u <:+ t := (List.suffix_append ['/', '*'] u).trans (Lexer.suffix_of_splitGap hGap)
          have hEndU := hEnd.of_suffix hPart
          have hOld : (Lexer.splitGap due (t ++ (ending ++ after))).2 = '/' :: '*' :: (u ++ (ending ++ after)) :=
            Lexer.splitGap_line_of_cons hGap hFeed due _
          have hNew := Lexer.splitGap_collapse_of_cons (z := ending ++ after) hGap hSlash due
          rw [Text.trimEnd_cons_of_not hStar, Text.collapse_cons_of_not hStar, List.cons_append] at hNew
          obtain ⟨rest, hClose⟩ := Lexeme.exists_closeIn? hOpen hEndU (h.isToken_of_slash hOld)
          obtain ⟨hScan, hRest, hEnds⟩ := Lexeme.scan_open_comment hOpen hEndU hClose
          obtain ⟨hScan', hRest', hEnds'⟩ := Lexeme.scan_open_comment
            (Opening.closeIn?_collapse_trimEnd hOpen) (hEndU.collapse (trimEnd u)) hClose
          refine h.of_comment hOld hNew hScan hScan' (hEnds'.trans hEnds.symm) fun due ws h => ?_
          rw [hRest']
          rwa [hRest] at h

/-- Where a line holds nothing but comments it makes no difference whether a semicolon is due at its start,
but for the semicolon. -/
theorem bareTokens_automatic (hLine : LineTokens line us left)
    (hComments : ∀ w ∈ us, w.lexeme.StartsComment) (hFeed : '\n' ∉ line)
    (hEnd : Text.EndsLineWith line ending after) {ws : List Token}
    (h : BareTokens false (line ++ (ending ++ after)) ws) :
    BareTokens true (line ++ (ending ++ after)) (.automatic :: ws) := by
  induction hLine generalizing ws with
  | @stop line hGap =>
      rcases hEnd with hEnding | ⟨rfl, rfl⟩
      · have hBlank : (Lexer.splitGap false (line ++ ending)).2 = [] := by
          rw [← List.append_nil ending]
          exact Lexer.splitGap_line_of_nil hGap (.inl hEnding) (by simp)
        have hNe : line ++ ending ≠ [] := by
          rcases hEnding with rfl | ⟨rfl, -⟩
          · simp
          · simp
        rw [← List.append_assoc] at h
        have hAfter := h.of_splitGap
          (Lexer.splitGap_append_of_nil hBlank (BareTokens.head?_ne_mark hNe hBlank h)).symm
        exact .semicolon (Lexer.splitGap_lineFeed_of_nil hGap hFeed hEnding after) rfl hAfter
      · rw [List.append_nil, List.append_nil] at h ⊢
        exact .semicolon ((Lexer.splitGap_of_lineFeed_not_mem hFeed true).trans hGap) rfl
          (h.of_splitGap hGap.symm)
  | @token t u c kind us left hGap hScan _ ih =>
      obtain ⟨hHere, hLater⟩ := List.forall_mem_cons.1 hComments
      obtain rfl : kind = .comment := by
        by_contra hKind
        exact (Lexeme.spells_scan hScan).not_startsComment hKind hHere
      obtain ⟨rfl, -⟩ := Lexeme.scan_of_comment hScan
      have hPart : u <:+ t := (List.suffix_cons '/' u).trans (Lexer.suffix_of_splitGap hGap)
      have hRestPart := (Lexeme.rest_scan_suffix '/' u).trans hPart
      have hSplit (due : Bool) :
          (Lexer.splitGap due (t ++ (ending ++ after))).2 = '/' :: (u ++ (ending ++ after)) :=
        Lexer.splitGap_line_of_cons hGap hFeed due _
      have hSame := (hEnd.of_suffix hPart).scan_append ⟨_, hScan⟩ fun hMem => hFeed (hPart.subset hMem)
      have hScan' : (Lexeme.scan '/' (u ++ (ending ++ after))).reading = .ok .comment := by
        rw [hSame]
        exact hScan
      have hRest : BareTokens false (Lexeme.scan '/' (u ++ (ending ++ after))).rest ws :=
        (BareTokens.comment_iff (hSplit false) hScan').1 h
      rw [BareTokens.comment_iff (hSplit true) hScan']
      split
      · exact ⟨ws, hRest, rfl⟩
      · rw [hSame] at hRest ⊢
        exact ih hLater (fun hMem => hFeed (hRestPart.subset hMem)) (hEnd.of_suffix hRestPart) hRest
  | @opening t u q hGap hOpen =>
      cases q with
      | rawString => exact absurd (hComments _ List.mem_cons_self) (by rintro (⟨_, ⟨⟩⟩ | ⟨_, ⟨⟩⟩))
      | comment =>
          change (Lexer.splitGap false t).2 = '/' :: '*' :: u at hGap
          have hEndU := hEnd.of_suffix
            ((List.suffix_append ['/', '*'] u).trans (Lexer.suffix_of_splitGap hGap))
          have hSplit (due : Bool) :
              (Lexer.splitGap due (t ++ (ending ++ after))).2 = '/' :: '*' :: (u ++ (ending ++ after)) :=
            Lexer.splitGap_line_of_cons hGap hFeed due _
          obtain ⟨rest, hClose⟩ := Lexeme.exists_closeIn? hOpen hEndU (h.isToken_of_slash (hSplit false))
          obtain ⟨hScan, -, hEnds⟩ := Lexeme.scan_open_comment hOpen hEndU hClose
          rw [BareTokens.comment_iff (hSplit true) hScan, if_pos (by rw [hEnds]; rfl)]
          exact ⟨ws, (BareTokens.comment_iff (hSplit false) hScan).1 h, rfl⟩

end LineTokens

end GoTemplate
