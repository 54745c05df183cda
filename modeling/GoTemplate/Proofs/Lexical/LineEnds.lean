import GoTemplate.Proofs.Lexical.TokenReach
import GoTemplate.Proofs.Lexical.LineKinds

/-!
Line ends of a text. It makes no difference to its tokens whether a line feed has a carriage return
before it, unless a token holds both, nor whether the last line has an end.
-/

namespace GoTemplate

namespace Text

/-- The second text is the first with other line ends: carriage returns before line feeds may be gone,
and there may be one more line feed at the end. -/
inductive Relined : Text → Text → Prop where
  | nil : Relined [] []
  | lineFeed : Relined [] ['\n']
  | keep {t u : Text} (c : Char) (hRest : Relined t u) : Relined (c :: t) (c :: u)
  | strip {t u : Text} (hRest : Relined t u) : Relined ('\r' :: '\n' :: t) ('\n' :: u)

namespace Relined

variable {s t u : Text}

theorem refl (t : Text) : Relined t t := by
  induction t with
  | nil => exact .nil
  | cons c t ih => exact .keep c ih

theorem append (s : Text) (h : Relined t u) : Relined (s ++ t) (s ++ u) := by
  induction s with
  | nil => exact h
  | cons c s ih => exact .keep c ih

/-- A text that holds no line end of two characters is still there. -/
theorem exists_of_append (h : Relined (s ++ t) u) (hPair : ¬['\r', '\n'] <:+: s)
    (hReturn : s.getLast? ≠ some '\r') : ∃ v, u = s ++ v ∧ Relined t v := by
  induction s generalizing u with
  | nil => exact ⟨u, rfl, h⟩
  | cons c s ih =>
      generalize hText : c :: s ++ t = whole at h
      cases h with
      | nil => cases hText
      | lineFeed => cases hText
      | keep d hRest =>
          obtain ⟨rfl, rfl⟩ := List.cons_eq_cons.1 hText
          obtain ⟨v, rfl, hv⟩ := ih hRest (fun hInfix => hPair (List.infix_cons hInfix))
            fun hLast => hReturn (by rw [List.getLast?_cons, hLast]; rfl)
          exact ⟨v, rfl, hv⟩
      | strip hRest =>
          obtain ⟨rfl, hs⟩ := List.cons_eq_cons.1 hText
          cases s with
          | nil => exact absurd rfl hReturn
          | cons d s =>
              obtain ⟨rfl, -⟩ := List.cons_eq_cons.1 hs
              exact absurd ⟨[], s, rfl⟩ hPair

theorem exists_of_cons {c : Char} (h : Relined (c :: t) u) (hReturn : c ≠ '\r') :
    ∃ v, u = c :: v ∧ Relined t v :=
  @exists_of_append [c] t u h (fun hPair => by simpa using hPair.length_le) (by simpa using hReturn)

theorem head_of_nil (h : Relined [] u) : u = [] ∨ u = ['\n'] := by
  cases h with
  | nil => exact .inl rfl
  | lineFeed => exact .inr rfl

/-- Behind a line there is a line end as before, or none. -/
theorem isLineEnd_head (h : Relined t u) (hHead : ∀ c ∈ t.head?, isLineEnd c = true) :
    ∀ c ∈ u.head?, isLineEnd c = true := by
  cases h with
  | nil => exact hHead
  | lineFeed => rintro _ ⟨⟩; rfl
  | keep => exact hHead
  | strip => rintro _ ⟨⟩; rfl

end Relined

end Text

open Text

/-! ## Gaps -/

namespace Lexer

theorem isGap_of_splitGap {due : Bool} {t u : Text} {c : Char} (h : (splitGap due t).2 = c :: u) :
    isGap due c = false := by
  have hHead := List.head?_dropWhile_not (isGap due) (dropMark t)
  rw [← splitGap_snd, h] at hHead
  simpa using hHead

theorem ne_return_of_splitGap {due : Bool} {t u : Text} {c : Char} (h : (splitGap due t).2 = c :: u) :
    c ≠ '\r' := by
  rintro rfl
  have hGap := isGap_of_splitGap h
  cases due <;> cases hGap

end Lexer

theorem Comment.lineEnds_singleton (c : Char) : lineEnds [c] = (c == '\n') := by
  unfold lineEnds
  split <;> simp_all

namespace Text.Relined

variable {t u : Text}

theorem dropMark (h : Relined t u) : Relined (Lexer.dropMark t) (Lexer.dropMark u) := by
  cases h with
  | nil => exact .nil
  | lineFeed => exact .lineFeed
  | keep c hRest =>
      by_cases hc : c = '\uFEFF'
      · simpa [Lexer.dropMark, hc] using hRest
      · simpa [Lexer.dropMark, hc] using hRest.keep c
  | strip hRest => exact .strip hRest

theorem dropWhile (h : Relined t u) (due : Bool) :
    Relined (t.dropWhile (Lexer.isGap due)) (u.dropWhile (Lexer.isGap due)) := by
  induction h with
  | nil => exact .nil
  | lineFeed =>
      cases due with
      | false => exact .nil
      | true => exact .lineFeed
  | keep c hRest ih =>
      rw [List.dropWhile_cons, List.dropWhile_cons]
      split
      · exact ih
      · exact hRest.keep c
  | strip hRest ih =>
      cases due with
      | false => exact ih
      | true => exact hRest.keep '\n'

theorem splitGap (h : Relined t u) (due : Bool) :
    Relined (Lexer.splitGap due t).2 (Lexer.splitGap due u).2 := by
  rw [Lexer.splitGap_snd, Lexer.splitGap_snd]
  exact h.dropMark.dropWhile due

/-! ## Comments -/

theorem splitClose? (h : Relined t u) :
    match Comment.splitClose? t with
    | none => Comment.splitClose? u = none
    | some (body, rest) => ∃ body' rest', Comment.splitClose? u = some (body', rest') ∧
        Relined rest rest' ∧ ('\n' ∈ body' ↔ '\n' ∈ body) := by
  induction h with
  | nil => rfl
  | lineFeed => rfl
  | @keep t u c hRest ih =>
      by_cases hClose : ∃ v, c :: t = '*' :: '/' :: v
      · obtain ⟨v, hv⟩ := hClose
        obtain ⟨rfl, rfl⟩ := List.cons_eq_cons.1 hv
        obtain ⟨w, rfl, hw⟩ := hRest.exists_of_cons (by decide)
        exact ⟨_, w, rfl, hw, Iff.rfl⟩
      · have hNext : ∀ v, c :: t ≠ '*' :: '/' :: v := fun v hv => hClose ⟨v, hv⟩
        have hNext' : ∀ v, c :: u ≠ '*' :: '/' :: v := by
          intro v hv
          obtain ⟨rfl, rfl⟩ := List.cons_eq_cons.1 hv
          cases hRest with
          | keep => exact hNext _ rfl
        rw [Comment.splitClose?_cons hNext, Comment.splitClose?_cons hNext']
        cases hFound : Comment.splitClose? t with
        | none =>
            rw [hFound] at ih
            rw [ih]
            rfl
        | some split =>
            rw [hFound] at ih
            obtain ⟨body', rest', hOther, hRests, hFeed⟩ := ih
            rw [hOther]
            exact ⟨_, rest', rfl, hRests, by rw [List.mem_cons, List.mem_cons, hFeed]⟩
  | @strip t u hRest ih =>
      rw [Comment.splitClose?_cons (by simp), Comment.splitClose?_cons (by simp),
        Comment.splitClose?_cons (by simp)]
      cases hFound : Comment.splitClose? t with
      | none =>
          rw [hFound] at ih
          rw [ih]
          rfl
      | some split =>
          rw [hFound] at ih
          obtain ⟨body', rest', hOther, hRests, -⟩ := ih
          rw [hOther]
          exact ⟨_, rest', rfl, hRests, by simp⟩

/-- Where a line ends it ends with other line ends too. -/
theorem lineEnds_eq (h : Relined t u) (hReturn : t.head? ≠ some '\r') :
    Comment.lineEnds u = Comment.lineEnds t := by
  cases t with
  | nil => obtain rfl | rfl := h.head_of_nil <;> rfl
  | cons c t =>
      obtain ⟨u, rfl, hRest⟩ := h.exists_of_cons (by simpa using hReturn)
      cases hRest with
      | nil => rfl
      | lineFeed =>
          rw [Comment.lineEnds_cons_cons (by simp), Comment.lineEnds_singleton]
          simp
      | strip => rw [Comment.lineEnds_cons_cons (by simp), Comment.lineEnds_cons_cons (by simp)]; rfl
      | @keep t u d hRest =>
          by_cases hBlock : c = '/' ∧ d = '*'
          · obtain ⟨rfl, rfl⟩ := hBlock
            have hClose := hRest.splitClose?
            rw [Comment.lineEnds, Comment.lineEnds]
            cases hFound : Comment.splitClose? t with
            | none =>
                rw [hFound] at hClose
                rw [hClose]
            | some split =>
                rw [hFound] at hClose
                obtain ⟨body', rest', hOther, -, hFeed⟩ := hClose
                rw [hOther]
                simpa using hFeed
          · rw [Comment.lineEnds_cons_cons hBlock, Comment.lineEnds_cons_cons hBlock]

/-- Behind a line comment the text is as before, but for a carriage return that may have been part of
the comment. -/
theorem splitLine (h : Relined t u) : ∃ v, Relined (Comment.splitLine t).2 v ∧
    (Lexer.splitGap false (Comment.splitLine u).2).2 = (Lexer.splitGap false v).2 := by
  induction h with
  | nil => exact ⟨[], .nil, rfl⟩
  | lineFeed => exact ⟨[], .nil, rfl⟩
  | strip hRest => exact ⟨_, .strip hRest, rfl⟩
  | @keep t u c hRest ih =>
      by_cases hFeed : c = '\n'
      · subst hFeed
        exact ⟨_, .keep '\n' hRest, rfl⟩
      by_cases hReturn : ∃ v, c :: t = '\r' :: '\n' :: v
      · obtain ⟨v, hv⟩ := hReturn
        obtain ⟨rfl, rfl⟩ := List.cons_eq_cons.1 hv
        obtain ⟨w, rfl, hw⟩ := hRest.exists_of_cons (by decide)
        exact ⟨_, .keep '\r' (.keep '\n' hw), rfl⟩
      obtain ⟨v, hv, hSame⟩ := ih
      rw [Comment.splitLine_cons hFeed fun w hw => hReturn ⟨w, hw⟩]
      refine ⟨v, hv, ?_⟩
      by_cases hReturn' : ∃ v, c :: u = '\r' :: '\n' :: v
      · obtain ⟨w, hw⟩ := hReturn'
        obtain ⟨rfl, rfl⟩ := List.cons_eq_cons.1 hw
        exact hSame
      · rw [Comment.splitLine_cons hFeed fun w hw => hReturn' ⟨w, hw⟩]
        exact hSame

/-! ## Tokens -/

/-- A token that holds no line end of two characters stays what it is. -/
theorem exists_scan {c : Char} {kind : TokenKind} (h : Relined t u)
    (hScan : (Lexeme.scan c t).reading = .ok kind) (hKind : kind ≠ .comment)
    (hPair : ¬['\r', '\n'] <:+: (Lexeme.scan c t).text) :
    ∃ later, Relined (Lexeme.scan c t).rest later ∧
      Lexeme.scan c u = ⟨.ok kind, (Lexeme.scan c t).text, later⟩ := by
  have hSpells := Lexeme.spells_scan hScan
  obtain ⟨v, hText, ht⟩ := Lexeme.exists_text_scan c t
  have hEnd : (c :: v).getLast? ≠ some '\r' := by
    rw [← hText]
    exact Lexeme.getLast?_ne_of_isStop hSpells hKind Lexeme.isStop_return (by decide)
  rw [hText] at hPair
  -- The rest of the line, in which nothing changes, and what is behind it.
  let isBefore : Char → Bool := fun c => !isLineEnd c
  let r := (Lexeme.scan c t).rest.takeWhile isBefore
  let z := (Lexeme.scan c t).rest.dropWhile isBefore
  have hRest : (Lexeme.scan c t).rest = r ++ z := List.takeWhile_append_dropWhile.symm
  have hLine : ∀ c ∈ r, isLineEnd c = false := fun c hc => by
    simpa [isBefore] using List.mem_takeWhile_imp hc
  have hBehind : ∀ e ∈ z.head?, isLineEnd e = true := fun e he => by
    have hHead := List.head?_dropWhile_not isBefore (Lexeme.scan c t).rest
    rw [show List.dropWhile isBefore (Lexeme.scan c t).rest = z from rfl, he] at hHead
    simpa [isBefore] using hHead
  have hStop {y : Text} (hy : ∀ c ∈ y.head?, isLineEnd c = true) : ∀ c ∈ y.head?, Lexeme.IsStop c := by
    intro c hc
    have hc := hy c hc
    rw [isLineEnd, Bool.or_eq_true, beq_iff_eq, beq_iff_eq] at hc
    rcases hc with rfl | rfl
    · exact Lexeme.isStop_return
    · exact Lexeme.isStop_lineFeed
  have hReturn : '\r' ∉ r := fun hMem => by cases hLine _ hMem
  rw [hRest] at ht
  rw [← ht] at h
  obtain ⟨u, rfl, hu⟩ := h.exists_of_append (fun hInfix => hPair (List.infix_cons hInfix))
    fun hLast => hEnd (by rw [List.getLast?_cons, hLast]; rfl)
  obtain ⟨y, rfl, hy⟩ := hu.exists_of_append (fun hInfix => hReturn (hInfix.subset List.mem_cons_self))
    fun hLast => hReturn (List.mem_of_getLast? hLast)
  refine ⟨r ++ y, by rw [hRest]; exact hy.append r, ?_⟩
  rw [hText]
  refine Lexeme.scan_append_congr hKind ?_ (hStop hBehind) (hStop (hy.isLineEnd_head hBehind))
  rw [ht, ← hRest, ← hText, ← hScan]

/-- The lines of a text, each with a line feed, are the text with other line ends. -/
theorem flatMap_lines (t : Text) : Relined t (t.lines.flatMap (· ++ ['\n'])) := by
  fun_induction lines t with
  | case1 => exact .nil
  | case2 t ih => exact .keep '\n' ih
  | case3 t ih => exact .strip ih
  | case4 c t _ _ line rest hLines ih =>
      rw [hLines] at ih
      exact .keep c ih
  | case5 c t _ _ hLines =>
      obtain rfl : t = [] := by
        by_contra hNe
        exact lines_ne_nil hNe hLines
      exact .keep c .lineFeed

end Text.Relined

/-- With other line ends a text has the same tokens, as long as they hold no line end of two
characters. -/
theorem BareTokens.relined {due : Bool} {t u : Text} {ws : List Token} (h : BareTokens due t ws)
    (hSame : Relined t u) (hPair : ∀ w ∈ ws, ¬['\r', '\n'] <:+: w.lexeme) : BareTokens due u ws := by
  induction h generalizing u with
  | stop hGap =>
      have hBlank := hSame.splitGap false
      rw [hGap] at hBlank
      refine .stop (hBlank.head_of_nil.resolve_right fun hFeed => ?_)
      cases Lexer.isGap_of_splitGap hFeed
  | @semicolon t x ws hGap hEnds _ ih =>
      have hBehind := hSame.splitGap true
      rw [hGap] at hBehind
      have hReturn : x.head? ≠ some '\r' := by
        intro hHead
        obtain ⟨v, rfl⟩ := List.head?_eq_some_iff.1 hHead
        exact Lexer.ne_return_of_splitGap hGap rfl
      refine .semicolon rfl ((hBehind.lineEnds_eq hReturn).trans hEnds) (ih ?_ (List.forall_mem_cons.1 hPair).2)
      cases x with
      | nil =>
          rcases hBehind.head_of_nil with hNil | hFeed
          · rw [hNil]
            exact .nil
          · rw [hFeed]
            exact .nil
      | cons c x =>
          obtain ⟨y, hy, hRest⟩ := hBehind.exists_of_cons (by simpa using hReturn)
          rw [hy]
          by_cases hFeed : c = '\n'
          · simpa [hFeed] using hRest
          · simpa [hFeed] using hRest.keep c
  | @comment due t x c ws hGap hGoesOn hScan _ ih =>
      have hBehind := hSame.splitGap due
      rw [hGap] at hBehind
      obtain ⟨y, hGap', hy⟩ := hBehind.exists_of_cons (Lexer.ne_return_of_splitGap hGap)
      have hGoesOn' : (due && Comment.lineEnds (c :: y)) = false := by
        rw [(hy.keep c).lineEnds_eq (by simpa using Lexer.ne_return_of_splitGap hGap)]
        exact hGoesOn
      obtain ⟨rfl, ⟨v, rfl, hLine⟩ | ⟨v, body, rest, rfl, hClose, hBlock⟩⟩ := Lexeme.scan_of_comment hScan
      · obtain ⟨v', rfl, hv⟩ := hy.exists_of_cons (by decide)
        obtain ⟨later, hLater, hSplit⟩ := hv.splitLine
        obtain rfl : due = false := by rwa [Comment.lineEnds, Bool.and_true] at hGoesOn
        rw [hLine] at ih
        exact .comment hGap' hGoesOn' rfl ((ih hLater hPair).of_splitGap hSplit)
      · obtain ⟨v', rfl, hv⟩ := hy.exists_of_cons (by decide)
        have hOther := hv.splitClose?
        rw [hClose] at hOther
        obtain ⟨body', rest', hClose', hRest, -⟩ := hOther
        have hScan' : Lexeme.scan '/' ('*' :: v') = ⟨.ok .comment, '/' :: '*' :: body', rest'⟩ := by
          change Comment.block v' = _
          rw [Comment.block, hClose']
        rw [hBlock] at ih
        refine .comment hGap' hGoesOn' (by rw [hScan']) ?_
        rw [hScan']
        exact ih hRest hPair
  | @token due t x c kind ws hGap hGoesOn hScan hKind _ ih =>
      have hBehind := hSame.splitGap due
      rw [hGap] at hBehind
      obtain ⟨y, hGap', hy⟩ := hBehind.exists_of_cons (Lexer.ne_return_of_splitGap hGap)
      obtain ⟨hHere, hLater⟩ := List.forall_mem_cons.1 hPair
      obtain ⟨later, hRest, hScan'⟩ := hy.exists_scan hScan hKind hHere
      have hReading : (Lexeme.scan c y).reading = .ok kind := by rw [hScan']
      have hGoesOn' : (due && Comment.lineEnds (c :: y)) = false := by
        rw [Lexeme.lineEnds_eq_false hReading hKind, Bool.and_false]
      have hToken := token hGap' hGoesOn' hReading hKind (by rw [hScan']; exact ih hRest hLater)
      rw [hScan'] at hToken
      exact hToken

end GoTemplate
