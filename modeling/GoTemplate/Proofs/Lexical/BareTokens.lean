import GoTemplate.Lexical.Lexer
import GoTemplate.Proofs.Lexical.Locality

/-!
The tokens of a text without their places. They do not depend on where the text stands: texts that
end with a line feed have their tokens one after the other when they are put together.
-/

namespace GoTemplate

/-- The token without its place. -/
def Token.bare (t : Token) : Token := { t with span := .none }

open Lexer in
/-- What a grammar reads from a text of which every part is a token, from a place where a semicolon
is due or not. -/
inductive BareTokens : Bool → Text → List Token → Prop where
  | stop {t : Text} (hGap : (splitGap false t).2 = []) : BareTokens false t []
  | semicolon {t u : Text} {ws : List Token} (hGap : (splitGap true t).2 = u)
      (hEnds : Comment.lineEnds u = true)
      (hRest : BareTokens false (if u.head? = some '\n' then u.tail else u) ws) :
      BareTokens true t (⟨.semicolon, ['\n'], .none⟩ :: ws)
  | comment {due : Bool} {t u : Text} {c : Char} {ws : List Token}
      (hGap : (splitGap due t).2 = c :: u) (hGoesOn : (due && Comment.lineEnds (c :: u)) = false)
      (hScan : (Lexeme.scan c u).reading = .ok .comment)
      (hRest : BareTokens due (Lexeme.scan c u).rest ws) : BareTokens due t ws
  | token {due : Bool} {t u : Text} {c : Char} {kind : TokenKind} {ws : List Token}
      (hGap : (splitGap due t).2 = c :: u) (hGoesOn : (due && Comment.lineEnds (c :: u)) = false)
      (hScan : (Lexeme.scan c u).reading = .ok kind) (hKind : kind ≠ .comment)
      (hRest : BareTokens kind.endsStatement (Lexeme.scan c u).rest ws) :
      BareTokens due t (⟨kind, (Lexeme.scan c u).text, .none⟩ :: ws)

/-! ## Readers of tokens -/

/-- The quote with which a quoted literal starts and ends. -/
def Literal.quote? : Literal → Option Char
  | .string => some '"'
  | .rune => some '\''
  | .rawString => some '`'
  | _ => none

/-- Whether a text starts as a number does: with a digit, or with a point and a digit. -/
def startsNumeral : Text → Bool
  | [] => false
  | c :: t => c.isDigit || (c == '.' && t.head?.any Char.isDigit)

theorem startsNumeral_of_append {t u : Text} (h : startsNumeral t = true) : startsNumeral (t ++ u) = true := by
  obtain _ | ⟨c, _ | ⟨d, t⟩⟩ := t
  · cases h
  · have hDigit : c.isDigit = true := by simpa [startsNumeral] using h
    simp [startsNumeral, hDigit]
  · exact h

namespace Numeral

/-- A point that starts a number takes the digit after it along. -/
theorem text_scan_point {d : Char} (hDigit : d.isDigit) (t : Text) :
    ∃ v, (scan ('.' :: d :: t)).text = '.' :: d :: v := by
  have hWhole : splitDigits 10 ('.' :: d :: t) = ([], '.' :: d :: t) := rfl
  have hDigits : (splitDigits 10 (d :: t)).1 = d :: (splitDigits 10 t).1 := by
    rw [splitDigits, List.takeWhile_cons, isDigitOf_ten hDigit]
    rfl
  have hEllipsis : "...".toList.isPrefixOf ('.' :: d :: t) = false := by
    have hDot : d ≠ '.' := by
      rintro rfl
      cases hDigit
    simp [List.isPrefixOf, hDot.symm]
  obtain ⟨v, hv⟩ : ∃ v, (read ('.' :: d :: t)).1.text = '.' :: d :: v := by
    rw [read_of_ne (by simp), readDecimal]
    simp only [hWhole, hEllipsis, Bool.false_eq_true, if_false, readFraction?, hDigits, text,
      Radix.lead, fractionText, List.nil_append, List.cons_append]
    exact ⟨_, rfl⟩
  unfold scan
  dsimp only
  split
  · exact ⟨v, hv⟩
  · split
    · exact ⟨v ++ ['i'], by rw [hv]; rfl⟩
    · exact ⟨v, hv⟩

/-- The text of a number starts as the text does that it was read from. -/
theorem startsNumeral_text_scan {c : Char} {t : Text} (hStarts : startsNumeral (c :: t) = true) :
    startsNumeral (scan (c :: t)).text = true := by
  have hSource := source_scan (c :: t)
  have hNe := text_scan_ne_nil hStarts
  rw [startsNumeral, Bool.or_eq_true, Bool.and_eq_true, beq_iff_eq] at hStarts
  rcases hStarts with hDigit | ⟨rfl, hDigit⟩
  · obtain ⟨d, u, hText⟩ := List.exists_cons_of_ne_nil hNe
    rw [Lexeme.source, hText] at hSource
    obtain rfl := (List.cons_eq_cons.1 hSource).1
    simp [hText, startsNumeral, hDigit]
  · obtain ⟨d, hHead, hPointed⟩ := (Option.any_eq_true ..).1 hDigit
    obtain ⟨u, rfl⟩ := List.head?_eq_some_iff.1 hHead
    obtain ⟨v, hText⟩ := text_scan_point hPointed u
    simp [hText, startsNumeral, hPointed]

end Numeral

namespace Lexeme

theorem reading_body (kind : Literal) (fault : LexicalFault) (quote : Char) (t : Text) :
    (Quoted.body kind fault quote t).reading = .ok (.literal kind) ∨
      (Quoted.body kind fault quote t).reading = .error fault := by
  fun_induction Quoted.body kind fault quote t with
  | case1 => exact .inr rfl
  | case2 => exact .inr rfl
  | case3 => exact .inl rfl
  | case4 => exact .inr rfl
  | case5 => exact .inr rfl
  | case6 => exact .inl rfl
  | case7 _ _ _ _ _ _ ih => exact ih
  | case8 _ _ _ _ _ _ ih => exact ih

theorem reading_rawBody (t : Text) :
    (Quoted.rawBody t).reading = .ok (.literal .rawString) ∨
      (Quoted.rawBody t).reading = .error .unterminatedRawString := by
  fun_induction Quoted.rawBody t with
  | case1 => exact .inr rfl
  | case2 => exact .inl rfl
  | case3 _ _ _ ih => exact ih

/-- What a reader makes of a text: a fault, a comment, a literal, a word or a symbol. -/
theorem reading_cases (c : Char) (t : Text) :
    (∃ fault, (scan c t).reading = .error fault) ∨ (scan c t).reading = .ok .comment ∨
      (∃ l, (scan c t).reading = .ok (.literal l)) ∨
        (isIdentifierStart c = true ∧ scan c t = word c t) ∨ scan c t = symbol c t := by
  have hBody (kind : Literal) (fault : LexicalFault) (quote : Char) (u : Text) :
      (∃ fault', (Quoted.body kind fault quote u).reading = .error fault') ∨
        ∃ l, (Quoted.body kind fault quote u).reading = .ok (.literal l) :=
    (reading_body kind fault quote u).symm.imp (⟨_, ·⟩) (⟨_, ·⟩)
  unfold scan
  split
  · exact .inr (.inl rfl)
  · unfold Comment.block
    split
    · exact .inr (.inl rfl)
    · exact .inl ⟨_, rfl⟩
  · exact (hBody _ _ _ _).imp_right fun h => .inr (.inl h)
  · change (∃ fault, (Quoted.rawBody t).reading = .error fault) ∨ _
    exact (reading_rawBody t).symm.imp (⟨_, ·⟩) fun h => .inr (.inl ⟨_, h⟩)
  · exact (hBody _ _ _ _).imp_right fun h => .inr (.inl h)
  · split
    · unfold Numeral.scan
      dsimp only
      split
      · exact .inl ⟨_, rfl⟩
      · split
        · exact .inr (.inr (.inl ⟨_, rfl⟩))
        · exact .inr (.inr (.inl ⟨_, rfl⟩))
    · split
      · rename_i hStart
        exact .inr (.inr (.inr (.inl ⟨hStart, rfl⟩)))
      · exact .inr (.inr (.inr (.inr rfl)))

/-- A symbol of the table is taken with its spelling. -/
theorem symbol_cases (c : Char) (t : Text) :
    (∃ kind spelling, (symbol c t).reading = .ok kind ∧ (spelling, kind) ∈ symbolTable ∧
      (symbol c t).text = spelling) ∨ ∃ fault, (symbol c t).reading = .error fault := by
  have hTable : ∀ entry ∈ symbolTable, entry.1 ≠ [] := by decide +kernel
  unfold symbol
  split
  · rename_i spelling kind hFind
    have hMem := List.mem_of_find?_eq_some hFind
    have hFound : spelling.isPrefixOf (c :: t) = true := by simpa using List.find?_some hFind
    have hPrefix := List.isPrefixOf_iff_prefix.1 hFound
    obtain ⟨d, tail, rfl⟩ := List.exists_cons_of_ne_nil (hTable _ hMem)
    obtain ⟨rfl, hTail⟩ := List.cons_prefix_cons.1 hPrefix
    refine .inl ⟨kind, _, rfl, hMem, congrArg (d :: ·) ?_⟩
    exact (List.prefix_iff_eq_take.1 hTail).symm
  · exact .inr ⟨_, rfl⟩

/-- Where a text starts as a number does, a number is read. -/
theorem scan_of_startsNumeral {c : Char} {t : Text} (h : startsNumeral (c :: t) = true) :
    scan c t = Numeral.scan (c :: t) := by
  have hNot (d : Char) (hd : d ∈ ['/', '"', '`', '\'']) : c ≠ d := by
    rintro rfl
    have hSigns : ['/', '"', '`', '\''].all (fun d => !(d.isDigit || d == '.')) = true := by decide
    have hSign := List.all_eq_true.1 hSigns c hd
    rw [startsNumeral, Bool.or_eq_true, Bool.and_eq_true] at h
    rcases h with hDigit | ⟨hPoint, -⟩
    · rw [hDigit] at hSign
      cases hSign
    · rw [hPoint, Bool.or_true] at hSign
      cases hSign
  rw [scan_of_ne (fun hSlash => absurd hSlash (hNot _ (by simp))) (hNot _ (by simp)) (hNot _ (by simp))
    (hNot _ (by simp))]
  exact if_pos h

/-- A literal is in quotes, or it is a number, and then its text starts as one. -/
theorem literal_cases {c : Char} {t : Text} {l : Literal} (h : (scan c t).reading = .ok (.literal l)) :
    l.quote? = some c ∨
      l.quote? = none ∧ startsNumeral (c :: t) = true ∧ scan c t = Numeral.scan (c :: t) := by
  have hBody {kind : Literal} {fault : LexicalFault} {d : Char} {u : Text}
      (h : (Quoted.body kind fault d u).reading = .ok (.literal l)) : kind = l := by
    rcases reading_body kind fault d u with hRead | hRead
    · rw [hRead] at h
      cases h
      rfl
    · rw [hRead] at h
      cases h
  unfold scan at h
  split at h
  · cases h
  · unfold Comment.block at h
    split at h
    · cases h
    · cases h
  · obtain rfl := hBody h
    exact .inl rfl
  · change (Quoted.rawBody t).reading = _ at h
    rcases reading_rawBody t with hRead | hRead
    · rw [hRead] at h
      cases h
      exact .inl rfl
    · rw [hRead] at h
      cases h
  · obtain rfl := hBody h
    exact .inl rfl
  · split at h
    · rename_i hStarts
      refine .inr ⟨?_, hStarts, scan_of_startsNumeral hStarts⟩
      unfold Numeral.scan at h
      dsimp only at h
      split at h
      · cases h
      · split at h
        · cases h
          rfl
        · cases h
          unfold Numeral.literal
          split
          · rfl
          · rfl
    · split at h
      · unfold word at h
        dsimp only at h
        split at h
        · cases h
        · cases h
      · have hTable : ∀ entry ∈ symbolTable, entry.2.class? ≠ some .literal := by decide +kernel
        unfold symbol at h
        split at h
        · rename_i hFind
          cases h
          exact absurd rfl (hTable _ (List.mem_of_find?_eq_some hFind))
        · cases h

/-- No text is the end of the source or a token that is invalid. -/
theorem reading_ne {kind : TokenKind} (hKind : kind = .endOfSource ∨ kind = .invalid) (c : Char)
    (t : Text) : (scan c t).reading ≠ .ok kind := by
  intro hEnd
  have hTable : ∀ entry ∈ symbolTable, entry.2 ≠ .endOfSource ∧ entry.2 ≠ .invalid := by
    decide +kernel
  rcases reading_cases c t with ⟨fault, h⟩ | h | ⟨l, h⟩ | ⟨-, h⟩ | h
  · rw [h] at hEnd
    cases hEnd
  · rw [h] at hEnd
    cases hEnd
    simp at hKind
  · rw [h] at hEnd
    cases hEnd
    simp at hKind
  · rw [h, word] at hEnd
    dsimp only at hEnd
    split at hEnd
    · cases hEnd
      simp at hKind
    · cases hEnd
      simp at hKind
  · rcases symbol_cases c t with ⟨found, spelling, hFound, hMem, -⟩ | ⟨fault, hFault⟩
    · rw [h, hFound] at hEnd
      cases hEnd
      exact hKind.elim (hTable _ hMem).1 (hTable _ hMem).2
    · rw [h, hFault] at hEnd
      cases hEnd

theorem reading_ne_endOfSource (c : Char) (t : Text) : (scan c t).reading ≠ .ok .endOfSource :=
  reading_ne (.inl rfl) c t

/-- A token of a kind with only one spelling is spelled so. -/
theorem text_of_spelling {c : Char} {t : Text} {kind : TokenKind} {spelling : String}
    (h : (scan c t).reading = .ok kind) (hSpelling : kind.spelling? = some spelling) :
    (scan c t).text = spelling.toList := by
  have hTable : ∀ entry ∈ symbolTable, entry.2.spelling?.map String.toList = some entry.1 := by
    decide +kernel
  rcases reading_cases c t with ⟨fault, hCase⟩ | hCase | ⟨l, hCase⟩ | ⟨-, hCase⟩ | hCase
  · rw [hCase] at h
    cases h
  · rw [hCase] at h
    cases h
    cases hSpelling
  · rw [hCase] at h
    cases h
    cases hSpelling
  · rw [hCase, word] at h ⊢
    dsimp only at h ⊢
    split at h
    · rename_i k hKeyword
      cases h
      cases hSpelling
      rw [Keyword.ofWord?] at hKeyword
      have hWord := List.find?_some hKeyword
      exact (beq_iff_eq.1 hWord).symm
    · cases h
      cases hSpelling
  · rcases symbol_cases c t with ⟨kind', text, hKind, hMem, hText⟩ | ⟨fault, hFault⟩
    · rw [hCase, hKind] at h
      cases h
      have hEntry := hTable _ hMem
      rw [hSpelling] at hEntry
      rw [hCase, hText]
      exact (Option.some.inj hEntry).symm
    · rw [hCase, hFault] at h
      cases h

end Lexeme

namespace Lexer

theorem accept_errors_of_ok {l : Lexer} {lexeme : Lexeme} {kind : TokenKind}
    (h : lexeme.reading = .ok kind) : (l.accept lexeme).errors = l.errors := by
  rw [accept, h]
  cases kind <;> rfl

theorem accept_semicolonDue_of_ok {l : Lexer} {lexeme : Lexeme} {kind : TokenKind}
    (h : lexeme.reading = .ok kind) (hKind : kind ≠ .comment) :
    (l.accept lexeme).semicolonDue = (l.mode.semicolons && kind.endsStatement) := by
  rw [accept, h]
  cases kind with
  | comment => exact absurd rfl hKind
  | _ => rfl

theorem accept_semicolonDue_of_comment {l : Lexer} {lexeme : Lexeme} 
    (h : lexeme.reading = .ok .comment) : (l.accept lexeme).semicolonDue = l.semicolonDue := by
  rw [accept, h]
  rfl

/-- What a reader skips is a comment. -/
theorem reading_of_skip {lexeme : Lexeme} {skips : Bool}
    (h : ((lexeme.reading matches .ok .comment) && skips) = true) :
    lexeme.reading = .ok .comment := by
  rw [Bool.and_eq_true] at h
  revert h
  split
  · exact fun _ => ‹_›
  · simp

theorem next_mode (l : Lexer) : l.next.2.mode = l.mode := by
  fun_induction next l with
  | case1 => rfl
  | case2 => rfl
  | case3 l here _ c t _ lexeme _ ih => exact ih.trans (accept_mode here lexeme)
  | case4 l here _ c t _ lexeme => exact accept_mode here lexeme

/-- Where the next token is no fault, it is a bare token with its place. -/
theorem bareTokens_next {l : Lexer} (hMode : l.mode = .statements)
    (hErrors : l.next.2.errors = []) :
    l.errors = [] ∧
      if l.next.1.kind = .endOfSource then BareTokens l.semicolonDue l.rest []
      else ∀ ws, BareTokens l.next.2.semicolonDue l.next.2.rest ws →
        BareTokens l.semicolonDue l.rest (l.next.1.bare :: ws) := by
  fun_induction next l with
  | case1 l here hSemicolon =>
      rw [Bool.and_eq_true] at hSemicolon
      refine ⟨hErrors, ?_⟩
      rw [if_neg (by simp [semicolon])]
      intro ws hRest
      have hDue : l.semicolonDue = true := hSemicolon.1
      rw [hDue]
      exact .semicolon (by rw [← hDue]; rfl) hSemicolon.2 hRest
  | case2 l here hSemicolon hRest =>
      have hDue : l.semicolonDue = false := by
        change ¬(l.semicolonDue && Comment.lineEnds here.rest) = true at hSemicolon
        rw [hRest] at hSemicolon
        simpa [Comment.lineEnds] using hSemicolon
      refine ⟨hErrors, ?_⟩
      rw [if_pos rfl, hDue]
      exact .stop (by rw [← hDue]; exact hRest)
  | case3 l here hGoesOn c t hRest lexeme hSkip ih =>
      have hScan : lexeme.reading = .ok .comment := reading_of_skip hSkip
      have hGap : (splitGap l.semicolonDue l.rest).2 = c :: t := hRest
      have hDue : (l.semicolonDue && Comment.lineEnds (c :: t)) = false := by
        rw [← hRest]
        exact Bool.eq_false_iff.2 hGoesOn
      have hNext := ih (by rw [accept_mode]; exact hMode) hErrors
      rw [accept_errors_of_ok hScan, accept_semicolonDue_of_comment hScan, accept_rest] at hNext
      obtain ⟨hBefore, hTokens⟩ := hNext
      refine ⟨hBefore, ?_⟩
      split at hTokens
      · rw [if_pos ‹_›]
        exact .comment hGap hDue hScan hTokens
      · rw [if_neg ‹_›]
        intro ws hWs
        exact .comment hGap hDue hScan (hTokens ws hWs)
  | case4 l here hGoesOn c t hRest lexeme hKeep =>
      have hGap : (splitGap l.semicolonDue l.rest).2 = c :: t := hRest
      have hDue : (l.semicolonDue && Comment.lineEnds (c :: t)) = false := by
        rw [← hRest]
        exact Bool.eq_false_iff.2 hGoesOn
      cases hScan : lexeme.reading with
      | error fault =>
          have hFault : (here.accept lexeme).errors =
              l.errors ++ [⟨fault, (here.token lexeme).span⟩] := by
            rw [accept, hScan]
            rfl
          rw [hFault] at hErrors
          simp at hErrors
      | ok kind =>
          have hComment : kind ≠ .comment := by
            rintro rfl
            rw [hScan, hMode] at hKeep
            exact hKeep rfl
          have hKind : (here.token lexeme).kind = kind := by rw [token, hScan]
          rw [accept_errors_of_ok hScan] at hErrors
          refine ⟨hErrors, ?_⟩
          rw [hKind, if_neg, accept_rest, accept_semicolonDue_of_ok hScan hComment]
          · intro ws hWs
            have hSemicolons : here.mode.semicolons = true := by
              change l.mode.semicolons = true
              rw [hMode]
              rfl
            have hToken : (here.token lexeme).bare = ⟨kind, lexeme.text, .none⟩ := by
              rw [Token.bare, hKind]
              rfl
            rw [hSemicolons, Bool.true_and] at hWs
            rw [hToken]
            exact .token hGap hDue hScan hComment hWs
          · rintro rfl
            exact Lexeme.reading_ne_endOfSource c t hScan

theorem run_eq (l : Lexer) : l.run =
    if l.next.1.kind = .endOfSource then ⟨[], l.next.1, l.next.2⟩
    else { l.next.2.run with tokens := l.next.1 :: l.next.2.run.tokens } := by
  rw [run]
  rfl

/-- A run without faults finds bare tokens, each with its place. -/
theorem bareTokens_run {l : Lexer} (hMode : l.mode = .statements)
    (hErrors : l.run.after.errors = []) :
    l.errors = [] ∧ BareTokens l.semicolonDue l.rest (l.run.tokens.map Token.bare) := by
  fun_induction run l with
  | case1 l token after hNext hEnd =>
      have hStep := bareTokens_next (l := l) hMode (by rw [hNext]; exact hErrors)
      rw [hNext, if_pos hEnd] at hStep
      exact hStep
  | case2 l token after hNext hEnd others ih =>
      have hAfterMode : after.mode = .statements := by
        rw [← hMode, ← next_mode l, hNext]
      obtain ⟨hAfter, hOthers⟩ := ih hAfterMode hErrors
      have hStep := bareTokens_next (l := l) hMode (by rw [hNext]; exact hAfter)
      rw [hNext, if_neg hEnd] at hStep
      exact ⟨hStep.1, hStep.2 _ hOthers⟩

theorem skipGap_rest_eq {l : Lexer} {due : Bool} {t u : Text} (hDue : l.semicolonDue = due)
    (hRest : l.rest = t) (hGap : (splitGap due t).2 = u) : l.skipGap.rest = u := by
  rw [← hGap, ← hDue, ← hRest]
  rfl

theorem next_of_lineEnds {l : Lexer}
    (h : (l.semicolonDue && Comment.lineEnds l.skipGap.rest) = true) :
    l.next = l.skipGap.semicolon := by
  rw [next]
  exact if_pos h

theorem next_of_nil {l : Lexer} (hDue : l.semicolonDue = false) (hRest : l.skipGap.rest = []) :
    l.next = (⟨.endOfSource, [], .startingAt l.skipGap.position 0⟩, l.skipGap) := by
  have hGoesOn : ¬(l.semicolonDue && Comment.lineEnds l.skipGap.rest) = true := by simp [hDue]
  rw [next]
  refine (if_neg hGoesOn).trans ?_
  split
  · rfl
  · simp_all

theorem next_of_cons {l : Lexer} {c : Char} {t : Text}
    (hGoesOn : (l.semicolonDue && Comment.lineEnds (c :: t)) = false)
    (hRest : l.skipGap.rest = c :: t) :
    l.next = if (Lexeme.scan c t).reading matches .ok .comment && !l.mode.comments then
        (l.skipGap.accept (Lexeme.scan c t)).next
      else (l.skipGap.token (Lexeme.scan c t), l.skipGap.accept (Lexeme.scan c t)) := by
  have hGoesOn' : ¬(l.semicolonDue && Comment.lineEnds l.skipGap.rest) = true := by
    rw [hRest, hGoesOn]
    exact Bool.false_ne_true
  rw [next]
  refine (if_neg hGoesOn').trans ?_
  split
  · simp_all
  · rename_i hCons
    rw [hRest] at hCons
    cases hCons
    rfl

end Lexer

/-- A reader at the bare tokens finds them, each with its place. -/
theorem BareTokens.run_eq {due : Bool} {t : Text} {ws : List Token} (h : BareTokens due t ws)
    (l : Lexer) (hMode : l.mode = .statements) (hDue : l.semicolonDue = due) (hRest : l.rest = t)
    (hErrors : l.errors = []) :
    l.run.after.errors = [] ∧ l.run.tokens.map Token.bare = ws ∧
      l.run.stop.bare = ⟨.endOfSource, [], .none⟩ := by
  induction h generalizing l with
  | stop hGap =>
      rw [Lexer.run_eq, Lexer.next_of_nil hDue (Lexer.skipGap_rest_eq hDue hRest hGap), if_pos rfl]
      exact ⟨hErrors, rfl, rfl⟩
  | semicolon hGap hEnds _ ih =>
      have hSame := Lexer.skipGap_rest_eq hDue hRest hGap
      have hLineEnds : (l.semicolonDue && Comment.lineEnds l.skipGap.rest) = true := by
        rw [hDue, hSame, hEnds]
        rfl
      obtain ⟨hAfter, hTokens, hStop⟩ :=
        ih l.skipGap.semicolon.2 hMode rfl (by rw [← hSame]; rfl) hErrors
      rw [Lexer.run_eq, Lexer.next_of_lineEnds hLineEnds, if_neg (by simp [Lexer.semicolon])]
      exact ⟨hAfter, congrArg _ hTokens, hStop⟩
  | @comment due t u c ws hGap hGoesOn hScan _ ih =>
      have hSame := Lexer.skipGap_rest_eq hDue hRest hGap
      have hNext : l.next = (l.skipGap.accept (Lexeme.scan c u)).next := by
        rw [Lexer.next_of_cons (by rw [hDue]; exact hGoesOn) hSame, hScan, hMode]
        rfl
      rw [Lexer.run_eq, hNext, ← Lexer.run_eq]
      apply ih
      · rw [Lexer.accept_mode]
        exact hMode
      · rw [Lexer.accept_semicolonDue_of_comment hScan]
        exact hDue
      · exact Lexer.accept_rest _ _
      · rw [Lexer.accept_errors_of_ok hScan]
        exact hErrors
  | @token due t u c kind ws hGap hGoesOn hScan hKind _ ih =>
      have hSame := Lexer.skipGap_rest_eq hDue hRest hGap
      have hNext : l.next =
          (l.skipGap.token (Lexeme.scan c u), l.skipGap.accept (Lexeme.scan c u)) := by
        rw [Lexer.next_of_cons (by rw [hDue]; exact hGoesOn) hSame, hScan]
        cases kind with
        | comment => exact absurd rfl hKind
        | _ => rfl
      have hFound : (l.skipGap.token (Lexeme.scan c u)).kind = kind := by rw [Lexer.token, hScan]
      obtain ⟨hAfter, hTokens, hStop⟩ := ih (l.skipGap.accept (Lexeme.scan c u))
        (by rw [Lexer.accept_mode]; exact hMode)
        (by rw [Lexer.accept_semicolonDue_of_ok hScan hKind]
            change (l.mode.semicolons && kind.endsStatement) = _
            rw [hMode]
            rfl)
        (Lexer.accept_rest _ _) (by rw [Lexer.accept_errors_of_ok hScan]; exact hErrors)
      have hEnd : kind ≠ .endOfSource := by
        rintro rfl
        exact Lexeme.reading_ne_endOfSource c u hScan
      rw [Lexer.run_eq, hNext, hFound, if_neg hEnd]
      refine ⟨hAfter, ?_, hStop⟩
      rw [List.map_cons, hTokens, Token.bare, hFound]
      rfl

/-! ## Texts in a row -/

namespace Lexer

/-- Whether a character may stand between tokens. -/
def isGap (due : Bool) (c : Char) : Bool := isBlank c && !(due && c == '\n')

/-- The text without a byte order mark at its front. -/
def dropMark (t : Text) : Text := if t.head? = some '\uFEFF' then t.tail else t

theorem dropMark_append {s : Text} (hs : s ≠ []) (t : Text) :
    dropMark (s ++ t) = dropMark s ++ t := by
  obtain ⟨c, s, rfl⟩ := List.exists_cons_of_ne_nil hs
  unfold dropMark
  by_cases hc : c = '\uFEFF'
  · simp [hc]
  · simp [hc]

theorem splitGap_snd (due : Bool) (t : Text) :
    (splitGap due t).2 = (dropMark t).dropWhile (isGap due) := by
  unfold splitGap
  split
  · rfl
  · rename_i hMark
    rw [dropMark, if_neg]
    · rfl
    · intro hHead
      obtain ⟨u, rfl⟩ := List.head?_eq_some_iff.1 hHead
      exact hMark u rfl

/-- Where blanks go up to the end of a text, they go on in the text after it. -/
theorem splitGap_append_of_nil {due : Bool} {s t : Text} (hs : (splitGap due s).2 = [])
    (hMark : t.head? ≠ some '\uFEFF') : (splitGap due (s ++ t)).2 = (splitGap due t).2 := by
  by_cases hNil : s = []
  · rw [hNil, List.nil_append]
  · rw [splitGap_snd] at hs
    have hDrop : dropMark t = t := if_neg hMark
    rw [splitGap_snd, splitGap_snd, dropMark_append hNil, List.dropWhile_append, hs, hDrop]
    rfl

theorem splitGap_lineFeed {due : Bool} {u r : Text} {c : Char}
    (h : (splitGap due (u ++ ['\n'])).2 = c :: r) :
    ∃ v, ∀ t, (splitGap due (u ++ '\n' :: t)).2 = v ++ '\n' :: t := by
  have hMark : ∃ w, ∀ t, dropMark (u ++ '\n' :: t) = w ++ '\n' :: t := by
    by_cases hNil : u = []
    · subst hNil
      exact ⟨[], fun t => rfl⟩
    · exact ⟨dropMark u, fun t => dropMark_append hNil _⟩
  obtain ⟨w, hw⟩ := hMark
  have hSplit (t : Text) : (splitGap due (u ++ '\n' :: t)).2 =
      if (w.dropWhile (isGap due)).isEmpty then ('\n' :: t).dropWhile (isGap due)
      else w.dropWhile (isGap due) ++ '\n' :: t := by
    rw [splitGap_snd, hw, List.dropWhile_append]
  by_cases hBlank : (w.dropWhile (isGap due)).isEmpty = true
  · have hFeed : isGap due '\n' = false := by
      rw [hSplit, if_pos hBlank] at h
      cases hGap : isGap due '\n' with
      | false => rfl
      | true =>
          rw [List.dropWhile_cons, hGap] at h
          cases h
    refine ⟨[], fun t => ?_⟩
    rw [hSplit, if_pos hBlank, List.dropWhile_cons, hFeed]
    rfl
  · refine ⟨w.dropWhile (isGap due), fun t => ?_⟩
    rw [hSplit, if_neg hBlank]

/-- Where a semicolon is due, blanks end before the line feed. -/
theorem splitGap_ne_nil_of_due (u : Text) : (splitGap true (u ++ ['\n'])).2 ≠ [] := by
  have hFeed : isGap true '\n' = false := by decide
  by_cases hNil : u = []
  · subst hNil
    decide
  · rw [splitGap_snd, dropMark_append hNil, dropWhile_append_stop hFeed]
    simp

end Lexer

namespace BareTokens

theorem of_splitGap {due : Bool} {t u : Text} {ws : List Token} (h : BareTokens due t ws)
    (hGap : (Lexer.splitGap due u).2 = (Lexer.splitGap due t).2) : BareTokens due u ws := by
  cases h with
  | stop hStop => exact .stop (hGap.trans hStop)
  | semicolon hSemicolon hEnds hRest => exact .semicolon (hGap.trans hSemicolon) hEnds hRest
  | comment hComment hGoesOn hScan hRest => exact .comment (hGap.trans hComment) hGoesOn hScan hRest
  | token hToken hGoesOn hScan hKind hRest =>
      exact .token (hGap.trans hToken) hGoesOn hScan hKind hRest

/-- A token or a comment in a text that ends with a line feed is the same in every longer text. -/
theorem exists_scan {due : Bool} {s r : Text} {c : Char} {kind : TokenKind}
    (hEnd : s = [] ∧ due = false ∨ ∃ u, s = u ++ ['\n'])
    (hGap : (Lexer.splitGap due s).2 = c :: r)
    (hGoesOn : (due && Comment.lineEnds (c :: r)) = false)
    (hScan : (Lexeme.scan c r).reading = .ok kind) :
    ∃ (text v : Text), (Lexeme.scan c r).rest = v ++ ['\n'] ∧ (Lexeme.scan c r).text = text ∧
      ∀ t, ∃ r', (Lexer.splitGap due (s ++ t)).2 = c :: r' ∧
        (due && Comment.lineEnds (c :: r')) = false ∧
        Lexeme.scan c r' = ⟨.ok kind, text, v ++ '\n' :: t⟩ := by
  obtain ⟨rfl, rfl⟩ | ⟨u, rfl⟩ := hEnd
  · cases hGap
  obtain ⟨v, hv⟩ := Lexer.splitGap_lineFeed hGap
  have hText : c :: r = v ++ ['\n'] := hGap.symm.trans (hv [])
  cases v with
  | nil =>
      cases hText
      have hFault : (Lexeme.scan '\n' []).reading = .error (.unexpectedCharacter '\n') := by
        decide +kernel
      rw [hFault] at hScan
      cases hScan
  | cons d v =>
      obtain ⟨hc, hr⟩ : c = d ∧ r = v ++ ['\n'] := List.cons_eq_cons.1 hText
      subst hc hr
      obtain ⟨l, hl⟩ := Lexeme.scan_lineFeed ⟨kind, hScan⟩
      have hSame : Lexeme.scan c (v ++ ['\n']) = l.followedBy ['\n'] := hl []
      have hReading : l.reading = .ok kind := by
        rw [← hScan, hSame]
        rfl
      rw [hSame]
      refine ⟨l.text, l.rest, rfl, rfl, fun t => ⟨v ++ '\n' :: t, ?_, ?_, ?_⟩⟩
      · rw [List.append_assoc]
        exact hv t
      · rw [← List.cons_append, Comment.lineEnds_lineFeed]
        exact hGoesOn
      · rw [hl, Lexeme.followedBy, hReading]

/-- A text that ends with a line feed has its tokens, and the text after it has its own. -/
theorem append {due : Bool} {s t : Text} {us ts : List Token} (hs : BareTokens due s us)
    (ht : BareTokens false t ts) (hEnd : s = [] ∧ due = false ∨ ∃ u, s = u ++ ['\n'])
    (hMark : t.head? ≠ some '\uFEFF') : BareTokens due (s ++ t) (us ++ ts) := by
  induction hs with
  | stop hGap => exact ht.of_splitGap (Lexer.splitGap_append_of_nil hGap hMark)
  | @semicolon s rest ws hGap hEnds _ ih =>
      obtain ⟨-, hDue⟩ | ⟨u, rfl⟩ := hEnd
      · cases hDue
      obtain ⟨c, r, hCons⟩ := List.exists_cons_of_ne_nil (Lexer.splitGap_ne_nil_of_due u)
      obtain ⟨v, hv⟩ := Lexer.splitGap_lineFeed hCons
      obtain rfl : v ++ ['\n'] = rest := (hv []).symm.trans hGap
      have hEnds' : Comment.lineEnds (v ++ '\n' :: t) = true := by
        rw [Comment.lineEnds_lineFeed]
        exact hEnds
      rw [List.append_assoc]
      refine .semicolon (hv t) hEnds' ?_
      cases v with
      | nil => simpa using ih (.inl ⟨rfl, rfl⟩)
      | cons d v =>
          by_cases hd : d = '\n'
          · subst hd
            simpa using ih (.inr ⟨v, rfl⟩)
          · simpa [hd] using ih (.inr ⟨d :: v, by simp [hd]⟩)
  | comment hGap hGoesOn hScan _ ih =>
      obtain ⟨text, v, hRest, -, hLonger⟩ := exists_scan hEnd hGap hGoesOn hScan
      obtain ⟨r, hGap', hGoesOn', hScan'⟩ := hLonger t
      have hTail := ih (.inr ⟨v, hRest⟩)
      rw [hRest, List.append_assoc] at hTail
      refine .comment hGap' hGoesOn' (by rw [hScan']) ?_
      rw [hScan']
      exact hTail
  | token hGap hGoesOn hScan hKind _ ih =>
      obtain ⟨text, v, hRest, hText, hLonger⟩ := exists_scan hEnd hGap hGoesOn hScan
      obtain ⟨r, hGap', hGoesOn', hScan'⟩ := hLonger t
      have hTail := ih (.inr ⟨v, hRest⟩)
      rw [hRest, List.append_assoc] at hTail
      have hToken := token hGap' hGoesOn' (by rw [hScan']) hKind (by rw [hScan']; exact hTail)
      rw [hScan'] at hToken
      rw [hText]
      exact hToken

end BareTokens

/-- The tokens of a text without their places, unless some of the text is no token. -/
def Text.tokens? (t : Text) : Option (List Token) :=
  let run := (Lexer.ofSource .statements t).run
  if run.after.errors = [] then some (run.tokens.map Token.bare) else none

theorem Text.tokens?_eq_some {t : Text} {ws : List Token} :
    t.tokens? = some ws ↔ BareTokens false t ws := by
  constructor
  · intro h
    simp only [tokens?, Option.ite_none_right_eq_some, Option.some.injEq] at h
    obtain ⟨hErrors, rfl⟩ := h
    exact (Lexer.bareTokens_run rfl hErrors).2
  · intro h
    obtain ⟨hErrors, hTokens, -⟩ := h.run_eq (.ofSource .statements t) rfl rfl rfl rfl
    simp only [tokens?, hErrors, hTokens, if_true]

end GoTemplate
