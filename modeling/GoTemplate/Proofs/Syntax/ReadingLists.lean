import GoTemplate.Proofs.Syntax.Reading

/-!
What lists, groups and expressions take. All of them take phrases if what is in them does, except
that an expression may also end with the source while some of its brackets are open.
-/

namespace GoTemplate

open Brackets

/-- The end of a statement: a semicolon, or nothing at the end of the source and before a bracket
that closes a list of statements. -/
def EndsStatement (word rest : List Token) : Prop :=
  (∃ t, word = [t] ∧ t.kind = .semicolon) ∨
    word = [] ∧ ∀ t, rest.head? = some t → t.kind = .closing .round ∨ t.kind = .closing .curly

/-- What an expression takes. -/
def Expression (stops : TokenKind → Bool) (word rest : List Token) : Prop :=
  Balanced word ∧ (stops .semicolon → Phrase word) ∨
    (Unclosed word ∧ (stops .semicolon → Undivided word)) ∧ rest = []

/-- What a list of items takes, where the word of its last item may satisfy `U` instead of being
balanced, and then goes on to the end of the source. -/
def Items {α : Type} (U : α → List Token → Prop) (items : List α) (word rest : List Token) : Prop :=
  Balanced word ∨ rest = [] ∧ ∃ before a u v, items = before ++ [a] ∧ word = u ++ v ∧
    Balanced u ∧ U a v

theorem Items.cons {α : Type} {U : α → List Token → Prop} {items : List α}
    {u v rest : List Token} (a : α) (hu : Balanced u) (hv : Items U items v rest) :
    Items U (a :: items) (u ++ v) rest := by
  rcases hv with hv | ⟨hEnd, before, last, v, w, rfl, rfl, hv, hw⟩
  · exact .inl (hu.append hv)
  · exact .inr ⟨hEnd, a :: before, last, u ++ v, w, rfl, by simp, hu.append hv, hw⟩

theorem EndsStatement.balanced {word rest : List Token} (h : EndsStatement word rest) :
    Balanced word := by
  rcases h with ⟨t, rfl, ht⟩ | ⟨rfl, -⟩
  · exact .singleton ⟨by simp [ht], by simp [ht]⟩
  · exact .nil

namespace Parser

variable {α β : Type} {n : Nat} {Start : Cursor → Prop}

/-! ## Lists -/

theorem reads_statementEnd : Reads n statementEnd fun _ w r => EndsStatement w r := by
  have hNothing {k : TokenKind} {b : Bracket} (hk : k = .closing b)
      (hb : b = .round ∨ b = .curly) :
      ReadsFrom n (fun c => True ∧ c.kind = k) (pure ()) fun _ w r => EndsStatement w r := by
    rintro c _ _ hc - ⟨-, hKind⟩ ⟨⟩
    refine ⟨[], ⟨rfl, rfl, fun _ _ _ => rfl⟩, .inr ⟨rfl, ?_⟩⟩
    intro t hHead
    have hNext : t.kind = k := by
      rw [← hKind, kind_eq hc, nextKind, hHead]
      rfl
    rw [hNext, hk]
    rcases hb with rfl | rfl
    · exact .inl rfl
    · exact .inr rfl
  refine reads_kind_bind fun found => ?_
  split
  · refine (reads_take (by decide)).bind (fun _ => reads_pure ()) ?_
    rintro t _ _ _ _ ⟨rfl, ht⟩ ⟨-, rfl⟩
    exact .inl ⟨t, rfl, ht⟩
  · exact hNothing rfl (.inl rfl)
  · exact hNothing rfl (.inr rfl)
  · rintro c _ _ hc - ⟨-, hKind⟩ ⟨⟩
    refine ⟨[], ⟨rfl, rfl, fun _ _ _ => rfl⟩, .inr ⟨rfl, ?_⟩⟩
    rw [rest_eq_nil hc hKind]
    rintro t ⟨⟩
  · exact reads_reject _ _

theorem reads_ifNext {k : TokenKind} {p : Parser α} {otherwise : α}
    {W : α → List Token → List Token → Prop}
    (hp : ReadsFrom n (fun c => True ∧ c.kind = k) p W)
    (hOtherwise : ∀ r, nextKind r ≠ k → W otherwise [] r) : Reads n (ifNext k p otherwise) W := by
  refine reads_kind_bind fun found => ?_
  by_cases hFound : found = k
  · rw [if_pos hFound, hFound]
    exact hp
  · rw [if_neg hFound]
    rintro c _ _ hc - ⟨-, hKind⟩ ⟨⟩
    refine ⟨[], ⟨rfl, rfl, fun _ _ _ => rfl⟩, hOtherwise _ ?_⟩
    rwa [← kind_eq hc, hKind]

theorem reads_ifNext_opt {k : TokenKind} {p : Parser α} {otherwise : α}
    (hp : Reads n p fun _ w _ => Phrase w) :
    Reads n (ifNext k p otherwise) fun _ w _ => OptPhrase w :=
  reads_ifNext hp.from.opt fun _ _ => .nil

/-- Items in a row. `W` holds of all they take together if it goes from the later items to all of
them. -/
theorem reads_manyWhile {more : TokenKind → Bool} {item : Parser α}
    {U : α → List Token → List Token → Prop} {W : List α → List Token → List Token → Prop}
    (hItem : ReadsFrom n (fun c => more c.kind) item U) (hTakes : ∀ a u r, U a u r → u ≠ [])
    (hNil : ∀ r, more (nextKind r) = false → W [] [] r)
    (hCons : ∀ a as u v r, U a u (v ++ r) → W as v r → W (a :: as) (u ++ v) r) :
    Reads n (manyWhile more item) W := by
  intro c as last hc hn _ hRun
  fun_induction manyWhile more item c generalizing as last with
  | case1 => cases hRun
  | case2 c hMore a next hFirst hLess ih =>
      obtain ⟨u, hu, hU⟩ := hItem c a next hc hn hMore hFirst
      cases hTail : manyWhile more item next with
      | error e => rw [hTail] at hRun; cases hRun
      | ok result =>
          obtain ⟨others, last⟩ := result
          rw [hTail] at hRun
          cases hRun
          obtain ⟨v, hv, hW⟩ := ih others last (hu.isProper hc) (Nat.lt_trans hLess hn) hTail
          refine ⟨u ++ v, ⟨?_, hv.stop_eq.trans hu.stop_eq, ?_⟩,
            hCons a others u v _ (hv.rest_eq ▸ hU) hW⟩
          · rw [hu.rest_eq, hv.rest_eq, List.append_assoc]
          · intro t tokens hHead
            have hRest : c.rest = (u ++ v) ++ last.rest := by
              rw [hu.rest_eq, hv.rest_eq, List.append_assoc]
            have hKind := kind_eq_of_head tokens hRest hHead
            have hShorter : (v ++ t :: tokens).length < ((u ++ v) ++ t :: tokens).length := by
              have := List.length_pos_iff.2 (hTakes a u _ hU)
              simp only [List.length_append]
              omega
            rw [manyWhile, hKind, if_pos hMore, hu.run_append hv.rest_eq hHead tokens]
            dsimp only
            rw [dif_pos hShorter, hv.run_eq t tokens hHead]
            rfl
  | case3 c hMore a next hFirst hLess =>
      obtain ⟨u, hu, hU⟩ := hItem c a next hc hn hMore hFirst
      have hLength := hu.length_eq
      have hPos := List.length_pos_iff.2 (hTakes a u _ hU)
      omega
  | case4 c hMore =>
      cases hRun
      refine ⟨[], ⟨rfl, rfl, ?_⟩, hNil _ ?_⟩
      · intro t tokens hHead
        have hKind := @kind_eq_of_head c [] _ t tokens rfl hHead
        rw [manyWhile, hKind, if_neg hMore]
        rfl
      · rw [← kind_eq hc]
        simpa using hMore

theorem reads_sepBy {separator : TokenKind} {item : Parser α} (hSeparator : separator.isInner)
    (hItem : Reads n item fun _ w _ => Phrase w) :
    Reads n (sepBy separator item) fun _ w _ => Phrase w := by
  have hEnd := ne_endOfSource_of_isInner hSeparator
  have hMore : ReadsFrom n (fun c => decide (c.kind = separator) = true)
      (do let _ ← take; item) fun _ w _ => Phrase w := by
    refine ((reads_take hEnd).mono (fun c h => ⟨trivial, of_decide_eq_true h⟩)
      fun _ _ _ h => h).bind (fun _ => hItem) ?_
    rintro t a _ v _ ⟨rfl, ht⟩ hv
    exact Phrase.cons (ht ▸ hSeparator) hv
  have hOthers : Reads n (manyWhile (fun k => decide (k = separator)) (do let _ ← take; item))
      fun _ w _ => OptPhrase w :=
    reads_manyWhile hMore (fun _ _ _ hu => hu.ne_nil) (fun _ _ => .nil)
      fun _ _ _ _ _ hu hv => .inr (hu.append_opt hv)
  exact ReadsFrom.phrase_opt hItem fun _ => hOthers.opt_opt fun _ => reads_pure_opt _

section

variable {close : TokenKind} {item : Parser α} {c next : Cursor} {a : α} {comma : Token}
  {rest : List Token}

theorem commaList_last (hFirst : item c = .ok (a, next)) (hKind : next.kind ≠ .comma) :
    commaList close item c = .ok ([a], next) := by
  rw [commaList, hFirst]
  exact if_neg hKind

private theorem advance_comma (hRest : next.rest = comma :: rest) :
    next.advance = { next with previous := comma.span, rest } := by
  rw [Cursor.advance, hRest]

private theorem kind_comma (hRest : next.rest = comma :: rest) (hComma : comma.kind = .comma) :
    next.kind = .comma := by
  rw [Cursor.kind, Cursor.current, hRest]
  exact hComma

theorem commaList_trailing (hFirst : item c = .ok (a, next)) (hRest : next.rest = comma :: rest)
    (hComma : comma.kind = .comma)
    (hClose : ({ next with previous := comma.span, rest } : Cursor).kind = close) :
    commaList close item c = .ok ([a], { next with previous := comma.span, rest }) := by
  rw [commaList, hFirst]
  dsimp only
  rw [if_pos (kind_comma hRest hComma), advance_comma hRest, if_pos hClose]

theorem commaList_cons (hFirst : item c = .ok (a, next)) (hRest : next.rest = comma :: rest)
    (hComma : comma.kind = .comma)
    (hClose : ({ next with previous := comma.span, rest } : Cursor).kind ≠ close)
    (hLess : rest.length < c.rest.length) :
    commaList close item c = (commaList close item { next with previous := comma.span, rest }).map
      fun (others, last) => (a :: others, last) := by
  rw [commaList, hFirst]
  dsimp only
  rw [if_pos (kind_comma hRest hComma), advance_comma hRest, if_neg hClose, dif_pos hLess]

end

theorem reads_commaList {close : TokenKind} {item : Parser α}
    (hItem : Reads n item fun _ w _ => Phrase w) :
    Reads n (commaList close item) fun _ w _ => Phrase w := by
  intro c as last hc hn _ hRun
  fun_induction commaList close item c generalizing as last with
  | case1 => cases hRun
  | case2 c a next hFirst hComma hClose =>
      obtain ⟨u, hu, hPhrase⟩ := hItem c a next hc hn trivial hFirst
      obtain ⟨comma, rest, hRest, hKind⟩ := exists_token (hu.isProper hc) hComma (by decide)
      rw [advance_comma hRest] at hRun hClose
      cases hRun
      refine ⟨u ++ [comma], ⟨?_, hu.stop_eq, ?_⟩,
        Phrase.append hPhrase (.singleton (by rw [hKind]; rfl))⟩
      · rw [hu.rest_eq, hRest, List.append_assoc]
        rfl
      · intro t others hHead
        have hNext := @kind_eq_of_head { next with previous := comma.span, rest } [] rest t others
          rfl hHead
        have hSame := hu.run_append (v := [comma]) hRest hHead others
        have hList := commaList_trailing hSame rfl hKind (hNext.trans hClose)
        exact hList
  | case3 c a next hFirst hComma hClose hLess ih =>
      obtain ⟨u, hu, hPhrase⟩ := hItem c a next hc hn trivial hFirst
      obtain ⟨comma, rest, hRest, hKind⟩ := exists_token (hu.isProper hc) hComma (by decide)
      have hInner : comma.kind.isInner := by rw [hKind]; rfl
      rw [advance_comma hRest] at hRun hClose hLess ih
      cases hTail : commaList close item { next with previous := comma.span, rest } with
      | error e => rw [hTail] at hRun; cases hRun
      | ok result =>
          obtain ⟨others, last⟩ := result
          rw [hTail] at hRun
          cases hRun
          have hNext : Cursor.IsProper { next with previous := comma.span, rest } :=
            ⟨(hu.isProper hc).stop_kind, fun t ht =>
              (hu.isProper hc).rest_kind t (hRest ▸ List.mem_cons_of_mem _ ht)⟩
          obtain ⟨v, hv, hOthers⟩ := ih others last hNext (Nat.lt_trans hLess hn) hTail
          have hTokens : next.rest = (comma :: v) ++ last.rest := by
            rw [hRest, show rest = _ from hv.rest_eq]
            rfl
          refine ⟨u ++ comma :: v, ⟨?_, hv.stop_eq.trans hu.stop_eq, ?_⟩,
            Phrase.append hPhrase (Phrase.cons hInner hOthers)⟩
          · rw [hu.rest_eq, hTokens, List.append_assoc]
          · intro t tokens hHead
            have hSame := kind_eq_of_head tokens hv.rest_eq hHead
            have hShorter : (v ++ t :: tokens).length < ((u ++ comma :: v) ++ t :: tokens).length := by
              simp only [List.length_append, List.length_cons]
              omega
            rw [commaList_cons (hu.run_append hTokens hHead tokens) rfl hKind
              (fun hStop => hClose (hSame.symm.trans hStop)) hShorter]
            exact congrArg (Except.map _) (hv.run_eq t tokens hHead)
  | case4 c a next hFirst hComma hClose hLess =>
      obtain ⟨u, hu, hPhrase⟩ := hItem c a next hc hn trivial hFirst
      obtain ⟨comma, rest, hRest, hKind⟩ := exists_token (hu.isProper hc) hComma (by decide)
      rw [advance_comma hRest] at hLess
      have hLength := hu.length_eq
      simp only [hRest, List.length_cons] at hLength hLess
      omega
  | case5 c a next hFirst hComma =>
      cases hRun
      obtain ⟨u, hu, hPhrase⟩ := hItem c a next hc hn trivial hFirst
      refine ⟨u, ⟨hu.rest_eq, hu.stop_eq, ?_⟩, hPhrase⟩
      intro t others hHead
      have hSame := @kind_eq_of_head next [] _ t others rfl hHead
      exact commaList_last (hu.run_eq t others hHead) fun hKind => hComma (hSame.symm.trans hKind)

theorem reads_commaList? {close : TokenKind} {item : Parser α}
    (hItem : Reads n item fun _ w _ => Phrase w) :
    Reads n (commaList? close item) fun _ w _ => OptPhrase w := by
  refine reads_kind_bind fun found => ?_
  by_cases hFound : found = close
  · rw [if_pos hFound]
    exact (reads_pure_opt _).from
  · rw [if_neg hFound]
    exact (reads_commaList hItem).from.opt

theorem reads_statements {close : TokenKind} {item : Parser α} {U : α → List Token → Prop}
    (hU : ∀ a, ¬U a []) (hItem : Reads n item fun a w r => Phrase w ∨ U a w ∧ r = []) :
    Reads n (statements close item) fun as w r =>
      Items U as w r ∧ (nextKind r = close ∨ nextKind r = .endOfSource) := by
  have hStatement : Reads n (do let a ← item; statementEnd; return a) fun a w r =>
      w ≠ [] ∧ (Balanced w ∨ U a w ∧ r = []) := by
    have hEnd (a : α) : Reads n (do statementEnd; return a)
        fun b w r => b = a ∧ EndsStatement w r := by
      refine reads_statementEnd.bind (fun _ => reads_pure a) ?_
      rintro _ _ u _ r hu ⟨rfl, rfl⟩
      simpa using hu
    refine hItem.bind hEnd ?_
    rintro a _ u v r hu ⟨rfl, hv⟩
    rcases hu with hu | ⟨hu, hNil⟩
    · exact ⟨List.append_ne_nil_of_left_ne_nil hu.ne_nil v, .inl (hu.balanced.append hv.balanced)⟩
    · obtain ⟨rfl, rfl⟩ := List.append_eq_nil_iff.1 hNil
      rw [List.append_nil]
      refine ⟨?_, .inr ⟨hu, rfl⟩⟩
      rintro rfl
      exact hU _ hu
  have hAll : Reads n (statements close item) fun as w r =>
      (as = [] ∨ w ≠ []) ∧ Items U as w r ∧
        (nextKind r = close ∨ nextKind r = .endOfSource) := by
    refine reads_manyWhile (ReadsFrom.mono hStatement (fun _ _ => trivial) fun _ _ _ h => h)
      (fun _ _ _ h => h.1) ?_ ?_
    · intro r hMore
      refine ⟨.inl rfl, .inl .nil, ?_⟩
      by_cases hClose : nextKind r = close
      · exact .inl hClose
      · exact .inr (by simpa [hClose] using hMore)
    · rintro a as u v r ⟨hNe, hu⟩ ⟨hEmpty, hv, hNext⟩
      refine ⟨.inr (List.append_ne_nil_of_left_ne_nil hNe v), ?_, hNext⟩
      rcases hu with hu | ⟨hu, hNil⟩
      · exact hv.cons a hu
      · obtain ⟨rfl, rfl⟩ := List.append_eq_nil_iff.1 hNil
        obtain rfl : as = [] := hEmpty.resolve_right fun h => h rfl
        exact .inr ⟨rfl, [], a, [], u, rfl, by simp, .nil, hu⟩
  exact hAll.word fun _ _ _ h => h.2

/-- Statements whose words are all phrases. -/
theorem reads_statements_balanced {close : TokenKind} {item : Parser α}
    (hItem : Reads n item fun _ w _ => Phrase w) :
    Reads n (statements close item) fun _ w _ => Balanced w := by
  have hAll : Reads n (statements close item) _ :=
    reads_statements (U := fun _ _ => False) (fun _ h => h) (hItem.word fun _ _ _ => .inl)
  refine hAll.word ?_
  rintro _ _ _ ⟨hw | ⟨-, _, _, _, _, -, -, -, hFalse⟩, -⟩
  · exact hw
  · exact hFalse.elim

/-! ## Groups and expressions -/

theorem reads_group (b : Bracket) : Reads n (group b) fun _ w _ => Phrase w := by
  refine (reads_expect (by rintro ⟨⟩)).bind (V := fun _ _ w _ => ∃ inner closer,
    w = inner ++ [closer] ∧ Balanced inner ∧ closer.kind = .closing b) (fun opened => ?_) ?_
  · intro c a c' _ _ _ hRun
    rw [groupEnd] at hRun
    cases hClose : close [⟨b, opened.span⟩] opened.span c.rest with
    | error e => rw [hClose] at hRun; cases hRun
    | ok closed =>
        obtain ⟨last, rest⟩ := closed
        rw [hClose] at hRun
        cases hRun
        obtain ⟨word, hRest, hWord, hOthers⟩ := close_eq_ok hClose
        obtain ⟨inner, closer, tail, rfl, hInner, hCloser, hTail⟩ := hWord
        obtain rfl : tail = [] := hTail
        refine ⟨inner ++ [closer], ⟨hRest, rfl, ?_⟩, inner, closer, rfl, hInner, hCloser⟩
        intro t others _
        rw [groupEnd, hOthers]
  · rintro opened _ _ _ _ ⟨rfl, hOpener⟩ ⟨inner, closer, rfl, hInner, hCloser⟩
    exact Phrase.cons_tail hOpener ⟨inner, closer, [], rfl, hInner, hCloser, .nil⟩

theorem reads_expression (stops : TokenKind → Bool) :
    Reads n (expression stops) fun _ w r => Expression stops w r := by
  intro c a c' _ _ _ hRun
  rw [expression] at hRun
  cases hSplit : splitExpression stops [] c.rest with
  | error e => rw [hSplit] at hRun; cases hRun
  | ok split =>
      obtain ⟨taken, rest⟩ := split
      rw [hSplit] at hRun
      dsimp only at hRun
      cases hLast : taken.getLast? with
      | none => rw [hLast] at hRun; cases hRun
      | some last =>
          rw [hLast] at hRun
          cases hRun
          obtain ⟨hRest, ⟨final, hFinal, hEnd⟩, hStops, hOthers⟩ := splitExpression_eq_ok hSplit
          refine ⟨taken, ⟨hRest, rfl, ?_⟩, ?_⟩
          · intro t others hHead
            rw [expression, hOthers t others hHead]
            dsimp only
            rw [hLast]
          · have hUndivided (hSemicolon : stops .semicolon) : Undivided taken := by
              intro before t after hWord hBefore hKind
              have hGo := hStops before t after hWord (hBefore.openAfter_eq [])
              rw [hKind, hSemicolon] at hGo
              cases hGo
            cases final with
            | nil =>
                have hBalanced := balanced_of_openAfter hFinal
                refine .inl ⟨hBalanced, fun hSemicolon => ⟨hBalanced, ?_, hUndivided hSemicolon⟩⟩
                rintro rfl
                cases hLast
            | cons b outer =>
                exact .inr ⟨⟨unclosed_of_openAfter hFinal, hUndivided⟩, hEnd (by simp)⟩

/-! ## Brackets around something -/

/-- From behind the opening of a bracket on. -/
theorem reads_tail {b : Bracket} {p : Parser α} {f : α → Token → Parser β}
    (hp : Reads n p fun _ w _ => Balanced w) (hf : ∀ a t, Reads n (f a t) fun _ w _ => OptPhrase w) :
    Reads n (p >>= fun a => expect (.closing b) >>= f a) fun _ w _ => Tail b w := by
  have hEnd (a : α) : Reads n (expect (.closing b) >>= f a) fun _ w _ =>
      ∃ closer rest, w = closer :: rest ∧ closer.kind = .closing b ∧ OptPhrase rest := by
    refine (reads_expect (by rintro ⟨⟩)).bind (fun closer => hf a closer) ?_
    rintro closer _ _ rest _ ⟨rfl, hCloser⟩ hRest
    exact ⟨closer, rest, rfl, hCloser, hRest⟩
  refine hp.bind hEnd ?_
  rintro _ _ inner _ _ hInner ⟨closer, rest, rfl, hCloser, hRest⟩
  exact ⟨inner, closer, rest, rfl, hInner, hCloser, hRest⟩

theorem reads_bracket {b : Bracket} {f : Token → Parser α}
    (hf : ∀ t, Reads n (f t) fun _ w _ => Tail b w) :
    ReadsFrom n Start (expect (.opening b) >>= f) fun _ w _ => Phrase w := by
  refine (reads_expect (by rintro ⟨⟩)).from.bind hf ?_
  rintro opener _ _ _ _ ⟨rfl, hOpener⟩ hTail
  exact Phrase.cons_tail hOpener hTail

end Parser

end GoTemplate
