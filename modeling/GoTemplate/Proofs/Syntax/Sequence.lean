import GoTemplate.Proofs.Syntax.DeclarationWords
import GoTemplate.Syntax.Source
import Mathlib.Tactic.ByContra

/-!
Lists of statements that are put together. Where a list of statements is read up to the end of the
source and its last statement is complete, other statements may follow.
-/

namespace GoTemplate

open Brackets

/-- Tokens that other statements may follow: no bracket is open, and the last token is a
semicolon, unless there is none. -/
structure Complete (word : List Token) : Prop where
  balanced : Balanced word
  semicolon : ∀ t, word.getLast? = some t → t.kind = .semicolon

theorem Complete.of_append_left {u v : List Token} (hu : Balanced u) (h : Complete (u ++ v)) :
    Complete v where
  balanced := hu.of_append_left h.balanced
  semicolon t ht := h.semicolon t (by rw [List.getLast?_append, ht]; rfl)

theorem Complete.exists_last {word : List Token} (h : Complete word) (hNe : word ≠ []) :
    ∃ before t, word = before ++ [t] ∧ Balanced before ∧ t.kind = .semicolon := by
  rcases List.eq_nil_or_concat word with rfl | ⟨before, t, rfl⟩
  · exact absurd rfl hNe
  · have hKind : t.kind = .semicolon := h.semicolon t (by simp)
    have hPlain : IsPlain t := ⟨by simp [hKind], by simp [hKind]⟩
    rw [List.concat_eq_append] at h
    exact ⟨before, t, List.concat_eq_append, .of_append_plain hPlain h.balanced, hKind⟩

/-- What an item of a list of statements takes: no semicolon outside of brackets, and some bracket
may stay open only at the end of the source. -/
structure ItemWord (word rest : List Token) : Prop where
  undivided : Undivided word
  ne_nil : word ≠ []
  balanced : Balanced word ∨ rest = []

/-- No complete tokens stand at the front of an item. -/
theorem Undivided.eq_nil_of_complete {u v : List Token} (h : Undivided (u ++ v)) (hu : Complete u) :
    u = [] := by
  by_contra hNe
  obtain ⟨before, t, rfl, hBefore, hKind⟩ := hu.exists_last hNe
  exact h before t v (by simp) hBefore hKind

theorem Phrase.itemWord {word : List Token} (h : Phrase word) (rest : List Token) :
    ItemWord word rest :=
  ⟨h.undivided, h.ne_nil, .inl h.balanced⟩

theorem OpenValues.itemWord {word : List Token} (h : OpenValues word) : ItemWord word [] where
  undivided := h.undivided
  ne_nil := h.ne_nil
  balanced := .inr rfl

theorem Brackets.Balanced.head_ne_closing {t : Token} {rest : List Token}
    (h : Balanced (t :: rest)) (b : Bracket) : t.kind ≠ .closing b := by
  cases h with
  | plain hPlain => exact hPlain.2 b
  | group hOpener =>
      rw [hOpener]
      simp

/-- If nothing in a row starts with a kind of token, then the row does not. -/
theorem Brackets.nextKind_flatten_ne {parts : List (List Token)} {kind : TokenKind}
    (hEnd : kind ≠ .endOfSource) (h : ∀ ws ∈ parts, nextKind ws ≠ kind) :
    nextKind parts.flatten ≠ kind := by
  induction parts with
  | nil => exact hEnd.symm
  | cons ws parts ih =>
      have hRest := ih fun vs hVs => h vs (List.mem_cons_of_mem ws hVs)
      have hFirst := h ws List.mem_cons_self
      cases ws with
      | nil => exact hRest
      | cons t ws => exact hFirst

namespace Parser

variable {α β : Type} {n : Nat}

theorem map_eq_ok {p : Parser α} {g : α → β} {c c' : Cursor} {b : β} :
    (g <$> p) c = .ok (b, c') ↔ ∃ a, p c = .ok (a, c') ∧ g a = b := by
  change (p >>= fun a => pure (g a)) c = _ ↔ _
  rw [bind_eq_ok]
  constructor
  · intro h
    obtain ⟨a, _, hRun, hPure⟩ := h
    cases hPure
    exact ⟨a, hRun, rfl⟩
  · intro h
    obtain ⟨a, hRun, rfl⟩ := h
    exact ⟨a, c', hRun, rfl⟩

theorem statementEnd_semicolon {t : Token} (ht : t.kind = .semicolon) (c : Cursor)
    (rest : List Token) :
    statementEnd { c with rest := t :: rest } = .ok ((), { c with previous := t.span, rest }) := by
  have hKind : kind { c with rest := t :: rest } = .ok (.semicolon, { c with rest := t :: rest }) := by
    rw [← ht]
    rfl
  rw [statementEnd, bind_ok hKind]
  rfl

theorem item_of_statement {p : Parser α} {c c' : Cursor} {a : α}
    (h : (do let a ← p; statementEnd; return a) c = .ok (a, c')) : ∃ d, p c = .ok (a, d) := by
  obtain ⟨b, d, hItem, hRest⟩ := bind_eq_ok.1 h
  obtain ⟨_, _, -, hPure⟩ := bind_eq_ok.1 hRest
  cases hPure
  exact ⟨d, hItem⟩

/-- All items of a list are what an item can be. -/
theorem forall_of_manyWhile {more : TokenKind → Bool} {item : Parser α} {Q : α → Prop}
    (hItem : ∀ c a c', item c = .ok (a, c') → Q a) {c last : Cursor} {as : List α}
    (h : manyWhile more item c = .ok (as, last)) : ∀ a ∈ as, Q a := by
  fun_induction manyWhile more item c generalizing as last with
  | case1 => cases h
  | case2 c hMore a next hFirst hLess ih =>
      cases hTail : manyWhile more item next with
      | error e => rw [hTail] at h; cases h
      | ok result =>
          rw [hTail] at h
          cases h
          intro b hb
          rcases List.mem_cons.1 hb with rfl | hb
          · exact hItem c b next hFirst
          · exact ih hTail b hb
  | case3 c hMore a next hFirst hLess =>
      cases h
      intro b hb
      obtain rfl := List.mem_singleton.1 hb
      exact hItem c b next hFirst
  | case4 =>
      cases h
      intro b hb
      cases hb

/-- Where complete tokens are ahead, a statement takes some of them with its semicolon, and leaves
complete ones. It is read whatever comes after it. -/
theorem statement_of_complete {p : Parser α} {Start : Cursor → Prop}
    (hp : ReadsFrom n Start p fun _ w r => ItemWord w r) {c next : Cursor} {a : α} (hc : c.IsProper)
    (hn : c.rest.length < n) (hs : Start c) {us ws : List Token} (hSplit : c.rest = us ++ ws)
    (hNe : us ≠ []) (hComplete : Complete us)
    (hRun : (do let a ← p; statementEnd; return a) c = .ok (a, next)) :
    ∃ first later, us = first ++ later ∧ first ≠ [] ∧ Balanced first ∧ Complete later ∧
      next.rest = later ++ ws ∧ next.stop = c.stop ∧
      ∀ others, (do let a ← p; statementEnd; return a) { c with rest := first ++ others } =
        .ok (a, { next with rest := others }) := by
  obtain ⟨b, c₁, hFirst, hRest⟩ := bind_eq_ok.1 hRun
  obtain ⟨_, c₂, hEnd, hPure⟩ := bind_eq_ok.1 hRest
  cases hPure
  obtain ⟨w, hTakes, hUndivided, hItem, hBalanced⟩ := hp c a c₁ hc hn hs hFirst
  obtain ⟨v, hEndTakes, hEnds⟩ :=
    reads_statementEnd c₁ () next (hTakes.isProper hc) (Nat.lt_succ_self _) trivial hEnd
  obtain ⟨x, later, rfl, hMore⟩ : ∃ x later, us = w ++ x :: later ∧ c₁.rest = x :: (later ++ ws) := by
    have hBoth : us ++ ws = w ++ c₁.rest := hSplit.symm.trans hTakes.rest_eq
    rcases List.append_eq_append_iff.1 hBoth with ⟨more, rfl, -⟩ | ⟨more, rfl, hMore⟩
    · exact absurd (hUndivided.eq_nil_of_complete hComplete) hNe
    · cases more with
      | nil =>
          rw [List.append_nil] at hComplete hNe
          exact absurd ((List.append_nil w ▸ hUndivided).eq_nil_of_complete hComplete) hNe
      | cons x later => exact ⟨x, later, rfl, hMore⟩
  have hWord : Balanced w := by
    rcases hBalanced with hWord | hNil
    · exact hWord
    · rw [hMore] at hNil
      cases hNil
  have hTail : Complete (x :: later) := hComplete.of_append_left hWord
  rcases hEnds with ⟨t, rfl, ht⟩ | ⟨rfl, hHead⟩
  · have hSame : x :: (later ++ ws) = t :: next.rest := hMore.symm.trans hEndTakes.rest_eq
    obtain ⟨rfl, hNextRest⟩ := List.cons_eq_cons.1 hSame
    have hPlain : IsPlain x := ⟨by simp [ht], by simp [ht]⟩
    have hNext : next = { c₁ with previous := x.span, rest := next.rest } := by
      have hAgain := statementEnd_semicolon ht c₁ next.rest
      rw [show ({ c₁ with rest := x :: next.rest } : Cursor) = c₁ from
        congrArg (fun rest => { c₁ with rest }) hEndTakes.rest_eq.symm, hEnd] at hAgain
      exact congrArg Prod.snd (Except.ok.inj hAgain)
    refine ⟨w ++ [x], later, by simp, by simp, hWord.append (.singleton hPlain),
      hTail.of_append_left (u := [x]) (.singleton hPlain), hNextRest.symm,
      hEndTakes.stop_eq.trans hTakes.stop_eq, fun others => ?_⟩
    rw [bind_eq_ok]
    refine ⟨a, { c₁ with rest := x :: others }, ?_, ?_⟩
    · rw [List.append_assoc]
      apply hTakes.run_eq
      rw [hMore]
      rfl
    · rw [bind_eq_ok]
      refine ⟨(), _, statementEnd_semicolon ht c₁ others, ?_⟩
      rw [hNext]
      rfl
  · have hClosing : x.kind = .closing .round ∨ x.kind = .closing .curly := by
      apply hHead
      rw [← List.nil_append next.rest, ← hEndTakes.rest_eq, hMore]
      rfl
    rcases hClosing with hRound | hCurly
    · exact absurd hRound (hTail.balanced.head_ne_closing _)
    · exact absurd hCurly (hTail.balanced.head_ne_closing _)

/-- A statement with its semicolon is read whatever comes after it. -/
theorem statement_append {p : Parser α} {Start : Cursor → Prop}
    (hp : ReadsFrom n Start p fun _ w r => ItemWord w r) {c next : Cursor} {a : α} (hc : c.IsProper)
    (hn : c.rest.length < n) (hs : Start c) (hComplete : Complete c.rest)
    (hRun : (do let a ← p; statementEnd; return a) c = .ok (a, next)) :
    (∃ u, c.rest = u ++ next.rest ∧ Balanced u ∧ u ≠ []) ∧ next.stop = c.stop ∧
      ∀ others, (do let a ← p; statementEnd; return a) { c with rest := c.rest ++ others } =
        .ok (a, { next with rest := next.rest ++ others }) := by
  have hNe : c.rest ≠ [] := by
    obtain ⟨d, hItem⟩ := item_of_statement hRun
    obtain ⟨w, hTakes, hWord⟩ := hp c a d hc hn hs hItem
    rw [hTakes.rest_eq]
    exact List.append_ne_nil_of_left_ne_nil hWord.ne_nil _
  obtain ⟨first, later, hSplit, hFirst, hBalanced, -, hRest, hStop, hOthers⟩ :=
    statement_of_complete hp hc hn hs (List.append_nil _).symm hNe hComplete hRun
  rw [List.append_nil] at hRest
  refine ⟨⟨first, by rw [hRest, hSplit], hBalanced, hFirst⟩, hStop, fun others => ?_⟩
  rw [hRest, hSplit, List.append_assoc]
  exact hOthers (later ++ others)

theorem manyWhile_append {more : TokenKind → Bool} {p : Parser α}
    (hp : ReadsFrom n (fun c => more c.kind) p fun _ w r => ItemWord w r) {c last : Cursor}
    {as : List α} (hc : c.IsProper) (hn : c.rest.length < n) (hComplete : Complete c.rest) (hLast : last.rest = [])
    (hRun : manyWhile more (do let a ← p; statementEnd; return a) c = .ok (as, last))
    (others : List Token) :
    manyWhile more (do let a ← p; statementEnd; return a) { c with rest := c.rest ++ others } =
      (manyWhile more (do let a ← p; statementEnd; return a) { last with rest := others }).map
        fun (bs, d) => (as ++ bs, d) := by
  fun_induction manyWhile more (do let a ← p; statementEnd; return a) c generalizing as last with
  | case1 => cases hRun
  | case2 c hMore a next hFirst hLess ih =>
      obtain ⟨⟨u, hSplit, hu, hNe⟩, hStop, hLonger⟩ :=
        statement_append hp hc hn hMore hComplete hFirst
      have hProper : next.IsProper := by
        refine ⟨by rw [hStop]; exact hc.stop_kind, fun t ht => hc.rest_kind t ?_⟩
        rw [hSplit]
        exact List.mem_append_right u ht
      have hRest : Complete next.rest := by
        rw [hSplit] at hComplete
        exact hComplete.of_append_left hu
      have hKind : ({ c with rest := c.rest ++ others } : Cursor).kind = c.kind := by
        obtain ⟨t, v, rfl⟩ := List.exists_cons_of_ne_nil hNe
        simp [Cursor.kind, Cursor.current, hSplit]
      have hShorter : (next.rest ++ others).length < (c.rest ++ others).length := by
        simp only [List.length_append]
        omega
      cases hTail : manyWhile more (do let a ← p; statementEnd; return a) next with
      | error e => rw [hTail] at hRun; cases hRun
      | ok result =>
          rw [hTail] at hRun
          cases hRun
          have hOthers := ih hProper (Nat.lt_trans hLess hn) hRest hLast hTail
          rw [manyWhile, hKind, if_pos hMore, hLonger others]
          dsimp only
          rw [dif_pos hShorter, hOthers]
          cases manyWhile more (do let a ← p; statementEnd; return a)
            { result.2 with rest := others } <;> rfl
  | case3 c hMore a next hFirst hLess =>
      obtain ⟨⟨u, hSplit, -, hNe⟩, -⟩ := statement_append hp hc hn hMore hComplete hFirst
      have hPos := List.length_pos_iff.2 hNe
      have hLength := congrArg List.length hSplit
      rw [List.length_append] at hLength
      omega
  | case4 c hMore =>
      cases hRun
      rw [hLast, List.nil_append]
      cases manyWhile more (do let a ← p; statementEnd; return a) { c with rest := others } <;> rfl

end Parser

end GoTemplate
