import GoTemplate.Proofs.Lexical.OpenLines
import GoTemplate.Proofs.Lexical.Spelling

/-!
The outline of a text: the signs by which comments and quoted literals start and end, with one letter
for each stretch of other characters. Whether a text as a whole is a comment or a quoted literal, and
where one that is open ends, shows in the outline.
-/

namespace GoTemplate

namespace Text

/-- Whether a comment or a quoted literal may start or end with a character, or goes on because of it. -/
def isSign (c : Char) : Bool := ['"', '\'', '`', '\\', '/', '*', '\n'].contains c

/-- One letter in front of an outline, unless there is one already. -/
private def lead (t : Text) : Text := if t.head? = some 'x' then t else 'x' :: t

/-- The signs of a text, with one letter for each stretch of other characters. -/
def outline : Text → Text
  | [] => []
  | c :: t => if isSign c then c :: outline t else lead (outline t)

variable {c : Char} {s s' t t' : Text}

theorem outline_cons_of_isSign (hc : isSign c = true) (t : Text) : outline (c :: t) = c :: outline t :=
  if_pos hc

theorem outline_cons_of_not (hc : isSign c = false) (t : Text) : outline (c :: t) = lead (outline t) :=
  if_neg (by simp [hc])

private theorem lead_lead (t : Text) : lead (lead t) = lead t := by
  by_cases hHead : t.head? = some 'x'
  · rw [lead, lead, if_pos hHead, if_pos hHead]
  · have hLead : lead t = 'x' :: t := if_neg hHead
    rw [hLead]
    rfl

private theorem outline_lead (t : Text) : outline (lead t) = lead (outline t) := by
  by_cases hHead : t.head? = some 'x'
  · obtain ⟨u, rfl⟩ := List.head?_eq_some_iff.1 hHead
    rw [lead, if_pos hHead, outline_cons_of_not rfl, lead_lead]
  · rw [lead, if_neg hHead, outline_cons_of_not rfl]

private theorem lead_append (s t : Text) : outline (lead s ++ t) = lead (outline (s ++ t)) := by
  by_cases hHead : s.head? = some 'x'
  · obtain ⟨u, rfl⟩ := List.head?_eq_some_iff.1 hHead
    rw [lead, if_pos hHead, List.cons_append, outline_cons_of_not rfl, lead_lead]
  · rw [lead, if_neg hHead, List.cons_append, outline_cons_of_not rfl]

/-- An outline is its own outline. -/
theorem outline_outline (t : Text) : outline (outline t) = outline t := by
  induction t with
  | nil => rfl
  | cons c t ih =>
      cases hc : isSign c with
      | true => rw [outline_cons_of_isSign hc, outline_cons_of_isSign hc, ih]
      | false => rw [outline_cons_of_not hc, outline_lead, ih]

private theorem outline_append_eq (s t : Text) : outline (s ++ t) = outline (outline s ++ outline t) := by
  induction s with
  | nil => exact (outline_outline t).symm
  | cons c s ih =>
      cases hc : isSign c with
      | true => rw [List.cons_append, outline_cons_of_isSign hc, outline_cons_of_isSign hc, ih,
          List.cons_append, outline_cons_of_isSign hc]
      | false => rw [List.cons_append, outline_cons_of_not hc, outline_cons_of_not hc, ih, lead_append]

/-- The outline of texts put together is a matter of their outlines. -/
theorem outline_append_congr (hs : outline s = outline s') (ht : outline t = outline t') :
    outline (s ++ t) = outline (s' ++ t') := by
  rw [outline_append_eq s, hs, ht, ← outline_append_eq]

theorem outline_of_not_isSign (hNe : t ≠ []) (h : ∀ c ∈ t, isSign c = false) : outline t = ['x'] := by
  induction t with
  | nil => exact absurd rfl hNe
  | cons c t ih =>
      obtain ⟨hc, ht⟩ := List.forall_mem_cons.1 h
      rw [outline_cons_of_not hc]
      cases t with
      | nil => rfl
      | cons d t =>
          rw [ih (List.cons_ne_nil d t) ht]
          rfl

theorem outline_eq_nil_iff : outline t = [] ↔ t = [] := by
  constructor
  · intro h
    cases t with
    | nil => rfl
    | cons c t =>
        cases hc : isSign c with
        | true =>
            rw [outline_cons_of_isSign hc] at h
            cases h
        | false =>
            rw [outline_cons_of_not hc, lead] at h
            split at h
            · rename_i hHead
              rw [h] at hHead
              cases hHead
            · cases h
  · rintro rfl
    rfl

/-- An outline shows a sign where the text has it. -/
theorem exists_cons_of_outline (hc : isSign c = true) (h : outline t = c :: s) :
    ∃ u, t = c :: u ∧ outline u = s := by
  have hx : c ≠ 'x' := by
    rintro rfl
    cases hc
  cases t with
  | nil => cases h
  | cons d t =>
      cases hd : isSign d with
      | true =>
          rw [outline_cons_of_isSign hd] at h
          obtain ⟨rfl, rfl⟩ := List.cons_eq_cons.1 h
          exact ⟨t, rfl, rfl⟩
      | false =>
          rw [outline_cons_of_not hd, lead] at h
          split at h
          · rename_i hHead
            rw [h] at hHead
            exact absurd (Option.some.inj hHead) hx
          · exact absurd (List.cons_eq_cons.1 h).1.symm hx

theorem mem_outline_iff (hc : isSign c = true) : c ∈ outline t ↔ c ∈ t := by
  have hx : c ≠ 'x' := by
    rintro rfl
    cases hc
  induction t with
  | nil => rfl
  | cons d t ih =>
      cases hd : isSign d with
      | true => simp only [outline_cons_of_isSign hd, List.mem_cons, ih]
      | false =>
          have hNe : c ≠ d := by
            rintro rfl
            rw [hc] at hd
            cases hd
          rw [outline_cons_of_not hd, lead]
          split
          · simp [ih, hNe]
          · simp [ih, hNe, hx]

theorem outline_append_of_isSign (h : s.all isSign = true) (t : Text) :
    outline (s ++ t) = s ++ outline t := by
  induction s with
  | nil => rfl
  | cons c s ih =>
      obtain ⟨hc, hs⟩ := Bool.and_eq_true_iff.1 h
      rw [List.cons_append, outline_cons_of_isSign hc, ih hs, List.cons_append]

theorem exists_append_of_outline {r : Text} (h : s.all isSign = true) (hOutline : outline t = s ++ r) :
    ∃ u, t = s ++ u ∧ outline u = r := by
  induction s generalizing t with
  | nil => exact ⟨t, rfl, hOutline⟩
  | cons c s ih =>
      obtain ⟨hc, hs⟩ := Bool.and_eq_true_iff.1 h
      obtain ⟨u, rfl, hu⟩ := exists_cons_of_outline hc hOutline
      obtain ⟨v, rfl, hv⟩ := ih hs hu
      exact ⟨v, rfl, hv⟩

end Text

open Text

/-! ## What is open -/

namespace Opening

variable {q : Opening}

theorem all_isSign_closer (q : Opening) : q.closer.all isSign = true := by
  cases q <;> rfl

/-- It ends in an outline where it ends in the text. -/
theorem closeIn?_outline (q : Opening) (t : Text) :
    q.closeIn? (outline t) = (q.closeIn? t).map outline := by
  induction t with
  | nil => cases q <;> rfl
  | cons c t ih =>
      by_cases hClose : ∃ u, c :: t = q.closer ++ u
      · obtain ⟨u, hu⟩ := hClose
        rw [hu, outline_append_of_isSign q.all_isSign_closer, closeIn?_closer, closeIn?_closer]
        rfl
      have hNext : ∀ u, c :: t ≠ q.closer ++ u := fun u hu => hClose ⟨u, hu⟩
      have hOutline : ∀ u, outline (c :: t) ≠ q.closer ++ u := by
        intro u hu
        obtain ⟨v, hv, -⟩ := exists_append_of_outline q.all_isSign_closer hu
        exact hNext v hv
      rw [closeIn?_cons_of_ne hNext, ← ih]
      cases hc : isSign c with
      | true =>
          rw [outline_cons_of_isSign hc] at hOutline ⊢
          exact closeIn?_cons_of_ne hOutline
      | false =>
          rw [outline_cons_of_not hc, lead] at hOutline ⊢
          split
          · rfl
          · rename_i hHead
            rw [if_neg hHead] at hOutline
            exact closeIn?_cons_of_ne hOutline

end Opening

/-! ## Quoted literals -/

namespace Quoted

variable {kind : Literal} {fault : LexicalFault} {quote : Char}

theorem body_cons {c : Char} (hFeed : c ≠ '\n') (hQuote : c ≠ quote) (hEscape : c ≠ '\\') (t : Text) :
    body kind fault quote (c :: t) = (body kind fault quote t).prepend [c] := by
  cases t with
  | nil =>
      rw [body.eq_2, if_neg hFeed, if_neg hQuote, body.eq_1]
      rfl
  | cons d t => rw [body.eq_3, if_neg hFeed, if_neg hQuote, if_neg fun h => hEscape h.1]

theorem body_cons_lineFeed (t : Text) :
    body kind fault quote ('\n' :: t) = ⟨.error fault, [], '\n' :: t⟩ := by
  cases t <;> simp [body]

theorem body_cons_quote (hFeed : quote ≠ '\n') (t : Text) :
    body kind fault quote (quote :: t) = ⟨.ok (.literal kind), [quote], t⟩ := by
  cases t <;> simp [body, hFeed]

theorem body_cons_escape {d : Char} (hQuote : quote ≠ '\\') (hFeed : d ≠ '\n') (t : Text) :
    body kind fault quote ('\\' :: d :: t) = (body kind fault quote t).prepend ['\\', d] := by
  simp [body, hQuote.symm, hFeed]

theorem body_cons_escape_lineFeed (hQuote : quote ≠ '\\') (t : Text) :
    body kind fault quote ('\\' :: '\n' :: t) = ⟨.error fault, ['\\'], '\n' :: t⟩ := by
  rw [body.eq_3, if_neg (by simp), if_neg hQuote.symm, if_neg (by simp), body_cons_lineFeed]
  rfl

/-- A letter in front of a literal is no matter. -/
private theorem exists_lead (kind : Literal) (fault : LexicalFault) (hQuote : isSign quote = true)
    (t : Text) : ∃ u, lead t = 'x' :: u ∧ (body kind fault quote u).reading = (body kind fault quote t).reading ∧
      (body kind fault quote u).rest = (body kind fault quote t).rest := by
  by_cases hHead : t.head? = some 'x'
  · obtain ⟨u, rfl⟩ := List.head?_eq_some_iff.1 hHead
    refine ⟨u, rfl, ?_⟩
    rw [body_cons (by simp) (by rintro rfl; cases hQuote) (by simp)]
    exact ⟨rfl, rfl⟩
  · exact ⟨t, if_neg hHead, rfl, rfl⟩

/-- A literal with these characters to go ends in their outline where it ends in them. -/
private def EndsInOutline (kind : Literal) (fault : LexicalFault) (quote : Char) (t : Text) : Prop :=
  (body kind fault quote (outline t)).reading = (body kind fault quote t).reading ∧
    (body kind fault quote (outline t)).rest = outline (body kind fault quote t).rest

private theorem EndsInOutline.escape (hQuote : isSign quote = true) (hEscape : quote ≠ '\\')
    {t : Text} (h : EndsInOutline kind fault quote t) (d : Char) :
    EndsInOutline kind fault quote ('\\' :: d :: t) := by
  obtain ⟨hTailReading, hTailRest⟩ := h
  rw [EndsInOutline, outline_cons_of_isSign rfl]
  cases hd : isSign d with
  | false =>
      obtain ⟨u, hu, hReading, hRest⟩ := exists_lead kind fault hQuote (outline t)
      have hLetter : d ≠ '\n' := by
        rintro rfl
        cases hd
      rw [outline_cons_of_not hd, hu, body_cons_escape hEscape hLetter,
        body_cons_escape hEscape (d := 'x') (by decide)]
      exact ⟨hReading.trans hTailReading, hRest.trans hTailRest⟩
  | true =>
      rw [outline_cons_of_isSign hd]
      by_cases hNext : d = '\n'
      · subst hNext
        rw [body_cons_escape_lineFeed hEscape, body_cons_escape_lineFeed hEscape]
        exact ⟨rfl, (outline_cons_of_isSign rfl t).symm⟩
      · rw [body_cons_escape hEscape hNext, body_cons_escape hEscape hNext]
        exact ⟨hTailReading, hTailRest⟩

/-- A literal ends in an outline where it ends in the text. -/
theorem body_outline (kind : Literal) (fault : LexicalFault) (hQuote : isSign quote = true)
    (hEscape : quote ≠ '\\') (hFeed : quote ≠ '\n') (t : Text) :
    (body kind fault quote (outline t)).reading = (body kind fault quote t).reading ∧
      (body kind fault quote (outline t)).rest = outline (body kind fault quote t).rest := by
  have hPass {c : Char} (hc : isSign c = false) (t : Text) :
      body kind fault quote (c :: t) = (body kind fault quote t).prepend [c] :=
    body_cons (by rintro rfl; cases hc) (by rintro rfl; rw [hQuote] at hc; cases hc)
      (by rintro rfl; cases hc) t
  match t with
  | [] => exact ⟨rfl, rfl⟩
  | c :: t =>
    cases hc : isSign c with
    | false =>
        obtain ⟨u, hu, hReading, hRest⟩ := exists_lead kind fault hQuote (outline t)
        obtain ⟨ihReading, ihRest⟩ := body_outline kind fault hQuote hEscape hFeed t
        rw [outline_cons_of_not hc, hu, hPass hc, hPass rfl]
        exact ⟨hReading.trans ihReading, hRest.trans ihRest⟩
    | true =>
        by_cases hBack : c = '\\'
        · subst hBack
          match t with
          | [] =>
            rw [outline_cons_of_isSign hc, outline, body.eq_2, if_neg (by decide), if_neg hEscape.symm]
            exact ⟨rfl, rfl⟩
          | d :: t =>
            exact EndsInOutline.escape hQuote hEscape (body_outline kind fault hQuote hEscape hFeed t) d
        rw [outline_cons_of_isSign hc]
        by_cases hLine : c = '\n'
        · subst hLine
          rw [body_cons_lineFeed, body_cons_lineFeed]
          exact ⟨rfl, (outline_cons_of_isSign rfl t).symm⟩
        by_cases hClose : c = quote
        · subst hClose
          rw [body_cons_quote hFeed, body_cons_quote hFeed]
          exact ⟨rfl, rfl⟩
        obtain ⟨ihReading, ihRest⟩ := body_outline kind fault hQuote hEscape hFeed t
        rw [body_cons hLine hClose hBack, body_cons hLine hClose hBack]
        exact ⟨ihReading, ihRest⟩
  termination_by t.length

end Quoted

/-! ## Texts that are one token -/

/-- Whether a text is a comment shows in its outline. -/
theorem IsComment.of_outline {t t' : Text} (h : IsComment t) (hSame : outline t = outline t') :
    IsComment t' := by
  cases h with
  | @line body hLine =>
      obtain ⟨u, rfl, hu⟩ := exists_append_of_outline (s := ['/', '/']) (r := outline body)
        (by decide) (hSame.symm.trans (outline_append_of_isSign (s := ['/', '/']) (by decide) body))
      refine .line fun hFeed => hLine ?_
      rwa [← mem_outline_iff rfl, ← hu, mem_outline_iff rfl]
  | @block body hClose =>
      obtain ⟨u, rfl, hu⟩ := exists_append_of_outline (s := ['/', '*']) (r := outline body)
        (by decide) (hSame.symm.trans (outline_append_of_isSign (s := ['/', '*']) (by decide) body))
      have hBody : Opening.comment.closeIn? body = some [] := by
        rw [Opening.closeIn?, hClose]
        rfl
      have hOutline := Opening.closeIn?_outline .comment u
      rw [hu, Opening.closeIn?_outline, hBody] at hOutline
      obtain ⟨rest, hRest, hNil⟩ := Option.map_eq_some_iff.1 hOutline.symm
      obtain rfl := outline_eq_nil_iff.1 hNil
      obtain ⟨⟨inner, _⟩, hSplit, rfl⟩ := Option.map_eq_some_iff.1 hRest
      have hAll := Comment.splitClose?_append hSplit
      rw [List.append_nil] at hAll
      exact .block (hAll ▸ hSplit)

namespace Lexeme

variable {l : Literal} {quote : Char} {t t' : Text}

theorem eq_of_quote (hQuote : l.quote? = some quote) {c : Char} (h : (scan c t).reading = .ok (.literal l)) :
    c = quote := by
  rcases literal_cases h with hSame | ⟨hNone, -⟩
  · exact Option.some.inj (hSame.symm.trans hQuote)
  · cases hNone.symm.trans hQuote

private theorem eq_of_source {m : Lexeme} {kind : TokenKind} (hSource : m.source = t)
    (hReading : m.reading = .ok kind) (hRest : m.rest = []) : m = ⟨.ok kind, t, []⟩ := by
  obtain ⟨reading, text, rest⟩ := m
  obtain rfl : rest = [] := hRest
  obtain rfl : reading = .ok kind := hReading
  rw [source, List.append_nil] at hSource
  rw [← hSource]

/-- Whether a text is a quoted literal shows in its outline. -/
theorem Spells.of_outline (hQuote : l.quote? = some quote) (h : Spells (.literal l) t)
    (hSame : outline t = outline t') : Spells (.literal l) t' := by
  obtain ⟨c, u, rfl⟩ := h.exists_cons
  obtain rfl := eq_of_quote hQuote (congrArg reading h)
  have hSign : isSign c = true := by
    cases l <;> cases hQuote <;> rfl
  obtain ⟨v, rfl, hv⟩ := exists_cons_of_outline hSign
    (hSame.symm.trans (outline_cons_of_isSign hSign u))
  change scan c u = ⟨.ok (.literal l), c :: u, []⟩ at h
  change scan c v = ⟨.ok (.literal l), c :: v, []⟩
  -- Interpreted strings and runes end where their outlines do.
  have hBody {kind : Literal} {fault : LexicalFault} (hEscape : c ≠ '\\') (hFeed : c ≠ '\n')
      (hu : scan c u = (Quoted.body kind fault c u).prepend [c])
      (hv' : scan c v = (Quoted.body kind fault c v).prepend [c]) :
      scan c v = ⟨.ok (.literal l), c :: v, []⟩ := by
    obtain ⟨hReading, hRest⟩ := Quoted.body_outline kind fault hSign hEscape hFeed u
    obtain ⟨hReading', hRest'⟩ := Quoted.body_outline kind fault hSign hEscape hFeed v
    rw [hv] at hReading' hRest'
    have hNil : (Quoted.body kind fault c u).rest = [] := congrArg rest (hu.symm.trans h)
    refine eq_of_source (source_scan c v) ?_ ?_
    · rw [hv']
      exact hReading'.symm.trans (hReading.trans (congrArg reading (hu.symm.trans h)))
    · rw [hv']
      exact outline_eq_nil_iff.1 (hRest'.symm.trans (hRest.trans (congrArg outline hNil)))
  cases l with
  | string =>
      cases hQuote
      exact hBody (by decide) (by decide) rfl rfl
  | rune =>
      cases hQuote
      exact hBody (by decide) (by decide) rfl rfl
  | rawString =>
      cases hQuote
      have hReading : (Quoted.rawBody u).reading = .ok (.literal .rawString) := congrArg reading h
      have hClose : Opening.rawString.closeIn? u = some [] := by
        rw [Opening.closeIn?, hReading]
        exact congrArg some (congrArg rest h)
      have hOutline := Opening.closeIn?_outline .rawString v
      rw [hv, Opening.closeIn?_outline, hClose] at hOutline
      obtain ⟨rest, hRest, hNil⟩ := Option.map_eq_some_iff.1 hOutline.symm
      obtain rfl := outline_eq_nil_iff.1 hNil
      rw [Opening.closeIn?] at hRest
      rcases reading_rawBody v with hRead | hRead
      · rw [hRead] at hRest
        exact eq_of_source (source_scan _ v) hRead (Option.some.inj hRest)
      · rw [hRead] at hRest
        cases hRest
  | int => cases hQuote
  | float => cases hQuote
  | imaginary => cases hQuote

end Lexeme

end GoTemplate
