import GoTemplate.Proofs.Lexical.SpelledRows
import GoTemplate.Proofs.Syntax.LegibleType
import GoTemplate.Proofs.Syntax.Reduction
import GoTemplate.Proofs.Syntax.TypeWords
import GoTemplate.Proofs.Syntax.WordReading

/-!
Reading the words of types: the forms that are told by their first token, and names. A form is read
again if the types in it are.
-/

namespace GoTemplate

open Brackets TokenKind

/-! ## First tokens -/

/-- The kinds of tokens that may stand behind a type. -/
def TokenKind.endsType : TokenKind → Bool
  | .comma | .closing _ | .semicolon | .operator .or | .literal .string | .literal .rawString
  | .endOfSource => true
  | _ => false

/-- The kinds of the first tokens of types. -/
def TokenKind.opensType : TokenKind → Bool
  | .identifier | .operator .mul | .operator .arrow | .opening .square | .opening .round
  | .keyword .map | .keyword .chan | .keyword .func | .keyword .struct | .keyword .interface => true
  | _ => false

theorem GoType.opensType_firstKind (type : GoType) : type.firstKind.opensType = true := by
  cases type with
  | chan direction => cases direction <;> rfl
  | _ => rfl

theorem GoType.firstKind_ne {type : GoType} {k : TokenKind} (hk : k.opensType = false) :
    type.firstKind ≠ k := by
  rintro rfl
  rw [type.opensType_firstKind] at hk
  cases hk

theorem nextKind_wordTokens_sign {k : TokenKind} (h : k.spelling?.isSome = true)
    (words : List Text) : nextKind (wordTokens (k.sign :: words)) = k := by
  rw [wordTokens_sign _ h]
  rfl

/-- The words of a type start with its first token. -/
theorem GoType.nextKind_words {type : GoType} (h : type.IsFormed) :
    nextKind (wordTokens type.words) = type.firstKind := by
  cases type with
  | named package name args span =>
      rw [words_named]
      cases package with
      | none => rw [packageWords, List.nil_append, wordTokens_name _ h.2]; rfl
      | some package =>
          rw [packageWords, List.cons_append, wordTokens_name _ (h.1 package rfl)]
          rfl
  | chan direction elem span => cases direction <;> exact nextKind_wordTokens_sign rfl _
  | func signature => rw [words_func]; exact nextKind_wordTokens_sign rfl _
  | _ => exact nextKind_wordTokens_sign rfl _

theorem ne_nil_of_nextKind {ws : List Token} (h : nextKind ws ≠ .endOfSource) : ws ≠ [] := by
  rintro rfl
  exact h rfl

theorem GoType.wordTokens_ne_nil {type : GoType} (h : type.IsFormed) : wordTokens type.words ≠ [] :=
  ne_nil_of_nextKind (by rw [nextKind_words h]; exact firstKind_ne rfl)

theorem GoType.nextKind_words_append {type : GoType} (h : type.IsFormed) (rest : List Token) :
    nextKind (wordTokens type.words ++ rest) = type.firstKind := by
  rw [nextKind_append rest (wordTokens_ne_nil h), nextKind_words h]

theorem GoType.IsLegible.isFormed {type : GoType} (h : type.IsLegible) : type.IsFormed := by
  obtain ⟨hFormed, -⟩ := h
  exact hFormed

/-! ## Lengths -/

theorem nextKind_map_bare (ws : List Token) : nextKind (ws.map Token.bare) = nextKind ws := by
  cases ws <;> rfl

/-- The tokens of a length. -/
theorem IsLength.exists_tokens {t : Text} (h : IsLength t) : ∃ ws, t.standing = ws ∧ ws ≠ [] ∧
    Balanced ws ∧ Text.joinWithSpaces (ws.map Token.text) = t ∧ (∀ w ∈ ws, w.span = .none) ∧
    (nextKind ws = .operator .ellipsis → ∃ w, ws = [w] ∧ w.lexeme = t) := by
  obtain ⟨ws, rfl, hNe, hBalanced, hSpells, hEllipsis⟩ := h
  refine ⟨ws.map Token.bare, ?_, by simpa using hNe, ?_, ?_, ?_, ?_⟩
  · exact Text.standing_row (fun w hw => (hSpells w hw).2) fun w hw => (hSpells w hw).1
  · refine hBalanced.of_kinds ?_
    rw [List.map_map]
    rfl
  · rw [List.map_map, Token.row]
    congr 1
    exact List.map_congr_left fun w hw => Token.text_of_spells (t := w.bare) (hSpells w hw).2
  · intro w hw
    obtain ⟨v, -, rfl⟩ := List.mem_map.1 hw
    rfl
  · intro hKind
    obtain ⟨w, rfl⟩ := hEllipsis (by rwa [nextKind_map_bare] at hKind)
    exact ⟨w.bare, rfl, (Token.row_singleton w).symm⟩

namespace Parser

theorem readsOff_expression {ws rest : List Token} (hNe : ws ≠ []) (hBalanced : Balanced ws)
    (hSpan : ∀ w ∈ ws, w.span = .none) (hRest : nextKind rest = .closing .square) :
    ReadsOff (expression fun _ => false) (ws ++ rest) (Text.joinWithSpaces (ws.map Token.text)) rest := by
  have hStop : splitExpression (fun _ => false) [] rest = .ok ([], rest) := by
    cases rest with
    | nil => rfl
    | cons t rest => exact splitExpression_stop (.inr ⟨.square, hRest⟩)
  have hSplit : splitExpression (fun _ => false) [] (ws ++ rest) = .ok (ws, rest) := by
    rw [splitExpression_append hBalanced (fun _ _ => rfl), hStop, Except.map, List.append_nil]
  obtain ⟨before, last, rfl⟩ : ∃ before last, ws = before ++ [last] :=
    ⟨_, _, (List.dropLast_append_getLast hNe).symm⟩
  have hTokens : (Cursor.ofTokens (before ++ [last] ++ rest)).rest = before ++ [last] ++ rest := rfl
  rw [ReadsOff, expression, hTokens, hSplit]
  simp only [List.getLast?_concat]
  rw [hSpan last (by simp)]
  rfl

theorem readsOff_arrayLength {t : Text} (h : IsLength t) {rest : List Token}
    (hRest : nextKind rest = .closing .square) : ReadsOff arrayLength (t.standing ++ rest) t rest := by
  obtain ⟨ws, hWords, hNe, hBalanced, hText, hSpan, hEllipsis⟩ := h.exists_tokens
  rw [hWords]
  refine readsOff_kind (nextKind_append rest hNe) ?_
  by_cases hFirst : nextKind ws = .operator .ellipsis
  · obtain ⟨w, rfl, rfl⟩ := hEllipsis hFirst
    rw [if_pos hFirst]
    exact (readsOff_take (hSpan w List.mem_cons_self)).bind readsOff_pure
  · rw [if_neg hFirst]
    have hRead := readsOff_expression hNe hBalanced hSpan hRest
    rwa [hText] at hRead

end Parser

/-! ## Types that are read again -/

/-- From its words the type is read again, up to places. No type in it leaves a bracket open. -/
structure GoType.IsReread (type : GoType) : Prop where
  isLegible : type.IsLegible
  parts : ∀ part ∈ type.parts, Balanced (wordTokens part.words)
  reads : ∀ rest, (nextKind rest).endsType = true →
    Parser.ReadsOff Parser.goType (wordTokens type.words ++ rest) (respan Span.erase type) rest

namespace GoType.IsReread

variable {type : GoType}

theorem isFormed (h : type.IsReread) : type.IsFormed := h.isLegible.isFormed

/-- The words of a type leave no bracket open. -/
theorem balanced (h : type.IsReread) : Balanced (wordTokens type.words) := by
  have hRun := h.reads [] rfl
  rw [List.append_nil] at hRun
  have hProper : (Cursor.ofTokens (wordTokens type.words)).IsProper :=
    Cursor.isProper_ofTokens (wordTokens_bare type.words)
  obtain ⟨word, hTakes, hWord⟩ :=
    Parser.reads_goType _ _ _ _ hProper (Nat.lt_succ_self _) trivial hRun
  have hRest : wordTokens type.words = word ++ [] := hTakes.rest_eq
  rw [hRest, List.append_nil]
  exact hWord.phrase.balanced

end GoType.IsReread

namespace Parser

open GoType

/-- The reader of types is that of the forms of types. -/
theorem readsOff_goType {t : Token} {ws rest : List Token} {found : GoType}
    {f : Span → TokenKind → Parser GoType} (hForm : typeForm goType = here >>= fun start => kind >>= f start)
    (ht : t.span = .none) (h : ReadsOff (f .none t.kind) (t :: ws) found rest) :
    ReadsOff goType (t :: ws) found rest := by
  refine (goType_eq rfl).trans ?_
  rw [hForm]
  exact (readsOff_here (by rintro _ ⟨⟩; exact ht)).bind (readsOff_kind rfl h)

/-- A type behind the token of its form. -/
theorem readsOff_elem {elem : GoType} (h : elem.IsReread) {make : GoType → Span → GoType}
    {rest : List Token} (hRest : (nextKind rest).endsType = true) :
    ReadsOff (do let elem ← goType; return make elem (← spanFrom .none)) (wordTokens elem.words ++ rest)
      (make (respan Span.erase elem) .none) rest :=
  (h.reads rest hRest).bind (readsOff_spanFrom.bind readsOff_pure)

section

variable {elem : GoType} (h : elem.IsReread) (span : Span)

include h

theorem reads_pointer {rest : List Token} (hRest : (nextKind rest).endsType = true) :
    ReadsOff goType (wordTokens (pointer elem span).words ++ rest)
      (respan Span.erase (pointer elem span)) rest := by
  rw [words, wordTokens_sign _ rfl]
  exact readsOff_goType rfl rfl ((readsOff_take rfl).bind (readsOff_elem h hRest))

theorem reads_slice {rest : List Token} (hRest : (nextKind rest).endsType = true) :
    ReadsOff goType (wordTokens (slice elem span).words ++ rest)
      (respan Span.erase (slice elem span)) rest := by
  rw [words, wordTokens_sign _ rfl, wordTokens_sign _ rfl]
  exact readsOff_goType rfl rfl ((readsOff_take rfl).bind (readsOff_eat.bind
    (readsOff_elem h hRest)))

theorem reads_array {length : Text} (hLength : IsLength length) {rest : List Token}
    (hRest : (nextKind rest).endsType = true) :
    ReadsOff goType (wordTokens (array length elem span).words ++ rest)
      (respan Span.erase (array length elem span)) rest := by
  have hOpen : nextKind (length.standing ++ (closing .square).token :: (wordTokens elem.words ++ rest)) ≠
      .closing .square := by
    obtain ⟨ws, hWords, hNe, hBalanced, -⟩ := hLength.exists_tokens
    rw [hWords]
    exact fun hClosing => hNe (hBalanced.eq_nil_of_closing hClosing)
  rw [words, wordTokens_sign _ rfl, wordTokens_cons, wordTokens_sign _ rfl]
  simp only [List.cons_append, List.append_assoc]
  exact readsOff_goType rfl rfl ((readsOff_take rfl).bind ((readsOff_eat_other hOpen).bind
    ((readsOff_arrayLength hLength rfl).bind (readsOff_expect.bind (readsOff_elem h hRest)))))

theorem reads_map {key : GoType} (hKey : key.IsReread) {rest : List Token}
    (hRest : (nextKind rest).endsType = true) :
    ReadsOff goType (wordTokens (map key elem span).words ++ rest)
      (respan Span.erase (map key elem span)) rest := by
  rw [words, wordTokens_sign _ rfl, wordTokens_sign _ rfl, wordTokens_append, wordTokens_sign _ rfl]
  simp only [List.cons_append, List.append_assoc]
  exact readsOff_goType rfl rfl ((readsOff_take rfl).bind (readsOff_expect.bind
    ((hKey.reads _ rfl).bind (readsOff_expect.bind (readsOff_elem h hRest)))))

theorem reads_paren {rest : List Token} :
    ReadsOff goType (wordTokens (paren elem span).words ++ rest)
      (respan Span.erase (paren elem span)) rest := by
  rw [words, wordTokens_sign _ rfl, wordTokens_append, wordTokens_sign _ rfl]
  simp only [List.cons_append, List.append_assoc]
  exact readsOff_goType rfl rfl ((readsOff_take rfl).bind ((h.reads _ rfl).bind
    (readsOff_expect.bind (readsOff_spanFrom.bind readsOff_pure))))

theorem reads_chan {direction : ChannelDirection}
    (hBoth : direction = .both → elem.firstKind ≠ .operator .arrow) {rest : List Token}
    (hRest : (nextKind rest).endsType = true) :
    ReadsOff goType (wordTokens (chan direction elem span).words ++ rest)
      (respan Span.erase (chan direction elem span)) rest := by
  rw [words, wordTokens_append]
  cases direction with
  | both =>
      have hNext : nextKind (wordTokens elem.words ++ rest) ≠ .operator .arrow := by
        rw [nextKind_words_append h.isFormed]
        exact hBoth rfl
      rw [channelWords, wordTokens_sign _ rfl]
      exact readsOff_goType rfl rfl ((readsOff_take rfl).bind ((readsOff_eat_other hNext).bind
        (readsOff_elem h hRest)))
  | send =>
      rw [channelWords, wordTokens_sign _ rfl, wordTokens_sign _ rfl]
      exact readsOff_goType rfl rfl ((readsOff_take rfl).bind (readsOff_eat.bind
        (readsOff_elem h hRest)))
  | receive =>
      rw [channelWords, wordTokens_sign _ rfl, wordTokens_sign _ rfl]
      exact readsOff_goType rfl rfl ((readsOff_take rfl).bind (readsOff_expect.bind
        (readsOff_elem h hRest)))

end

end Parser

/-! ## Names -/

theorem TokenKind.ne_of_endsType {k other : TokenKind} (h : k.endsType = true)
    (hOther : other.endsType = false) : k ≠ other := by
  rintro rfl
  rw [h] at hOther
  cases hOther

theorem wordTokens_bracketed (b : Bracket) (items : List (List Text)) (rest : List Token) :
    wordTokens (bracketed b items) ++ rest = (opening b).token ::
      (separated .comma (items.map wordTokens) ++ (closing b).token :: rest) := by
  rw [bracketed, wordTokens_sign _ rfl, wordTokens_append, wordTokens_intercalate rfl, wordTokens_sign _ rfl]
  simp

theorem Brackets.balanced_separated {items : List (List Token)} (h : ∀ item ∈ items, Balanced item) :
    Balanced (separated .comma items) := by
  cases items with
  | nil => exact .nil
  | cons item items =>
      obtain ⟨hItem, hItems⟩ := List.forall_mem_cons.1 h
      rw [separated_cons]
      refine hItem.append ?_
      induction items with
      | nil => exact .nil
      | cons next items ih =>
          obtain ⟨hNext, hItems⟩ := List.forall_mem_cons.1 hItems
          refine .plain (isPlain_of_isInner rfl) (hNext.append (ih ?_ hItems))
          exact List.forall_mem_cons.2 ⟨hItem, hItems⟩

namespace Parser

open GoType

/-- Behind type arguments the look-ahead sees what follows the type. -/
theorem kindAfter_args {args : List GoType} (hArgs : ∀ arg ∈ args, Balanced (wordTokens arg.words))
    (rest : List Token) :
    kindAfter 0 (wordTokens (bracketed .square (args.map GoType.words)) ++ rest) = nextKind rest := by
  rw [wordTokens_bracketed]
  refine kindAfter_group (b := .square) (c := .square) rfl (balanced_separated ?_) rfl rest
  intro item hItem
  obtain ⟨words, hWords, rfl⟩ := List.mem_map.1 hItem
  obtain ⟨arg, hArg, rfl⟩ := List.mem_map.1 hWords
  exact hArgs arg hArg

section

variable {args : List GoType} (hArgs : ∀ arg ∈ args, arg.IsReread)

include hArgs

theorem readsOff_typeArgs {rest : List Token} (hRest : (nextKind rest).endsType = true) :
    ReadsOff (ifNext (.opening .square) (typeArgs goType) [])
      (wordTokens (bracketedIfAny .square (args.map GoType.words)) ++ rest) (respan Span.erase args)
      rest := by
  rw [bracketedIfAny]
  split
  · rename_i hNil
    obtain rfl := List.map_eq_nil_iff.1 hNil
    refine readsOff_kind (k := nextKind rest) rfl ?_
    rw [if_neg (ne_of_endsType hRest rfl)]
    exact readsOff_pure
  · rw [wordTokens_bracketed, List.map_map]
    refine readsOff_kind (k := .opening .square) rfl ?_
    rw [if_pos rfl]
    refine readsOff_bracket (fun arg hArg last hLast => ?_) (fun arg hArg => ?_) readsOff_pure
    · refine (hArgs arg hArg).reads last ?_
      rcases hLast with hLast | hLast
      · rw [hLast]; rfl
      · rw [hLast]; rfl
    · have hFormed := (hArgs arg hArg).isFormed
      exact ⟨wordTokens_ne_nil hFormed, by
        rw [Function.comp_apply, nextKind_words hFormed]
        exact firstKind_ne rfl⟩

theorem reads_named {package : Option Identifier} {name : Identifier} (span : Span)
    (hFormed : (named package name args span).IsFormed) {rest : List Token}
    (hRest : (nextKind rest).endsType = true) :
    ReadsOff goType (wordTokens (named package name args span).words ++ rest)
      (respan Span.erase (named package name args span)) rest := by
  have hArgsRead := readsOff_typeArgs hArgs hRest
  rw [words_named, respan_named]
  cases package with
  | none =>
      rw [packageWords, List.nil_append, wordTokens_name _ hFormed.2, List.cons_append]
      have hNext : nextKind (wordTokens (bracketedIfAny .square (args.map GoType.words)) ++ rest) ≠ .dot := by
        rw [bracketedIfAny]
        split
        · exact ne_of_endsType hRest rfl
        · rw [wordTokens_bracketed]
          simp [nextKind]
      refine readsOff_goType rfl rfl ((readsOff_identifier name.name).bind ?_)
      refine ReadsOff.bind (a := none) ((readsOff_eat_other hNext).bind readsOff_pure) ?_
      exact hArgsRead.bind (readsOff_spanFrom.bind readsOff_pure)
  | some package =>
      rw [packageWords, List.cons_append, List.cons_append, wordTokens_name _ (hFormed.1 package rfl),
        wordTokens_sign _ rfl, List.nil_append, wordTokens_name _ hFormed.2]
      refine readsOff_goType rfl rfl ((readsOff_identifier package.name).bind ?_)
      refine (readsOff_eat.bind (readsOff_identifier name.name).map).bind ?_
      exact hArgsRead.bind (readsOff_spanFrom.bind readsOff_pure)

end

end Parser

end GoTemplate
