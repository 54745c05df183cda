import GoTemplate.Proofs.Syntax.Rows
import GoTemplate.Proofs.Syntax.TypeText

/-!
Reading words. A word that is spelled as a token is this token, and the tokens of words in a row are
those of each. What a reader of syntax makes of such tokens, which have no places, is said by rules: one
for each small reader, and for lists one that asks for each item.
-/

namespace GoTemplate

open Brackets TokenKind

/-! ## Tokens of words -/

/-- The tokens that stand in a text, without their places. -/
def Text.standing (t : Text) : List Token := (verbatimTokens t).map Token.bare

/-- The tokens of words in a row. -/
def wordTokens (words : List Text) : List Token := words.flatMap Text.standing

/-- The token of a kind that has only one text. -/
def TokenKind.token (k : TokenKind) : Token := ⟨k, k.sign, .none⟩

@[simp] theorem TokenKind.kind_token (k : TokenKind) : k.token.kind = k := rfl

@[simp] theorem TokenKind.span_token (k : TokenKind) : k.token.span = .none := rfl

theorem Text.standing_row {ws : List Token} (hSpells : ∀ w ∈ ws, Lexeme.Spells w.kind w.lexeme)
    (hComment : ∀ w ∈ ws, w.kind ≠ .comment) : (Token.row ws).standing = ws.map Token.bare := by
  refine (standingTokens_iff.1 (StandingTokens.row hSpells fun w hw hLine => ?_)).2
  have hIn : w ∈ ws := (List.dropLast_prefix ws).subset hw
  have hKind := hSpells w hIn
  obtain ⟨tail, hText⟩ := hLine
  rw [← hText] at hKind
  have hReading : (Comment.line tail).reading = .ok w.kind := congrArg Lexeme.reading hKind
  exact hComment w hIn (Except.ok.inj hReading).symm

theorem Text.standing_of_spells {kind : TokenKind} {t : Text} (h : Lexeme.Spells kind t)
    (hKind : kind ≠ .comment) : t.standing = [⟨kind, t, .none⟩] := by
  have hSpells : ∀ w ∈ [(⟨kind, t, .none⟩ : Token)], Lexeme.Spells w.kind w.lexeme := by simpa using h
  have hRow := Text.standing_row hSpells (by simpa using hKind)
  rwa [Token.row_singleton] at hRow

theorem Text.standing_kind (t : Text) : ∀ w ∈ t.standing, w.kind ≠ .endOfSource := by
  intro w hw
  obtain ⟨v, hv, rfl⟩ := List.mem_map.1 hw
  exact Lexer.run_tokens_kind _ v hv

/-- Whether a text spells a token shows in what is found at its front. -/
theorem Lexeme.spells_of_reading {c : Char} {t : Text} {kind : TokenKind}
    (hReading : (scan c t).reading.toOption = some kind) (hRest : (scan c t).rest = []) :
    Spells kind (c :: t) := by
  have hSource := source_scan c t
  rw [source, hRest, List.append_nil] at hSource
  change scan c t = _
  generalize scan c t = l at hReading hRest hSource
  obtain ⟨reading, text, rest⟩ := l
  cases reading with
  | error fault => cases hReading
  | ok found =>
      cases hReading
      cases hRest
      cases hSource
      rfl

/-- The kinds with only one text. -/
def TokenKind.signed : List TokenKind := symbols ++ Keyword.all.map keyword

theorem TokenKind.mem_signed {k : TokenKind} (h : k.spelling?.isSome = true) : k ∈ signed := by
  cases k with
  | keyword k => exact List.mem_append_right _ (List.mem_map_of_mem k.mem_all)
  | operator o =>
      exact List.mem_append_left _ (List.mem_append_left _ (List.mem_map_of_mem o.mem_longestFirst))
  | opening b | closing b =>
      refine List.mem_append_left _ (List.mem_append_right _ ?_)
      cases b <;> decide
  | comma | dot | semicolon | colon => decide
  | _ => cases h

theorem Lexeme.spells_sign {k : TokenKind} (h : k.spelling?.isSome = true) : Spells k k.sign := by
  have hAll : ∀ k ∈ signed, (k.sign.head?.any fun c =>
      (scan c k.sign.tail).reading.toOption = some k && (scan c k.sign.tail).rest = []) = true := by
    decide +kernel
  have hScan := hAll k (mem_signed h)
  cases hSign : k.sign with
  | nil => rw [hSign] at hScan; cases hScan
  | cons c t =>
      rw [hSign] at hScan
      obtain ⟨hReading, hRest⟩ := Bool.and_eq_true_iff.1 hScan
      exact spells_of_reading (of_decide_eq_true hReading) (of_decide_eq_true hRest)

theorem Text.standing_sign {k : TokenKind} (h : k.spelling?.isSome = true) :
    k.sign.standing = [k.token] :=
  Text.standing_of_spells (Lexeme.spells_sign h) (by rintro rfl; cases h)

section

variable (words others : List Text)

@[simp] theorem wordTokens_nil : wordTokens [] = [] := rfl

@[simp] theorem wordTokens_append :
    wordTokens (words ++ others) = wordTokens words ++ wordTokens others :=
  List.flatMap_append

theorem wordTokens_cons (t : Text) : wordTokens (t :: words) = t.standing ++ wordTokens words :=
  List.flatMap_cons

theorem wordTokens_sign {k : TokenKind} (h : k.spelling?.isSome = true) :
    wordTokens (k.sign :: words) = k.token :: wordTokens words := by
  rw [wordTokens_cons, Text.standing_sign h]
  rfl

theorem wordTokens_name {t : Text} (h : IsName t) :
    wordTokens (t :: words) = ⟨.identifier, t, .none⟩ :: wordTokens words := by
  rw [wordTokens_cons, Text.standing_of_spells h (by decide)]
  rfl

theorem wordTokens_bare : ∀ w ∈ wordTokens words, w.kind ≠ .endOfSource ∧ w.span = .none := by
  intro w hw
  obtain ⟨t, -, hw⟩ := List.mem_flatMap.1 hw
  refine ⟨t.standing_kind w hw, ?_⟩
  obtain ⟨v, -, rfl⟩ := List.mem_map.1 hw
  rfl

end

/-- Lists of tokens with the token of a kind between neighbours. -/
def separated (k : TokenKind) (items : List (List Token)) : List Token :=
  [k.token].intercalate items

theorem separated_cons_cons (k : TokenKind) (item next : List Token) (items : List (List Token)) :
    separated k (item :: next :: items) = item ++ k.token :: separated k (next :: items) := by
  simp [separated, List.intercalate]

@[simp] theorem separated_singleton (k : TokenKind) (item : List Token) :
    separated k [item] = item := by
  simp [separated, List.intercalate]

theorem separated_cons (k : TokenKind) (item : List Token) (items : List (List Token)) :
    separated k (item :: items) = item ++ items.flatMap fun other => k.token :: other := by
  induction items generalizing item with
  | nil => simp
  | cons next items ih => rw [separated_cons_cons, ih]; rfl

theorem nextKind_separated (k : TokenKind) {item : List Token} (h : item ≠ [])
    (items : List (List Token)) (rest : List Token) :
    nextKind (separated k (item :: items) ++ rest) = nextKind item := by
  obtain ⟨t, tail, rfl⟩ := List.exists_cons_of_ne_nil h
  cases items with
  | nil => rw [separated_singleton]; rfl
  | cons next items => rw [separated_cons_cons]; rfl

theorem wordTokens_intercalate {k : TokenKind} (h : k.spelling?.isSome = true)
    (items : List (List Text)) :
    wordTokens ([k.sign].intercalate items) = separated k (items.map wordTokens) := by
  induction items with
  | nil => rfl
  | cons item items ih =>
      cases items with
      | nil => simp [separated, List.intercalate]
      | cons next items =>
          have hWords : [k.sign].intercalate (item :: next :: items) =
              item ++ k.sign :: [k.sign].intercalate (next :: items) := by
            simp [List.intercalate]
          rw [hWords, wordTokens_append, wordTokens_sign _ h, ih]
          exact (separated_cons_cons k _ _ _).symm

/-! ## Reading off -/

namespace Parser

variable {α β : Type}

/-- From the tokens `ws` on the reader gives `a`, and the tokens `rest` are left. -/
def ReadsOff (p : Parser α) (ws : List Token) (a : α) (rest : List Token) : Prop :=
  p (.ofTokens ws) = .ok (a, .ofTokens rest)

section

variable {p : Parser α} {f : α → Parser β} {ws rest last : List Token} {a : α} {b : β}

theorem ReadsOff.bind (hp : ReadsOff p ws a rest) (hf : ReadsOff (f a) rest b last) :
    ReadsOff (p >>= f) ws b last := by
  rw [ReadsOff, bind_ok hp]
  exact hf

theorem readsOff_pure : ReadsOff (pure a) ws a ws := rfl

theorem ReadsOff.map {g : α → β} (hp : ReadsOff p ws a rest) : ReadsOff (g <$> p) ws (g a) rest :=
  ReadsOff.bind (f := fun a => pure (g a)) hp rfl

theorem readsOff_look {γ : Type} {g : Cursor → γ} {f : γ → Parser β} (found : γ)
    (hg : g (.ofTokens ws) = found) (hf : ReadsOff (f found) ws b last) :
    ReadsOff (look g >>= f) ws b last := by
  subst hg
  exact hf

theorem kind_ofTokens (ws : List Token) : (Cursor.ofTokens ws).kind = nextKind ws := by
  cases ws <;> rfl

theorem kindAt_ofTokens (t : Token) (ws : List Token) :
    (Cursor.ofTokens (t :: ws)).kindAt 1 = nextKind ws := by
  cases ws <;> rfl

theorem readsOff_kind {f : TokenKind → Parser β} {k : TokenKind} (hk : nextKind ws = k)
    (hf : ReadsOff (f k) ws b last) : ReadsOff (kind >>= f) ws b last :=
  readsOff_look k ((kind_ofTokens ws).trans hk) hf

theorem readsOff_spanFrom : ReadsOff (spanFrom .none) ws .none ws := rfl

theorem readsOff_here (h : ∀ w ∈ ws.head?, w.span = .none) : ReadsOff here ws .none ws := by
  cases ws with
  | nil => rfl
  | cons w ws =>
      change Except.ok (w.span, _) = _
      rw [h w rfl]

end

section

variable {t : Token} {k : TokenKind} {ws : List Token}

theorem readsOff_take (ht : t.span = .none) : ReadsOff take (t :: ws) t ws := by
  change Except.ok (t, ({ Cursor.ofTokens (t :: ws) with previous := t.span, rest := ws } : Cursor)) = _
  rw [ht]
  rfl

theorem readsOff_expect : ReadsOff (expect k) (k.token :: ws) k.token ws :=
  readsOff_kind (k := k) rfl (by rw [if_pos rfl]; exact readsOff_take rfl)

theorem readsOff_eat : ReadsOff (eat k) (k.token :: ws) true ws :=
  readsOff_kind (k := k) rfl (by rw [if_pos rfl]; exact (readsOff_take rfl).bind readsOff_pure)

theorem readsOff_eat_other (hk : nextKind ws ≠ k) : ReadsOff (eat k) ws false ws :=
  readsOff_kind rfl (by rw [if_neg hk]; exact readsOff_pure)

theorem readsOff_identifier (t : Text) :
    ReadsOff identifier (⟨.identifier, t, .none⟩ :: ws) ⟨t, .none⟩ ws :=
  readsOff_kind (k := .identifier) rfl ((readsOff_take rfl).bind rfl)

end

/-! ## Lists -/

section

variable {item : Parser β} {w : α → List Token} {g : α → β} {as : List α} {rest : List Token}

theorem readsOff_commaList {close : TokenKind} (hAs : as ≠ []) (hClose : close ≠ .comma)
    (hItem : ∀ a ∈ as, ∀ last, nextKind last = .comma ∨ nextKind last = close →
      ReadsOff item (w a ++ last) (g a) last)
    (hFirst : ∀ a ∈ as, w a ≠ [] ∧ nextKind (w a) ≠ close) (hRest : nextKind rest = close) :
    ReadsOff (commaList close item) (separated .comma (as.map w) ++ rest) (as.map g) rest := by
  induction as with
  | nil => exact absurd rfl hAs
  | cons a as ih =>
      obtain ⟨ha, hOthers⟩ := List.forall_mem_cons.1 hItem
      obtain ⟨-, hFirst⟩ := List.forall_mem_cons.1 hFirst
      cases as with
      | nil =>
          rw [List.map_singleton, List.map_singleton, separated_singleton]
          refine commaList_last (ha rest (.inr hRest)) ?_
          rw [kind_ofTokens, hRest]
          exact hClose
      | cons b as =>
          obtain ⟨⟨hb, hbClose⟩, -⟩ := List.forall_mem_cons.1 hFirst
          have hNext := nextKind_separated .comma hb (as.map w) rest
          have hLater := ih (by simp) hOthers hFirst
          rw [List.map_cons, List.map_cons, separated_cons_cons, List.append_assoc, List.cons_append]
          rw [List.map_cons] at hLater
          generalize separated .comma (w b :: as.map w) ++ rest = later at hNext hLater ⊢
          have hComma := ha (TokenKind.comma.token :: later) (.inl rfl)
          have hOpen : (Cursor.ofTokens later).kind ≠ close := by
            rw [kind_ofTokens, hNext]
            exact hbClose
          have hLess : later.length < (Cursor.ofTokens (w a ++ TokenKind.comma.token :: later)).rest.length := by
            change _ < (w a ++ TokenKind.comma.token :: later).length
            rw [List.length_append, List.length_cons]
            omega
          refine (commaList_cons hComma rfl rfl hOpen hLess).trans ?_
          exact congrArg (Except.map _) hLater

theorem readsOff_commaList? {close : TokenKind} (hClose : close ≠ .comma)
    (hItem : ∀ a ∈ as, ∀ last, nextKind last = .comma ∨ nextKind last = close →
      ReadsOff item (w a ++ last) (g a) last)
    (hFirst : ∀ a ∈ as, w a ≠ [] ∧ nextKind (w a) ≠ close) (hRest : nextKind rest = close) :
    ReadsOff (commaList? close item) (separated .comma (as.map w) ++ rest) (as.map g) rest := by
  refine readsOff_kind rfl ?_
  cases as with
  | nil =>
      change ReadsOff (if nextKind rest = close then _ else _) rest [] rest
      rw [if_pos hRest]
      rfl
  | cons a as =>
      obtain ⟨⟨ha, haClose⟩, -⟩ := List.forall_mem_cons.1 hFirst
      rw [if_neg (by rw [List.map_cons, nextKind_separated _ ha]; exact haClose)]
      exact readsOff_commaList (by simp) hClose hItem hFirst hRest

/-- A list in brackets. -/
theorem readsOff_bracket {b : Bracket}
    (hItem : ∀ a ∈ as, ∀ last, nextKind last = .comma ∨ nextKind last = .closing b →
      ReadsOff item (w a ++ last) (g a) last)
    (hFirst : ∀ a ∈ as, w a ≠ [] ∧ nextKind (w a) ≠ .closing b) {γ : Type} {f : Token → List β → Parser γ}
    {result : γ} {last : List Token} (hf : ReadsOff (f (opening b).token (as.map g)) rest result last) :
    ReadsOff (do
      let opened ← expect (.opening b)
      let found ← commaList? (.closing b) item
      let _ ← expect (.closing b)
      f opened found)
      ((opening b).token :: (separated .comma (as.map w) ++ (closing b).token :: rest)) result last :=
  readsOff_expect.bind
    ((readsOff_commaList? (by simp) hItem hFirst rfl).bind
      (readsOff_expect.bind hf))

/-- Items as long as there are more of them, where each item asks for the kind of the token after it. -/
theorem readsOff_manyWhile {more : TokenKind → Bool} (P : TokenKind → Prop)
    (hItem : ∀ a ∈ as, ∀ last, P (nextKind last) → ReadsOff item (w a ++ last) (g a) last)
    (hFirst : ∀ a ∈ as, w a ≠ [] ∧ more (nextKind (w a)) = true ∧ P (nextKind (w a)))
    (hRest : more (nextKind rest) = false) (hP : P (nextKind rest)) :
    ReadsOff (manyWhile more item) (as.flatMap w ++ rest) (as.map g) rest := by
  induction as with
  | nil =>
      rw [ReadsOff, manyWhile, if_neg (by rw [kind_ofTokens]; simpa using hRest)]
      rfl
  | cons a as ih =>
      obtain ⟨ha, hOthers⟩ := List.forall_mem_cons.1 hItem
      obtain ⟨⟨hNe, hMore, -⟩, hFirst⟩ := List.forall_mem_cons.1 hFirst
      have hLater := ih hOthers hFirst
      have hNext : P (nextKind (as.flatMap w ++ rest)) := by
        cases as with
        | nil => exact hP
        | cons b as =>
            obtain ⟨hb, -, hPb⟩ := hFirst b List.mem_cons_self
            rw [List.flatMap_cons, List.append_assoc, nextKind_append _ hb]
            exact hPb
      rw [List.flatMap_cons, List.append_assoc]
      generalize as.flatMap w ++ rest = later at hLater hNext ⊢
      have hKind : (Cursor.ofTokens (w a ++ later)).kind = nextKind (w a) := by
        rw [kind_ofTokens, nextKind_append _ hNe]
      have hLess : (Cursor.ofTokens later).rest.length < (Cursor.ofTokens (w a ++ later)).rest.length := by
        have := List.length_pos_iff.2 hNe
        change later.length < (w a ++ later).length
        rw [List.length_append]
        omega
      rw [ReadsOff, manyWhile, if_pos (by rw [hKind]; exact hMore), ha later hNext]
      dsimp only
      rw [dif_pos hLess, hLater]
      rfl

/-- Lines with a semicolon behind each. -/
theorem readsOff_statements {close : TokenKind}
    (hItem : ∀ a ∈ as, ∀ last, nextKind last = .semicolon → ReadsOff item (w a ++ last) (g a) last)
    (hFirst : ∀ a ∈ as, w a ≠ [] ∧ nextKind (w a) ≠ close ∧ nextKind (w a) ≠ .endOfSource)
    (hRest : nextKind rest = close) :
    ReadsOff (statements close item)
      (as.flatMap (fun a => w a ++ [TokenKind.semicolon.token]) ++ rest) (as.map g) rest := by
  refine readsOff_manyWhile (fun _ => True) (fun a ha last _ => ?_) (fun a ha => ?_) (by simp [hRest])
    trivial
  · rw [List.append_assoc]
    refine (hItem a ha (TokenKind.semicolon.token :: last) rfl).bind ?_
    exact ReadsOff.bind (readsOff_kind (k := .semicolon) rfl ((readsOff_take rfl).bind rfl)) rfl
  · obtain ⟨hNe, hClose, hEnd⟩ := hFirst a ha
    rw [nextKind_append _ hNe]
    exact ⟨by simp, by simpa using ⟨hClose, hEnd⟩, trivial⟩

/-- Items with the token of a kind between neighbours. -/
theorem readsOff_sepBy {separator : TokenKind} {a : α}
    (hItem : ∀ b ∈ a :: as, ∀ last, nextKind last = separator ∨ nextKind last = nextKind rest →
      ReadsOff item (w b ++ last) (g b) last) (hRest : nextKind rest ≠ separator) :
    ReadsOff (sepBy separator item) (separated separator ((a :: as).map w) ++ rest)
      ((a :: as).map g) rest := by
  obtain ⟨ha, hOthers⟩ := List.forall_mem_cons.1 hItem
  rw [List.map_cons, separated_cons, List.append_assoc, List.flatMap_map]
  have hNext : nextKind (as.flatMap (fun b => separator.token :: w b) ++ rest) = separator ∨
      nextKind (as.flatMap (fun b => separator.token :: w b) ++ rest) = nextKind rest := by
    cases as with
    | nil => exact .inr rfl
    | cons b as => exact .inl rfl
  refine (ha _ hNext).bind ?_
  refine (readsOff_manyWhile (fun k => k = separator ∨ k = nextKind rest) (fun b hb last hLast => ?_)
    (fun b _ => ⟨by simp, decide_eq_true rfl, .inl rfl⟩) (by simpa using hRest) (.inr rfl)).bind rfl
  exact (readsOff_take (t := separator.token) rfl).bind (hOthers b hb last hLast)

end

end Parser

end GoTemplate
