import GoTemplate.Proofs.Syntax.SpecRows

/-!
Where the declarations of types start. The places are told by the tokens alone: behind the keyword, if
that stands outside of brackets behind a semicolon, and in the brackets after it behind the opening one
and behind each semicolon of the group itself. In a source file these are the starts of the declared
types, in their order.
-/

namespace GoTemplate

open Brackets

/-! ## Places among tokens -/

section

variable (tokens : List Token)

/-- The kind of the token at a place. -/
def kindAt (i : Nat) : TokenKind := nextKind (tokens.drop i)

/-- How many more brackets are opened than closed before a place. -/
def depthAt (i : Nat) : Int := depth (tokens.take i)

/-- The keyword of a declaration of types: it stands outside of brackets directly behind a
semicolon. -/
structure OpensTypes (j : Nat) : Prop where
  pos : 0 < j
  semicolon : kindAt tokens (j - 1) = .semicolon
  keyword : kindAt tokens j = .keyword .type
  depth : depthAt tokens j = 0

/-- The starts of the types that are declared with the keyword at the place `j`. -/
inductive StartsBehind (j : Nat) : Nat → Prop where
  /-- Without a bracket there is one, behind the keyword. -/
  | alone (hNext : kindAt tokens (j + 1) ≠ .opening .round) : StartsBehind j (j + 1)
  /-- Directly behind the bracket. -/
  | first (hNext : kindAt tokens (j + 1) = .opening .round)
      (hNotEnd : kindAt tokens (j + 2) ≠ .closing .round) : StartsBehind j (j + 2)
  /-- Behind a semicolon of the group, which has not been closed before. -/
  | later {i : Nat} (hNext : kindAt tokens (j + 1) = .opening .round) (hBehind : j + 2 ≤ i)
      (hInside : ∀ m, j + 2 ≤ m → m ≤ i → 1 ≤ depthAt tokens m) (hDepth : depthAt tokens i = 1)
      (hSemicolon : kindAt tokens i = .semicolon) (hNotEnd : kindAt tokens (i + 1) ≠ .closing .round) :
      StartsBehind j (i + 1)

/-- The places where the declaration of a type starts. -/
def IsSpecStart (i : Nat) : Prop :=
  i < tokens.length ∧ ∃ j, OpensTypes tokens j ∧ StartsBehind tokens j i

/-- At the place `i` the declaration of a type starts. Its name is the token there, and unless a square
bracket opens behind the name, the tokens after that show whether it is a placeholder. -/
structure TypeSpec.StartsAt (spec : TypeSpec) (i : Nat) : Prop where
  isSpecStart : IsSpecStart tokens i
  name : ∃ t, tokens[i]? = some t ∧ t.kind = .identifier ∧ spec.name = ⟨t.lexeme, t.span⟩
  isPlaceholder : kindAt tokens (i + 1) ≠ .opening .square →
    spec.isPlaceholder = namesGeneric (tokens.drop (i + 1))

end

section

variable {tokens before after : List Token} {t : Token}

theorem kindAt_append (u v : List Token) (i : Nat) : kindAt (u ++ v) (u.length + i) = kindAt v i := by
  rw [kindAt, List.drop_length_add_append]
  rfl

theorem kindAt_length (u v : List Token) : kindAt (u ++ v) u.length = nextKind v := by
  rw [kindAt, List.drop_left]

theorem depthAt_append (u v : List Token) (i : Nat) :
    depthAt (u ++ v) (u.length + i) = depth u + depthAt v i := by
  rw [depthAt, List.take_length_add_append, depth_append]
  rfl

theorem depthAt_length (u v : List Token) : depthAt (u ++ v) u.length = depth u := by
  rw [depthAt, List.take_left]

/-- Where the tokens do not end they split at a place. -/
theorem exists_split {k : TokenKind} {i : Nat} (h : kindAt tokens i = k) (hk : k ≠ .endOfSource) :
    ∃ before t after, tokens = before ++ t :: after ∧ before.length = i ∧ t.kind = k := by
  cases hDrop : tokens.drop i with
  | nil =>
      rw [kindAt, hDrop] at h
      exact absurd h.symm hk
  | cons t after =>
      refine ⟨tokens.take i, t, after, ?_, ?_, ?_⟩
      · rw [← hDrop, List.take_append_drop]
      · rw [List.length_take]
        have hLength := congrArg List.length hDrop
        rw [List.length_drop, List.length_cons] at hLength
        omega
      · rw [← h, kindAt, hDrop]
        rfl

/-- The tokens before the keyword end with the semicolon. -/
theorem OpensTypes.exists_split {j : Nat} (h : OpensTypes tokens j) :
    ∃ u s k back, tokens = u ++ s :: k :: back ∧ j = (u ++ [s]).length ∧ s.kind = .semicolon ∧
      Brackets.depth u = 0 := by
  obtain ⟨u, s, more, rfl, hu, hs⟩ := GoTemplate.exists_split h.semicolon (by decide)
  have hj : j = (u ++ [s]).length := by
    have := h.pos
    simp only [List.length_append, List.length_singleton]
    omega
  have hKeyword := h.keyword
  have hDepth := h.depth
  have hPlain : IsPlain s := ⟨by simp [hs], by simp [hs]⟩
  rw [hj, ← List.singleton_append, ← List.append_assoc] at hKeyword hDepth
  rw [kindAt_length] at hKeyword
  rw [depthAt_length, depth_append, depth_plain hPlain, Int.add_zero] at hDepth
  cases more with
  | nil => cases hKeyword
  | cons k back => exact ⟨u, s, k, back, rfl, hj, hs, hDepth⟩

/-- No prefix of a balanced word closes more than it opens. -/
theorem Brackets.Balanced.depthAt_nonneg {word : List Token} (h : Balanced word) (i : Nat) :
    0 ≤ depthAt word i := by
  have hOpen := h.openAfter_eq []
  rw [← List.take_append_drop i word, openAfter_append] at hOpen
  cases hTake : openAfter [] (word.take i) with
  | none =>
      rw [hTake] at hOpen
      cases hOpen
  | some stack =>
      have hLength := length_of_openAfter hTake
      simp only [List.length_nil] at hLength
      rw [depthAt]
      omega

end

/-! ## Starts within a group -/

section

variable {tokens before word after : List Token} {spec : TypeSpec}

/-- Behind a statement no name goes on. -/
theorem EndsStatement.head_ends {ending later : List Token} (h : EndsStatement ending later) :
    ∀ t, (ending ++ later).head? = some t → t.kind ≠ .identifier ∧ t.kind ≠ .dot := by
  intro t ht
  rcases h with ⟨s, rfl, hs⟩ | ⟨rfl, hClosing⟩
  · cases ht
    simp [hs]
  · rcases hClosing t ht with hKind | hKind <;> simp [hKind]

theorem SpecWord.startsAt (hWord : SpecWord spec word) (hTokens : tokens = before ++ (word ++ after))
    (hAfter : ∀ t, after.head? = some t → t.kind ≠ .identifier ∧ t.kind ≠ .dot)
    (hStart : IsSpecStart tokens before.length) : spec.StartsAt tokens before.length := by
  obtain ⟨t, tail, rfl, ht, hName, hTail, hPlaceholder⟩ := hWord
  have hDrop : tokens.drop (before.length + 1) = tail ++ after := by
    rw [hTokens, List.drop_length_add_append]
    rfl
  refine ⟨hStart, ⟨t, by simp [hTokens], ht, hName⟩, ?_⟩
  rw [kindAt, hDrop, nextKind_append _ hTail, namesGeneric_append hTail hAfter]
  exact hPlaceholder

/-- The kind of the token behind a declaration's keyword. -/
theorem nextKind_specWord (hWord : SpecWord spec word) : nextKind (word ++ after) = .identifier := by
  obtain ⟨t, tail, rfl, ht, -⟩ := hWord
  exact ht

section

/-! The tokens up to the bracket that opens a group are `front`, those in the group `inner`. -/

variable {front inner u v : List Token} {closer : Token} {j i : Nat}

/-- The statements of a group start at such places. -/
theorem startsBehind_of_front (hFront : front.length = j + 2) (hDepth : depth front = 1)
    (hNext : kindAt (front ++ (u ++ v)) (j + 1) = .opening .round) (hu : Balanced u)
    (hStart : IsStatementFront u) (hv : nextKind v ≠ .closing .round) :
    StartsBehind (front ++ (u ++ v)) j (front.length + u.length) := by
  have hKind : kindAt (front ++ (u ++ v)) (front.length + u.length) = nextKind v := by
    rw [kindAt_append, kindAt_length]
  rcases hStart with rfl | ⟨w, s, rfl, hs, hw⟩
  · have hNotEnd := hKind ▸ hv
    rw [List.length_nil, Nat.add_zero, hFront] at hNotEnd ⊢
    exact .first hNext hNotEnd
  · have hInside : ∀ m, m ≤ w.length → 1 ≤ depthAt (front ++ ((w ++ [s]) ++ v)) (front.length + m) := by
      intro m hm
      have hSame : depthAt ((w ++ [s]) ++ v) m = depthAt (w ++ [s]) m := by
        rw [depthAt, List.take_append_of_le_length (by simp; omega)]
        rfl
      rw [depthAt_append, hSame, hDepth]
      have := hu.depthAt_nonneg m
      omega
    rw [List.length_append, List.length_singleton, ← Nat.add_assoc] at hKind ⊢
    refine .later hNext (by omega) ?_ ?_ ?_ (hKind ▸ hv)
    · intro m hj hm
      obtain ⟨m, rfl⟩ := Nat.exists_eq_add_of_le (hFront ▸ hj)
      exact hInside m (by omega)
    · rw [depthAt_append, hDepth, List.append_assoc, depthAt_length, hw]
      rfl
    · rw [kindAt_append, List.append_assoc, kindAt_length]
      exact hs

/-- There are no other starts in a group. -/
theorem front_of_startsBehind (hFront : front.length = j + 2) (hDepth : depth front = 1)
    (hNext : kindAt (front ++ (inner ++ closer :: v)) (j + 1) = .opening .round)
    (hInner : Balanced inner) (hCloser : closer.kind = .closing .round)
    (h : StartsBehind (front ++ (inner ++ closer :: v)) j i) :
    ∃ u t back, inner = u ++ t :: back ∧ i = front.length + u.length ∧ IsStatementFront u := by
  cases h with
  | alone hOther => exact absurd hNext hOther
  | first _ hNotEnd =>
      rw [← hFront, kindAt_length] at hNotEnd
      cases inner with
      | nil => exact absurd hCloser hNotEnd
      | cons t back => exact ⟨[], t, back, rfl, by simp [hFront], .inl rfl⟩
  | @later i _ hBehind hInside hAt hSemicolon hNotEnd =>
      obtain ⟨m, rfl⟩ := Nat.exists_eq_add_of_le (hFront ▸ hBehind)
      rw [kindAt_append] at hSemicolon
      obtain ⟨w, s, rest, hSplit, rfl, hs⟩ := exists_split hSemicolon (by decide)
      rcases List.append_eq_append_iff.1 hSplit with ⟨more, rfl, hTail⟩ | ⟨more, rfl, hTail⟩
      · cases more with
        | nil =>
            obtain ⟨rfl, -⟩ := List.cons_eq_cons.1 hTail
            rw [hCloser] at hs
            cases hs
        | cons d more =>
            -- The group has been closed between.
            obtain ⟨rfl, rfl⟩ := List.cons_eq_cons.1 hTail
            have hOut := hInside (front.length + (inner ++ [closer]).length) (by omega) (by simp)
            rw [depthAt_append, ← List.singleton_append, ← List.append_assoc inner, depthAt_length,
              depth_append, hInner.depth_eq, depth_closing hCloser, hDepth] at hOut
            omega
      · cases more with
        | nil =>
            obtain ⟨rfl, -⟩ := List.cons_eq_cons.1 hTail
            rw [hCloser] at hs
            cases hs
        | cons d more =>
            obtain ⟨rfl, rfl⟩ := List.cons_eq_cons.1 hTail
            have hw : depth w = 0 := by
              rw [depthAt_append, List.append_assoc, depthAt_length, hDepth] at hAt
              omega
            cases more with
            | nil =>
                have hLength : w.length + 1 = (w ++ [s]).length := by simp
                rw [Nat.add_assoc, kindAt_append, hLength, kindAt_length] at hNotEnd
                exact absurd hCloser hNotEnd
            | cons t back =>
                exact ⟨w ++ [s], t, back, by simp, by simp [Nat.add_assoc],
                  .inr ⟨w, s, rfl, hs, hw⟩⟩

end

/-- In a group the starts are those of the declarations in it. -/
theorem exists_starts_of_group {front inner : List Token} {closer : Token} {specs : List TypeSpec}
    {j : Nat} (hFront : front.length = j + 2) (hDepth : depth front = 1)
    (hTokens : tokens = front ++ (inner ++ closer :: after)) (hOpens : OpensTypes tokens j)
    (hNext : kindAt tokens (j + 1) = .opening .round) (hCloser : closer.kind = .closing .round)
    (hRow : SpecRow specs inner (closer :: after)) :
    ∃ places : List Nat, places.Pairwise (· < ·) ∧
      (∀ i ∈ places, front.length ≤ i ∧ i < front.length + inner.length) ∧
      List.Forall₂ (TypeSpec.StartsAt tokens) specs places ∧
      ∀ i, StartsBehind tokens j i → i ∈ places := by
  have hInner : Balanced inner := hRow.balanced (by simp)
  have hHere : ∀ u word s, (∃ v, u = front ++ v ∧ Balanced v ∧ IsStatementFront v) → Balanced word →
      s.kind = .semicolon →
        ∃ v, u ++ (word ++ [s]) = front ++ v ∧ Balanced v ∧ IsStatementFront v := by
    rintro _ word s ⟨v, rfl, hv, -⟩ hWord hs
    have hPlain : IsPlain s := ⟨by simp [hs], by simp [hs]⟩
    refine ⟨v ++ (word ++ [s]), by simp, hv.append (hWord.append (.singleton hPlain)),
      .inr ⟨v ++ word, s, by simp, hs, ?_⟩⟩
    rw [depth_append, hv.depth_eq, hWord.depth_eq]
    rfl
  have hSpec : ∀ u spec word later, tokens = u ++ (word ++ later) →
      (∃ v, u = front ++ v ∧ Balanced v ∧ IsStatementFront v) → StatementWord word later →
      (∃ ending more, later = ending ++ more ∧ EndsStatement ending more) → SpecWord spec word →
      ∃ places : List Nat, places.Pairwise (· < ·) ∧
        (∀ i ∈ places, u.length ≤ i ∧ i < u.length + word.length) ∧
        List.Forall₂ (TypeSpec.StartsAt tokens) [spec] places ∧ ∀ i, i = u.length → i ∈ places := by
    rintro _ spec word later hSplit ⟨v, rfl, hv, hStart⟩ hStatement ⟨ending, more, rfl, hEnd⟩ hWord
    have hPos := List.length_pos_iff.2 hStatement.ne_nil
    refine ⟨[(front ++ v).length], by simp, by simpa using hPos, ?_, by simp⟩
    refine .cons (hWord.startsAt hSplit hEnd.head_ends ⟨?_, j, hOpens, ?_⟩) .nil
    · simp only [hSplit, List.length_append]
      omega
    · rw [hSplit, List.append_assoc, List.length_append]
      rw [hSplit, List.append_assoc] at hNext
      exact startsBehind_of_front hFront hDepth hNext hv hStart
        (by rw [nextKind_specWord hWord]; decide)
  obtain ⟨places, hIncreasing, hBounds, hStands, hOf⟩ := hRow.exists_places (fun spec => [spec])
    (fun start i => i = start) hHere hSpec front hTokens ⟨[], by simp, .nil, .inl rfl⟩
  refine ⟨places, hIncreasing, hBounds, by simpa using hStands, fun i hi => ?_⟩
  subst hTokens
  obtain ⟨u, t, back, hSplit, rfl, hu⟩ := front_of_startsBehind hFront hDepth hNext hInner hCloser hi
  exact hOf u t back hSplit hu _ rfl

/-- The starts behind the keyword of one declaration. -/
theorem DeclaresWord.exists_starts {specs : List TypeSpec} (h : DeclaresWord specs word after)
    (hTokens : tokens = before ++ (word ++ after)) (hNe : word ≠ [])
    (hAfter : ∀ t, after.head? = some t → t.kind ≠ .identifier ∧ t.kind ≠ .dot)
    (hBefore : Balanced before) (hStart : ∃ v s, before = v ++ [s] ∧ s.kind = .semicolon) :
    ∃ places : List Nat, places.Pairwise (· < ·) ∧
      (∀ i ∈ places, before.length ≤ i ∧ i < before.length + word.length) ∧
      List.Forall₂ (TypeSpec.StartsAt tokens) specs places ∧
      ∀ i, OpensTypes tokens before.length ∧ StartsBehind tokens before.length i → i ∈ places := by
  have hKind : kindAt tokens before.length = nextKind word := by
    rw [hTokens, kindAt_length, nextKind_append _ hNe]
  have hOpens (hKeyword : nextKind word = .keyword .type) : OpensTypes tokens before.length := by
    obtain ⟨v, s, rfl, hs⟩ := hStart
    refine ⟨by simp, ?_, hKind.trans hKeyword, ?_⟩
    · rw [hTokens, List.length_append, List.length_singleton, Nat.add_sub_cancel, List.append_assoc,
        kindAt_length]
      exact hs
    · rw [hTokens, depthAt_length, hBefore.depth_eq]
  cases h with
  | other hHead =>
      refine ⟨[], .nil, by simp, .nil, fun i hi => ?_⟩
      exact absurd (hKind.symm.trans hi.1.keyword) hHead
  | @alone keyword spec word _ hKeyword hSpec =>
      have hNext : kindAt tokens (before.length + 1) = .identifier := by
        rw [hTokens, kindAt_append]
        exact nextKind_specWord hSpec
      have hPos : 0 < word.length := by
        obtain ⟨t, tail, rfl, -⟩ := hSpec
        simp
      have hSplit : tokens = (before ++ [keyword]) ++ (word ++ after) := by
        rw [hTokens]
        simp
      have hPlace : before.length + 1 = (before ++ [keyword]).length := by simp
      refine ⟨[before.length + 1], by simp, by simpa using hPos, .cons ?_ .nil, ?_⟩
      · rw [hPlace]
        refine hSpec.startsAt hSplit hAfter ⟨?_, before.length, hOpens hKeyword, hPlace ▸ ?_⟩
        · simp only [hSplit, List.length_append]
          omega
        · exact .alone (by rw [hNext]; decide)
      · rintro i ⟨-, hi⟩
        cases hi with
        | alone => exact List.mem_singleton_self _
        | first hOpener | later hOpener =>
            rw [hNext] at hOpener
            cases hOpener
  | @group keyword opener closer _ inner _ hKeyword hOpener hCloser hRow =>
      have hSplit : tokens = (before ++ [keyword, opener]) ++ (inner ++ closer :: after) := by
        rw [hTokens]
        simp
      have hPlain : IsPlain keyword := isPlain_of_isInner (by rw [hKeyword]; rfl)
      have hDepth : depth (before ++ [keyword, opener]) = 1 := by
        rw [depth_append, depth_cons, hBefore.depth_eq, depth_plain hPlain, depth_opening hOpener]
        rfl
      have hNext : kindAt tokens (before.length + 1) = .opening .round := by
        rw [hTokens, kindAt_append]
        exact hOpener
      obtain ⟨places, hIncreasing, hBounds, hStands, hOf⟩ :=
        exists_starts_of_group (by simp) hDepth hSplit (hOpens hKeyword) hNext hCloser hRow
      refine ⟨places, hIncreasing, fun i hi => ?_, hStands, fun i hi => hOf i hi.2⟩
      have := hBounds i hi
      simp only [List.length_append, List.length_cons, List.length_nil] at this ⊢
      omega

end

/-! ## Starts in a source -/

namespace SourceFile

/-- The declared types of a source file stand in its tokens one after the other, and nowhere else does
the declaration of a type start. -/
theorem exists_starts_of_parse {source : Text} {file : SourceFile} (hFile : parse source = .ok file) :
    ∃ starts : List Nat, starts.Pairwise (· < ·) ∧
      List.Forall₂ (TypeSpec.StartsAt (sourceTokens source)) file.typeSpecs starts ∧
      ∀ i, IsSpecStart (sourceTokens source) i ↔ i ∈ starts := by
  obtain ⟨-, c, hRun⟩ := readSource_eq_ok hFile
  have hc := Cursor.ofRun_isProper (Lexer.ofSource .statements source)
  obtain ⟨-, clause, ending, later, hTokens, hClause, hEnd, hRow⟩ := Parser.row_of_sourceFile hc hRun
  change sourceTokens source = _ at hTokens
  generalize sourceTokens source = tokens at hTokens
  have hHere : ∀ u word s, (Balanced u ∧ ∃ v s, u = v ++ [s] ∧ s.kind = .semicolon) →
      Balanced word → s.kind = .semicolon →
        Balanced (u ++ (word ++ [s])) ∧
          ∃ v s', u ++ (word ++ [s]) = v ++ [s'] ∧ s'.kind = .semicolon := by
    rintro u word s ⟨hu, -⟩ hWord hs
    have hPlain : IsPlain s := ⟨by simp [hs], by simp [hs]⟩
    exact ⟨hu.append (hWord.append (.singleton hPlain)), u ++ word, s, by simp, hs⟩
  have hDeclares : ∀ u (decl : Declaration) word after, tokens = u ++ (word ++ after) →
      (Balanced u ∧ ∃ v s, u = v ++ [s] ∧ s.kind = .semicolon) → StatementWord word after →
      (∃ ending later, after = ending ++ later ∧ EndsStatement ending later) →
      DeclaresWord decl.typeSpecs word after → ∃ places : List Nat, places.Pairwise (· < ·) ∧
        (∀ i ∈ places, u.length ≤ i ∧ i < u.length + word.length) ∧
        List.Forall₂ (TypeSpec.StartsAt tokens) decl.typeSpecs places ∧
        ∀ i, OpensTypes tokens u.length ∧ StartsBehind tokens u.length i → i ∈ places := by
    rintro u decl word _ hSplit ⟨hu, hStart⟩ hStatement ⟨ending, more, rfl, hEnd⟩ hWord
    exact hWord.exists_starts hSplit hStatement.ne_nil hEnd.head_ends hu hStart
  obtain ⟨starts, hIncreasing, hStands, hAll⟩ : ∃ starts : List Nat, starts.Pairwise (· < ·) ∧
      List.Forall₂ (TypeSpec.StartsAt tokens) file.typeSpecs starts ∧
        ∀ j i, OpensTypes tokens j → StartsBehind tokens j i → i ∈ starts := by
    rcases hEnd with ⟨s, rfl, hs⟩ | ⟨rfl, hNone⟩
    · have hPlain : IsPlain s := ⟨by simp [hs], by simp [hs]⟩
      have hBalanced : Balanced clause := by
        rcases hClause with hPhrase | ⟨-, hNil⟩
        · exact hPhrase.balanced
        · cases hNil
      obtain ⟨starts, hIncreasing, -, hStands, hOf⟩ := hRow.exists_places Declaration.typeSpecs
        (fun j i => OpensTypes tokens j ∧ StartsBehind tokens j i) hHere hDeclares (clause ++ [s])
        (by rw [hTokens]; simp) ⟨hBalanced.append (.singleton hPlain), clause, s, rfl, hs⟩
      refine ⟨starts, hIncreasing, hStands, fun j i hj hi => ?_⟩
      obtain ⟨u, semicolon, k, back, hSplit, rfl, hSemicolon, hu⟩ := hj.exists_split
      rw [← List.append_nil later] at hClause
      rcases Row.split_semicolon hClause (.inl ⟨s, rfl, hs⟩) hRow (hTokens.symm.trans hSplit)
        hSemicolon hu with ⟨rfl, hSame, hLater⟩ | ⟨more, rfl, hLater, hMore⟩
      · obtain rfl : s = semicolon := List.singleton_inj.1 hSame
        exact hOf [] k back hLater (.inl rfl) i ⟨hj, hi⟩
      · refine hOf (more ++ [semicolon]) k back (by simp [hLater])
          (.inr ⟨more, semicolon, rfl, hSemicolon, hMore⟩) i ?_
        have hLength : (clause ++ [s]).length + (more ++ [semicolon]).length =
            (clause ++ ([s] ++ more) ++ [semicolon]).length := by
          simp
          omega
        rw [hLength]
        exact ⟨hj, hi⟩
    · rw [← List.append_nil later] at hNone
      obtain ⟨hDecls, rfl⟩ := Row.eq_nil_of_ending_nil (.inr ⟨rfl, hNone⟩) hRow
      refine ⟨[], .nil, by simp [file.typeSpecs_eq, hDecls], fun j i hj _ => ?_⟩
      obtain ⟨u, semicolon, k, back, hSplit, -, hSemicolon, hu⟩ := hj.exists_split
      rw [hTokens, List.nil_append, List.append_nil] at hSplit
      exact absurd hu (hClause.depth_ne_zero hSplit hSemicolon)
  refine ⟨starts, hIncreasing, hStands, fun i => ⟨?_, ?_⟩⟩
  · rintro ⟨-, j, hj, hi⟩
    exact hAll j i hj hi
  · intro hi
    rw [← List.map_snd_zip hStands.length_eq.ge] at hi
    obtain ⟨⟨spec, i⟩, hPair, rfl⟩ := List.mem_map.1 hi
    exact (List.forall₂_zip hStands hPair).isSpecStart

end SourceFile

end GoTemplate
