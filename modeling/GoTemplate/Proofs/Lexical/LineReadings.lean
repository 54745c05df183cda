import GoTemplate.Proofs.Lexical.LineKinds

/-!
A text read line by line, where what a line leaves open is handed on to the line after it. So read, the
lines of a text give what a grammar reads in the text, and a text that is put together of lines gives what
its lines do.
-/

namespace GoTemplate

open Text

/-- What a grammar reads in a line at whose start something may be open, and what is open at its end. -/
inductive LineReads : Option Opening → Text → List TokenKind → Option Opening → Prop where
  | fresh {line : Text} {ws : List Token} {left : Option Opening} (hTokens : LineTokens line ws left) :
      LineReads none line (lineKinds left false (ws.map Token.kind)) left
  | within {q : Opening} {line : Text} (hOpen : q.closeIn? line = none) :
      LineReads (some q) line [] (some q)
  | closing {q : Opening} {line rest : Text} {ws : List Token} {left : Option Opening}
      (hClose : q.closeIn? line = some rest) (hTokens : LineTokens rest ws left) :
      LineReads (some q) line ([q.kind].filter TokenKind.isRead ++
        lineKinds left q.kind.endsStatement (ws.map Token.kind)) left

/-- What a grammar reads in lines, one after the other. Where nothing is open, no line but the first starts
with a byte order mark. -/
inductive LinesRead : Option Opening → List Text → List TokenKind → Prop where
  | nil : LinesRead none [] []
  | cons {opened left : Option Opening} {line : Text} {lines : List Text} {ks ks' : List TokenKind}
      (hLine : LineReads opened line ks left)
      (hMark : left = none → ∀ next ∈ lines.head?, next.head? ≠ some '\uFEFF')
      (hRest : LinesRead left lines ks') : LinesRead opened (line :: lines) (ks ++ ks')

/-! ## Finding what is read -/

/-- What a grammar reads in a line, or behind the end of what was open, and what the line leaves open. -/
def freshReads? (due : Bool) (line : Text) : Option (List TokenKind × Option Opening) :=
  (leftOpen? ((verbatimTokens line).map Token.bare)).map fun left =>
    (lineKinds left due ((verbatimTokens line).map Token.kind), left)

/-- What a grammar reads in a line at whose start something may be open, and what is open at its end. -/
def lineReads? : Option Opening → Text → Option (List TokenKind × Option Opening)
  | none, line => freshReads? false line
  | some q, line =>
    match q.closeIn? line with
    | none => some ([], some q)
    | some rest =>
      (freshReads? q.kind.endsStatement rest).map fun (ks, left) =>
        ([q.kind].filter TokenKind.isRead ++ ks, left)

theorem freshReads?_eq_some {due : Bool} {line : Text} {ks : List TokenKind} {left : Option Opening} :
    freshReads? due line = some (ks, left) ↔
      ∃ ws, LineTokens line ws left ∧ lineKinds left due (ws.map Token.kind) = ks := by
  have hKinds : ((verbatimTokens line).map Token.bare).map Token.kind =
      (verbatimTokens line).map Token.kind := by
    rw [List.map_map]
    rfl
  rw [freshReads?, Option.map_eq_some_iff]
  constructor
  · rintro ⟨left, hLeft, ⟨⟩⟩
    exact ⟨_, lineTokens_iff.2 ⟨rfl, hLeft⟩, by rw [hKinds]⟩
  · rintro ⟨ws, hWs, rfl⟩
    obtain ⟨rfl, hLeft⟩ := lineTokens_iff.1 hWs
    exact ⟨left, hLeft, by rw [hKinds]⟩

theorem lineReads?_eq_some {opened left : Option Opening} {line : Text} {ks : List TokenKind} :
    lineReads? opened line = some (ks, left) ↔ LineReads opened line ks left := by
  cases opened with
  | none =>
      rw [lineReads?, freshReads?_eq_some]
      constructor
      · rintro ⟨ws, hWs, rfl⟩
        exact .fresh hWs
      · rintro ⟨hWs⟩
        exact ⟨_, hWs, rfl⟩
  | some q =>
      rw [lineReads?]
      cases hClose : q.closeIn? line with
      | none =>
          constructor
          · rintro ⟨⟩
            exact .within hClose
          · intro h
            cases h with
            | within => rfl
            | closing hFound => cases hClose.symm.trans hFound
      | some rest =>
          simp only [Option.map_eq_some_iff]
          constructor
          · rintro ⟨⟨later, left⟩, hLater, ⟨⟩⟩
            obtain ⟨ws, hWs, rfl⟩ := freshReads?_eq_some.1 hLater
            exact .closing hClose hWs
          · intro h
            cases h with
            | within hOpen => cases hClose.symm.trans hOpen
            | closing hFound hWs =>
                cases hClose.symm.trans hFound
                exact ⟨_, freshReads?_eq_some.2 ⟨_, hWs, rfl⟩, rfl⟩

theorem LineReads.unique {opened left left' : Option Opening} {line : Text} {ks ks' : List TokenKind}
    (h : LineReads opened line ks left) (h' : LineReads opened line ks' left') : ks = ks' ∧ left = left' :=
  Prod.mk.inj (Option.some.inj ((lineReads?_eq_some.2 h).symm.trans (lineReads?_eq_some.2 h')))

/-! ## From texts to lines -/

/-- What a grammar reads of a text is what it reads of the first line, and behind the line what the rest of
the text is from there. -/
theorem KindsFrom.exists_line {opened : Option Opening} {line ending rest : Text} {ks : List TokenKind}
    (h : KindsFrom opened (line ++ (ending ++ rest)) ks) (hFeed : '\n' ∉ line)
    (hEnd : EndsLineWith line ending rest) (hMark : rest.head? ≠ some '\uFEFF') :
    ∃ first left later, LineReads opened line first left ∧ KindsFrom left rest later ∧
      ks = first ++ later := by
  cases opened with
  | none =>
      obtain ⟨ws, hWs, rfl⟩ := h
      obtain ⟨us, left, hUs, hBehind⟩ := hWs.exists_line rfl hFeed hEnd
      obtain ⟨later, hLater, hKinds⟩ := hBehind hMark
      exact ⟨_, left, later, .fresh hUs, hLater, hKinds⟩
  | some q =>
      obtain ⟨after, ks', hClose, hKinds, rfl⟩ := h
      cases hLine : q.closeIn? line with
      | none =>
          rcases hEnd with hEnd | ⟨rfl, rfl⟩
          · rw [Opening.closeIn?_line hLine (Or.imp_right And.left hEnd)] at hClose
            exact ⟨[], some q, _, .within hLine, ⟨after, ks', hClose, hKinds, rfl⟩, rfl⟩
          · rw [List.append_nil, List.append_nil, hLine] at hClose
            cases hClose
      | some behind =>
          rw [Opening.closeIn?_append_of_some hLine] at hClose
          cases hClose
          obtain ⟨before, hBefore, -⟩ := Opening.exists_of_closeIn? hLine
          have hPart : behind <:+ line := ⟨before ++ q.closer, by rw [hBefore, List.append_assoc]⟩
          obtain ⟨ws, hWs, rfl⟩ := hKinds
          obtain ⟨us, left, hUs, hBehind⟩ := hWs.exists_line rfl (fun hMem => hFeed (hPart.subset hMem))
            (hEnd.of_suffix hPart)
          obtain ⟨later, hLater, hSplit⟩ := hBehind hMark
          refine ⟨_, left, later, .closing hLine hUs, hLater, ?_⟩
          rw [hSplit, List.append_assoc]

/-- In a text where something is open there is a character. -/
theorem KindsFrom.of_nil {opened : Option Opening} {ks : List TokenKind} (h : KindsFrom opened [] ks) :
    LinesRead opened [] ks := by
  cases opened with
  | none =>
      obtain ⟨ws, hWs, rfl⟩ := h
      cases hWs with
      | stop => exact .nil
      | comment hGap => cases hGap
      | token hGap => cases hGap
  | some q =>
      obtain ⟨rest, ks', hClose, -⟩ := h
      cases q <;> cases hClose

/-- What a grammar reads of a text is what it reads of the lines. -/
theorem KindsFrom.linesRead {opened : Option Opening} {t : Text} {ks : List TokenKind}
    (h : KindsFrom opened t ks) (hMarks : ∀ line ∈ (lines t).tail, line.head? ≠ some '\uFEFF') :
    LinesRead opened (lines t) ks := by
  by_cases hNil : t = []
  · subst hNil
    exact h.of_nil
  · obtain ⟨line, ending, rest, hText, hLines, hEnd⟩ := Text.exists_line hNil
    have hFeed : '\n' ∉ line := not_mem_of_mem_lines (t := t) (by rw [hLines]; exact List.mem_cons_self)
    rw [hLines, List.tail_cons] at hMarks
    have hHeads : ∀ next ∈ (lines rest).head?, next.head? ≠ some '\uFEFF' := fun next hNext =>
      hMarks next (List.mem_of_mem_head? hNext)
    have hMark : rest.head? ≠ some '\uFEFF' := by
      intro hHead
      obtain ⟨u, rfl⟩ := List.head?_eq_some_iff.1 hHead
      rw [lines_cons (by decide) (by rintro ⟨⟩)] at hHeads
      exact hHeads _ rfl rfl
    rw [hLines]
    subst hText
    obtain ⟨first, left, later, hFirst, hLater, rfl⟩ := h.exists_line hFeed hEnd hMark
    refine .cons hFirst (fun _ => hHeads) ?_
    rcases hEnd with hEnd | ⟨rfl, rfl⟩
    · have hLess : rest.length < (line ++ (ending ++ rest)).length := by
        obtain ⟨stop, more, rfl, -⟩ := hEnd.exists_head
        simp only [List.length_append, List.length_cons]
        omega
      exact hLater.linesRead fun next hNext => hMarks next (List.mem_of_mem_tail hNext)
    · exact hLater.of_nil
  termination_by t.length

/-! ## From lines to texts -/

namespace LineReads

variable {opened left : Option Opening} {line : Text} {ks : List TokenKind}

/-- Carriage returns at the end of a line are no matter. -/
theorem chop (h : LineReads opened line ks left) (hFeed : '\n' ∉ line) :
    LineReads opened (chop line) ks left := by
  cases h with
  | fresh hTokens =>
      obtain ⟨ws', hWs, hKinds⟩ := hTokens.exists_chop hFeed
      rw [← hKinds]
      exact .fresh hWs
  | within hOpen => exact .within (Opening.closeIn?_of_isInfix (chop_isPrefix line).isInfix hOpen)
  | @closing q _ rest ws _ hClose hTokens =>
      obtain ⟨before, rfl, hEnd⟩ := Opening.exists_of_closeIn? hClose
      obtain ⟨ws', hWs, hKinds⟩ := hTokens.exists_chop fun hMem => hFeed (by simp [hMem])
      have hChop : Text.chop (before ++ (q.closer ++ rest)) =
          (before ++ q.closer) ++ Text.chop rest := by
        rw [← List.append_assoc]
        refine chop_append (fun c hLast => ?_) rest
        cases q with
        | comment =>
            obtain rfl : '/' = c := by simpa [Opening.closer] using hLast
            rfl
        | rawString =>
            obtain rfl : '`' = c := by simpa [Opening.closer] using hLast
            rfl
      rw [hChop, ← hKinds]
      exact .closing (Opening.closeIn?_append_of_some hEnd _) hWs

/-- What a grammar reads of a line and of the text behind it. -/
theorem kindsFrom {y : Text} {later : List TokenKind} (h : LineReads opened line ks left)
    (hFeed : '\n' ∉ line) (hReturn : line.getLast? ≠ some '\r') (hRest : KindsFrom left y later)
    (hMark : left = none → y.head? ≠ some '\uFEFF') :
    KindsFrom opened (line ++ '\n' :: y) (ks ++ later) := by
  cases h with
  | fresh hTokens => exact hTokens.hasKinds hFeed hReturn hRest hMark false
  | within hOpen =>
      obtain ⟨rest, ks', hClose, hKinds, rfl⟩ := hRest
      exact ⟨rest, ks', (Opening.closeIn?_line hOpen (.inr rfl) y).trans hClose, hKinds, rfl⟩
  | @closing q _ rest ws _ hClose hTokens =>
      obtain ⟨before, rfl, -⟩ := Opening.exists_of_closeIn? hClose
      have hRestFeed : '\n' ∉ rest := fun hMem => hFeed (by simp [hMem])
      have hRestReturn : rest.getLast? ≠ some '\r' := fun hLast => hReturn (by simp [hLast])
      exact ⟨rest ++ '\n' :: y, _, Opening.closeIn?_append_of_some hClose _,
        hTokens.hasKinds hRestFeed hRestReturn hRest hMark _, by rw [List.append_assoc]⟩

end LineReads

/-- What a grammar reads of lines it reads of the text that they make. -/
theorem LinesRead.kindsFrom {opened : Option Opening} {ls : List Text} {ks : List TokenKind}
    (h : LinesRead opened ls ks) (hFeed : ∀ line ∈ ls, '\n' ∉ line) :
    KindsFrom opened (ls.flatMap asLine) ks := by
  induction h with
  | nil => exact ⟨[], .stop rfl, rfl⟩
  | @cons opened left line ls ks ks' hLine hMark _ ih =>
      obtain ⟨hFirst, hLater⟩ := List.forall_mem_cons.1 hFeed
      have hChop := (hLine.chop hFirst).kindsFrom (fun hMem => hFirst (mem_of_mem_chop hMem))
        (fun hLast => by cases getLast?_chop hLast) (ih hLater) fun hNone hHead => ?_
      · rw [List.flatMap_cons, asLine_eq, List.append_assoc]
        exact hChop
      · cases ls with
        | nil => cases hHead
        | cons next ls =>
            rw [List.flatMap_cons, asLine_eq] at hHead
            refine hMark hNone next rfl ?_
            have hFront : (chop next).head? = some '\uFEFF' := by
              cases hNext : chop next with
              | nil =>
                  rw [hNext] at hHead
                  cases hHead
              | cons c u =>
                  rw [hNext] at hHead
                  exact hHead
            obtain ⟨u, hu⟩ := List.head?_eq_some_iff.1 hFront
            rw [List.head?_eq_some_iff]
            obtain ⟨v, hv⟩ := chop_isPrefix next
            exact ⟨u ++ v, by rw [← hv, hu]; rfl⟩

end GoTemplate
