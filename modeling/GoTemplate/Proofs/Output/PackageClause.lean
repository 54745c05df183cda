import GoTemplate.Proofs.Output.SingleSpaces
import GoTemplate.Proofs.Syntax.BareSource

/-!
Package clauses, word by word. What stands in the words besides the keyword and the name, comments and
perhaps a semicolon, makes no difference to what a grammar reads behind the clause.
-/

namespace GoTemplate

open Text (EndsLineWith)

/-! ## Comments -/

/-- Whether a text holds nothing but block comments. -/
def Text.IsBlockComments (t : Text) : Prop := ∃ ws, StandingTokens t ws ∧ ∀ w ∈ ws, ['/', '*'] <+: w.lexeme

/-- Whether a word holds nothing but comments, all of which end in it. A line comment goes on in the words
behind it. -/
def Text.HoldsComments (behind : List Text) (t : Text) : Prop :=
  ∃ c x, t = c ++ x ∧ c.IsBlockComments ∧ (x = [] ∨ behind = [] ∧ ['/', '/'] <+: x)

namespace Text.IsBlockComments

variable {t z : Text}

/-- Block comments make no difference to what is behind them. -/
theorem bareTokens_append (h : t.IsBlockComments) (hFeed : '\n' ∉ t) (hMark : z.head? ≠ some '\uFEFF')
    {due : Bool} {vs : List Token} : BareTokens due (t ++ z) vs ↔ BareTokens due z vs := by
  obtain ⟨ws, hStanding, hBlocks⟩ := h
  induction hStanding with
  | @stop t hGap =>
      have hSame := Lexer.splitGap_append_of_nil
        ((Lexer.splitGap_of_lineFeed_not_mem hFeed due).trans hGap) hMark
      exact ⟨fun h => h.of_splitGap hSame.symm, fun h => h.of_splitGap hSame⟩
  | @token t u c kind ws hGap hScan _ ih =>
      obtain ⟨hHere, hLater⟩ := List.forall_mem_cons.1 hBlocks
      obtain rfl : kind = .comment := by
        by_contra hKind
        exact (Lexeme.spells_scan hScan).not_startsComment hKind (.inr hHere)
      obtain ⟨rfl, ⟨v, rfl, hLine⟩ | ⟨v, body, rest, rfl, hClose, hBlock⟩⟩ := Lexeme.scan_of_comment hScan
      · rw [hLine] at hHere
        obtain ⟨x, ⟨⟩⟩ := hHere
      · have hPart : v <:+ t := (List.suffix_append ['/', '*'] v).trans (Lexer.suffix_of_splitGap hGap)
        rw [hBlock] at ih
        have hv : '\n' ∉ v := fun hMem => hFeed (hPart.subset hMem)
        have hRest : '\n' ∉ rest := fun hMem => hv (by
          rw [← Comment.splitClose?_append hClose]
          exact List.mem_append_right body hMem)
        have hSplit : (Lexer.splitGap due (t ++ z)).2 = '/' :: '*' :: (v ++ z) :=
          Lexer.splitGap_line_of_cons hGap hFeed due z
        have hFound : Lexeme.scan '/' ('*' :: (v ++ z)) = ⟨.ok .comment, '/' :: '*' :: body, rest ++ z⟩ := by
          change Comment.block (v ++ z) = _
          rw [Comment.block, Comment.splitClose?_append_of_some hClose]
        rw [BareTokens.comment_iff hSplit (by rw [hFound]), Comment.lineEnds_block hClose hv, Bool.and_false,
          if_neg Bool.false_ne_true, hFound]
        exact ih hRest hLater

/-- They do not go on with a word. -/
theorem isIdentifierPart_head (h : t.IsBlockComments) : ∀ c ∈ t.head?, isIdentifierPart c = false := by
  intro c hc
  obtain ⟨x, rfl⟩ := List.head?_eq_some_iff.1 hc
  obtain ⟨ws, hStanding, hBlocks⟩ := h
  by_contra hPart
  have hSigns {d : Char} (hd : d ∈ [' ', '\t', '\r', '\n', '\uFEFF', '/']) : c ≠ d := by
    rintro rfl
    have hNone : [' ', '\t', '\r', '\n', '\uFEFF', '/'].all (fun d => !isIdentifierPart d) = true := by
      decide +kernel
    exact hPart (by simpa using List.all_eq_true.1 hNone c hd)
  have hBlank : Lexer.isBlank c = false := by
    simp [Lexer.isBlank, hSigns (d := ' '), hSigns (d := '\t'), hSigns (d := '\r'), hSigns (d := '\n')]
  have hGap : (Lexer.splitGap false (c :: x)).2 = c :: x := by
    rw [Lexer.splitGap_snd, Lexer.dropMark_of_head? (by simp [hSigns (d := '\uFEFF')]), List.dropWhile_cons,
      Lexer.isGap, hBlank]
    rfl
  cases hStanding with
  | stop hStop => cases hGap.symm.trans hStop
  | token hSame hScan =>
      obtain ⟨rfl, rfl⟩ := List.cons_eq_cons.1 (hGap.symm.trans hSame)
      obtain ⟨v, hv⟩ := hBlocks _ List.mem_cons_self
      have hSource := Lexeme.source_scan c x
      rw [Lexeme.source, ← (show _ = (Lexeme.scan c x).text from hv)] at hSource
      exact hSigns (d := '/') (by simp) (List.cons_eq_cons.1 hSource).1.symm

end Text.IsBlockComments

namespace Text

variable {t ending after : Text} {behind : List Text}

/-- Behind a word there are more words or the end of the line. -/
theorem EndsLineWith.isWhiteSpace_head_behind (h : EndsLineWith t ending after) (behind : List Text) :
    ∀ c ∈ (behind.flatMap (' ' :: ·) ++ (ending ++ after)).head?, Unicode.isWhiteSpace c = true := by
  cases behind with
  | nil => exact h.isWhiteSpace_head
  | cons word words =>
      rintro _ ⟨⟩
      decide +kernel

theorem EndsLineWith.isIdentifierPart_head (h : EndsLineWith t ending after) (behind : List Text) :
    ∀ c ∈ (behind.flatMap (' ' :: ·) ++ (ending ++ after)).head?, isIdentifierPart c = false :=
  fun c hc => (Lexeme.isStop_of_isWhiteSpace (h.isWhiteSpace_head_behind behind c hc)).word

theorem forall_head?_append {P : Char → Prop} {s : Text} (hs : ∀ c ∈ s.head?, P c)
    (ht : ∀ c ∈ t.head?, P c) : ∀ c ∈ (s ++ t).head?, P c := by
  cases s with
  | nil => exact ht
  | cons d s => exact hs

theorem ne_mark_of_isWhiteSpace (h : ∀ c ∈ t.head?, Unicode.isWhiteSpace c = true) :
    t.head? ≠ some '\uFEFF' := by
  intro hHead
  have hMark := h _ hHead
  rw [Lexer.isWhiteSpace_mark] at hMark
  cases hMark

namespace HoldsComments

theorem isIdentifierPart_head (h : t.HoldsComments behind) : ∀ c ∈ t.head?, isIdentifierPart c = false := by
  obtain ⟨c, x, rfl, hc, rfl | ⟨-, y, rfl⟩⟩ := h
  · rw [List.append_nil]
    exact hc.isIdentifierPart_head
  · exact forall_head?_append hc.isIdentifierPart_head (by rintro _ ⟨⟩; decide +kernel)

/-- What comes behind is read as if the comments were not there. -/
theorem bareTokens_of_append (h : t.HoldsComments behind) (hFeed : '\n' ∉ t)
    (hEnd : EndsLineWith (t ++ behind.flatMap (' ' :: ·)) ending after) {due : Bool} {vs : List Token}
    (hBare : BareTokens due (t ++ (behind.flatMap (' ' :: ·) ++ (ending ++ after))) vs) :
    BareTokens due (behind.flatMap (' ' :: ·) ++ (ending ++ after)) vs := by
  obtain ⟨c, x, rfl, hc, hx⟩ := h
  have hNone : '\n' ∉ c := fun hMem => hFeed (List.mem_append_left x hMem)
  rw [List.append_assoc] at hBare
  rcases hx with rfl | ⟨rfl, y, rfl⟩
  · exact (hc.bareTokens_append hNone (ne_mark_of_isWhiteSpace (hEnd.isWhiteSpace_head_behind behind))).1 hBare
  · have hLine := (hc.bareTokens_append hNone (by simp)).1 hBare
    have hRest : (Lexeme.scan '/' ('/' :: (y ++ (ending ++ after)))).rest = ending ++ after := by
      change (Comment.splitLine (y ++ (ending ++ after))).2 = _
      rw [EndsLineWith.splitLine (.of_append (u := c ++ ['/', '/']) (by simpa using hEnd))
        fun hMem => hFeed (by simp [hMem])]
    have hSplit : (Lexer.splitGap due ('/' :: '/' :: (y ++ (ending ++ after)))).2 =
        '/' :: '/' :: (y ++ (ending ++ after)) := congrArg Prod.snd (Lexer.splitGap_slash due _)
    have hComment := (BareTokens.comment_iff hSplit rfl).1 hLine
    rw [hRest] at hComment
    cases due with
    | false => exact hComment
    | true =>
        obtain ⟨later, hLater, rfl⟩ := hComment
        have hEmpty : LineTokens [] [] none := .stop rfl
        exact hEmpty.bareTokens_automatic (by simp) (by simp) (.of_append (u := c ++ '/' :: '/' :: y)
          (by simpa using hEnd)) hLater

end HoldsComments

end Text

/-! ## Clauses -/

/-- The keyword of a package clause. -/
def Token.package : Token := ⟨.keyword .package, "package".toList, .none⟩

/-- A name. -/
def Token.ofName (name : Text) : Token := ⟨.identifier, name, .none⟩

theorem Token.head?_package : "package".toList.head? = some 'p' := by decide +kernel

/-- What may stand behind the name of a package, in the same word. A semicolon may, if the words behind it
hold nothing but comments. -/
inductive Output.EndsClause (behind : List Text) : Text → Prop where
  | comments {t : Text} (h : t.HoldsComments behind) : EndsClause behind t
  | semicolon {c t : Text} (hBefore : c.IsBlockComments) (h : t.HoldsComments behind)
      (hBehind : ∀ w ∈ verbatimTokens (behind.flatMap (' ' :: ·)), w.lexeme.StartsComment) :
      EndsClause behind (c ++ ';' :: t)

namespace Output.EndsClause

variable {t ending after : Text} {behind : List Text}

theorem isIdentifierPart_head (h : EndsClause behind t) : ∀ c ∈ t.head?, isIdentifierPart c = false := by
  cases h with
  | comments h => exact h.isIdentifierPart_head
  | semicolon hBefore =>
      exact Text.forall_head?_append hBefore.isIdentifierPart_head (by rintro _ ⟨⟩; decide +kernel)

/-- Without it the clause ends with the line. -/
theorem exists_bareTokens (h : EndsClause behind t) (hFeed : '\n' ∉ t ++ behind.flatMap (' ' :: ·))
    (hEnd : EndsLineWith (t ++ behind.flatMap (' ' :: ·)) ending after) {later : List Token}
    (hBare : BareTokens true (t ++ (behind.flatMap (' ' :: ·) ++ (ending ++ after))) later) :
    ∃ vs, BareTokens true (behind.flatMap (' ' :: ·) ++ (ending ++ after)) vs ∧
      Parser.statementEnd (.ofTokens vs) = Parser.statementEnd (.ofTokens later) ∧
      ∀ w ∈ vs, w = .automatic ∨ w ∈ later := by
  cases h with
  | comments h =>
      have hNone : '\n' ∉ t := fun hMem => hFeed (List.mem_append_left _ hMem)
      exact ⟨later, h.bareTokens_of_append hNone hEnd hBare, rfl, fun w hw => .inr hw⟩
  | @semicolon c t hBefore h hBehind =>
      have hBefore' : '\n' ∉ c := fun hMem => hFeed (by simp [hMem])
      have hNone : '\n' ∉ t := fun hMem => hFeed (by simp [hMem])
      have hEndT : EndsLineWith (t ++ behind.flatMap (' ' :: ·)) ending after :=
        .of_append (u := c ++ [';']) (by simpa using hEnd)
      rw [List.append_assoc, hBefore.bareTokens_append hBefore' (by simp)] at hBare
      have hScan (u : Text) : (Lexeme.scan ';' u).reading = .ok .semicolon := rfl
      obtain ⟨vs, hVs, rfl⟩ := (BareTokens.token_iff rfl (hScan _) (by decide)).1 hBare
      have hTail := h.bareTokens_of_append hNone hEndT hVs
      have hFeedBehind : '\n' ∉ behind.flatMap (' ' :: ·) := fun hMem => hFeed (List.mem_append_right _ hMem)
      obtain ⟨us, left, hUs, -⟩ := hTail.exists_line rfl hFeedBehind hEnd.of_append
      have hComments : ∀ w ∈ us, w.lexeme.StartsComment := by
        rw [← hUs.verbatimTokens_eq]
        intro w hw
        obtain ⟨v, hv, rfl⟩ := List.mem_map.1 hw
        exact hBehind v hv
      refine ⟨.automatic :: vs, hUs.bareTokens_automatic hComments hFeedBehind hEnd.of_append hTail, ?_, ?_⟩
      · exact (Parser.statementEnd_semicolon rfl (.ofTokens []) vs).trans
          (Parser.statementEnd_semicolon rfl (.ofTokens []) vs).symm
      · intro w hw
        exact (List.mem_cons.1 hw).imp_right (List.mem_cons_of_mem _)

end Output.EndsClause

namespace BareTokens

/-- The two words of a package clause. -/
theorem clause_iff {comments name z : Text} (hComments : comments.IsBlockComments)
    (hFeed : '\n' ∉ comments) (hName : IsName name) (hz : ∀ c ∈ z.head?, isIdentifierPart c = false)
    {ws : List Token} :
    BareTokens false ("package".toList ++ (comments ++ ' ' :: (name ++ z))) ws ↔
      ∃ later, BareTokens true z later ∧ ws = .package :: .ofName name :: later := by
  have hKeyword : Lexeme.Spells (.keyword .package) "package".toList := by decide +kernel
  have hBehind := Text.forall_head?_append hComments.isIdentifierPart_head
    (t := ' ' :: (name ++ z)) (by rintro _ ⟨⟩; decide +kernel)
  have hStart : ∀ c ∈ name.head?, isIdentifierStart c = true := by
    intro c hc
    obtain ⟨x, rfl⟩ := List.head?_eq_some_iff.1 hc
    exact hName.isIdentifierStart
  have hMark : (name ++ z).head? ≠ some '\uFEFF' := by
    obtain ⟨c, x, rfl⟩ := Lexeme.Spells.exists_cons hName
    intro hHead
    have hNot : isIdentifierStart '\uFEFF' = false := by decide +kernel
    rw [← Option.some.inj hHead, hName.isIdentifierStart] at hNot
    cases hNot
  have hSpace : (Lexer.splitGap false (' ' :: (name ++ z))).2 = (Lexer.splitGap false (name ++ z)).2 :=
    Lexer.splitGap_append_of_nil (s := [' ']) rfl hMark
  have hWord {later : List Token} : BareTokens false (' ' :: (name ++ z)) later ↔
      ∃ vs, BareTokens true z vs ∧ later = .ofName name :: vs :=
    ⟨fun h => (word_iff hName hStart (by decide) hz).1 (h.of_splitGap hSpace.symm),
      fun h => ((word_iff hName hStart (by decide) hz).2 h).of_splitGap hSpace⟩
  have hFirst : ∀ c ∈ "package".toList.head?, isIdentifierStart c = true := by
    rw [Token.head?_package]
    rintro _ ⟨⟩
    decide +kernel
  rw [word_iff hKeyword hFirst (by decide) hBehind]
  constructor
  · rintro ⟨later, h, rfl⟩
    obtain ⟨vs, hVs, rfl⟩ := hWord.1 ((hComments.bareTokens_append hFeed (by simp)).1 h)
    exact ⟨vs, hVs, rfl⟩
  · rintro ⟨vs, hVs, rfl⟩
    exact ⟨_, (hComments.bareTokens_append hFeed (by simp)).2 (hWord.2 ⟨vs, hVs, rfl⟩), rfl⟩

end BareTokens

/-- The name of a package and the end of its clause make no difference to the declarations. -/
theorem Parser.sourceFile_of_clause {k i j : Token} {us vs : List Token} {file : SourceFile} {c : Cursor}
    (hk : k.kind = .keyword .package) (hi : i.kind = .identifier) (hj : j.kind = .identifier)
    (hBare : IsBare [k, i]) (hBare' : IsBare [k, j])
    (hEnd : statementEnd (.ofTokens vs) = statementEnd (.ofTokens us))
    (h : sourceFile (.ofTokens (k :: i :: us)) = .ok (file, c)) :
    sourceFile (.ofTokens (k :: j :: vs)) = .ok ({ file with package := ⟨j.lexeme, .none⟩ }, c) := by
  obtain ⟨c₁, imports, c₂, others, hSame, hImports, hOthers, rfl⟩ :=
    (sourceFile_eq_ok_of_clause hk hi hBare).1 h
  exact (sourceFile_eq_ok_of_clause hk hj hBare').2
    ⟨c₁, imports, c₂, others, hEnd.trans hSame, hImports, hOthers, rfl⟩

end GoTemplate
