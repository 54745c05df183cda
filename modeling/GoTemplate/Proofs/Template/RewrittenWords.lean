import GoTemplate.Proofs.Lexical.Outlines
import GoTemplate.Proofs.Syntax.TypeText
import GoTemplate.Proofs.Template.LineFeeds
import GoTemplate.Proofs.Template.Rerendering

/-!
Words in which names take the place of placeholders. Comments and quoted literals stay what they are, since
no sign in them changes. Of identifiers and numbers this has to be asked.
-/

namespace GoTemplate

open Text

/-- The types of a set are names, and its placeholders hold none of the signs by which comments and
quoted literals start and end. -/
structure TypeSet.OfNames (types : TypeSet) : Prop where
  isName : ∀ entry ∈ types.entries, IsName entry.2
  noSigns : ∀ entry ∈ types.entries, ∀ c ∈ entry.1, isSign c = false

/-! ## Names -/

theorem IsName.isIdentifierStart {c : Char} {t : Text} (h : IsName (c :: t)) : isIdentifierStart c = true := by
  have hScan : Lexeme.scan c t = ⟨.ok .identifier, c :: t, []⟩ := h
  have hTable : ∀ entry ∈ Lexeme.symbolTable, entry.2 ≠ .identifier := by decide +kernel
  rcases Lexeme.reading_cases c t with ⟨fault, hRead⟩ | hRead | ⟨l, hRead⟩ | ⟨hStart, -⟩ | hSymbol
  · rw [hScan] at hRead
    cases hRead
  · rw [hScan] at hRead
    cases hRead
  · rw [hScan] at hRead
    cases hRead
  · exact hStart
  · rcases Lexeme.symbol_cases c t with ⟨kind, spelling, hRead, hMem, -⟩ | ⟨fault, hRead⟩
    · rw [← hSymbol, hScan] at hRead
      cases hRead
      exact absurd rfl (hTable _ hMem)
    · rw [← hSymbol, hScan] at hRead
      cases hRead

theorem isIdentifierPart_of_mem {t : Text} (h : IsName t) {c : Char} (hc : c ∈ t) :
    isIdentifierPart c = true := by
  obtain ⟨d, u, rfl⟩ := h.exists_cons
  have hWord : Lexeme.word d u = ⟨.ok .identifier, d :: u, []⟩ :=
    (Lexeme.scan_of_isIdentifierStart h.isIdentifierStart u).symm.trans h
  rcases List.mem_cons.1 hc with rfl | hc
  · rw [isIdentifierPart, h.isIdentifierStart, Bool.true_or]
  · exact List.dropWhile_eq_nil_iff.1 (congrArg Lexeme.rest hWord) c hc

theorem IsName.isSign_eq_false {t : Text} (h : IsName t) : ∀ c ∈ t, isSign c = false := by
  intro c hc
  have hSigns : ['"', '\'', '`', '\\', '/', '*', '\n'].all (fun d => !isIdentifierPart d) = true := by
    decide +kernel
  by_contra hSign
  have hPart := List.all_eq_true.1 hSigns c (List.contains_iff_mem.1 (Bool.eq_true_of_not_eq_false hSign))
  rw [isIdentifierPart_of_mem h hc] at hPart
  cases hPart

theorem TypeSet.OfNames.onOneLine {types : TypeSet} (h : types.OfNames) : types.OnOneLine := by
  intro entry hEntry hMem
  cases (h.isName entry hEntry).isSign_eq_false _ hMem

theorem isMark_of_isSign {c : Char} (h : isSign c = true) : Unicode.IsMark c := by
  have hSigns : ['"', '\'', '`', '\\', '/', '*', '\n'].all
      (fun d => 0 < d.toNat ∧ d.toNat < 128 ∧ d.isAlpha = false) = true := by decide
  obtain ⟨hPos, hAscii, hLetter⟩ :=
    of_decide_eq_true (List.all_eq_true.1 hSigns c (List.contains_iff_mem.1 h))
  exact ⟨hPos, hAscii, hLetter⟩

namespace Unicode

theorem ofNats_ne_nil {table : List (Nat × List Nat)} {code : Nat} {codes : List Nat}
    (hTable : ∀ entry ∈ table, entry.2 ≠ []) (hLookup : table.lookup code = some codes) :
    codes.map Char.ofNat ≠ [] := by
  obtain ⟨before, after, hEntry, -⟩ := List.lookup_eq_some_iff.1 hLookup
  have hCodes : codes ≠ [] := hTable (code, codes) (by rw [hEntry]; simp)
  simpa using hCodes

theorem toUpper_ne_nil (c : Char) : toUpper c ≠ [] := by
  have hTable : ∀ entry ∈ upperExpansions, entry.2 ≠ [] := by decide +kernel
  rw [toUpper]
  split
  · simp
  · split
    · exact ofNats_ne_nil hTable ‹_›
    · simp

theorem toLower_ne_nil (c : Char) : toLower c ≠ [] := by
  have hTable : ∀ entry ∈ lowerExpansions, entry.2 ≠ [] := by decide +kernel
  rw [toLower]
  split
  · simp
  · split
    · exact ofNats_ne_nil hTable ‹_›
    · simp

end Unicode

namespace Word

variable {placeholder type word : Text}

/-- A name is taken into a word as it is, but for its first letter. -/
theorem bare_of_isName (h : IsName type) : bare type = type := by
  have hMarks : ['\x7b', '\x7d', '*', '&', '.'].all (fun d => !isIdentifierPart d) = true := by
    decide +kernel
  have hNot {c d : Char} (hc : c ∈ type) (hd : d ∈ ['\x7b', '\x7d', '*', '&', '.']) : c ≠ d := by
    rintro rfl
    have hPart := List.all_eq_true.1 hMarks c hd
    rw [isIdentifierPart_of_mem h hc] at hPart
    cases hPart
  have hPass {p : Char → Bool} {t : Text} (hp : ∀ c ∈ t, p c = false) : t.dropWhile p = t := by
    cases t with
    | nil => rfl
    | cons c t => rw [List.dropWhile_cons, hp c List.mem_cons_self, if_neg Bool.false_ne_true]
  have hEnd : dropEndWhile (fun c => c == '\x7b' || c == '\x7d') type = type := by
    rw [dropEndWhile, hPass, List.reverse_reverse]
    intro c hc
    have hMem := List.mem_reverse.1 hc
    simp [hNot hMem (d := '\x7b') (by decide), hNot hMem (d := '\x7d') (by decide)]
  rw [bare, hEnd, hPass, List.filter_eq_self.2]
  · intro c hc
    simp [hNot hc (d := '.') (by decide)]
  · intro c hc
    simp [hNot hc (d := '*') (by decide), hNot hc (d := '&') (by decide)]

theorem outline_ofType (h : IsName type) (exported : Bool) : outline (ofType type exported) = ['x'] := by
  apply outline_of_not_isSign
  · obtain ⟨c, t, rfl⟩ := h.exists_cons
    rw [ofType, bare_of_isName h]
    cases exported with
    | true => exact List.append_ne_nil_of_left_ne_nil (Unicode.toUpper_ne_nil c) t
    | false => exact List.append_ne_nil_of_left_ne_nil (Unicode.toLower_ne_nil c) t
  · intro c hc
    by_contra hSign
    rw [Bool.not_eq_false] at hSign
    refine mark_not_mem_ofType (isMark_of_isSign hSign) (fun hMem => ?_) exported hc
    rw [h.isSign_eq_false c hMem] at hSign
    cases hSign

theorem outline_replaceAll {old new t : Text} (hOld : ∀ c ∈ old, isSign c = false)
    (hNew : outline new = ['x']) : outline (replaceAll old new t) = outline t := by
  fun_induction replaceAll old new t with
  | case1 => rfl
  | case2 c t hFound ih =>
      obtain ⟨hNe, hPrefix⟩ := hFound
      obtain ⟨rest, hRest⟩ := List.isPrefixOf_iff_prefix.1 hPrefix
      have hDrop : t.drop (old.length - 1) = rest := by
        obtain ⟨d, old, rfl⟩ := List.exists_cons_of_ne_nil hNe
        obtain ⟨-, rfl⟩ := List.cons_eq_cons.1 hRest
        exact List.drop_left
      rw [hDrop] at ih ⊢
      rw [← hRest]
      exact outline_append_congr (hNew.trans (outline_of_not_isSign hNe hOld).symm) ih
  | case3 c t _ ih => exact outline_append_congr (s := [c]) rfl ih

/-- The signs of a word stay when a name takes the place of a placeholder in it. -/
theorem outline_substitute (hPlaceholder : ∀ c ∈ placeholder, isSign c = false) (hType : IsName type)
    (hWord : word ≠ []) : outline (substitute placeholder type word) = outline word := by
  have hReplaced : outline (replaceAll placeholder (ofType type true) word) = outline word :=
    outline_replaceAll hPlaceholder (outline_ofType hType true)
  have hOutline : outline type = ['x'] := by
    obtain ⟨c, t, rfl⟩ := hType.exists_cons
    exact outline_of_not_isSign (List.cons_ne_nil c t) hType.isSign_eq_false
  rw [substitute]
  split
  · rename_i hSame
    subst hSame
    rw [hOutline, outline_of_not_isSign hWord hPlaceholder]
  · split
    · rfl
    · dsimp only
      split
      · rename_i hStart
        obtain ⟨rest, hRest⟩ := List.isPrefixOf_iff_prefix.1 hStart.2.1
        rw [← hReplaced, ← hRest, List.drop_left]
        exact outline_append_congr
          ((outline_ofType hType false).trans (outline_ofType hType true).symm) rfl
      · exact hReplaced

end Word

/-! ## Tokens -/

theorem outline_joinWithSpaces_congr {f : Text → Text} {words : List Text}
    (h : ∀ word ∈ words, outline (f word) = outline word) :
    outline (joinWithSpaces (words.map f)) = outline (joinWithSpaces words) := by
  induction words with
  | nil => rfl
  | cons word words ih =>
      obtain ⟨hWord, hWords⟩ := List.forall_mem_cons.1 h
      cases words with
      | nil => rw [List.map_singleton, joinWithSpaces_singleton, joinWithSpaces_singleton, hWord]
      | cons next words =>
          rw [List.map_cons, List.map_cons, joinWithSpaces_cons_cons, joinWithSpaces_cons_cons]
          exact outline_append_congr hWord (outline_append_congr (s := [' ']) rfl (ih hWords))

namespace Line

variable {placeholder type : Text} (hPlaceholder : ∀ c ∈ placeholder, isSign c = false)
  (hType : IsName type)

include hPlaceholder hType

/-- The signs of a comment stay when a name takes the place of a placeholder in it. -/
theorem outline_substituteComment {comment : Text} (h : IsComment comment) :
    outline (substituteComment placeholder type comment) = outline (collapse (trimEnd comment)) := by
  rw [← joinWithSpaces_words h.head]
  exact outline_joinWithSpaces_congr fun word hWord =>
    Word.outline_substitute hPlaceholder hType (word_of_mem_words hWord).1

end Line

/-- Whether a token of the kind is made of letters and digits: a name or a number. -/
def TokenKind.isWord : TokenKind → Bool
  | .identifier => true
  | .literal l => l.quote?.isNone
  | _ => false

/-- The token with a type in the place of a placeholder. -/
def Token.substitute (placeholder type : Text) (t : Token) : Token :=
  { t with lexeme := Line.substituteToken placeholder type t }

theorem Lexeme.Spells.isComment {t : Text} (h : Spells .comment t) : IsComment t := by
  obtain ⟨c, u, rfl⟩ := h.exists_cons
  have hComment := isComment_of_reading (congrArg reading h)
  rwa [show (scan c u).text = c :: u from congrArg Lexeme.text h] at hComment

theorem Lexeme.Spells.text_eq {t : Token} (h : Spells t.kind t.lexeme) : t.text = t.lexeme := by
  rw [Token.text, if_neg]
  intro hAutomatic
  rw [Token.isAutomatic, Bool.and_eq_true, beq_iff_eq, beq_iff_eq] at hAutomatic
  rw [hAutomatic.2, Spells, scan_lineFeed_eq] at h
  cases h

/-- A token that is no name and no number stays one of its kind when a name takes the place of a
placeholder in it. -/
theorem Token.spells_substitute {placeholder type : Text}
    (hPlaceholder : ∀ c ∈ placeholder, isSign c = false) (hType : IsName type) {t : Token}
    (h : Lexeme.Spells t.kind t.lexeme) (hWord : t.kind.isWord = false) :
    Lexeme.Spells t.kind (t.substitute placeholder type).lexeme := by
  rw [substitute, Line.substituteToken]
  dsimp only
  split
  · rename_i hKind
    rw [hKind] at h ⊢
    exact (h.isComment.collapse_trimEnd.of_outline
      (Line.outline_substituteComment hPlaceholder hType h.isComment).symm).spells
  · split
    · obtain ⟨kind, lexeme, span⟩ := t
      cases kind with
      | literal l =>
          obtain ⟨quote, hQuote⟩ := Option.isSome_iff_exists.1 (Option.isNone_eq_false_iff.1 hWord)
          obtain ⟨c, u, rfl⟩ := h.exists_cons
          exact h.of_outline hQuote
            (Word.outline_substitute hPlaceholder hType (List.cons_ne_nil c u)).symm
      | identifier => cases hWord
      | _ => rename_i hClass; cases hClass
    · rw [h.text_eq]
      exact h

/-! ## One type after the other -/

/-- A word and what becomes of it while types are put in, one after the other. -/
def Word.steps (types : List (Text × Text)) (word : Text) : List Text :=
  types.scanl (fun word (placeholder, type) => substitute placeholder type word) word

/-- A name or a number stays one of its kind while types are put in, one after the other. -/
def Token.Stays (types : List (Text × Text)) (t : Token) : Prop :=
  t.kind.isWord = true → ∀ word ∈ Word.steps types t.lexeme, Lexeme.Spells t.kind word

instance (types : List (Text × Text)) (t : Token) : Decidable (t.Stays types) :=
  inferInstanceAs (Decidable (_ → ∀ word ∈ _, _))

theorem Word.steps_cons (placeholder type : Text) (types : List (Text × Text)) (word : Text) :
    steps ((placeholder, type) :: types) word =
      word :: steps types (substitute placeholder type word) :=
  List.scanl_cons

theorem Word.mem_steps (types : List (Text × Text)) (word : Text) : word ∈ steps types word := by
  cases types with
  | nil => exact List.mem_singleton_self word
  | cons entry types =>
      rw [steps_cons]
      exact List.mem_cons_self

theorem Token.lexeme_substitute {t : Token} (h : t.kind.isWord = true) (placeholder type : Text) :
    (t.substitute placeholder type).lexeme = Word.substitute placeholder type t.lexeme := by
  obtain ⟨kind, lexeme, span⟩ := t
  cases kind with
  | identifier => rfl
  | literal => rfl
  | _ => cases h

theorem Token.Stays.substitute {placeholder type : Text} {types : List (Text × Text)} {t : Token}
    (h : t.Stays ((placeholder, type) :: types)) : (t.substitute placeholder type).Stays types := by
  intro hWord word hMem
  refine h hWord word ?_
  rw [lexeme_substitute (t := t) hWord] at hMem
  rw [Word.steps_cons]
  exact List.mem_cons_of_mem _ hMem

end GoTemplate
