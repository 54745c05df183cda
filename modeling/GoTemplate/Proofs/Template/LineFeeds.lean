import GoTemplate.Proofs.Text.Lines
import GoTemplate.Template.Instance
import Mathlib.Data.List.Basic

/-!
Rewritten lines. A line of a template stays one line when types take the place of placeholders in
it, as long as the types are written on one line.
-/

namespace GoTemplate

/-! ## Characters of texts that are put together -/

namespace Text

variable {c : Char}

theorem mem_joinWithSpaces {texts : List Text} (h : c ∈ joinWithSpaces texts) :
    c = ' ' ∨ ∃ t ∈ texts, c ∈ t := by
  induction texts with
  | nil => cases h
  | cons t texts ih =>
      cases texts with
      | nil => exact .inr ⟨t, List.mem_cons_self, by simpa [joinWithSpaces, List.intercalate] using h⟩
      | cons u texts =>
          have hSplit : joinWithSpaces (t :: u :: texts) = t ++ ' ' :: joinWithSpaces (u :: texts) := by
            simp [joinWithSpaces, List.intercalate]
          rw [hSplit, List.mem_append, List.mem_cons] at h
          rcases h with h | rfl | h
          · exact .inr ⟨t, List.mem_cons_self, h⟩
          · exact .inl rfl
          · rcases ih h with rfl | ⟨v, hv, hc⟩
            · exact .inl rfl
            · exact .inr ⟨v, List.mem_cons_of_mem t hv, hc⟩

private theorem exists_splitWhere (p : Char → Bool) (t : Text) : ∃ first pieces,
    splitWhere p t = first :: pieces ∧ first <+: t ∧ ∀ piece ∈ pieces, piece <:+: t := by
  induction t with
  | nil => exact ⟨[], [], rfl, List.prefix_refl _, by simp⟩
  | cons c t ih =>
      obtain ⟨first, pieces, hSplit, hFirst, hPieces⟩ := ih
      have hLater : ∀ piece ∈ pieces, piece <:+: c :: t := fun piece hPiece =>
        List.infix_cons (hPieces piece hPiece)
      rw [splitWhere, hSplit]
      split
      · refine ⟨[], first :: pieces, rfl, List.nil_prefix, fun piece hPiece => ?_⟩
        rcases List.mem_cons.1 hPiece with rfl | hPiece
        · exact List.infix_cons hFirst.isInfix
        · exact hLater piece hPiece
      · exact ⟨c :: first, pieces, rfl, List.cons_prefix_cons.2 ⟨rfl, hFirst⟩, hLater⟩

/-- A word is a part of its text. -/
theorem infix_of_mem_words {t word : Text} (h : word ∈ words t) : word <:+: t := by
  obtain ⟨first, pieces, hSplit, hFirst, hPieces⟩ := exists_splitWhere Unicode.isWhiteSpace t
  have hMem := (List.mem_filter.1 h).1
  rw [hSplit] at hMem
  rcases List.mem_cons.1 hMem with rfl | hMem
  · exact hFirst.isInfix
  · exact hPieces word hMem

theorem mem_replaceAll {old new t : Text} (h : c ∈ replaceAll old new t) : c ∈ new ∨ c ∈ t := by
  fun_induction replaceAll old new t with
  | case1 => cases h
  | case2 d t _ ih =>
      rcases List.mem_append.1 h with h | h
      · exact .inl h
      · exact (ih h).imp_right fun hc => List.mem_cons_of_mem d (List.mem_of_mem_drop hc)
  | case3 d t _ ih =>
      rcases List.mem_cons.1 h with rfl | h
      · exact .inr List.mem_cons_self
      · exact (ih h).imp_right (List.mem_cons_of_mem d)

theorem mem_of_mem_dropEndWhile {p : Char → Bool} {t : Text} (h : c ∈ dropEndWhile p t) :
    c ∈ t := by
  rw [dropEndWhile, List.mem_reverse] at h
  exact List.mem_reverse.1 ((List.dropWhile_suffix p).subset h)

end Text

/-! ## Case -/

namespace Unicode

/-- An ASCII character that is no letter. Only itself is mapped to it. -/
structure IsMark (m : Char) : Prop where
  pos : 0 < m.toNat
  ascii : m.toNat < 128
  not_letter : m.isAlpha = false

/-- Whether a code point that comes from a mapping may be an ASCII letter or no ASCII character. -/
def isMapped (code : Nat) : Bool := 128 ≤ code || (Char.ofNat code).isAlpha

variable {m c : Char} (hm : IsMark m)

include hm

theorem ofNat_ne_mark {code : Nat} (h : isMapped code = true) : Char.ofNat code ≠ m := by
  intro hChar
  simp only [isMapped, hChar, hm.not_letter, Bool.or_false, decide_eq_true_eq] at h
  by_cases hValid : code.isValidChar
  · have hCode : (Char.ofNat code).toNat = code := by
      rw [show Char.ofNat code = Char.ofNatAux code hValid from dif_pos hValid]
      rfl
    have hAscii := hm.ascii
    rw [hChar] at hCode
    omega
  · have hZero : (Char.ofNat code).toNat = 0 := by
      rw [show Char.ofNat code = '\x00' from dif_neg hValid]
      rfl
    have hPos := hm.pos
    rw [hChar] at hZero
    omega

/-- A run gives no mark: its results are no ASCII characters, or its only result is a letter. -/
theorem shiftBy_ne_mark {runs : List ShiftRun} (hc : c ≠ m)
    (hRuns : ∀ run ∈ runs, 128 ≤ (run.first : Int) + run.shift ∨
      run.first = run.last ∧ isMapped (run.first + run.shift).toNat = true) :
    shiftBy runs c ≠ m := by
  rw [shiftBy]
  split
  · rename_i run hFind
    apply ofNat_ne_mark hm
    have hCovers := List.find?_some hFind
    simp only [ShiftRun.covers, Bool.and_eq_true, decide_eq_true_eq] at hCovers
    rcases hRuns run (List.mem_of_find?_eq_some hFind) with hBeyond | ⟨hOne, hMapped⟩
    · rw [isMapped, decide_eq_true (by omega), Bool.true_or]
    · rwa [show c.toNat = run.first by omega]
  · exact hc

omit hm in
/-- A mapping of ASCII characters leaves a character alone or gives a letter. -/
theorem ascii_cases {f : Char → Char} (hc : isAscii c = true)
    (hAll : ∀ n : Fin 128, f (Char.ofNat n) = Char.ofNat n ∨ (f (Char.ofNat n)).isAlpha = true) :
    f c = c ∨ (f c).isAlpha = true := by
  have hCode : c.toNat < 128 := of_decide_eq_true hc
  simpa [Char.ofNat_toNat] using hAll ⟨c.toNat, hCode⟩

theorem mark_not_mem_singleton {d : Char} (hc : c ≠ m) (h : d = c ∨ d.isAlpha = true) :
    m ∉ [d] := by
  intro hMem
  obtain rfl := List.mem_singleton.1 hMem
  rcases h with rfl | hLetter
  · exact hc rfl
  · rw [hm.not_letter] at hLetter
    cases hLetter

theorem mark_not_mem_ofNats {table : List (Nat × List Nat)} {code : Nat} {codes : List Nat}
    (hTable : ∀ entry ∈ table, ∀ code ∈ entry.2, isMapped code = true)
    (hLookup : table.lookup code = some codes) : m ∉ codes.map Char.ofNat := by
  intro hMem
  obtain ⟨other, hOther, hChar⟩ := List.mem_map.1 hMem
  obtain ⟨before, after, hEntry, -⟩ := List.lookup_eq_some_iff.1 hLookup
  have hIn : (code, codes) ∈ table := by
    rw [hEntry]
    exact List.mem_append_right _ List.mem_cons_self
  exact ofNat_ne_mark hm (hTable (code, codes) hIn other hOther) hChar

theorem mark_not_mem_toUpper (hc : c ≠ m) : m ∉ toUpper c := by
  have hRuns : ∀ run ∈ upperRuns, 128 ≤ (run.first : Int) + run.shift ∨
      run.first = run.last ∧ isMapped (run.first + run.shift).toNat = true := by decide +kernel
  have hTable : ∀ entry ∈ upperExpansions, ∀ code ∈ entry.2, isMapped code = true := by
    decide +kernel
  rw [toUpper]
  split
  · exact mark_not_mem_singleton hm hc (ascii_cases ‹_› (by decide +kernel))
  · split
    · exact mark_not_mem_ofNats hm hTable ‹_›
    · exact fun h => shiftBy_ne_mark hm hc hRuns (List.mem_singleton.1 h).symm

theorem mark_not_mem_toLower (hc : c ≠ m) : m ∉ toLower c := by
  have hRuns : ∀ run ∈ lowerRuns, 128 ≤ (run.first : Int) + run.shift ∨
      run.first = run.last ∧ isMapped (run.first + run.shift).toNat = true := by decide +kernel
  have hTable : ∀ entry ∈ lowerExpansions, ∀ code ∈ entry.2, isMapped code = true := by
    decide +kernel
  rw [toLower]
  split
  · exact mark_not_mem_singleton hm hc (ascii_cases ‹_› (by decide +kernel))
  · split
    · exact mark_not_mem_ofNats hm hTable ‹_›
    · exact fun h => shiftBy_ne_mark hm hc hRuns (List.mem_singleton.1 h).symm

end Unicode

/-! ## Words -/

namespace Word

variable {m : Char} (hm : Unicode.IsMark m)

include hm

theorem mark_not_mem_ofType {type : Text} (h : m ∉ type) (exported : Bool) :
    m ∉ ofType type exported := by
  have hBare : ∀ c ∈ bare type, c ≠ m := by
    rintro c hc rfl
    have hDropped := (List.mem_filter.1 hc).1
    exact h (Text.mem_of_mem_dropEndWhile ((List.dropWhile_suffix _).subset hDropped))
  rw [ofType]
  cases hWord : bare type with
  | nil => exact List.not_mem_nil
  | cons c t =>
      rw [hWord] at hBare
      intro hMem
      rcases List.mem_append.1 hMem with hFirst | hRest
      · cases exported with
        | true => exact Unicode.mark_not_mem_toUpper hm (hBare c List.mem_cons_self) hFirst
        | false => exact Unicode.mark_not_mem_toLower hm (hBare c List.mem_cons_self) hFirst
      · exact hBare m (List.mem_cons_of_mem c hRest) rfl

theorem mark_not_mem_substitute {placeholder type word : Text} (hType : m ∉ type)
    (hWord : m ∉ word) : m ∉ substitute placeholder type word := by
  have hReplaced : m ∉ Text.replaceAll placeholder (ofType type true) word := by
    intro hMem
    rcases Text.mem_replaceAll hMem with hNew | hOld
    · exact mark_not_mem_ofType hm hType true hNew
    · exact hWord hOld
  rw [substitute]
  split
  · exact hType
  · split
    · exact hWord
    · dsimp only
      split
      · intro hMem
        rcases List.mem_append.1 hMem with hFirst | hRest
        · exact mark_not_mem_ofType hm hType false hFirst
        · exact hReplaced (List.mem_of_mem_drop hRest)
      · exact hReplaced

end Word

/-! ## Tokens of a line -/

namespace Lexer

theorem mem_rest_of_mem_skipGap {l : Lexer} {c : Char} (h : c ∈ l.skipGap.rest) : c ∈ l.rest := by
  have hGap := splitGap_append l.semicolonDue l.rest
  rw [← hGap]
  exact List.mem_append_right _ h

theorem mem_of_mem_scan {d c : Char} {t : Text}
    (h : c ∈ (Lexeme.scan d t).text ∨ c ∈ (Lexeme.scan d t).rest) : c ∈ d :: t := by
  rw [← Lexeme.source_scan d t]
  exact List.mem_append.2 h

theorem accept_semicolonDue {l : Lexer} (hMode : l.mode.semicolons = false)
    (hDue : l.semicolonDue = false) (lexeme : Lexeme) :
    (l.accept lexeme).semicolonDue = false := by
  unfold accept
  split
  · exact hDue
  · simp [hMode]
  · exact hDue

/-- Without automatic semicolons a token and what is left come from the text. -/
theorem next_of_not_due {l : Lexer} (hMode : l.mode.semicolons = false)
    (hDue : l.semicolonDue = false) :
    l.next.2.mode.semicolons = false ∧ l.next.2.semicolonDue = false ∧
      ∀ c, c ∈ l.next.1.lexeme ∨ c ∈ l.next.2.rest → c ∈ l.rest := by
  fun_induction next l with
  | case1 l here hSemicolon =>
      have hHere : here.semicolonDue = l.semicolonDue := rfl
      rw [hHere, hDue, Bool.false_and] at hSemicolon
      cases hSemicolon
  | case2 l here _ hRest =>
      refine ⟨hMode, hDue, ?_⟩
      rintro c (h | h)
      · cases h
      · exact mem_rest_of_mem_skipGap h
  | case3 l here _ d t hRest lexeme hSkip ih =>
      have hAccept := accept_semicolonDue (l := here) hMode hDue lexeme
      obtain ⟨hNextMode, hNextDue, hMem⟩ := ih (by rw [accept_mode]; exact hMode) hAccept
      refine ⟨hNextMode, hNextDue, fun c h => ?_⟩
      have hLater : c ∈ lexeme.rest := by simpa using hMem c h
      apply mem_rest_of_mem_skipGap
      change c ∈ here.rest
      rw [hRest]
      exact mem_of_mem_scan (.inr hLater)
  | case4 l here _ d t hRest lexeme hKeep =>
      refine ⟨?_, accept_semicolonDue (l := here) hMode hDue lexeme, fun c h => ?_⟩
      · change (here.accept lexeme).mode.semicolons = false
        rw [accept_mode]
        exact hMode
      · apply mem_rest_of_mem_skipGap
        change c ∈ here.rest
        rw [hRest]
        apply mem_of_mem_scan
        simpa [token] using h

theorem mem_of_mem_run {l : Lexer} (hMode : l.mode.semicolons = false)
    (hDue : l.semicolonDue = false) {token : Token} (hToken : token ∈ l.run.tokens) {c : Char}
    (h : c ∈ token.lexeme) : c ∈ l.rest := by
  fun_induction run l with
  | case1 => cases hToken
  | case2 l first after hNext hEnd others ih =>
      obtain ⟨hNextMode, hNextDue, hMem⟩ := next_of_not_due hMode hDue
      rw [hNext] at hNextMode hNextDue hMem
      rcases List.mem_cons.1 hToken with rfl | hToken
      · exact hMem c (.inl h)
      · exact hMem c (.inr (ih hNextMode hNextDue hToken))

end Lexer

/-! ## Lines -/

namespace Line

theorem isMark_of_isLineEnd {c : Char} (hc : Text.isLineEnd c = true) : Unicode.IsMark c := by
  simp only [Text.isLineEnd, Bool.or_eq_true, beq_iff_eq] at hc
  rcases hc with rfl | rfl
  · exact ⟨by decide, by decide, by decide⟩
  · exact ⟨by decide, by decide, by decide⟩

variable {c : Char} (hc : Text.isLineEnd c = true)

include hc

theorem lineEnd_not_mem_substituteToken {placeholder type : Text} {t : Token}
    (hType : c ∉ type) (ht : c ∉ t.lexeme) : c ∉ substituteToken placeholder type t := by
  have hm := isMark_of_isLineEnd hc
  rw [substituteToken]
  split
  · intro hMem
    rcases Text.mem_joinWithSpaces hMem with rfl | ⟨word, hWord, hMem⟩
    · cases hc
    · obtain ⟨old, hOld, rfl⟩ := List.mem_map.1 hWord
      have hOldEnd : c ∉ old := fun h => ht ((Text.infix_of_mem_words hOld).subset h)
      exact Word.mark_not_mem_substitute hm hType hOldEnd hMem
  · split
    · exact Word.mark_not_mem_substitute hm hType ht
    · rw [Token.text]
      split
      · intro hMem
        obtain rfl := List.mem_singleton.1 hMem
        cases hc
      · exact ht

theorem lineEnd_not_mem_substitute {placeholder type line : Text} (hType : c ∉ type)
    (hLine : c ∉ line) : c ∉ substitute placeholder type line := by
  intro hMem
  rcases Text.mem_joinWithSpaces hMem with rfl | ⟨text, hText, hMem⟩
  · cases hc
  · obtain ⟨t, ht, rfl⟩ := List.mem_map.1 hText
    have hLexeme : c ∉ t.lexeme :=
      fun h => hLine (Lexer.mem_of_mem_run (l := .ofSource .verbatim line) rfl rfl ht h)
    exact lineEnd_not_mem_substituteToken hc hType hLexeme hMem

end Line

/-! ## Instances -/

/-- The types of a set are written on one line each. -/
def TypeSet.OnOneLine (types : TypeSet) : Prop := ∀ entry ∈ types.entries, '\n' ∉ entry.2

namespace Template

/-- The lines of a template that stay in its instance. A marked line does not, nor does one that
becomes a comment directly before a marked line or at the end. -/
def keptLines (types : TypeSet) : List Text → List Text
  | [] => []
  | line :: rest =>
    if isMarked line then keptLines types rest
    else if "//".toList.isPrefixOf (instantiateLine types line) && rest.head?.all isMarked then
      keptLines types rest
    else line :: keptLines types rest

/-- The lines of an instance are the lines that stay, each with the types in it. -/
theorem instantiateLines_eq (types : TypeSet) (held : Option Text) (ls : List Text) :
    instantiateLines types held ls =
      (if ls.head?.all isMarked then [] else held.toList) ++
        (keptLines types ls).map (instantiateLine types) := by
  induction ls generalizing held with
  | nil => rfl
  | cons line rest ih =>
      rw [instantiateLines, keptLines]
      by_cases hMarked : isMarked line = true
      · rw [if_pos hMarked, if_pos hMarked, ih none]
        simp [hMarked]
      · rw [if_neg hMarked, if_neg hMarked]
        dsimp only
        by_cases hComment : "//".toList.isPrefixOf (instantiateLine types line) = true
        · have hRest := ih (some (instantiateLine types line))
          rw [if_pos hComment, hComment, Bool.true_and, hRest]
          by_cases hNext : rest.head?.all isMarked = true
          · simp [hMarked, hNext]
          · simp [hMarked, hNext]
        · rw [if_neg hComment, Bool.eq_false_iff.2 hComment, ih none]
          simp [hMarked]

theorem keptLines_sublist (types : TypeSet) (ls : List Text) : (keptLines types ls).Sublist ls := by
  induction ls with
  | nil => exact .slnil
  | cons line rest ih =>
      rw [keptLines]
      split
      · exact ih.cons line
      · split
        · exact ih.cons line
        · exact ih.cons_cons line

theorem isMarked_of_mem_keptLines {types : TypeSet} {ls : List Text} {line : Text}
    (h : line ∈ keptLines types ls) : isMarked line = false := by
  induction ls with
  | nil => cases h
  | cons first rest ih =>
      rw [keptLines] at h
      split at h
      · exact ih h
      · rename_i hMarked
        split at h
        · exact ih h
        · rcases List.mem_cons.1 h with rfl | h
          · exact Bool.eq_false_iff.2 hMarked
          · exact ih h

theorem mem_keptLines {types : TypeSet} {ls : List Text} {line : Text} (hLine : line ∈ ls)
    (hMarked : isMarked line = false)
    (hComment : "//".toList.isPrefixOf (instantiateLine types line) = false) :
    line ∈ keptLines types ls := by
  induction ls with
  | nil => cases hLine
  | cons first rest ih =>
      rw [keptLines]
      rcases List.mem_cons.1 hLine with rfl | hLine
      · rw [hMarked, hComment]
        exact List.mem_cons_self
      · split
        · exact ih hLine
        · split
          · exact ih hLine
          · exact List.mem_cons_of_mem first (ih hLine)

theorem instantiate_eq (types : TypeSet) (text : Text) :
    instantiate types text = (keptLines types text.lines).flatMap
      fun line => Text.asLine (instantiateLine types line) := by
  rw [instantiate, instantiateLines_eq, Option.toList_none, ite_self, List.nil_append,
    List.flatMap_map]

theorem lineEnd_not_mem_instantiateLine {types : TypeSet} {line : Text} {c : Char}
    (hc : Text.isLineEnd c = true) (hTypes : ∀ entry ∈ types.entries, c ∉ entry.2)
    (hLine : c ∉ line) : c ∉ instantiateLine types line := by
  apply List.foldlRecOn (motive := fun line => c ∉ line) types.entries _ hLine
  intro line hLine entry hEntry
  dsimp only
  split
  · exact Line.lineEnd_not_mem_substitute hc (hTypes entry hEntry) hLine
  · exact hLine

theorem lines_instantiate (types : TypeSet) (text : Text) :
    (instantiate types text).lines = (keptLines types text.lines).flatMap
      fun line => (Text.asLine (instantiateLine types line)).lines := by
  rw [instantiate_eq]
  exact Text.lines_flatMap_append (fun line => (instantiateLine types line).chop) _

/-- With types on one line each, a line of the template stays one line. -/
theorem lines_instantiate_of_onOneLine {types : TypeSet} (hTypes : types.OnOneLine) (text : Text) :
    (instantiate types text).lines =
      (keptLines types text.lines).map fun line => (instantiateLine types line).chop := by
  have hEach : ∀ line ∈ keptLines types text.lines,
      (Text.asLine (instantiateLine types line)).lines = [(instantiateLine types line).chop] := by
    intro line hLine
    apply Text.lines_asLine
    apply lineEnd_not_mem_instantiateLine rfl hTypes
    exact Text.not_mem_of_mem_lines ((keptLines_sublist types text.lines).mem hLine)
  rw [lines_instantiate, List.flatMap_congr hEach, List.map_eq_flatMap]

end Template

end GoTemplate
