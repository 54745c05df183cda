import GoTemplate.Proofs.Template.RewrittenWords
import GoTemplate.Proofs.Text.Occurrences
import Mathlib.Data.List.Lattice

/-!
Types in the place of placeholders within words. The pieces of a word between the occurrences of the
placeholder stay, and so does whether it is exported. Where a type shares no character with its
placeholder, no word of the result holds the placeholder.
-/

namespace GoTemplate

open Text

namespace Word

variable {placeholder type word : Text}

/-! ## Case -/

theorem isExported_append {s : Text} (hNe : s ≠ []) (t : Text) : isExported (s ++ t) = isExported s := by
  obtain ⟨c, s, rfl⟩ := List.exists_cons_of_ne_nil hNe
  rfl

theorem ne_nil_of_isExported (h : isExported word = true) : word ≠ [] := by
  rintro rfl
  cases h

theorem ofType_eq_nil_iff {exported : Bool} : ofType type exported = [] ↔ bare type = [] := by
  rw [ofType]
  cases bare type with
  | nil => simp [mapFirst]
  | cons c rest => cases exported <;> simp [mapFirst, Unicode.toUpper_ne_nil, Unicode.toLower_ne_nil]

/-- A type as part of a word starts with its first character, mapped. -/
theorem isExported_ofType {c : Char} {rest : Text} (hBare : bare type = c :: rest) (exported : Bool) :
    isExported (ofType type exported) =
      isExported (if exported then Unicode.toUpper c else Unicode.toLower c) := by
  rw [ofType, hBare]
  cases exported with
  | true => exact isExported_append (Unicode.toUpper_ne_nil c) rest
  | false => exact isExported_append (Unicode.toLower_ne_nil c) rest

/-- A text that is not exported starts with an exported one only where this has been put in front. -/
theorem prefix_append_iff {exported first rest : Text} (hExported : isExported exported = true)
    (hWord : first ≠ [] → isExported first = false) :
    exported <+: first ++ (exported ++ rest) ↔ first = [] := by
  constructor
  · intro hPrefix
    by_contra hNe
    obtain ⟨c, first, rfl⟩ := List.exists_cons_of_ne_nil hNe
    obtain ⟨d, exported, rfl⟩ := List.exists_cons_of_ne_nil (ne_nil_of_isExported hExported)
    obtain ⟨rfl, -⟩ := List.cons_prefix_cons.1 hPrefix
    have hFirst : isExported (d :: exported) = false := hWord hNe
    rw [hExported] at hFirst
    cases hFirst
  · rintro rfl
    exact List.prefix_append exported rest

/-! ## Pieces -/

theorem substitute_of_occursIn (hNe : placeholder ≠ []) (hWord : word ≠ placeholder)
    (hOccurs : placeholder.occursIn word = true) {exported result : Text}
    (hExported : ofType type true = exported) (hResult : replaceAll placeholder exported word = result) :
    substitute placeholder type word =
      if exported ≠ [] ∧ exported.isPrefixOf result = true ∧ ¬isExported word then
        ofType type false ++ result.drop exported.length
      else result := by
  subst hExported hResult
  rw [substitute, if_neg hWord, if_neg (by simp [hNe, hOccurs])]

section

variable {first : Text} {others : List Text}

theorem eq_append_of_cutAt (hCut : CutAt placeholder word (first :: others)) (hOthers : others ≠ []) :
    word = first ++ (placeholder ++ placeholder.intercalate others) := by
  rw [← List.append_assoc, ← List.intercalate_cons_of_ne_nil hOthers, hCut.intercalate_eq]

variable (hNe : placeholder ≠ []) (hCut : CutAt placeholder word (first :: others))
  (hOthers : others ≠ []) (hExported : isExported (ofType type true) = true)

include hNe hCut hOthers hExported

/-- What stands between the pieces of a word once a type has taken the place of the placeholder. -/
theorem substitute_of_cutAt (hWord : word ≠ placeholder) :
    substitute placeholder type word =
      first ++ ((if first = [] ∧ isExported word = false then ofType type false else ofType type true) ++
        (ofType type true).intercalate others) := by
  obtain ⟨exported, hForm⟩ : ∃ exported, ofType type true = exported := ⟨_, rfl⟩
  rw [hForm] at hExported ⊢
  have hText := eq_append_of_cutAt hCut hOthers
  have hOccurs : placeholder.occursIn word = true := occursIn_iff.2 ⟨_, _, hText⟩
  have hResult : replaceAll placeholder exported word =
      first ++ (exported ++ exported.intercalate others) := by
    rw [hCut.replaceAll_eq hNe, List.intercalate_cons_of_ne_nil hOthers, List.append_assoc]
  have hStart : isExported word = false →
      (exported <+: first ++ (exported ++ exported.intercalate others) ↔ first = []) := by
    intro hNot
    refine prefix_append_iff hExported fun hFirst => ?_
    rw [← isExported_append hFirst, ← hText, hNot]
  rw [substitute_of_occursIn hNe hWord hOccurs hForm hResult]
  by_cases hLead : first = [] ∧ isExported word = false
  · obtain ⟨rfl, hNot⟩ := hLead
    have hPrefix := List.isPrefixOf_iff_prefix.2 ((hStart hNot).2 rfl)
    rw [if_pos ⟨ne_nil_of_isExported hExported, hPrefix, by simp [hNot]⟩, if_pos ⟨rfl, hNot⟩,
      List.nil_append, List.nil_append, List.drop_left]
  · rw [if_neg hLead, if_neg]
    rintro ⟨-, hPrefix, hNot⟩
    rw [Bool.not_eq_true] at hNot
    exact hLead ⟨(hStart hNot).1 (List.isPrefixOf_iff_prefix.1 hPrefix), hNot⟩

/-- A type in the place of a placeholder changes nothing about whether a word is exported. -/
theorem isExported_substitute (hWord : word ≠ placeholder)
    (hUnexported : isExported (ofType type false) = false) :
    isExported (substitute placeholder type word) = isExported word := by
  have hText := eq_append_of_cutAt hCut hOthers
  rw [substitute_of_cutAt hNe hCut hOthers hExported hWord]
  cases first with
  | cons c first => rw [hText]; rfl
  | nil =>
      cases hCase : isExported word with
      | true =>
          rw [if_neg (by simp), List.nil_append, isExported_append (ne_nil_of_isExported hExported),
            hExported]
      | false =>
          have hForm : ofType type false ≠ [] := by
            intro hNil
            exact ne_nil_of_isExported hExported (ofType_eq_nil_iff.2 (ofType_eq_nil_iff.1 hNil))
          rw [if_pos ⟨rfl, rfl⟩, List.nil_append, isExported_append hForm, hUnexported]

end

/-- Within a longer word every occurrence of a placeholder, taken from the left and without overlap,
becomes the exported form of the type; but one at the start of an unexported word becomes the
unexported form. Nothing else changes, and the word is exported if and only if it was. -/
theorem substitute_eq_intercalate (hNe : placeholder ≠ []) (hWord : word ≠ placeholder)
    (hOccurs : placeholder.occursIn word = true) {c : Char} {rest : Text} (hBare : bare type = c :: rest)
    (hUpper : isExported (Unicode.toUpper c) = true) (hLower : isExported (Unicode.toLower c) = false) :
    ∃ first others, (∀ pieces, CutAt placeholder word pieces ↔ pieces = first :: others) ∧ others ≠ [] ∧
      substitute placeholder type word =
        first ++ ((if first = [] ∧ isExported word = false then ofType type false else ofType type true) ++
          (ofType type true).intercalate others) ∧
      isExported (substitute placeholder type word) = isExported word := by
  obtain ⟨first, others, hCut⟩ := CutAt.exists_pieces hNe word
  have hOthers : others ≠ [] := by
    rintro rfl
    have hNone := hCut.not_occursIn hNe first List.mem_cons_self
    rw [← hCut.intercalate_eq, List.intercalate_singleton, hNone] at hOccurs
    cases hOccurs
  have hUnique : ∀ pieces, CutAt placeholder word pieces ↔ pieces = first :: others := by
    intro pieces
    constructor
    · exact fun hOther => hOther.unique hCut
    · rintro rfl
      exact hCut
  have hExported : isExported (ofType type true) = true := (isExported_ofType hBare true).trans hUpper
  have hUnexported : isExported (ofType type false) = false := (isExported_ofType hBare false).trans hLower
  exact ⟨first, others, hUnique, hOthers, substitute_of_cutAt hNe hCut hOthers hExported hWord,
    isExported_substitute hNe hCut hOthers hExported hWord hUnexported⟩

/-- A placeholder that overlaps itself, and a type whose first letter becomes two. -/
theorem substitute_eq_intercalate_overlapping :
    let placeholder : Text := "aa".toList
    let word : Text := "aaaxaa".toList
    let type : Text := "*ß.aa\x7b\x7d".toList
    placeholder ≠ [] ∧ word ≠ placeholder ∧ placeholder.occursIn word = true ∧
      bare type = 'ß' :: "aa".toList ∧ isExported (Unicode.toUpper 'ß') = true ∧
      isExported (Unicode.toLower 'ß') = false ∧
      substitute placeholder type word = "ßaaaxSSaa".toList ∧
      isExported (substitute placeholder type word) = isExported word := by
  intro placeholder word type
  have hNe : placeholder ≠ [] := by decide
  have hWord : word ≠ placeholder := by decide
  have hOccurs : placeholder.occursIn word = true := by decide
  have hBare : bare type = 'ß' :: "aa".toList := by decide
  have hUpper : isExported (Unicode.toUpper 'ß') = true := by decide +kernel
  have hLower : isExported (Unicode.toLower 'ß') = false := by decide +kernel
  obtain ⟨_, _, -, -, -, hCase⟩ := substitute_eq_intercalate hNe hWord hOccurs hBare hUpper hLower
  exact ⟨hNe, hWord, hOccurs, hBare, hUpper, hLower, by decide +kernel, hCase⟩

/-! ## Types that share nothing with the placeholder -/

/-- A type, as it is given and as a part of words, has no character in common with its placeholder,
and in words something is left of it. -/
structure IsApart (placeholder type : Text) : Prop where
  ne_nil : placeholder ≠ []
  form_ne_nil : ofType type true ≠ []
  type_disjoint : placeholder.Disjoint type
  form_disjoint : ∀ exported, placeholder.Disjoint (ofType type exported)

/-- No word holds the placeholder any more. The form of a type that starts an unexported word is put
in last, but no occurrence reaches into it either. -/
theorem not_occursIn_substitute (h : IsApart placeholder type) (word : Text) :
    placeholder.occursIn (substitute placeholder type word) = false := by
  by_cases hWord : word = placeholder
  · rw [substitute, if_pos hWord]
    exact not_occursIn_of_disjoint h.ne_nil h.type_disjoint
  cases hOccurs : placeholder.occursIn word with
  | false => rw [Line.substitute_word h.ne_nil hOccurs, hOccurs]
  | true =>
      have hNone := not_occursIn_replaceAll h.ne_nil h.form_ne_nil (h.form_disjoint true) word
      rw [substitute_of_occursIn h.ne_nil hWord hOccurs rfl rfl]
      split
      · rw [occursIn_append_of_disjoint h.ne_nil (h.form_disjoint false)]
        exact not_occursIn_of_isInfix hNone (List.drop_suffix _ _).isInfix
      · exact hNone

theorem substitute_substitute (h : IsApart placeholder type) (word : Text) :
    substitute placeholder type (substitute placeholder type word) = substitute placeholder type word :=
  Line.substitute_word h.ne_nil (not_occursIn_substitute h word)

end Word

namespace Line

variable {placeholder type : Text} (h : Word.IsApart placeholder type)

theorem not_occursIn_joinWithSpaces {texts : List Text} (hNe : placeholder ≠ [])
    (hSpace : ' ' ∉ placeholder) (hTexts : ∀ t ∈ texts, placeholder.occursIn t = false) :
    placeholder.occursIn (joinWithSpaces texts) = false :=
  not_occursIn_intercalate hNe (List.cons_ne_nil ' ' []) (List.disjoint_singleton.2 hSpace) hTexts

include h

theorem not_occursIn_substituteComment (hSpace : ' ' ∉ placeholder) (comment : Text) :
    placeholder.occursIn (substituteComment placeholder type comment) = false := by
  refine not_occursIn_joinWithSpaces h.ne_nil hSpace fun t ht => ?_
  obtain ⟨word, -, rfl⟩ := List.mem_map.1 ht
  exact Word.not_occursIn_substitute h word

/-- Neither a name or a literal nor a word of a comment holds the placeholder any more. -/
theorem avoids_substitute (t : Token) : Avoids placeholder (t.substitute placeholder type) := by
  constructor
  · intro hLiteral
    have hKind : t.kind ≠ .comment := by
      intro hKind
      have hClass : t.kind.class? = some .literal := hLiteral
      rw [hKind] at hClass
      cases hClass
    have hLexeme : (t.substitute placeholder type).lexeme = Word.substitute placeholder type t.lexeme := by
      rw [Token.substitute, substituteToken, if_neg hKind]
      exact if_pos hLiteral
    rw [hLexeme]
    exact Word.not_occursIn_substitute h t.lexeme
  · intro hKind word hWord
    have hLexeme : (t.substitute placeholder type).lexeme = substituteComment placeholder type t.lexeme :=
      if_pos hKind
    rw [hLexeme] at hWord
    refine Bool.eq_false_iff.2 fun hOccurs => ?_
    -- What occurs in a word holds no white space, so that it does not reach from word to word.
    have hSpace : ' ' ∉ placeholder := by
      intro hMem
      obtain ⟨u, v, rfl⟩ := occursIn_iff.1 hOccurs
      have hPlain := (word_of_mem_words hWord).2 ' ' (by simp [hMem])
      exact absurd hPlain (by decide +kernel)
    have hNone := not_occursIn_substituteComment h hSpace t.lexeme
    rw [not_occursIn_of_isInfix hNone (infix_of_mem_words hWord)] at hOccurs
    cases hOccurs

/-- Where neither the placeholder holds a space nor a keyword, an operator or a fault of the line
holds the placeholder, it does not occur in the rewritten line. -/
theorem not_occursIn_substitute_line {line : Text} (hSpace : ' ' ∉ placeholder)
    (hOther : ∀ t ∈ verbatimTokens line, t.kind ≠ .comment → t.kind.class? ≠ some .literal →
      placeholder.occursIn t.text = false) :
    placeholder.occursIn (substitute placeholder type line) = false := by
  refine not_occursIn_joinWithSpaces h.ne_nil hSpace fun text hText => ?_
  obtain ⟨t, ht, rfl⟩ := List.mem_map.1 hText
  rw [substituteToken]
  split
  · exact not_occursIn_substituteComment h hSpace t.lexeme
  · split
    · exact Word.not_occursIn_substitute h t.lexeme
    · exact hOther t ht ‹_› ‹_›

/-- Where a type shares no character with its placeholder, no word holds the placeholder once the
type has been put in, and to put it in again changes nothing. So of the tokens that make up a
rewritten line no name, no literal and no word of a comment holds it; and the line holds it at most
where a keyword, an operator or a fault does, or across a space. -/
theorem substitute_leaves_none :
    (∀ word, placeholder.occursIn (Word.substitute placeholder type word) = false ∧
      Word.substitute placeholder type (Word.substitute placeholder type word) =
        Word.substitute placeholder type word) ∧
    ∀ line, substitute placeholder type line =
        joinWithSpaces ((verbatimTokens line).map fun t => (t.substitute placeholder type).lexeme) ∧
      (∀ t ∈ verbatimTokens line, Avoids placeholder (t.substitute placeholder type)) ∧
      (' ' ∉ placeholder → (∀ t ∈ verbatimTokens line, t.kind ≠ .comment →
          t.kind.class? ≠ some .literal → placeholder.occursIn t.text = false) →
        placeholder.occursIn (substitute placeholder type line) = false) := by
  refine ⟨fun word => ⟨Word.not_occursIn_substitute h word, Word.substitute_substitute h word⟩,
    fun line => ⟨rfl, fun t _ => avoids_substitute h t, ?_⟩⟩
  exact fun hSpace hOther => not_occursIn_substitute_line h hSpace hOther

omit h in
/-- A placeholder that overlaps itself, in a name and in a comment. -/
theorem substitute_leaves_none_overlapping :
    let line : Text := "f(xababa) // ababa, aba".toList
    Word.IsApart "aba".toList "int".toList ∧
      substitute "aba".toList "int".toList line = "f ( xIntba ) // intba, int".toList ∧
      ∀ t ∈ verbatimTokens line, Avoids "aba".toList (t.substitute "aba".toList "int".toList) := by
  intro line
  have hApart : Word.IsApart "aba".toList "int".toList := {
    ne_nil := by decide
    form_ne_nil := by decide +kernel
    type_disjoint := List.inter_eq_nil_iff_disjoint.1 (by decide)
    form_disjoint := fun exported => List.inter_eq_nil_iff_disjoint.1 (by
      cases exported with
      | true => decide +kernel
      | false => decide +kernel) }
  exact ⟨hApart, by decide +kernel, ((substitute_leaves_none hApart).2 line).2.1⟩

end Line

end GoTemplate
