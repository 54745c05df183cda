import GoTemplate.Proofs.Output.Merge
import GoTemplate.Proofs.Syntax.BareSource

/-!
Texts in which the merger, who goes by lines, finds what the grammar finds. The clause, the imports
and the directives stand on lines of their own, no other line looks like one of them, and no token
reaches over from one of these lines to another.
-/

namespace GoTemplate

/-- The text of lines, each with its end. -/
def Text.unlines (ls : List Text) : Text := ls.flatMap asLine

/-- Whether other statements may follow a text. -/
def Text.IsComplete (text : Text) : Prop := ∃ ws, text.tokens? = some ws ∧ Complete ws

namespace Output

open Text Brackets

/-- Lines that have tokens of their own, so that it makes no difference where the lines stand. -/
structure HaveTokens (ls : List Text) (ws : List Token) : Prop where
  tokens : (unlines ls).tokens? = some ws
  mark : (unlines ls).head? ≠ some '\uFEFF'

/-- An import on one line or an import block. The merger takes it away. -/
inductive AreTaken : List Text → Prop where
  | single {line : Text} (hImport : looksLikeImport line = true)
      (hOpens : opensImports line = false) : AreTaken [line]
  | block {first last : Text} {inner : List Text} (hOpens : opensImports first = true)
      (hInner : ∀ line ∈ inner, closesImports line = false)
      (hCloses : closesImports last = true) : AreTaken (first :: (inner ++ [last]))

/-- Lines with their tokens, in blocks of lines that have tokens of their own. Among imports all
tokens are in lines that the merger takes away, and elsewhere all are in lines that it keeps. Of
other lines, which are blank or hold comments, it may take some and leave some. -/
inductive Blocks (imports : Bool) : List Text → List Token → Prop where
  | nil : Blocks imports [] []
  | kept {ls rest : List Text} {us vs : List Token}
      (hKept : ∀ line ∈ ls, isOrdinary [] line = true) (hTokens : HaveTokens ls us)
      (hNone : imports = true → us = []) (hRest : Blocks imports rest vs) :
      Blocks imports (ls ++ rest) (us ++ vs)
  | taken {ls rest : List Text} {us vs : List Token} (hTaken : AreTaken ls)
      (hTokens : HaveTokens ls us) (hNone : imports = false → us = [])
      (hRest : Blocks imports rest vs) : Blocks imports (ls ++ rest) (us ++ vs)
  | comments {ls rest : List Text} {vs : List Token}
      (hLines : ∀ line ∈ ls, looksLikePackage line = false ∧ opensImports line = false)
      (hTokens : HaveTokens ls []) (hKept : HaveTokens (ls.filter (isOrdinary [])) [])
      (hRest : Blocks imports rest vs) : Blocks imports (ls ++ rest) vs

/-! ## Tokens of lines -/

theorem unlines_append (ls ms : List Text) : unlines (ls ++ ms) = unlines ls ++ unlines ms :=
  List.flatMap_append

/-- The text of lines ends with a line feed. -/
theorem unlines_eq_nil_or (ls : List Text) : unlines ls = [] ∨ ∃ u, unlines ls = u ++ ['\n'] := by
  rcases List.eq_nil_or_concat ls with rfl | ⟨init, last, rfl⟩
  · exact .inl rfl
  · right
    refine ⟨unlines init ++ chop last, ?_⟩
    rw [List.concat_eq_append, unlines_append, List.append_assoc, ← asLine_eq]
    simp [unlines]

namespace HaveTokens

theorem nil : HaveTokens [] [] where
  tokens := tokens?_eq_some.2 (.stop rfl)
  mark := by decide

theorem append {ls ms : List Text} {us vs : List Token} (hLs : HaveTokens ls us)
    (hMs : HaveTokens ms vs) : HaveTokens (ls ++ ms) (us ++ vs) := by
  have hEnd : unlines ls = [] ∧ false = false ∨ ∃ u, unlines ls = u ++ ['\n'] :=
    (unlines_eq_nil_or ls).imp_left fun hNil => ⟨hNil, rfl⟩
  constructor
  · rw [unlines_append, tokens?_eq_some]
    exact (tokens?_eq_some.1 hLs.tokens).append (tokens?_eq_some.1 hMs.tokens) hEnd hMs.mark
  · rw [unlines_append]
    by_cases hNil : unlines ls = []
    · rw [hNil]
      exact hMs.mark
    · obtain ⟨c, t, hCons⟩ := List.exists_cons_of_ne_nil hNil
      have hMark := hLs.mark
      rw [hCons] at hMark ⊢
      exact hMark

end HaveTokens

theorem Blocks.haveTokens {imports : Bool} {ls : List Text} {ws : List Token}
    (h : Blocks imports ls ws) : HaveTokens ls ws := by
  induction h with
  | nil => exact .nil
  | kept _ hTokens _ _ ih => exact hTokens.append ih
  | taken _ hTokens _ _ ih => exact hTokens.append ih
  | comments _ hTokens _ _ ih => exact hTokens.append ih

/-! ## Lines that stay -/

theorem not_package_of_import {line : Text} (h : looksLikeImport line = true) :
    looksLikePackage line = false := by
  rw [← Bool.not_eq_true]
  intro hPackage
  rw [not_import_of_package hPackage] at h
  cases h

theorem cleanLines_import {line : Text} (h : looksLikeImport line = true) (packageSeen : Bool)
    (others : List Text) : cleanLines packageSeen false (line :: others) =
      cleanLines packageSeen (opensImports line) others := by
  have hPackage : "package".toList.isPrefixOf line = false := not_package_of_import h
  have hOpens : opensImports line = ['('].isSuffixOf line := by rw [opensImports, h, Bool.true_and]
  rw [cleanLines, if_neg Bool.false_ne_true, hPackage, if_neg Bool.false_ne_true, hOpens]
  exact if_pos h

theorem cleanLines_inside {inner : List Text} {last : Text}
    (hInner : ∀ line ∈ inner, closesImports line = false) (hCloses : closesImports last = true)
    (packageSeen : Bool) (others : List Text) :
    cleanLines packageSeen true (inner ++ last :: others) = cleanLines packageSeen false others := by
  induction inner with
  | nil =>
      change cleanLines packageSeen (!closesImports last) others = _
      rw [hCloses]
      rfl
  | cons line inner ih =>
      change cleanLines packageSeen (!closesImports line) (inner ++ last :: others) = _
      rw [hInner line List.mem_cons_self]
      exact ih fun other hOther => hInner other (List.mem_cons_of_mem line hOther)

theorem cleanLines_taken {ls : List Text} (h : AreTaken ls) (packageSeen : Bool)
    (others : List Text) :
    cleanLines packageSeen false (ls ++ others) = cleanLines packageSeen false others := by
  cases h with
  | single hImport hOpens => rw [List.singleton_append, cleanLines_import hImport, hOpens]
  | @block first last inner hOpens hInner hCloses =>
      have hImport : looksLikeImport first = true := by
        rw [opensImports, Bool.and_eq_true] at hOpens
        exact hOpens.1
      rw [List.cons_append, cleanLines_import hImport, hOpens, List.append_assoc]
      exact cleanLines_inside hInner hCloses packageSeen others

/-- Of blocks the kept lines stay, whatever comes after them. Among imports they bear no token, and
elsewhere all. -/
theorem Blocks.cleanLines_append {imports : Bool} {ls : List Text} {ws : List Token}
    (h : Blocks imports ls ws) : ∃ kept, HaveTokens kept (if imports then [] else ws) ∧
      ∀ packageSeen others, cleanLines packageSeen false (ls ++ others) =
        kept ++ cleanLines packageSeen false others := by
  induction h with
  | nil =>
      refine ⟨[], ?_, fun _ _ => rfl⟩
      rw [ite_self]
      exact .nil
  | @kept ls rest us vs hKept hTokens hNone _ ih =>
      obtain ⟨kept, hRest, hClean⟩ := ih
      refine ⟨ls ++ kept, ?_, fun packageSeen others => ?_⟩
      · cases imports with
        | true =>
            obtain rfl := hNone rfl
            exact hTokens.append hRest
        | false => exact hTokens.append hRest
      · rw [List.append_assoc, cleanLines_append_of_ordinary _ hKept, hClean, List.append_assoc]
  | @taken ls rest us vs hTaken hTokens hNone _ ih =>
      obtain ⟨kept, hRest, hClean⟩ := ih
      refine ⟨kept, ?_, fun packageSeen others => ?_⟩
      · cases imports with
        | true => exact hRest
        | false =>
            obtain rfl := hNone rfl
            exact hRest
      · rw [List.append_assoc, cleanLines_taken hTaken, hClean]
  | @comments ls rest vs hLines _ hKept _ ih =>
      obtain ⟨kept, hRest, hClean⟩ := ih
      refine ⟨ls.filter (isOrdinary []) ++ kept, hKept.append hRest, fun packageSeen others => ?_⟩
      rw [List.append_assoc, Output.cleanLines_append _ hLines, hClean, List.append_assoc]

/-! ## Layouts -/

/-- How the lines of a text are laid out: lines without tokens, the package clause on a line of its
own, imports, and the other declarations. -/
structure Layout (text : Text) where
  intro : List Text
  clause : Text
  imports : List Text
  body : List Text
  keyword : Token
  name : Token
  semicolon : Token
  importTokens : List Token
  bodyTokens : List Token
  lines_eq : text.lines = intro ++ clause :: (imports ++ body)
  /-- Carriage returns at line ends are no part of tokens. -/
  lineEnds : (unlines text.lines).tokens? = text.tokens?
  intro_blocks : Blocks true intro []
  looksLike_clause : looksLikePackage clause = true
  clause_tokens : HaveTokens [clause] [keyword, name, semicolon]
  keyword_kind : keyword.kind = .keyword .package
  name_kind : name.kind = .identifier
  semicolon_kind : semicolon.kind = .semicolon
  import_blocks : Blocks true imports importTokens
  body_blocks : Blocks false body bodyTokens
  /-- The tokens of the imports are those in their lines. -/
  import_section : ∃ decls, Parser.importSection (.ofTokens (importTokens ++ bodyTokens)) =
    .ok (decls, .ofTokens bodyTokens)

namespace Layout

variable {text : Text} (l : Layout text)

/-- The tokens of the package clause. -/
abbrev clauseTokens : List Token := [l.keyword, l.name, l.semicolon]

theorem tokens_eq : text.tokens? = some (l.clauseTokens ++ (l.importTokens ++ l.bodyTokens)) := by
  have hImports := l.import_blocks.haveTokens.append l.body_blocks.haveTokens
  rw [← l.lineEnds, l.lines_eq]
  exact (l.intro_blocks.haveTokens.append (l.clause_tokens.append hImports)).tokens

theorem isBare_tokens : IsBare l.clauseTokens ∧ IsBare (l.importTokens ++ l.bodyTokens) :=
  isBare_append.1 (isBare_of_tokens? l.tokens_eq)

theorem balanced_importTokens :
    Balanced l.importTokens ∧ nextKind l.bodyTokens ≠ .keyword .import := by
  obtain ⟨decls, hSection⟩ := l.import_section
  exact Parser.balanced_of_importSection l.isBare_tokens.2 hSection

theorem balanced_clauseTokens : Balanced l.clauseTokens := by
  have hKeyword : IsPlain l.keyword := by simp [IsPlain, l.keyword_kind]
  have hName : IsPlain l.name := by simp [IsPlain, l.name_kind]
  have hSemicolon : IsPlain l.semicolon := by simp [IsPlain, l.semicolon_kind]
  exact .plain hKeyword (.plain hName (.plain hSemicolon .nil))

theorem complete_bodyTokens (h : text.IsComplete) : Complete l.bodyTokens := by
  obtain ⟨ws, hWs, hComplete⟩ := h
  obtain rfl := Option.some.inj (hWs.symm.trans l.tokens_eq)
  have hOthers := hComplete.of_append_left l.balanced_clauseTokens
  exact hOthers.of_append_left l.balanced_importTokens.1

/-- Of the first text the package clause and the body stay. -/
theorem cleanLines_first : ∃ kept, HaveTokens kept (l.clauseTokens ++ l.bodyTokens) ∧
    ∀ others, cleanLines false false (text.lines ++ others) =
      kept ++ cleanLines true false others := by
  obtain ⟨intro, hIntro, hCleanIntro⟩ := l.intro_blocks.cleanLines_append
  obtain ⟨imports, hImports, hCleanImports⟩ := l.import_blocks.cleanLines_append
  obtain ⟨body, hBody, hCleanBody⟩ := l.body_blocks.cleanLines_append
  have hClause (others : List Text) : cleanLines false false (l.clause :: others) =
      l.clause :: cleanLines true false others := by
    rw [cleanLines, if_neg Bool.false_ne_true]
    exact (if_pos l.looksLike_clause).trans (if_neg Bool.false_ne_true)
  refine ⟨intro ++ l.clause :: (imports ++ body), ?_, fun others => ?_⟩
  · exact hIntro.append (l.clause_tokens.append (hImports.append hBody))
  · simp only [l.lines_eq, List.append_assoc, List.cons_append, hCleanIntro, hClause,
      hCleanImports, hCleanBody]

/-- Of a later text only the body stays. -/
theorem cleanLines_later : ∃ kept, HaveTokens kept l.bodyTokens ∧
    ∀ others, cleanLines true false (text.lines ++ others) =
      kept ++ cleanLines true false others := by
  obtain ⟨intro, hIntro, hCleanIntro⟩ := l.intro_blocks.cleanLines_append
  obtain ⟨imports, hImports, hCleanImports⟩ := l.import_blocks.cleanLines_append
  obtain ⟨body, hBody, hCleanBody⟩ := l.body_blocks.cleanLines_append
  have hClause (others : List Text) : cleanLines true false (l.clause :: others) =
      cleanLines true false others := by
    rw [cleanLines, if_neg Bool.false_ne_true]
    exact (if_pos l.looksLike_clause).trans (if_pos rfl)
  refine ⟨intro ++ (imports ++ body), hIntro.append (hImports.append hBody), fun others => ?_⟩
  simp only [l.lines_eq, List.append_assoc, List.cons_append, hCleanIntro, hClause, hCleanImports,
    hCleanBody]

end Layout

end Output

end GoTemplate
