import GoTemplate.Proofs.Syntax.DeclarationWords
import GoTemplate.Syntax.Source

/-!
Brackets in accepted sources. The grammar does not read function bodies, values and the lengths of
arrays, but it matches the brackets in them, so that the tokens of a source that it accepts are
balanced. There is one gap. The values of a declaration end with the source whatever is open then,
and where nothing has to follow on them the source is accepted.
-/

namespace GoTemplate

open Brackets

instance (word : List Token) : Decidable (Balanced word) :=
  decidable_of_iff (openAfter [] word = some []) balanced_iff_openAfter.symm

/-- The tokens of a source as a grammar reads them. -/
def sourceTokens (source : Text) : List Token := (Lexer.ofSource .statements source).run.tokens

namespace Lexer

theorem run_tokens_kind (l : Lexer) : ∀ t ∈ l.run.tokens, t.kind ≠ .endOfSource := by
  fun_induction run l with
  | case1 l t after hNext hEnd =>
      intro u hu
      cases hu
  | case2 l t after hNext hEnd others ih =>
      intro u hu
      rcases List.mem_cons.1 hu with rfl | hu
      · exact hEnd
      · exact ih u hu

theorem run_stop_kind (l : Lexer) : l.run.stop.kind = .endOfSource := by
  fun_induction run l with
  | case1 l t after hNext hEnd => exact hEnd
  | case2 l t after hNext hEnd others ih => exact ih

end Lexer

theorem Cursor.ofRun_isProper (l : Lexer) : (Cursor.ofRun l.run).IsProper where
  stop_kind := l.run_stop_kind
  rest_kind := l.run_tokens_kind

/-- An accepted source has no text that is no token, and the reader succeeds on its tokens. -/
theorem readSource_eq_ok {α : Type} {parser : Parser α} {source : Text} {a : α}
    (h : readSource parser source = .ok a) :
    (Lexer.ofSource .statements source).run.after.errors = [] ∧
      ∃ c, parser (.ofRun (Lexer.ofSource .statements source).run) = .ok (a, c) := by
  rw [readSource] at h
  split at h
  · rename_i hErrors
    refine ⟨hErrors, ?_⟩
    split at h
    · rename_i c hRun
      cases h
      exact ⟨c, hRun⟩
    · cases h
  · cases h

namespace SourceFile

/-- All tokens of an accepted source are read, so that they are the word of the file. -/
theorem fileWord_of_parse {source : Text} {file : SourceFile} (h : parse source = .ok file) :
    FileWord file (sourceTokens source) [] := by
  obtain ⟨-, c, hRun⟩ := readSource_eq_ok h
  have hProper := Cursor.ofRun_isProper (Lexer.ofSource .statements source)
  obtain ⟨word, hTakes, hFile⟩ :=
    Parser.reads_sourceFile _ _ _ hProper (Nat.lt_succ_self _) trivial hRun
  have hRest : c.rest = [] := by
    apply Parser.rest_eq_nil (hTakes.isProper hProper)
    rw [Parser.kind_eq (hTakes.isProper hProper)]
    exact hFile.1
  have hTokens : sourceTokens source = word := by
    rw [← List.append_nil word, ← hRest]
    exact hTakes.rest_eq
  rw [hTokens, ← hRest]
  exact hFile

/-- The tokens of an accepted source are balanced, but where its last declaration leaves a bracket
open. -/
theorem balanced_iff_of_parse {source : Text} {file : SourceFile} (h : parse source = .ok file) :
    Balanced (sourceTokens source) ↔ ¬file.EndsInOpenValues (sourceTokens source) := by
  obtain ⟨-, hBalanced | hOpen⟩ := fileWord_of_parse h
  · refine ⟨fun _ hOpen => ?_, fun _ => hBalanced⟩
    exact hOpen.2.not_balanced hBalanced
  · exact ⟨fun hBalanced => absurd hBalanced hOpen.2.not_balanced, fun hNot => absurd hOpen hNot⟩

private theorem exists_parse_open :
    ∃ file, parse "package p\nvar x = (1".toList = .ok file ∧ true = true :=
  exists_parse_iff.2 (by decide +kernel)

/-- On an open bracket in the values of the last declaration nothing has to follow. -/
theorem balanced_iff_of_parse_open : ∃ file, parse "package p\nvar x = (1".toList = .ok file ∧
    (Balanced (sourceTokens "package p\nvar x = (1".toList) ↔
      ¬file.EndsInOpenValues (sourceTokens "package p\nvar x = (1".toList)) := by
  obtain ⟨file, hParse, -⟩ := exists_parse_open
  exact ⟨file, hParse, balanced_iff_of_parse hParse⟩

theorem exists_parse_not_balanced :
    ∃ source file, parse source = .ok file ∧ ¬Balanced (sourceTokens source) := by
  obtain ⟨file, hParse, -⟩ := exists_parse_open
  exact ⟨_, file, hParse, by decide +kernel⟩

end SourceFile

end GoTemplate
