import GoTemplate.Proofs.Lexical.LineKinds
import GoTemplate.Proofs.Lexical.Spelling

/-!
Tokens in a row, as a grammar reads them. The tokens that a grammar reads are spelled as they are
written out, and tokens that are written out with single spaces between them are read again, perhaps
with a semicolon at the end of the text.
-/

namespace GoTemplate

/-- A token that is no comment and is written out as it is spelled. -/
def Token.IsSpelled (t : Token) : Prop := t.kind ≠ .comment ∧ Lexeme.Spells t.kind t.text

/-- The semicolon at the end of a line. -/
def Token.automatic : Token := ⟨.semicolon, ['\n'], .none⟩

/-- No token of a text is a line feed, as automatic semicolons are. -/
theorem Token.text_of_spells {t : Token} (h : Lexeme.Spells t.kind t.lexeme) : t.text = t.lexeme := by
  rw [text]
  split
  · rename_i hAutomatic
    obtain ⟨-, hText⟩ : t.kind = .semicolon ∧ t.lexeme = ['\n'] := by simpa [isAutomatic] using hAutomatic
    rw [hText] at h
    exact absurd ⟨t.kind, congrArg Lexeme.reading h⟩ (Lexeme.not_isToken_of_isBlank rfl [])
  · rfl

namespace BareTokens

variable {due : Bool} {t : Text} {ws : List Token}

/-- All that a grammar reads is spelled. -/
theorem isSpelled (h : BareTokens due t ws) : ∀ w ∈ ws, w.IsSpelled := by
  induction h with
  | stop => exact fun w hw => nomatch hw
  | semicolon _ _ _ ih =>
      exact List.forall_mem_cons.2 ⟨⟨by simp, rfl⟩, ih⟩
  | comment _ _ _ _ ih => exact ih
  | token _ _ hScan hKind _ ih =>
      have hSpells := Lexeme.spells_scan hScan
      refine List.forall_mem_cons.2 ⟨⟨hKind, ?_⟩, ih⟩
      rw [Token.text_of_spells hSpells]
      exact hSpells

end BareTokens

/-- Spelled tokens with single spaces between them are read again, and behind the last one perhaps an
automatic semicolon. -/
theorem BareTokens.row {ws : List Token} (hComment : ∀ w ∈ ws, w.kind ≠ .comment)
    (hSpells : ∀ w ∈ ws, Lexeme.Spells w.kind w.lexeme) (due : Bool) :
    ∃ tail, (tail = [] ∨ tail = [.automatic]) ∧
      BareTokens due (Token.row ws) (ws.map Token.bare ++ tail) := by
  induction ws generalizing due with
  | nil =>
      cases due with
      | false => exact ⟨[], .inl rfl, .stop rfl⟩
      | true => exact ⟨[.automatic], .inr rfl, .semicolon rfl rfl (.stop rfl)⟩
  | cons w ws ih =>
      obtain ⟨hKind, hComment⟩ := List.forall_mem_cons.1 hComment
      obtain ⟨hw, hSpells⟩ := List.forall_mem_cons.1 hSpells
      obtain ⟨tail, hTail, hRest⟩ := ih hComment hSpells w.kind.endsStatement
      obtain ⟨hGap, -⟩ := hw.splitGap_row due ws
      obtain ⟨c, x, hText⟩ := hw.exists_cons
      rw [hText] at hw
      refine ⟨tail, hTail, ?_⟩
      have hToken {u : Text} (hRow : Token.row (w :: ws) = c :: (x ++ u))
          (hScan : Lexeme.scan c (x ++ u) = ⟨.ok w.kind, c :: x, u⟩)
          (hLater : BareTokens w.kind.endsStatement u (ws.map Token.bare ++ tail)) :
          BareTokens due (Token.row (w :: ws)) (w.bare :: (ws.map Token.bare ++ tail)) := by
        have hReading : (Lexeme.scan c (x ++ u)).reading = .ok w.kind := congrArg Lexeme.reading hScan
        have hFound := token (hGap.trans hRow)
          (by rw [Lexeme.lineEnds_eq_false hReading hKind, Bool.and_false]) hReading hKind
          (by rw [hScan]; exact hLater)
        rw [hScan] at hFound
        rw [Token.bare, hText]
        exact hFound
      cases ws with
      | nil =>
          refine hToken (u := []) ?_ ?_ hRest
          · rw [Token.row_singleton, hText, List.append_nil]
          · rw [List.append_nil]
            exact hw
      | cons v ws =>
          have hNot : ¬(c = '/' ∧ x.head? = some '/') := by
            rintro ⟨rfl, hHead⟩
            obtain ⟨y, rfl⟩ := List.head?_eq_some_iff.1 hHead
            exact hKind (Except.ok.inj (congrArg Lexeme.reading hw)).symm
          obtain ⟨hFirst, hSpace⟩ := (hSpells v List.mem_cons_self).splitGap_row w.kind.endsStatement ws
          refine hToken ?_ (hw.scan_append hNot (Token.row (v :: ws)))
            (hRest.of_splitGap (hSpace.trans hFirst.symm))
          rw [Token.row_cons_cons, hText]
          rfl

end GoTemplate
