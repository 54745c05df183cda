import GoTemplate.Proofs.Syntax.Balance

/-!
Progress. The readers of the grammar only go on in the tokens, and those of types and of items in lists take
a token at least. So the recursion and the loops of the grammar end by themselves: with more rounds than
there are tokens to come they never run out of rounds, and they read what the readers read that compare the
numbers of tokens left.
-/

namespace GoTemplate.Parser

/-! ## The rules of the grammar -/

/-- The rules of the grammar, each with the type of what it reads. -/
inductive Rule : Type → Type where
  | take : Rule Token
  | eat (k : TokenKind) : Rule Bool
  | expect (k : TokenKind) : Rule Token
  | identifier : Rule Identifier
  | statementEnd : Rule Unit
  | group (b : Bracket) : Rule Unit
  | expression (stops : TokenKind → Bool) : Rule Text
  | type : Rule GoType
  | namedType : Rule GoType
  | typeArgs : Rule (List GoType)
  | paramEntry : Rule ParamEntry
  | params : Rule (List (Param GoType))
  | results : Rule (List (Param GoType))
  | signature : Rule (Signature GoType)
  | term : Rule (Term GoType)
  | constraint : Rule (List (Term GoType))
  | field : Rule (Field GoType)
  | structType : Rule GoType
  | interfaceElement : Rule (InterfaceElement GoType)
  | interfaceType : Rule GoType
  | typeParam : Rule TypeParam
  | typeParams : Rule (List TypeParam)
  | importSpec : Rule ImportSpec
  | typeSpec : Rule TypeSpec
  | valueSpec : Rule ValueSpec
  | importGroup : Rule (SpecGroup ImportSpec)
  | typeGroup : Rule (SpecGroup TypeSpec)
  | valueGroup : Rule (SpecGroup ValueSpec)
  | funcDecl : Rule FuncDecl
  | packageClause : Rule Identifier
  | importDecl : Rule Declaration
  | declaration : Rule Declaration
  | sourceFile : Rule SourceFile

namespace Rule

/-- The reader of a rule. -/
def reader {α : Type} : Rule α → Parser α
  | take => Parser.take
  | eat k => Parser.eat k
  | expect k => Parser.expect k
  | identifier => Parser.identifier
  | statementEnd => Parser.statementEnd
  | group b => Parser.group b
  | expression stops => Parser.expression stops
  | type => goType
  | namedType => Parser.namedType goType
  | typeArgs => Parser.typeArgs goType
  | paramEntry => Parser.paramEntry goType
  | params => Parser.params goType
  | results => Parser.results goType
  | signature => Parser.signature goType
  | term => Parser.term goType
  | constraint => Parser.constraint goType
  | field => Parser.field goType
  | structType => Parser.structType goType
  | interfaceElement => Parser.interfaceElement goType
  | interfaceType => Parser.interfaceType goType
  | typeParam => Parser.typeParam
  | typeParams => Parser.typeParams
  | importSpec => Parser.importSpec
  | typeSpec => Parser.typeSpec
  | valueSpec => Parser.valueSpec
  | importGroup => specGroup Parser.importSpec
  | typeGroup => specGroup Parser.typeSpec
  | valueGroup => specGroup Parser.valueSpec
  | funcDecl => Parser.funcDecl
  | packageClause => Parser.packageClause
  | importDecl => Parser.importDecl
  | declaration => Parser.declaration
  | sourceFile => Parser.sourceFile

/-- Whether the rule takes a token at least wherever it is read. Of the other rules nothing is said: the end
of the source is no token, and a statement may end and results may be missing without one. -/
def takesToken {α : Type} : Rule α → Bool
  | take | eat _ | statementEnd | expression _ | results | sourceFile => false
  | expect k => k ≠ .endOfSource
  | _ => true

end Rule

section

variable {α : Type}

/-- Each rule takes a word, and it takes no empty one where it takes a token at least. -/
theorem Rule.reads (rule : Rule α) (n : Nat) :
    Reads (n + 1) rule.reader fun _ w _ => rule.takesToken → w ≠ [] := by
  have hInner := reads_goType n
  have hType := reads_goType (n + 1)
  have hPhrase {β : Type} {q : Parser β} (h : Reads (n + 1) q fun _ w _ => Phrase w) :
      Reads (n + 1) q fun _ w _ => true = true → w ≠ [] :=
    h.word fun _ _ _ hw _ => hw.ne_nil
  have hTypeWord {q : Parser GoType} (h : Reads (n + 1) q fun _ w r => TypeWord w r) :
      Reads (n + 1) q fun _ w _ => true = true → w ≠ [] :=
    hPhrase (h.word fun _ _ _ hw => hw.phrase)
  have hAny {β : Type} {q : Parser β} {W : β → List Token → List Token → Prop}
      (h : Reads (n + 1) q W) : Reads (n + 1) q fun _ w _ => false = true → w ≠ [] :=
    h.word fun _ _ _ _ hFalse => absurd hFalse Bool.false_ne_true
  cases rule with
  | take => exact hAny reads_take_any
  | eat k => exact hAny (reads_eat_any k)
  | expect k => exact (reads_expect_any k).word fun _ _ _ hw hk => hw (of_decide_eq_true hk)
  | identifier => exact hPhrase reads_identifier_phrase
  | statementEnd => exact hAny reads_statementEnd
  | group b => exact hPhrase (reads_group b)
  | expression stops => exact hAny (reads_expression stops)
  | type => exact hTypeWord hType
  | namedType => exact hTypeWord (reads_namedType hInner)
  | typeArgs => exact hPhrase (reads_typeArgs hType)
  | paramEntry => exact hPhrase (reads_paramEntry hType)
  | params => exact hPhrase (reads_params hType)
  | results => exact hAny (reads_results hType)
  | signature => exact hPhrase (reads_signature hType)
  | term => exact hPhrase (reads_term hType)
  | constraint => exact hPhrase (reads_constraint hType)
  | field => exact hPhrase (reads_field hType)
  | structType => exact hTypeWord (reads_structType hInner)
  | interfaceElement => exact hPhrase (reads_interfaceElement hType)
  | interfaceType => exact hTypeWord (reads_interfaceType hInner)
  | typeParam => exact hPhrase reads_typeParam
  | typeParams => exact hPhrase reads_typeParams
  | importSpec => exact hPhrase reads_importSpec
  | typeSpec => exact hPhrase reads_typeSpec
  | valueSpec =>
      refine reads_valueSpec.word ?_
      rintro _ w _ (hw | ⟨⟨-, hw⟩, -⟩) -
      · exact hw.ne_nil
      · exact hw.ne_nil
  | importGroup => exact (reads_specGroup_phrase_ne_nil reads_importSpec).word fun _ _ _ hw _ => hw
  | typeGroup => exact (reads_specGroup_phrase_ne_nil reads_typeSpec).word fun _ _ _ hw _ => hw
  | valueGroup =>
      have hGroup := reads_specGroup_ne_nil (fun _ h => h.2.ne_nil rfl) (@reads_valueSpec (n + 1))
      exact hGroup.word fun _ _ _ hw _ => hw
  | funcDecl => exact hPhrase reads_funcDecl
  | packageClause => exact hPhrase reads_packageClause
  | importDecl => exact (reads_specGroup_phrase_ne_nil reads_importSpec).map fun _ _ _ hw _ => hw
  | declaration =>
      refine reads_declaration.word ?_
      rintro _ w _ (hw | ⟨⟨-, hw⟩, -⟩) -
      · exact hw.ne_nil
      · exact hw.ne_nil
  | sourceFile => exact hAny reads_sourceFile

theorem Rule.reads_of_isProper {rule : Rule α} {c d : Cursor} {a : α} (hc : c.IsProper)
    (hRead : rule.reader c = .ok (a, d)) :
    ∃ word, Takes rule.reader c a d word ∧ (rule.takesToken → word ≠ []) :=
  rule.reads c.rest.length c a d hc (Nat.lt_succ_self _) trivial hRead

end

/-! ## The places of a run -/

/-- The places to which the rules lead from the start of a run, one rule after another. -/
inductive Reached (run : Lexer.Run) : Cursor → Prop where
  | start : Reached run (.ofRun run)
  | read {α : Type} {rule : Rule α} {c d : Cursor} {a : α} (hc : Reached run c)
      (hRead : rule.reader c = .ok (a, d)) : Reached run d

/-- No rule leaves the tokens of the run, or comes behind the end of the source. -/
theorem Reached.within {l : Lexer} {c : Cursor} (h : Reached l.run c) :
    c.IsProper ∧ ∃ taken, l.run.tokens = taken ++ c.rest ∧ c.stop = l.run.stop := by
  induction h with
  | start => exact ⟨Cursor.ofRun_isProper l, [], rfl, rfl⟩
  | @read α rule c d a _ hRead ih =>
      obtain ⟨hProper, taken, hTokens, hStop⟩ := ih
      obtain ⟨word, hTakes, -⟩ := Rule.reads_of_isProper hProper hRead
      refine ⟨hTakes.isProper hProper, taken ++ word, ?_, hTakes.stop_eq.trans hStop⟩
      rw [hTokens, hTakes.rest_eq, List.append_assoc]

/-! ## Rounds -/

section

variable {α : Type}

/-- As `goType`, where types within types are read down to the depth `rounds`; what is deeper is left to
`exhausted`. -/
def typeWithin (exhausted : Parser GoType) : Nat → Parser GoType
  | 0 => exhausted
  | rounds + 1 => typeForm (typeWithin exhausted rounds)

/-- As `manyWhile`, in `rounds` rounds; what comes after them is left to `exhausted`. -/
def manyWithin (exhausted : Parser (List α)) (more : TokenKind → Bool) (item : Parser α) :
    Nat → Parser (List α)
  | 0 => exhausted
  | rounds + 1 => do
    if more (← kind) then
      let first ← item
      let others ← manyWithin exhausted more item rounds
      return first :: others
    else return []

/-- As `commaList`, in `rounds` rounds; what comes after them is left to `exhausted`. -/
def commaListWithin (exhausted : Parser (List α)) (close : TokenKind) (item : Parser α) :
    Nat → Parser (List α)
  | 0 => exhausted
  | rounds + 1 => do
    let first ← item
    if (← kind) = .comma then
      let _ ← take
      if (← kind) = close then return [first]
      else
        let others ← commaListWithin exhausted close item rounds
        return first :: others
    else return [first]

variable {n rounds : Nat} {exhausted : Parser (List α)} {item : Parser α} {c : Cursor}

theorem abreast_typeWithin (V : SpanRelation) (exhausted : Parser GoType) (n : Nat) :
    Abreast V n (typeWithin exhausted n) goType (EqUpTo V) := by
  induction n with
  | zero => exact fun c _ _ _ hn => absurd hn (Nat.not_lt_zero _)
  | succ n ih =>
      intro c d hPlace hStop hn _
      rw [goType_eq (hPlace.stop.kind_eq ▸ hStop)]
      exact abreast_typeForm ih c d hPlace hStop hn trivial

/-- The depth of a type is less than the number of its tokens. -/
theorem typeWithin_eq (exhausted : Parser GoType) (hc : c.stop.kind = .endOfSource)
    (hLess : c.rest.length < n) : typeWithin exhausted n c = goType c := by
  have hBoth := (abreast_typeWithin (.ofMerges (fun _ _ => rfl : Merges id)) exhausted n).inStep
  obtain ⟨hSame, -⟩ := hBoth c hc hLess trivial
  rw [Spanned.respan_id, Spanned.respan_id] at hSame
  exact hSame.symm

/-- Items that take a token at least are fewer than the tokens. -/
theorem manyWithin_eq (more : TokenKind → Bool) (hItem : ∀ m, Reads m item fun _ w _ => w ≠ [])
    (hc : c.IsProper) (hLess : c.rest.length < rounds) :
    manyWithin exhausted more item rounds c = manyWhile more item c := by
  induction rounds generalizing c with
  | zero => exact absurd hLess (Nat.not_lt_zero _)
  | succ rounds ih =>
      rw [manyWhile]
      change (if more c.kind then (do
        let first ← item
        let others ← manyWithin exhausted more item rounds
        return first :: others) else pure [] : Parser (List α)) c = _
      by_cases hMore : more c.kind = true
      · rw [if_pos hMore, if_pos hMore]
        cases hFirst : item c with
        | error e => exact bind_error hFirst
        | ok result =>
            obtain ⟨first, next⟩ := result
            obtain ⟨word, hTakes, hNe⟩ := hItem _ c first next hc (Nat.lt_succ_self _) trivial hFirst
            have hLength := hTakes.length_eq
            have hPos := List.length_pos_iff.2 hNe
            have hOthers := @ih next (hTakes.isProper hc) (by omega)
            rw [bind_ok hFirst]
            dsimp only
            rw [dif_pos (by omega), ← hOthers]
            cases hTail : manyWithin exhausted more item rounds next with
            | error e => exact bind_error hTail
            | ok result => exact bind_ok hTail
      · rw [if_neg hMore, if_neg hMore]
        rfl

/-- A round of a list with commas. -/
private theorem commaListWithin_succ {close : TokenKind} {first : α} {next : Cursor}
    (hFirst : item c = .ok (first, next)) :
    commaListWithin exhausted close item (rounds + 1) c =
      if next.kind = .comma then
        if next.advance.kind = close then .ok ([first], next.advance)
        else (commaListWithin exhausted close item rounds next.advance).map
          fun (others, last) => (first :: others, last)
      else .ok ([first], next) := by
  refine (bind_ok hFirst).trans ?_
  change (if next.kind = .comma then (do
    let _ ← take
    if (← kind) = close then return [first]
    else
      let others ← commaListWithin exhausted close item rounds
      return first :: others) else pure [first] : Parser (List α)) next = _
  by_cases hComma : next.kind = .comma
  · rw [if_pos hComma, if_pos hComma]
    change (if next.advance.kind = close then pure [first] else (do
      let others ← commaListWithin exhausted close item rounds
      return first :: others) : Parser (List α)) next.advance = _
    by_cases hClose : next.advance.kind = close
    · rw [if_pos hClose, if_pos hClose]
      rfl
    · rw [if_neg hClose, if_neg hClose]
      cases hTail : commaListWithin exhausted close item rounds next.advance with
      | error e => exact bind_error hTail
      | ok result => exact bind_ok hTail
  · rw [if_neg hComma, if_neg hComma]
    rfl

theorem commaListWithin_eq (close : TokenKind) (hItem : ∀ m, Reads m item fun _ w _ => w ≠ [])
    (hc : c.IsProper) (hLess : c.rest.length < rounds) :
    commaListWithin exhausted close item rounds c = commaList close item c := by
  induction rounds generalizing c with
  | zero => exact absurd hLess (Nat.not_lt_zero _)
  | succ rounds ih =>
      rw [commaList]
      cases hFirst : item c with
      | error e => exact bind_error hFirst
      | ok result =>
          obtain ⟨first, next⟩ := result
          obtain ⟨word, hTakes, hNe⟩ := hItem _ c first next hc (Nat.lt_succ_self _) trivial hFirst
          have hPos := List.length_pos_iff.2 hNe
          obtain ⟨comma, hAdvance, -⟩ := reads_take_any next next.current next.advance
            (hTakes.isProper hc) (Nat.lt_succ_self _) trivial rfl
          have hLength := hTakes.length_eq
          have hShorter := hAdvance.length_eq
          have hOthers := @ih next.advance (hAdvance.isProper (hTakes.isProper hc)) (by omega)
          rw [commaListWithin_succ hFirst]
          dsimp only
          rw [dif_pos (by omega), ← hOthers]

/-- At `c` the lists of what the rule reads are read in `rounds` rounds: those with a separator before each
item, those with the end of a statement behind each item, and those with commas between the items. -/
def ListsWithin (rule : Rule α) (rounds : Nat) (c : Cursor) : Prop :=
  ∀ exhausted,
    (∀ more, manyWithin exhausted more (do let _ ← take; rule.reader) rounds c =
      manyWhile more (do let _ ← take; rule.reader) c) ∧
    (∀ more, manyWithin exhausted more (do let a ← rule.reader; statementEnd; return a) rounds c =
      manyWhile more (do let a ← rule.reader; statementEnd; return a) c) ∧
    ∀ close, commaListWithin exhausted close rule.reader rounds c = commaList close rule.reader c

theorem listsWithin_of_takesToken {rule : Rule α} (hRule : rule.takesToken) (hc : c.IsProper)
    (hLess : c.rest.length < rounds) : ListsWithin rule rounds c := by
  have hItem (m : Nat) : Reads m rule.reader fun _ w _ => w ≠ [] := by
    intro c a d hc hm hs hRun
    obtain ⟨word, hTakes, hNe⟩ := rule.reads m c a d hc (Nat.lt_succ_of_lt hm) hs hRun
    exact ⟨word, hTakes, hNe hRule⟩
  have hSeparated (m : Nat) : Reads m (do let _ ← take; rule.reader) fun _ w _ => w ≠ [] :=
    reads_take_any.bind (fun _ => hItem m)
      fun _ _ u _ _ _ hv => List.append_ne_nil_of_right_ne_nil u hv
  have hEnded (m : Nat) : Reads m (do let a ← rule.reader; statementEnd; return a)
      fun _ w _ => w ≠ [] :=
    (hItem m).bind (V := fun _ _ _ _ => True)
      (fun _ => reads_statementEnd.bind_pure fun _ _ _ _ => trivial)
      fun _ _ _ v _ hu _ => List.append_ne_nil_of_left_ne_nil hu v
  intro exhausted
  refine ⟨fun more => ?_, fun more => ?_, fun close => ?_⟩
  · exact manyWithin_eq more hSeparated hc hLess
  · exact manyWithin_eq more hEnded hc hLess
  · exact commaListWithin_eq close hItem hc hLess

end

/-- The end of the source is the last token of a run and no other. From each place of the run the rules only
go on, and those that take a token do so. More rounds than there are tokens to come are never exhausted, by
the types within types or by the items of a list. -/
theorem progress_of_reached (l : Lexer) :
    (l.run.stop.kind = .endOfSource ∧ ∀ t ∈ l.run.tokens, t.kind ≠ .endOfSource) ∧
    ∀ c, Reached l.run c → (∃ taken, l.run.tokens = taken ++ c.rest ∧ c.stop = l.run.stop) ∧
      (∀ α (rule : Rule α) a d, rule.reader c = .ok (a, d) →
        ∃ word, c.rest = word ++ d.rest ∧ (rule.takesToken → word ≠ [])) ∧
      ∀ rounds, c.rest.length < rounds →
        (∀ exhausted, typeWithin exhausted rounds c = goType c) ∧
        ∀ α (rule : Rule α), rule.takesToken → ListsWithin rule rounds c := by
  refine ⟨⟨l.run_stop_kind, l.run_tokens_kind⟩, fun c hc => ?_⟩
  obtain ⟨hProper, hWithin⟩ := hc.within
  refine ⟨hWithin, ?_, ?_⟩
  · intro α rule a d hRead
    obtain ⟨word, hTakes, hNe⟩ := Rule.reads_of_isProper hProper hRead
    exact ⟨word, hTakes.rest_eq, hNe⟩
  · intro rounds hLess
    refine ⟨fun exhausted => typeWithin_eq exhausted hProper.stop_kind hLess, ?_⟩
    intro α rule hRule
    exact listsWithin_of_takesToken hRule hProper hLess

end GoTemplate.Parser
