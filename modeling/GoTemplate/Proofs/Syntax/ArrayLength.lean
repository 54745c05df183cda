import GoTemplate.Proofs.Syntax.TypeSource

/-!
Square brackets behind the name of a declared type. They may hold the length of an array or type
parameters, and a look at some tokens decides between them. A name and `*` with operands behind it is a
length. A name and one group in round brackets is a type parameter, whether or not the group holds a
type.
-/

namespace GoTemplate

open Brackets TokenKind

/-- The tokens of a source file with one declaration, that of a type with square brackets behind its
name. -/
def subscriptedTokens (package name : Text) (ending : Token) (inner type : List Token) :
    List Token :=
  (keyword .package).token :: ⟨.identifier, package, .none⟩ :: ending :: (keyword .type).token ::
    ⟨.identifier, name, .none⟩ :: (opening .square).token :: (inner ++ (closing .square).token :: type)

/-- The tokens of a name with one group in round brackets behind it. -/
def callTokens (n : Text) (args : List Token) : List Token :=
  ⟨.identifier, n, .none⟩ :: (opening .round).token :: (args ++ [(closing .round).token])

theorem callTokens_append (n : Text) (args ts : List Token) : callTokens n args ++ ts =
    ⟨.identifier, n, .none⟩ :: (opening .round).token :: (args ++ (closing .round).token :: ts) := by
  simp [callTokens]

/-- The source file with the declaration of one type, without places. -/
def SourceFile.ofType (package name : Text) (params : List TypeParam) (type : GoType) : SourceFile :=
  ⟨⟨package, .none⟩, [.types ⟨false, [⟨⟨name, .none⟩, params, false, type, .none⟩], .none⟩], .none⟩

/-- Where balanced tokens hold no comma, the search for one goes on behind them. -/
theorem Brackets.hasComma_append_of_ne {word : List Token} (h : Balanced word)
    (hComma : ∀ t ∈ word, t.kind ≠ .comma) (depth : Nat) (others : List Token) :
    hasComma depth (word ++ others) = hasComma depth others := by
  induction h generalizing depth others with
  | nil => rfl
  | @plain t word hPlain _ ih =>
      obtain ⟨ht, hWord⟩ := List.forall_mem_cons.1 hComma
      rw [List.cons_append, hasComma]
      split
      · exact absurd ‹_› (hPlain.1 _)
      · exact absurd ‹_› (hPlain.2 _)
      · exact absurd ‹_› ht
      · exact ih hWord depth others
  | @group opener closer b inner word hOpener _ hCloser _ ihInner ihRest =>
      obtain ⟨-, hTail⟩ := List.forall_mem_cons.1 hComma
      obtain ⟨hInner, hTail⟩ := List.forall_mem_append.1 hTail
      obtain ⟨-, hWord⟩ := List.forall_mem_cons.1 hTail
      simp only [List.cons_append, List.append_assoc, hasComma, hOpener]
      rw [ihInner hInner]
      simp only [hasComma, hCloser]
      simpa using ihRest hWord depth others

/-- The balanced tokens in front of a closing bracket are one word only. -/
theorem Brackets.Balanced.eq_of_closing {u v ts us : List Token} {b c : Bracket} (hu : Balanced u)
    (hv : Balanced v) (hSplit : u ++ ts = v ++ us) (ht : nextKind ts = .closing b)
    (hs : nextKind us = .closing c) : u = v := by
  rcases List.append_eq_append_iff.1 hSplit with ⟨more, rfl, rfl⟩ | ⟨more, rfl, rfl⟩
  · rw [(hu.of_append_left hv).eq_nil_of_closing ht, List.append_nil]
  · rw [(hv.of_append_left hu).eq_nil_of_closing hs, List.append_nil]

namespace Parser

variable {name : Text} {inner tokens rest ws : List Token} {type : GoType} {params : List TypeParam}
  {spec : TypeSpec}

/-! ## Reading off a declaration -/

/-- What is behind a type that ends its source. -/
def EndsSource (rest : List Token) : Prop :=
  rest = [] ∨ ∃ s, s.kind = .semicolon ∧ s.span = .none ∧ rest = [s]

theorem endsSource_of_eat {c : Cursor} {eaten : Bool} (hBare : IsBare rest)
    (hEat : eat .semicolon (.ofTokens rest) = .ok (eaten, c)) (hEnd : c.kind = .endOfSource) :
    EndsSource rest := by
  obtain ⟨hEaten, rfl⟩ := eat_eq_ok hEat
  rcases rest with _ | ⟨t, _ | ⟨u, others⟩⟩
  · exact .inl rfl
  · cases eaten with
    | false => exact absurd hEnd (hBare t List.mem_cons_self).1
    | true => exact .inr ⟨t, hEaten.1 rfl, (hBare t List.mem_cons_self).2, rfl⟩
  · cases eaten with
    | false => exact absurd hEnd (hBare t List.mem_cons_self).1
    | true => exact absurd hEnd (hBare u (by simp)).1

/-- The tokens of a source that is one type are read as this type, up to a semicolon behind it. -/
theorem readsOff_of_parse {source : Text} (hTokens : source.tokens? = some tokens)
    (h : GoType.parse source = .ok type) :
    ∃ rest, EndsSource rest ∧ ReadsOff goType tokens (respan Span.erase type) rest := by
  rw [GoType.parse_eq] at h
  obtain ⟨ws, c, hWs, hRun⟩ := ofTokens_of_readSource inStep_wholeType h
  obtain rfl : tokens = ws := Option.some.inj (hTokens.symm.trans hWs)
  have hBare := isBare_of_tokens? hTokens
  obtain ⟨found, c₁, hType, hRun⟩ := bind_eq_ok.1 hRun
  have hProper := Cursor.isProper_ofTokens hBare
  obtain ⟨word, hTakes, -⟩ := reads_goType _ _ _ _ hProper (Nat.lt_succ_self _) trivial hType
  obtain ⟨hSame, -⟩ := eq_ofTokens hBare (abreast_goType (.ofMerges merges_erase) _).inStep hType
  have hSplit : tokens = word ++ c₁.rest := hTakes.rest_eq
  have hBehind : IsBare c₁.rest := (isBare_append.1 (hSplit ▸ hBare)).2
  rw [hSame] at hType hRun
  obtain ⟨eaten, c₂, hEat, hRun⟩ := bind_eq_ok.1 hRun
  obtain ⟨k, c₃, hKind, hRun⟩ := bind_eq_ok.1 hRun
  obtain ⟨rfl, rfl⟩ : c₂.kind = k ∧ c₃ = c₂ := by cases hKind; exact ⟨rfl, rfl⟩
  by_cases hEnd : c₃.kind = .endOfSource
  · rw [if_pos hEnd] at hRun
    cases hRun
    exact ⟨c₁.rest, endsSource_of_eat hBehind hEat hEnd, hType⟩
  · rw [if_neg hEnd] at hRun
    cases hRun

/-- An array with a length of any balanced tokens. -/
theorem readsOff_array (hNe : inner ≠ []) (hBalanced : Balanced inner)
    (hSpan : ∀ w ∈ inner, w.span = .none) (hEllipsis : nextKind inner ≠ .operator .ellipsis)
    (hType : ReadsOff goType tokens type rest) :
    ReadsOff goType ((opening .square).token :: (inner ++ (closing .square).token :: tokens))
      (.array (Text.joinWithSpaces (inner.map Token.text)) type .none) rest := by
  have hOpen : nextKind (inner ++ (closing .square).token :: tokens) ≠ .closing .square :=
    fun hClosing => hNe (hBalanced.eq_nil_of_closing hClosing)
  have hLength : ReadsOff arrayLength (inner ++ (closing .square).token :: tokens)
      (Text.joinWithSpaces (inner.map Token.text)) ((closing .square).token :: tokens) := by
    refine readsOff_kind (nextKind_append _ hNe) ?_
    rw [if_neg hEllipsis]
    exact readsOff_expression hNe hBalanced hSpan rfl
  exact readsOff_goType rfl rfl ((readsOff_take rfl).bind ((readsOff_eat_other hOpen).bind
    (hLength.bind (readsOff_expect.bind (hType.bind (readsOff_spanFrom.bind readsOff_pure))))))

theorem readsOff_typeSpec (hParams : ReadsOff specTypeParams ws params tokens)
    (hAssign : nextKind tokens ≠ .operator .assign) (hType : ReadsOff goType tokens type rest) :
    ReadsOff typeSpec (⟨.identifier, name, .none⟩ :: ws)
      ⟨⟨name, .none⟩, params, false, type, .none⟩ rest :=
  (readsOff_identifier name).bind (hParams.bind ((readsOff_eat_other hAssign).bind
    (hType.bind (readsOff_spanFrom.bind readsOff_pure))))

/-- The declaration of one type up to the end of the source. -/
theorem readsOff_declarations (hSpec : ReadsOff typeSpec (⟨.identifier, name, .none⟩ :: ws) spec rest)
    (hRest : EndsSource rest) :
    ReadsOff declarations ((keyword .type).token :: ⟨.identifier, name, .none⟩ :: ws)
      [.types ⟨false, [spec], .none⟩] [] := by
  have hDecl : ReadsOff declaration ((keyword .type).token :: ⟨.identifier, name, .none⟩ :: ws)
      (.types ⟨false, [spec], .none⟩) rest := by
    refine readsOff_kind (k := .keyword .type) rfl (ReadsOff.map (g := Declaration.types) ?_)
    refine (readsOff_take rfl).bind
      (ReadsOff.bind (a := (false, [spec])) ?_ (readsOff_spanFrom.bind readsOff_pure))
    exact (readsOff_eat_other (by rintro ⟨⟩)).bind (hSpec.bind readsOff_pure)
  have hEnd : ReadsOff statementEnd rest () [] := by
    rcases hRest with rfl | ⟨s, hKind, hSpan, rfl⟩
    · exact readsOff_kind rfl readsOff_pure
    · refine readsOff_kind (k := .semicolon) hKind ?_
      exact (readsOff_take hSpan).bind readsOff_pure
  have hItem : ReadsOff (do let decl ← declaration; statementEnd; return decl)
      ((keyword .type).token :: ⟨.identifier, name, .none⟩ :: ws) (.types ⟨false, [spec], .none⟩) [] :=
    hDecl.bind (hEnd.bind readsOff_pure)
  have hLess : (Cursor.ofTokens []).rest.length < (Cursor.ofTokens
      ((keyword .type).token :: ⟨.identifier, name, .none⟩ :: ws)).rest.length := Nat.zero_lt_succ _
  rw [ReadsOff, declarations, statements, manyWhile, if_pos (by rw [kind_ofTokens]; rfl), hItem]
  dsimp only
  rw [dif_pos hLess, manyWhile]
  rfl

/-! ## The look behind the name -/

/-- The tokens of a product do not open type parameters, unless its second operand starts as a type does
or a comma comes. -/
theorem opensTypeParams_product {n star operand : Token} {operands : List Token} (rest : List Token)
    (hStar : star.kind = .operator .mul) (hOperand : startsTypeLiteral operand.kind = false)
    (hBalanced : Balanced (n :: star :: operand :: operands))
    (hComma : ∀ t ∈ n :: star :: operand :: operands, t.kind ≠ .comma) :
    opensTypeParams (.ofTokens ((opening .square).token ::
      (n :: star :: operand :: operands ++ (closing .square).token :: rest))) = false := by
  have hNone :
      hasComma 0 (n :: star :: operand :: operands ++ (closing .square).token :: rest) = false := by
    rw [hasComma_append_of_ne hBalanced hComma, hasComma]
    rfl
  simp only [List.cons_append] at hNone
  simp [opensTypeParams, Cursor.kindAt, Cursor.ofTokens, hStar, hOperand, hNone]

theorem opensTypeParams_group {n opener : Token} (hName : n.kind = .identifier)
    (hOpener : opener.kind = .opening .round) :
    opensTypeParams (.ofTokens ((opening .square).token :: n :: opener :: rest)) = true := by
  simp [opensTypeParams, Cursor.kindAt, Cursor.ofTokens, hName, hOpener]

theorem readsOff_sepBy_single {α : Type} {separator : TokenKind} {item : Parser α} {a : α}
    (hItem : ReadsOff item ws a rest) (hRest : nextKind rest ≠ separator) :
    ReadsOff (sepBy separator item) ws [a] rest := by
  have hOthers : ReadsOff (manyWhile (· = separator) (do let _ ← take; item)) rest [] rest := by
    rw [ReadsOff, manyWhile, if_neg (by rw [kind_ofTokens]; simpa using hRest)]
  exact hItem.bind (hOthers.bind readsOff_pure)

/-- A name with one group in round brackets behind it is read as a type parameter, if the group holds a
type. -/
theorem readsOff_typeParams_group {n : Text} {args : List Token} {constraint : GoType}
    (hArgs : ReadsOff goType (args ++ (closing .round).token :: (closing .square).token :: rest) constraint
      ((closing .round).token :: (closing .square).token :: rest)) :
    ReadsOff typeParams ((opening .square).token :: ⟨.identifier, n, .none⟩ :: (opening .round).token ::
        (args ++ (closing .round).token :: (closing .square).token :: rest))
      [⟨[⟨n, .none⟩], [⟨false, .paren constraint .none⟩]⟩] rest := by
  have hGroup : ReadsOff goType ((opening .round).token ::
      (args ++ (closing .round).token :: (closing .square).token :: rest))
      (.paren constraint .none) ((closing .square).token :: rest) :=
    readsOff_goType rfl rfl ((readsOff_take rfl).bind (hArgs.bind
      (readsOff_expect.bind (readsOff_spanFrom.bind readsOff_pure))))
  have hTerm : ReadsOff (term goType) ((opening .round).token ::
      (args ++ (closing .round).token :: (closing .square).token :: rest))
      ⟨false, .paren constraint .none⟩ ((closing .square).token :: rest) :=
    (readsOff_eat_other (by rintro ⟨⟩)).bind (hGroup.bind readsOff_pure)
  have hParam : ReadsOff typeParam (⟨.identifier, n, .none⟩ :: (opening .round).token ::
      (args ++ (closing .round).token :: (closing .square).token :: rest))
      ⟨[⟨n, .none⟩], [⟨false, .paren constraint .none⟩]⟩ ((closing .square).token :: rest) :=
    (readsOff_sepBy_single (readsOff_identifier n) (by rintro ⟨⟩)).bind
      ((readsOff_sepBy_single hTerm (by rintro ⟨⟩)).bind readsOff_pure)
  exact readsOff_expect.bind (ReadsOff.bind (commaList_last hParam (by rintro ⟨⟩))
    (readsOff_expect.bind readsOff_pure))

theorem readsOff_opens {opens : Bool} (h : opensTypeParams (.ofTokens ws) = opens) :
    ReadsOff (look opensTypeParams) ws opens ws := by
  subst h
  rfl

/-- No type starts with the sign of an alias. -/
theorem ne_assign_of_readsOff (h : ReadsOff goType tokens type rest) :
    nextKind tokens ≠ .operator .assign := by
  intro hAssign
  rw [ReadsOff, goType_eq rfl] at h
  obtain ⟨start, c, hHere, h⟩ := bind_eq_ok.1 h
  cases hHere
  obtain ⟨k, d, hKind, h⟩ := bind_eq_ok.1 h
  obtain rfl : k = .operator .assign := by rw [← hAssign, ← kind_ofTokens]; cases hKind; rfl
  cases h

/-! ## Where reading succeeds -/

/-- From the tokens `ws` on the reader finds no error. -/
def SucceedsOn {α : Type} (p : Parser α) (ws : List Token) : Prop :=
  ∃ a c, p (.ofTokens ws) = .ok (a, c)

namespace SucceedsOn

variable {α β : Type} {p : Parser α} {f : α → Parser β} {a : α}

theorem first (h : SucceedsOn (p >>= f) ws) : SucceedsOn p ws := by
  obtain ⟨b, c, h⟩ := h
  obtain ⟨a, d, hFirst, -⟩ := bind_eq_ok.1 h
  exact ⟨a, d, hFirst⟩

theorem of_map {g : α → β} (h : SucceedsOn (g <$> p) ws) : SucceedsOn p ws := by
  obtain ⟨b, c, h⟩ := h
  obtain ⟨a, hRun, -⟩ := map_eq_ok.1 h
  exact ⟨a, c, hRun⟩

theorem behind (hp : ReadsOff p ws a rest) (h : SucceedsOn (p >>= f) ws) : SucceedsOn (f a) rest := by
  obtain ⟨b, c, h⟩ := h
  rw [bind_ok hp] at h
  exact ⟨b, c, h⟩

theorem behind_kind {f : TokenKind → Parser β} {k : TokenKind} (hk : nextKind ws = k)
    (h : SucceedsOn (kind >>= f) ws) : SucceedsOn (f k) ws := by
  subst hk
  rw [← kind_ofTokens]
  exact h

theorem of_manyWhile {more : TokenKind → Bool} {item : Parser α} (hMore : more (nextKind ws) = true)
    (h : SucceedsOn (manyWhile more item) ws) : SucceedsOn item ws := by
  obtain ⟨as, c, h⟩ := h
  rw [manyWhile, kind_ofTokens, if_pos hMore] at h
  cases hItem : item (.ofTokens ws) with
  | error e => rw [hItem] at h; cases h
  | ok result => exact ⟨result.1, result.2, hItem⟩

theorem of_commaList {close : TokenKind} {item : Parser α} (h : SucceedsOn (commaList close item) ws) :
    SucceedsOn item ws := by
  obtain ⟨as, c, h⟩ := h
  rw [commaList] at h
  cases hItem : item (.ofTokens ws) with
  | error e => rw [hItem] at h; cases h
  | ok result => exact ⟨result.1, result.2, hItem⟩

/-- A declaration of a type is read first. -/
theorem of_declarations
    (h : SucceedsOn declarations ((keyword .type).token :: ⟨.identifier, name, .none⟩ :: ws)) :
    SucceedsOn typeSpec (⟨.identifier, name, .none⟩ :: ws) := by
  have hDecl := (of_manyWhile rfl h).first
  have hGroup : SucceedsOn (specGroup typeSpec)
      ((keyword .type).token :: ⟨.identifier, name, .none⟩ :: ws) :=
    (behind_kind (k := .keyword .type) rfl hDecl).of_map
  have hSpecs := (hGroup.behind (readsOff_take rfl)).first
  exact (hSpecs.behind (readsOff_eat_other (by rintro ⟨⟩))).first

/-- What is in round brackets behind the name of a type parameter is a type. -/
theorem of_typeSpec_group {n : Text} (h : SucceedsOn typeSpec (⟨.identifier, name, .none⟩ ::
      (opening .square).token :: ⟨.identifier, n, .none⟩ :: (opening .round).token :: ws)) :
    ∃ constraint c, goType (.ofTokens ws) = .ok (constraint, c) ∧ c.kind = .closing .round := by
  have hLook := (h.behind (readsOff_identifier name)).first
  have hOpens : ReadsOff (look opensTypeParams) ((opening .square).token :: ⟨.identifier, n, .none⟩ ::
      (opening .round).token :: ws) true _ := readsOff_opens (opensTypeParams_group rfl rfl)
  rw [specTypeParams] at hLook
  have hParams := hLook.behind hOpens
  rw [if_pos rfl] at hParams
  have hParam := (hParams.behind readsOff_expect).first.of_commaList
  have hTerms := (hParam.behind (readsOff_sepBy_single (readsOff_identifier n) (by rintro ⟨⟩))).first
  obtain ⟨type, c, hType⟩ := (hTerms.first.behind (readsOff_eat_other (by rintro ⟨⟩))).first
  rw [goType_eq rfl] at hType
  obtain ⟨constraint, d, hConstraint, hClose⟩ := bind_eq_ok.1 (show
    (goType >>= fun inner => expect (.closing .round) >>= fun _ => do
      return GoType.paren inner (← spanFrom .none)) (.ofTokens ws) = .ok (type, c) from hType)
  obtain ⟨_, e, hExpect, -⟩ := bind_eq_ok.1 hClose
  exact ⟨constraint, d, hConstraint, (expect_eq_ok hExpect).1⟩

end SucceedsOn

/-- Where a type is read up to the closing bracket, it is what the brackets hold, whatever comes after
them. -/
theorem readsOff_of_closing {args more : List Token} {closer : Token} {b : Bracket} {c : Cursor}
    (hBare : IsBare (args ++ closer :: more)) (hBalanced : Balanced args)
    (hCloser : closer.kind = .closing b)
    (h : goType (.ofTokens (args ++ closer :: more)) = .ok (type, c)) (hKind : c.kind = .closing b)
    (others : List Token) : ReadsOff goType (args ++ closer :: others) type (closer :: others) := by
  have hProper := Cursor.isProper_ofTokens hBare
  obtain ⟨word, hTakes, hWord⟩ := reads_goType_phrase _ _ _ _ hProper (Nat.lt_succ_self _) trivial h
  have hSplit : args ++ closer :: more = word ++ c.rest := hTakes.rest_eq
  rw [kind_eq (hTakes.isProper hProper)] at hKind
  obtain rfl : args = word := hBalanced.eq_of_closing hWord.balanced hSplit hCloser hKind
  have hRest : c.rest = closer :: more := (List.append_cancel_left hSplit).symm
  obtain ⟨hSame, -⟩ := eq_ofTokens hBare (abreast_goType (.ofMerges merges_erase) _).inStep h
  have hRun := hTakes.run_eq closer others (by rw [hRest]; rfl)
  rw [hSame] at hRun
  exact hRun

end Parser

namespace SourceFile

open GoTemplate.Parser

variable {source : Text} {package name : Text} {ending : Token} {inner tokens rest ws : List Token}
  {type : GoType} {params : List TypeParam}

theorem parse_ofType
    (hTokens : source.tokens? = some ((keyword .package).token :: ⟨.identifier, package, .none⟩ :: ending ::
      (keyword .type).token :: ⟨.identifier, name, .none⟩ :: ws))
    (hEnding : ending.kind = .semicolon) (hParams : ReadsOff specTypeParams ws params tokens)
    (hAssign : nextKind tokens ≠ .operator .assign) (hType : ReadsOff goType tokens type rest)
    (hRest : EndsSource rest) :
    ∃ file, parse source = .ok file ∧ respan Span.erase file = .ofType package name params type := by
  have hBare : IsBare ([_, _, _] ++ _) := isBare_of_tokens? hTokens
  obtain ⟨hClause, hWs⟩ := isBare_append.1 hBare
  have hSpec : ReadsOff typeSpec (⟨.identifier, name, .none⟩ :: ws)
      ⟨⟨name, .none⟩, params, false, type, .none⟩ rest := readsOff_typeSpec hParams hAssign hType
  have hDecls := readsOff_declarations hSpec hRest
  exact parse_of_sourceFile hTokens ((sourceFile_eq_ok rfl rfl hEnding hClause).2
    ⟨[], _, _, importSection_of_ne hWs (by rintro ⟨⟩), hDecls, rfl⟩)

/-- Brackets that do not open type parameters hold the length of an array. -/
theorem parse_ofType_array
    (hSource : source.tokens? = some (subscriptedTokens package name ending inner tokens))
    (hEnding : ending.kind = .semicolon)
    (hLook : opensTypeParams
      (.ofTokens ((opening .square).token :: (inner ++ (closing .square).token :: tokens))) = false)
    (hNe : inner ≠ []) (hBalanced : Balanced inner) (hEllipsis : nextKind inner ≠ .operator .ellipsis)
    (hType : ReadsOff goType tokens type rest) (hRest : EndsSource rest) :
    ∃ file, parse source = .ok file ∧ respan Span.erase file = .ofType package name []
      (.array (Text.joinWithSpaces (inner.map Token.text)) type .none) := by
  have hBare := isBare_of_tokens? hSource
  have hSpan (w : Token) (hw : w ∈ inner) : w.span = .none :=
    (hBare w (by simp [subscriptedTokens, hw])).2
  have hParams : ReadsOff specTypeParams
      ((opening .square).token :: (inner ++ (closing .square).token :: tokens)) [] _ :=
    (readsOff_opens hLook).bind readsOff_pure
  exact parse_ofType hSource hEnding hParams (by rintro ⟨⟩)
    (readsOff_array hNe hBalanced hSpan hEllipsis hType) hRest

theorem isBare_call {n : Text} {args : List Token}
    (hSource : source.tokens? = some (subscriptedTokens package name ending (callTokens n args) tokens)) :
    IsBare (args ++ (closing .round).token :: (closing .square).token :: tokens) := by
  have hBare := isBare_of_tokens? hSource
  rw [subscriptedTokens, callTokens_append] at hBare
  exact fun t ht => hBare t (List.mem_append_right [_, _, _, _, _, _, _, _] ht)

/-- Where a file with a call in the square brackets is read, the call has a type in its own brackets. -/
theorem readsOff_of_parse_call {n : Text} {args : List Token} {file : SourceFile}
    (hSource : source.tokens? = some (subscriptedTokens package name ending (callTokens n args) tokens))
    (hEnding : ending.kind = .semicolon) (hArgs : Balanced args) (h : parse source = .ok file) :
    ∃ constraint, ∀ others, ReadsOff goType (args ++ (closing .round).token :: others) constraint
      ((closing .round).token :: others) := by
  obtain ⟨ws, c, hWs, hRun⟩ := sourceFile_of_parse h
  obtain rfl : subscriptedTokens package name ending (callTokens n args) tokens = ws :=
    Option.some.inj (hSource.symm.trans hWs)
  have hWhole : IsBare ([_, _, _] ++ _) := isBare_of_tokens? hSource
  obtain ⟨hClause, hSpec⟩ := isBare_append.1 hWhole
  obtain ⟨imports, c₁, decls, hImports, hDecls, -⟩ :=
    (sourceFile_eq_ok rfl rfl hEnding hClause).1 hRun
  obtain ⟨-, rfl⟩ := Prod.mk.inj (Except.ok.inj
    (hImports.symm.trans (importSection_of_ne hSpec (by rintro ⟨⟩))))
  have hTypeSpec := SucceedsOn.of_declarations ⟨decls, c, hDecls⟩
  rw [callTokens_append] at hTypeSpec
  obtain ⟨constraint, d, hConstraint, hKind⟩ := SucceedsOn.of_typeSpec_group hTypeSpec
  exact ⟨constraint, readsOff_of_closing (isBare_call hSource) hArgs rfl hConstraint hKind⟩

/-- A call with a type in its brackets is read as a type parameter. -/
theorem parse_ofType_call {n : Text} {args : List Token} {constraint : GoType}
    (hSource : source.tokens? = some (subscriptedTokens package name ending (callTokens n args) tokens))
    (hEnding : ending.kind = .semicolon)
    (hArgs : ∀ others, ReadsOff goType (args ++ (closing .round).token :: others) constraint
      ((closing .round).token :: others))
    (hType : ReadsOff goType tokens type rest) (hRest : EndsSource rest) :
    ∃ file, parse source = .ok file ∧ respan Span.erase file =
      .ofType package name [⟨[⟨n, .none⟩], [⟨false, .paren constraint .none⟩]⟩] type := by
  have hParams : ReadsOff specTypeParams
      ((opening .square).token :: (callTokens n args ++ (closing .square).token :: tokens))
      [⟨[⟨n, .none⟩], [⟨false, .paren constraint .none⟩]⟩] tokens := by
    rw [callTokens_append]
    refine (readsOff_opens (opensTypeParams_group rfl rfl)).bind ?_
    rw [if_pos rfl]
    exact readsOff_typeParams_group (hArgs _)
  exact parse_ofType hSource hEnding hParams (ne_assign_of_readsOff hType) hType hRest

/-- **The length of an array may be a product, but no call.** Let `inner` be balanced tokens without a
comma and without a token that only a type starts with. A name, `*` and operands are read as the length
of an array. A name with one group in round brackets is never read so. It is taken for a type parameter
with the group as its constraint, and the source is accepted exactly where the group holds a type. -/
theorem parse_subscripted {typeSource : Text}
    (hSource : source.tokens? = some (subscriptedTokens package name ending inner tokens))
    (hEnding : ending.kind = .semicolon)
    (hTokens : typeSource.tokens? = some tokens) (hType : GoType.parse typeSource = .ok type)
    (hBalanced : Balanced inner)
    (hInner : ∀ t ∈ inner, t.kind ≠ .comma ∧ startsTypeLiteral t.kind = false) :
    (∀ n star operands, inner = n :: star :: operands → n.kind = .identifier →
      star.kind = .operator .mul → operands ≠ [] →
      ∃ file, parse source = .ok file ∧ respan Span.erase file = .ofType package name []
        (.array (Text.joinWithSpaces (inner.map Token.text)) (respan Span.erase type) .none)) ∧
    (∀ n args, inner = callTokens n args → Balanced args →
      ((∃ file, parse source = .ok file) ↔
        ∃ constraint, ReadsOff goType (args ++ [(closing .round).token]) constraint
          [(closing .round).token]) ∧
      ∀ file, parse source = .ok file → ∃ constraint, respan Span.erase file = .ofType package name
        [⟨[⟨n, .none⟩], [⟨false, .paren constraint .none⟩]⟩] (respan Span.erase type)) := by
  obtain ⟨rest, hRest, hRead⟩ := readsOff_of_parse hTokens hType
  constructor
  · rintro n star operands rfl hName hStar hNe
    obtain ⟨operand, operands, rfl⟩ := List.exists_cons_of_ne_nil hNe
    have hOperand := (hInner operand (by simp)).2
    have hLook := opensTypeParams_product tokens hStar hOperand hBalanced fun t ht => (hInner t ht).1
    have hEllipsis : n.kind ≠ .operator .ellipsis := by rw [hName]; rintro ⟨⟩
    exact parse_ofType_array hSource hEnding hLook (List.cons_ne_nil _ _) hBalanced hEllipsis hRead hRest
  · rintro n args rfl hArgs
    refine ⟨⟨?_, ?_⟩, fun file hFile => ?_⟩
    · rintro ⟨file, hFile⟩
      obtain ⟨constraint, hConstraint⟩ := readsOff_of_parse_call hSource hEnding hArgs hFile
      exact ⟨constraint, hConstraint []⟩
    · rintro ⟨constraint, hConstraint⟩
      have hBare := isBare_call hSource
      rw [List.append_cons] at hBare
      have hGroup := readsOff_of_closing (isBare_append.1 hBare).1 hArgs rfl hConstraint rfl
      obtain ⟨file, hFile, -⟩ := parse_ofType_call hSource hEnding hGroup hRead hRest
      exact ⟨file, hFile⟩
    · obtain ⟨constraint, hGroup⟩ := readsOff_of_parse_call hSource hEnding hArgs hFile
      obtain ⟨found, hFound, hErased⟩ := parse_ofType_call hSource hEnding hGroup hRead hRest
      obtain rfl : file = found := Except.ok.inj (hFile.symm.trans hFound)
      exact ⟨constraint, hErased⟩

/-- A product with a sum in round brackets. -/
theorem parse_subscripted_product : ∃ type file, GoType.parse "[]int".toList = .ok type ∧
    parse "package p; type A [N*(M+1)] []int".toList = .ok file ∧ respan Span.erase file =
      .ofType "p".toList "A".toList [] (.array "N * ( M + 1 )".toList (respan Span.erase type) .none) := by
  let inner : List Token := [⟨.identifier, "N".toList, .none⟩, (TokenKind.operator .mul).token,
    (opening .round).token, ⟨.identifier, "M".toList, .none⟩, (TokenKind.operator .add).token,
    ⟨.literal .int, "1".toList, .none⟩, (closing .round).token]
  let elem : List Token := [(opening .square).token, (closing .square).token,
    ⟨.identifier, "int".toList, .none⟩, ⟨.semicolon, "\n".toList, .none⟩]
  have hSource : Text.tokens? "package p; type A [N*(M+1)] []int".toList = some (subscriptedTokens
      "p".toList "A".toList ⟨.semicolon, ";".toList, .none⟩ inner elem) := by
    decide +kernel
  have hTokens : Text.tokens? "[]int".toList = some elem := by decide +kernel
  have hText : (GoType.parse "[]int".toList).toOption.map GoType.text = some "[ ] int".toList := by
    decide +kernel
  cases hType : GoType.parse "[]int".toList with
  | error e => rw [hType] at hText; cases hText
  | ok type =>
      obtain ⟨file, hFile, hErased⟩ := (parse_subscripted hSource rfl hTokens hType
        (balanced_of_openAfter (by decide)) (by decide)).1 _ _ _ rfl rfl rfl (by decide)
      exact ⟨type, file, rfl, hFile, hErased⟩

/-- A call with a number is no type, so that an array with this length is refused. -/
theorem parse_subscripted_call : ¬∃ file, parse "package p; type A [N(3)] int".toList = .ok file := by
  rintro ⟨file, h⟩
  have hAny := (@exists_parse_iff "package p; type A [N(3)] int".toList fun _ => true).1 ⟨file, h, rfl⟩
  revert hAny
  decide +kernel

end SourceFile

end GoTemplate
