import GoTemplate.Proofs.Syntax.TypeReading

/-!
Reading the words of signatures. The look-aheads in a list of parameters decide among the words as they
did in the source: behind the name of a parameter there comes the first token of a type, which is nothing
that may follow a type.
-/

namespace GoTemplate

open Brackets TokenKind

/-! ## Behind a name -/

namespace GoType

/-- What follows on the first name of a named type: a point, type arguments, or what follows the type. -/
theorem exists_behind_name {package : Option Identifier} {name : Identifier} {args : List GoType}
    {span : Span} (hFormed : (named package name args span).IsFormed)
    (hArgs : ∀ arg ∈ args, Balanced (wordTokens arg.words)) (rest : List Token) :
    ∃ t ws, wordTokens (named package name args span).words ++ rest = t :: ws ∧
      t.kind = .identifier ∧ (package ≠ none → nextKind ws = .dot) ∧
      (package = none → args ≠ [] →
        nextKind ws = .opening .square ∧ kindAfter 0 ws = nextKind rest) ∧
      (package = none → args = [] → ws = rest) := by
  rw [words_named]
  cases package with
  | some package =>
      rw [packageWords, List.cons_append, wordTokens_name _ (hFormed.1 package rfl), List.cons_append,
        List.cons_append, wordTokens_sign _ rfl]
      exact ⟨_, _, rfl, rfl, fun _ => rfl, by simp, by simp⟩
  | none =>
      rw [packageWords, List.nil_append, wordTokens_name _ hFormed.2, List.cons_append]
      refine ⟨_, _, rfl, rfl, by simp, fun _ hNe => ?_, fun _ hNil => ?_⟩
      · rw [bracketedIfAny, if_neg (by simpa using hNe)]
        refine ⟨?_, Parser.kindAfter_args hArgs rest⟩
        rw [wordTokens_bracketed]
        rfl
      · rw [hNil]
        rfl

/-- Behind the square brackets that open a type there comes another type. -/
theorem opensType_kindAfter {type : GoType} (h : type.IsLegible)
    (hFirst : type.firstKind = .opening .square) (rest : List Token) :
    (kindAfter 0 (wordTokens type.words ++ rest)).opensType = true := by
  obtain ⟨hFormed, hParts⟩ := h
  have hElem {elem : GoType} (hElem : elem.IsLegible) (inner : List Token) (hInner : Balanced inner) :
      (kindAfter 0 ((opening .square).token ::
        (inner ++ (closing .square).token :: (wordTokens elem.words ++ rest)))).opensType = true := by
    rw [kindAfter_group (b := .square) (c := .square) rfl hInner rfl,
      nextKind_words_append hElem.isFormed]
    exact elem.opensType_firstKind
  cases type with
  | slice elem span =>
      rw [words, wordTokens_sign _ rfl, wordTokens_sign _ rfl]
      exact hElem (hParts elem (by simp [parts])) [] .nil
  | array length elem span =>
      obtain ⟨ws, hWords, -, hBalanced, -⟩ := IsLength.exists_tokens hFormed
      rw [words, wordTokens_sign _ rfl, wordTokens_cons, wordTokens_sign _ rfl, hWords, List.cons_append,
        List.append_assoc, List.cons_append]
      exact hElem (hParts elem (by simp [parts])) ws hBalanced
  | chan direction => cases direction <;> cases hFirst
  | _ => cases hFirst

/-- Only the names of types start with a name. -/
theorem exists_named_of_firstKind {type : GoType} (h : type.firstKind = .identifier) :
    ∃ package name args span, type = named package name args span := by
  cases type with
  | named package name args span => exact ⟨package, name, args, span, rfl⟩
  | chan direction => cases direction <;> cases h
  | _ => cases h

end GoType

/-! ## Parameters -/

/-- What stands for a parameter in a list. A name that is a type by itself is only a name there. -/
def Param.entry (param : Param GoType) : ParamEntry :=
  match param.name, param.type, param.variadic with
  | some name, type, variadic => .named name type variadic
  | none, .named none name [] _, false => .bare name
  | none, type, variadic => .unnamed type variadic

theorem Param.entry_eq_unnamed {type : GoType} {variadic : Bool}
    (h : variadic = false → ∀ name span, type ≠ .named none name [] span) :
    entry ⟨none, type, variadic⟩ = .unnamed type variadic := by
  unfold entry
  split
  · cases ‹none = some _›
  · rename_i hType hVariadic
    exact absurd hType (h hVariadic _ _)
  · rfl

theorem Param.toUnnamed_entry {param : Param GoType} (h : param.name = none) :
    (respan Span.erase param.entry).toUnnamed = respan Span.erase param := by
  obtain ⟨name, type, variadic⟩ := param
  obtain rfl : name = none := h
  unfold entry
  split
  · cases ‹none = some _›
  · rename_i hType hVariadic
    obtain rfl : type = _ := hType
    obtain rfl : variadic = _ := hVariadic
    rfl
  · rfl

theorem Param.isNamed_entry (param : Param GoType) : param.entry.isNamed = param.name.isSome := by
  obtain ⟨name, type, variadic⟩ := param
  cases name with
  | some name => rfl
  | none =>
      unfold entry
      split
      · cases ‹none = some _›
      · rfl
      · rfl

theorem ParamEntry.toNamed_entries {params : List (Param GoType)}
    (h : ∀ param ∈ params, ∃ name, param.name = some name) (opened : Span) :
    ∃ next, toNamed opened (respan Span.erase (params.map Param.entry)) =
      .ok (respan Span.erase params, next) := by
  induction params with
  | nil => exact ⟨none, rfl⟩
  | cons param params ih =>
      obtain ⟨⟨name, hName⟩, hOthers⟩ := List.forall_mem_cons.1 h
      obtain ⟨next, hLater⟩ := ih hOthers
      obtain ⟨_, type, variadic⟩ := param
      obtain rfl : _ = some name := hName
      refine ⟨some (respan Span.erase type), ?_⟩
      rw [List.map_cons, respan_cons, toNamed, hLater]
      rfl

/-- The entries of a list of parameters mean these parameters. -/
theorem IsParamList.resolve_entries {params : List (Param GoType)} (h : IsParamList params)
    (opened : Span) : ParamEntry.resolve opened (respan Span.erase (params.map Param.entry)) =
      .ok (respan Span.erase params) := by
  have hAny : (params.map Param.entry).any ParamEntry.isNamed = params.any (·.name.isSome) := by
    rw [List.any_map]
    congr 1
    exact funext Param.isNamed_entry
  rw [ParamEntry.resolve, ParamEntry.any_isNamed_respan, hAny]
  rcases h with hNone | hSome
  · rw [if_neg (by simpa using hNone)]
    congr 1
    change (List.map _ (List.map _ (List.map _ params))) = List.map _ params
    rw [List.map_map, List.map_map]
    exact List.map_congr_left fun param hParam => Param.toUnnamed_entry (hNone param hParam)
  · cases params with
    | nil => rfl
    | cons param params =>
        obtain ⟨⟨name, hName, -⟩, -⟩ := List.forall_mem_cons.1 hSome
        rw [if_pos (by simp [hName])]
        obtain ⟨next, hNamed⟩ := ParamEntry.toNamed_entries
          (fun param hParam => (hSome param hParam).imp fun _ hName => hName.1) opened
        rw [hNamed]
        rfl

/-- The names of parameters. -/
theorem IsParamList.name_of_mem {params : List (Param GoType)} (h : IsParamList params)
    {param : Param GoType} (hParam : param ∈ params) : ∀ name ∈ param.name, IsName name.name := by
  intro name hName
  rcases h with hNone | hSome
  · rw [hNone param hParam] at hName
    cases hName
  · obtain ⟨other, hOther, hIs⟩ := hSome param hParam
    rw [hOther] at hName
    cases hName
    exact hIs

namespace Parser

open GoType

theorem entryForm_ofTokens {t : Token} (ht : t.kind = .identifier) (ws : List Token) :
    entryForm (.ofTokens (t :: ws)) =
      match nextKind ws with
      | .comma | .closing .round => .bareName
      | .dot => .type
      | .opening .square =>
        match kindAfter 0 ws with
        | .comma | .closing .round => .type
        | _ => .nameAndType
      | _ => .nameAndType := by
  have hKind : (Cursor.ofTokens (t :: ws)).kind = .identifier := ht
  rw [entryForm, hKind, kindAt_ofTokens]
  rfl

/-- A name before a type is told from a type. -/
theorem entryForm_nameAndType {t : Token} {ws : List Token} (ht : t.kind = .identifier)
    (hNext : (nextKind ws).opensType = true ∨ nextKind ws = .operator .ellipsis)
    (hAfter : nextKind ws = .opening .square → (kindAfter 0 ws).opensType = true) :
    entryForm (.ofTokens (t :: ws)) = .nameAndType := by
  rw [entryForm_ofTokens ht]
  split
  · simp_all [TokenKind.opensType]
  · simp_all [TokenKind.opensType]
  · simp_all [TokenKind.opensType]
  · split
    · simp_all [TokenKind.opensType]
    · simp_all [TokenKind.opensType]
    · rfl
  · rfl

/-- The form of an unnamed parameter that is more than a name. -/
theorem entryForm_type {type : GoType} (h : type.IsReread)
    (hMore : ∀ name span, type ≠ named none name [] span) {last : List Token}
    (hLast : nextKind last = .comma ∨ nextKind last = .closing .round) :
    entryForm (.ofTokens (wordTokens type.words ++ last)) = .type := by
  by_cases hFirst : type.firstKind = .identifier
  · obtain ⟨package, name, args, span, rfl⟩ := exists_named_of_firstKind hFirst
    obtain ⟨t, ws, hWords, ht, hPoint, hArgs, -⟩ := exists_behind_name h.isFormed h.parts last
    rw [hWords, entryForm_ofTokens ht]
    by_cases hPackage : package = none
    · have hNe : args ≠ [] := by
        rintro rfl
        exact hMore name span (by rw [hPackage])
      obtain ⟨hSquare, hAfter⟩ := hArgs hPackage hNe
      simp only [hSquare, hAfter]
      rcases hLast with hLast | hLast
      · rw [hLast]
      · rw [hLast]
    · rw [hPoint hPackage]
  · have hKind : (Cursor.ofTokens (wordTokens type.words ++ last)).kind = type.firstKind := by
      rw [kind_ofTokens, nextKind_words_append h.isFormed]
    have hEllipsis : type.firstKind ≠ .operator .ellipsis := firstKind_ne rfl
    rw [entryForm, hKind]
    split
    · exact absurd ‹_› hEllipsis
    · exact absurd ‹_› hFirst
    · rfl

section

variable {param : Param GoType} (hType : param.type.IsReread)
  (hName : ∀ name ∈ param.name, IsName name.name)

include hType hName

theorem nextKind_param_ne {k : TokenKind} (hk : k.opensType = false)
    (hEllipsis : k ≠ .operator .ellipsis) : nextKind (wordTokens param.words) ≠ k := by
  obtain ⟨name, type, variadic⟩ := param
  cases name with
  | some name =>
      rw [Param.words, Option.toList_some, List.map_singleton, List.singleton_append,
        wordTokens_name _ (hName name rfl)]
      rintro rfl
      cases hk
  | none =>
      cases variadic with
      | true =>
          rintro rfl
          exact hEllipsis (nextKind_wordTokens_sign rfl _)
      | false =>
          change nextKind (wordTokens type.words) ≠ k
          rw [nextKind_words hType.isFormed]
          exact firstKind_ne hk

omit hType hName in
/-- An entry behind which the reader of types stops. -/
theorem readsOff_entry {type : GoType} (h : type.IsReread) {make : GoType → ParamEntry}
    {last : List Token} (hLast : nextKind last = .comma ∨ nextKind last = .closing .round) :
    ReadsOff (do return make (← goType)) (wordTokens type.words ++ last)
      (make (respan Span.erase type)) last := by
  refine (h.reads last ?_).bind readsOff_pure
  rcases hLast with hLast | hLast
  · rw [hLast]; rfl
  · rw [hLast]; rfl

theorem readsOff_paramEntry {last : List Token}
    (hLast : nextKind last = .comma ∨ nextKind last = .closing .round) :
    ReadsOff (paramEntry goType) (wordTokens param.words ++ last) (respan Span.erase param.entry) last := by
  obtain ⟨name, type, variadic⟩ := param
  change type.IsReread at hType
  have hNext := nextKind_words_append hType.isFormed last
  cases name with
  | some name =>
      cases variadic with
      | true =>
          change ReadsOff _ (wordTokens (name.name :: sign (.operator .ellipsis) :: type.words) ++ last) _ _
          rw [wordTokens_name _ (hName name rfl), wordTokens_sign _ rfl]
          refine readsOff_look _ (entryForm_nameAndType rfl (.inr rfl) fun hSquare => nomatch hSquare) ?_
          exact (readsOff_identifier name.name).bind (readsOff_eat.bind (readsOff_entry hType hLast))
      | false =>
          change ReadsOff _ (wordTokens (name.name :: type.words) ++ last) _ _
          rw [wordTokens_name _ (hName name rfl), List.cons_append]
          refine readsOff_look _ (entryForm_nameAndType rfl (.inl ?_) fun hSquare => ?_) ?_
          · rw [hNext]
            exact type.opensType_firstKind
          · exact opensType_kindAfter hType.isLegible (hNext ▸ hSquare) last
          · have hNot : nextKind (wordTokens type.words ++ last) ≠ .operator .ellipsis := by
              rw [hNext]
              exact firstKind_ne rfl
            exact (readsOff_identifier name.name).bind
              ((readsOff_eat_other hNot).bind (readsOff_entry hType hLast))
  | none =>
      cases variadic with
      | true =>
          change ReadsOff _ (wordTokens (sign (.operator .ellipsis) :: type.words) ++ last) _ _
          rw [wordTokens_sign _ rfl, Param.entry_eq_unnamed (by simp)]
          refine readsOff_look .ellipsis rfl ?_
          exact (readsOff_take rfl).bind (readsOff_entry hType hLast)
      | false =>
          change ReadsOff _ (wordTokens type.words ++ last) _ _
          by_cases hBare : ∃ name span, type = named none name [] span
          · obtain ⟨name, span, rfl⟩ := hBare
            change ReadsOff _ (wordTokens [name.name] ++ last) _ _
            rw [wordTokens_name _ hType.isFormed.2]
            refine readsOff_look .bareName ?_ ((readsOff_identifier name.name).bind readsOff_pure)
            rw [List.cons_append, entryForm_ofTokens rfl]
            rcases hLast with hLast | hLast
            · rw [wordTokens_nil, List.nil_append, hLast]
            · rw [wordTokens_nil, List.nil_append, hLast]
          · have hMore : ∀ name span, type ≠ named none name [] span :=
              fun name span hSame => hBare ⟨name, span, hSame⟩
            rw [Param.entry_eq_unnamed fun _ name span => hMore name span]
            exact readsOff_look _ (entryForm_type hType hMore hLast) (readsOff_entry hType hLast)

end

section

variable {params : List (Param GoType)} (hList : IsParamList params)
  (hTypes : ∀ param ∈ params, param.type.IsReread)

include hList hTypes

/-- A list of parameters, with its brackets. -/
theorem readsOff_params (rest : List Token) :
    ReadsOff (Parser.params goType) (wordTokens (bracketed .round (params.map Param.words)) ++ rest)
      (respan Span.erase params) rest := by
  have hNames {param : Param GoType} (hParam : param ∈ params) := hList.name_of_mem hParam
  rw [wordTokens_bracketed, List.map_map]
  refine readsOff_bracket (g := fun param => respan Span.erase param.entry) (fun param hParam last hLast =>
    readsOff_paramEntry (hTypes param hParam) (hNames hParam) hLast) (fun param hParam => ?_) ?_
  · have hNext {k : TokenKind} := nextKind_param_ne (k := k) (hTypes param hParam) (hNames hParam)
    exact ⟨ne_nil_of_nextKind (hNext rfl (by simp)), hNext rfl (by simp)⟩
  · have hResolve : ParamEntry.resolve Span.none (params.map fun param => respan Span.erase param.entry) =
        .ok (respan Span.erase params) := by
      rw [← hList.resolve_entries]
      exact congrArg _ (List.map_map).symm
    rw [ReadsOff, TokenKind.span_token, hResolve]
    rfl

/-- Results in brackets, or none. -/
theorem readsOff_results {rest : List Token} (hRest : (nextKind rest).endsType = true) :
    ReadsOff (results goType) (wordTokens (bracketedIfAny .round (params.map Param.words)) ++ rest)
      (respan Span.erase params) rest := by
  rw [bracketedIfAny]
  split
  · rename_i hNil
    obtain rfl := List.map_eq_nil_iff.1 hNil
    rw [wordTokens_nil, List.nil_append]
    refine readsOff_kind rfl ?_
    have hNot {k : TokenKind} (hk : k.endsType = false) : nextKind rest ≠ k := ne_of_endsType hRest hk
    split
    case h_11 => exact readsOff_pure
    all_goals exact absurd ‹_› (hNot rfl)
  · refine readsOff_kind (k := .opening .round) ?_ (readsOff_params hList hTypes rest)
    rw [wordTokens_bracketed]
    rfl

end

theorem readsOff_signature {signature : Signature GoType} (hLegible : signature.IsLegible)
    (hTypes : ∀ type ∈ signature.types, type.IsReread) {rest : List Token}
    (hRest : (nextKind rest).endsType = true) :
    ReadsOff (Parser.signature goType) (wordTokens signature.words ++ rest)
      (respan Span.erase signature) rest := by
  obtain ⟨params, results, span⟩ := signature
  obtain ⟨hParams, hResults⟩ := List.forall_mem_append.1 hTypes
  rw [List.forall_mem_map] at hParams hResults
  rw [Signature.words, wordTokens_append, List.append_assoc]
  refine (readsOff_here ?_).bind ?_
  · intro w hw
    rw [wordTokens_bracketed] at hw
    cases hw
    rfl
  · exact (readsOff_params hLegible.params hParams _).bind
      ((readsOff_results hLegible.results hResults hRest).bind (readsOff_spanFrom.bind readsOff_pure))

theorem reads_func {signature : Signature GoType} (hLegible : signature.IsLegible)
    (hTypes : ∀ type ∈ signature.types, type.IsReread) {rest : List Token}
    (hRest : (nextKind rest).endsType = true) :
    ReadsOff goType (wordTokens (func signature).words ++ rest) (respan Span.erase (func signature)) rest := by
  rw [words_func, wordTokens_sign _ rfl, respan_func]
  exact readsOff_goType rfl rfl ((readsOff_take rfl).bind
    ((readsOff_signature hLegible hTypes hRest).bind readsOff_pure))

end Parser

end GoTemplate
