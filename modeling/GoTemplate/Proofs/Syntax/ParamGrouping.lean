import GoTemplate.Proofs.Syntax.Balance

/-!
Parameter lists by their entries. Where one entry has a name and a type, all parameters are named, and
each takes the type of the first entry from its own on that has one. Otherwise none is named. A list that
fits neither reading is rejected.
-/

namespace GoTemplate

/-- The type that a name alone is. -/
def GoType.ofName (name : Identifier) : GoType := .named none name [] name.span

namespace ParamEntry

/-- The name that stands in the entry. A single name may turn out to be a type. -/
def name? : ParamEntry → Option Identifier
  | bare name => some name
  | unnamed _ _ => none
  | named name _ _ => some name

/-- The type that stands in the entry, besides a single name. -/
def type? : ParamEntry → Option GoType
  | bare _ => none
  | unnamed type _ => some type
  | named _ type _ => some type

/-- Whether an ellipsis stands in the entry. -/
def variadic : ParamEntry → Bool
  | bare _ => false
  | unnamed _ variadic => variadic
  | named _ _ variadic => variadic

/-- The place behind the name and the ellipsis of an entry that stands at `place`. -/
def typePlace (entry : ParamEntry) (place : Cursor) : Cursor :=
  let behindName := if entry.name?.isSome then place.advance else place
  if entry.variadic then behindName.advance else behindName

variable {opened : Span} {entry : ParamEntry} {entries : List ParamEntry} {params : List (Param GoType)}

theorem isNamed_iff : entry.isNamed = true ↔ entry.name? ≠ none ∧ entry.type? ≠ none := by
  cases entry <;> simp [isNamed, name?, type?]

theorem type?_ne_none_of_name? (h : entry.name? = none) : entry.type? ≠ none := by
  cases entry <;> simp_all [name?, type?]

/-! ## Lists with names -/

/-- The parameters of a list in which all are named: each has the name and the ellipsis of its entry, and
the type of the first entry from there on that has one. -/
inductive Named : List ParamEntry → List (Param GoType) → Prop where
  | nil : Named [] []
  | cons {entry : ParamEntry} {entries : List ParamEntry} {params : List (Param GoType)}
      {name : Identifier} {type : GoType} (hName : entry.name? = some name)
      (hType : (entry :: entries).findSome? type? = some type) (hRest : Named entries params) :
      Named (entry :: entries) (⟨some name, type, entry.variadic⟩ :: params)

namespace Named

theorem length_eq (h : Named entries params) : params.length = entries.length := by
  induction h with
  | nil => rfl
  | cons _ _ _ ih => exact congrArg (· + 1) ih

/-- The parameter at a place. -/
theorem getElem?_eq (h : Named entries params) {i : Nat} (hEntry : entries[i]? = some entry) :
    ∃ name type, entry.name? = some name ∧ (entries.drop i).findSome? type? = some type ∧
      params[i]? = some ⟨some name, type, entry.variadic⟩ := by
  induction h generalizing i with
  | nil => cases hEntry
  | cons hName hType _ ih =>
      cases i with
      | zero =>
          obtain rfl := Option.some.inj hEntry
          exact ⟨_, _, hName, hType, rfl⟩
      | succ i => exact ih hEntry

end Named

/-- All can be named where each entry has a name and the last one has a type. -/
theorem exists_named_iff (entries : List ParamEntry) : (∃ params, Named entries params) ↔
    (∀ entry ∈ entries, entry.name? ≠ none) ∧ ∀ last ∈ entries.getLast?, last.type? ≠ none := by
  induction entries with
  | nil => exact ⟨fun _ => by simp, fun _ => ⟨[], .nil⟩⟩
  | cons entry entries ih =>
      have hTypes : (∀ last ∈ (entry :: entries).getLast?, last.type? ≠ none) ↔
          (entry :: entries).findSome? type? ≠ none ∧ ∀ last ∈ entries.getLast?, last.type? ≠ none := by
        cases entries with
        | nil => cases hType : entry.type? <;> simp [hType]
        | cons next others =>
            rw [List.getLast?_cons_cons]
            refine ⟨fun hLast => ⟨fun hNone => ?_, hLast⟩, And.right⟩
            -- The last entry has a type, so that one is found from any place on.
            obtain ⟨last, hMem⟩ : ∃ last, (next :: others).getLast? = some last :=
              ⟨_, List.getLast?_eq_some_getLast (List.cons_ne_nil next others)⟩
            exact hLast last hMem (List.findSome?_eq_none_iff.1 hNone last
              (List.mem_cons_of_mem entry (List.mem_of_getLast? hMem)))
      rw [hTypes, List.forall_mem_cons]
      constructor
      · rintro ⟨_, h⟩
        cases h with
        | cons hName hType hRest =>
            obtain ⟨hNames, hLast⟩ := ih.1 ⟨_, hRest⟩
            exact ⟨⟨by simp [hName], hNames⟩, by simp [hType], hLast⟩
      · rintro ⟨⟨hName, hNames⟩, hType, hLast⟩
        obtain ⟨params, hRest⟩ := ih.2 ⟨hNames, hLast⟩
        obtain ⟨name, hName⟩ := Option.ne_none_iff_exists'.1 hName
        obtain ⟨type, hType⟩ := Option.ne_none_iff_exists'.1 hType
        exact ⟨_, .cons hName hType hRest⟩

/-- The resolution from the right names the parameters and carries the next type along. -/
theorem toNamed_eq_ok_iff (opened : Span) (entries : List ParamEntry) (params : List (Param GoType))
    (next : Option GoType) : toNamed opened entries = .ok (params, next) ↔
      Named entries params ∧ next = entries.findSome? type? := by
  induction entries generalizing params next with
  | nil =>
      rw [toNamed, List.findSome?_nil]
      constructor
      · rintro ⟨⟩
        exact ⟨.nil, rfl⟩
      · rintro ⟨⟨⟩, rfl⟩
        rfl
  | cons entry entries ih =>
      rw [toNamed]
      cases hTail : toNamed opened entries with
      | error e =>
          refine iff_of_false (by rintro ⟨⟩) ?_
          rintro ⟨h, -⟩
          cases h with
          | cons _ _ hRest =>
              have hRead := (ih _ _).2 ⟨hRest, rfl⟩
              rw [hTail] at hRead
              cases hRead
      | ok result =>
          obtain ⟨later, found⟩ := result
          obtain ⟨hLater, rfl⟩ := (ih _ _).1 hTail
          -- What stands in the later places is named in one way only.
          have hOnly {others : List (Param GoType)} (hOthers : Named entries others) : others = later := by
            have hSame := hTail.symm.trans ((ih _ _).2 ⟨hOthers, rfl⟩)
            exact (congrArg Prod.fst (Except.ok.inj hSame)).symm
          cases entry with
          | named name type variadic =>
              constructor
              · rintro ⟨⟩
                exact ⟨.cons rfl rfl hLater, rfl⟩
              · rintro ⟨h, rfl⟩
                cases h with
                | cons hName hType hRest =>
                    cases hName
                    cases hType
                    rw [hOnly hRest]
                    rfl
          | bare name =>
              have hNext : (bare name :: entries).findSome? type? = entries.findSome? type? := rfl
              rw [hNext]
              cases hFound : entries.findSome? type? with
              | none =>
                  refine iff_of_false (by rintro ⟨⟩) ?_
                  rintro ⟨h, -⟩
                  cases h with
                  | cons _ hType _ => cases hFound.symm.trans hType
              | some type =>
                  constructor
                  · rintro ⟨⟩
                    exact ⟨.cons rfl hFound hLater, rfl⟩
                  · rintro ⟨h, rfl⟩
                    cases h with
                    | cons hName hType hRest =>
                        cases hName
                        cases hFound.symm.trans hType
                        rw [hOnly hRest]
                        rfl
          | unnamed type variadic =>
              refine iff_of_false (by rintro ⟨⟩) ?_
              rintro ⟨h, -⟩
              cases h with
              | cons hName _ _ => cases hName

/-! ## Both readings -/

/-- What the parameters of a list are, as far as its entries say. -/
structure IsGrouping (entries : List ParamEntry) (params : List (Param GoType)) : Prop where
  length_eq : params.length = entries.length
  /-- With a name and a type in one entry, all are named. -/
  named : (∃ entry ∈ entries, entry.name? ≠ none ∧ entry.type? ≠ none) →
    ∀ (i : Nat) (entry : ParamEntry), entries[i]? = some entry → ∃ name type, entry.name? = some name ∧
      (entries.drop i).findSome? type? = some type ∧ params[i]? = some ⟨some name, type, entry.variadic⟩
  /-- Otherwise none is named, and a single name is a type. -/
  unnamed : (¬∃ entry ∈ entries, entry.name? ≠ none ∧ entry.type? ≠ none) →
    ∀ (i : Nat) (entry : ParamEntry), entries[i]? = some entry → ∃ type,
      params[i]? = some ⟨none, type, entry.variadic⟩ ∧ (∀ found, entry.type? = some found → type = found) ∧
      ∀ name, entry = bare name → type = .ofName name

theorem any_isNamed_iff : entries.any isNamed = true ↔
    ∃ entry ∈ entries, entry.name? ≠ none ∧ entry.type? ≠ none := by
  rw [List.any_eq_true]
  exact exists_congr fun entry => and_congr_right fun _ => isNamed_iff

theorem isGrouping_of_resolve (h : resolve opened entries = .ok params) : IsGrouping entries params := by
  rw [resolve] at h
  split at h
  · rename_i hAny
    cases hNamed : toNamed opened entries with
    | error e => rw [hNamed] at h; cases h
    | ok result =>
        rw [hNamed] at h
        cases h
        obtain ⟨hParams, -⟩ := (toNamed_eq_ok_iff ..).1 hNamed
        exact ⟨hParams.length_eq, fun _ _ _ hEntry => hParams.getElem?_eq hEntry,
          fun hNone => absurd (any_isNamed_iff.1 hAny) hNone⟩
  · rename_i hAny
    cases h
    refine ⟨List.length_map _, fun hSome => absurd (any_isNamed_iff.2 hSome) hAny, fun _ i entry hEntry => ?_⟩
    rw [List.getElem?_map, hEntry]
    cases entry with
    | bare name => exact ⟨_, rfl, by simp [type?], by rintro _ ⟨⟩; rfl⟩
    | unnamed type variadic => exact ⟨_, rfl, by simp [type?], by rintro _ ⟨⟩⟩
    | named name type variadic => exact ⟨_, rfl, by simp [type?], by rintro _ ⟨⟩⟩

/-- A list is rejected if one entry has a name and a type, and another one no name or the last no type. -/
theorem resolve_eq_error_iff (opened : Span) (entries : List ParamEntry) :
    (∃ e, resolve opened entries = .error e) ↔
      (∃ entry ∈ entries, entry.name? ≠ none ∧ entry.type? ≠ none) ∧
        ((∃ entry ∈ entries, entry.type? ≠ none ∧ entry.name? = none) ∨
          ∃ last, entries.getLast? = some last ∧ last.type? = none) := by
  have hNot : (¬∃ params, Named entries params) ↔
      (∃ entry ∈ entries, entry.type? ≠ none ∧ entry.name? = none) ∨
        ∃ last, entries.getLast? = some last ∧ last.type? = none := by
    rw [exists_named_iff, not_and_or]
    refine or_congr ?_ (by simp)
    constructor
    · intro h
      push Not at h
      obtain ⟨entry, hEntry, hName⟩ := h
      exact ⟨entry, hEntry, type?_ne_none_of_name? hName, hName⟩
    · rintro ⟨entry, hEntry, -, hName⟩ hAll
      exact hAll entry hEntry hName
  rw [resolve, ← any_isNamed_iff, ← hNot]
  split
  · rename_i hAny
    cases hNamed : toNamed opened entries with
    | error e =>
        refine iff_of_true ⟨e, rfl⟩ ⟨hAny, ?_⟩
        rintro ⟨params, hParams⟩
        have hRead := (toNamed_eq_ok_iff opened entries _ _).2 ⟨hParams, rfl⟩
        rw [hNamed] at hRead
        cases hRead
    | ok result =>
        refine iff_of_false (by rintro ⟨_, ⟨⟩⟩) ?_
        rintro ⟨-, hNone⟩
        exact hNone ⟨result.1, ((toNamed_eq_ok_iff opened entries result.1 result.2).1 hNamed).1⟩
  · rename_i hAny
    exact iff_of_false (by rintro ⟨_, ⟨⟩⟩) fun h => hAny h.1

end ParamEntry

namespace Parser

variable {type : Parser GoType} {c c' : Cursor}

/-- The entries of a parameter list with its brackets, and the opening one. -/
def paramEntries (type : Parser GoType) : Parser (Token × List ParamEntry) := do
  let opened ← expect (.opening .round)
  let entries ← commaList? (.closing .round) (paramEntry type)
  let _ ← expect (.closing .round)
  return (opened, entries)

/-- A parameter list is read by its entries, and what they mean shows behind the closing bracket. -/
theorem params_eq (type : Parser GoType) :
    params type = paramEntries type >>= fun found => liftM (ParamEntry.resolve found.1.span found.2) := by
  simp only [params, paramEntries, bind_assoc, pure_bind]

theorem params_of_error {e : SyntaxError} (h : paramEntries type c = .error e) :
    params type c = .error e := by
  rw [params_eq, bind_error h]

theorem params_of_ok {opened : Token} {entries : List ParamEntry}
    (h : paramEntries type c = .ok ((opened, entries), c')) :
    params type c = (ParamEntry.resolve opened.span entries).map fun params => (params, c') := by
  rw [params_eq, bind_ok h]
  cases ParamEntry.resolve opened.span entries <;> rfl

/-! ## Entries in the source -/

/-- What the form of an entry says about the tokens at its start. -/
theorem entryForm_spec (c : Cursor) : match entryForm c with
    | .ellipsis => c.kind = .operator .ellipsis
    | .bareName => c.kind = .identifier ∧ c.kindAt 1 ≠ .operator .ellipsis
    | .type => c.kind ≠ .operator .ellipsis ∧ (c.kind = .identifier → c.kindAt 1 ≠ .operator .ellipsis)
    | .nameAndType => c.kind = .identifier := by
  rw [entryForm]
  generalize c.kind = first, c.kindAt 1 = second, Brackets.kindAfter 0 (c.rest.drop 1) = third
  cases first with
  | identifier =>
      cases second with
      | comma => simp
      | closing b => cases b <;> simp
      | dot => simp
      | opening b => cases b <;> cases third with | closing b => cases b <;> simp | _ => simp
      | _ => simp
  | operator o => cases o <;> simp
  | _ => simp

theorem kinds_of_bareName (h : entryForm c = .bareName) :
    c.kind = .identifier ∧ (c.kindAt 1 = .comma ∨ c.kindAt 1 = .closing .round) := by
  rw [entryForm] at h
  split at h
  · cases h
  · refine ⟨‹_›, ?_⟩
    split at h
    · exact .inl ‹_›
    · exact .inr ‹_›
    · cases h
    · split at h <;> cases h
    · cases h
  · cases h

/-- What an entry says about the source at its place, where `type` reads the types. -/
structure IsEntryAt (type : Parser GoType) (entry : ParamEntry) (place : Cursor) : Prop where
  read : ∃ after, paramEntry type place = .ok (entry, after)
  /-- An ellipsis stands at the start or behind the name. -/
  variadic_iff : entry.variadic = true ↔ place.kind = .operator .ellipsis ∨
    place.kind = .identifier ∧ place.kindAt 1 = .operator .ellipsis
  name_eq : ∀ name, entry.name? = some name →
    place.kind = .identifier ∧ name = ⟨place.current.lexeme, place.current.span⟩
  /-- The type stands behind the name and the ellipsis. -/
  type_eq : ∀ found, entry.type? = some found → ∃ after, type (entry.typePlace place) = .ok (found, after)

theorem isEntryAt_of_paramEntry {entry : ParamEntry} (h : paramEntry type c = .ok (entry, c')) :
    IsEntryAt type entry c := by
  have hRead := h
  have hSpec := entryForm_spec c
  obtain ⟨form, d, hForm, h⟩ := bind_eq_ok.1 h
  cases hForm
  cases hForm : entryForm c with
  | ellipsis =>
      rw [hForm] at hSpec h
      obtain ⟨_, d, hTake, h⟩ := bind_eq_ok.1 h
      cases hTake
      obtain ⟨found, e, hType, h⟩ := bind_eq_ok.1 h
      cases h
      refine ⟨⟨_, hRead⟩, iff_of_true rfl (.inl hSpec), by rintro _ ⟨⟩, ?_⟩
      rintro _ ⟨⟩
      exact ⟨_, hType⟩
  | bareName =>
      rw [hForm] at hSpec h
      obtain ⟨name, d, hName, h⟩ := bind_eq_ok.1 h
      obtain ⟨hKind, rfl, -⟩ := identifier_eq_ok hName
      cases h
      refine ⟨⟨_, hRead⟩, iff_of_false Bool.false_ne_true ?_, by rintro _ ⟨⟩; exact ⟨hKind, rfl⟩,
        by rintro _ ⟨⟩⟩
      rintro (hDots | ⟨-, hDots⟩)
      · exact absurd (hKind.symm.trans hDots) (by decide)
      · exact hSpec.2 hDots
  | type =>
      rw [hForm] at hSpec h
      obtain ⟨found, d, hType, h⟩ := bind_eq_ok.1 h
      cases h
      refine ⟨⟨_, hRead⟩, iff_of_false Bool.false_ne_true ?_, by rintro _ ⟨⟩, ?_⟩
      · rintro (hDots | ⟨hKind, hDots⟩)
        · exact hSpec.1 hDots
        · exact hSpec.2 hKind hDots
      · rintro _ ⟨⟩
        exact ⟨_, hType⟩
  | nameAndType =>
      rw [hForm] at hSpec h
      obtain ⟨name, d, hName, h⟩ := bind_eq_ok.1 h
      obtain ⟨hKind, rfl, rfl⟩ := identifier_eq_ok hName
      obtain ⟨variadic, e, hEat, h⟩ := bind_eq_ok.1 h
      obtain ⟨hVariadic, rfl⟩ := eat_eq_ok hEat
      obtain ⟨found, f, hType, h⟩ := bind_eq_ok.1 h
      cases h
      rw [Cursor.kind_advance] at hVariadic
      refine ⟨⟨_, hRead⟩, hVariadic.trans ⟨fun hDots => .inr ⟨hKind, hDots⟩, ?_⟩,
        by rintro _ ⟨⟩; exact ⟨hKind, rfl⟩, ?_⟩
      · rintro (hDots | ⟨-, hDots⟩)
        · exact absurd (hKind.symm.trans hDots) (by decide)
        · exact hDots
      · rintro _ ⟨⟩
        exact ⟨_, hType⟩

/-- The items of a list stand at places that follow each other. -/
theorem places_of_commaList {α : Type} {close : TokenKind} {item : Parser α} {as : List α}
    (h : commaList close item c = .ok (as, c')) : ∃ places : List Cursor,
      places.head? = some c ∧ places.Pairwise (fun d e => e.rest.length < d.rest.length) ∧
      List.Forall₂ (fun a place => ∃ after, item place = .ok (a, after)) as places := by
  fun_induction commaList close item c generalizing as c' with
  | case1 => cases h
  | case2 c a next hItem _ _ =>
      cases h
      exact ⟨[c], rfl, List.pairwise_singleton .., .cons ⟨next, hItem⟩ .nil⟩
  | case3 c a next hItem _ _ hLess ih =>
      cases hTail : commaList close item next.advance with
      | error e => rw [hTail] at h; cases h
      | ok result =>
          obtain ⟨others, last⟩ := result
          rw [hTail] at h
          cases h
          obtain ⟨places, hHead, hOrder, hPlaces⟩ := ih hTail
          obtain ⟨places, rfl⟩ := List.head?_eq_some_iff.1 hHead
          refine ⟨c :: next.advance :: places, rfl, List.pairwise_cons.2 ⟨?_, hOrder⟩,
            .cons ⟨next, hItem⟩ hPlaces⟩
          refine List.forall_mem_cons.2 ⟨hLess, fun e he => ?_⟩
          exact Nat.lt_trans ((List.pairwise_cons.1 hOrder).1 e he) hLess
  | case4 c a next hItem _ _ _ =>
      cases h
      exact ⟨[c], rfl, List.pairwise_singleton .., .cons ⟨next, hItem⟩ .nil⟩
  | case5 c a next hItem _ =>
      cases h
      exact ⟨[c], rfl, List.pairwise_singleton .., .cons ⟨next, hItem⟩ .nil⟩

/-- The entries of a list stand at places that follow each other. -/
theorem places_of_paramEntries {opened : Token} {entries : List ParamEntry}
    (h : paramEntries type c = .ok ((opened, entries), c')) : ∃ places : List Cursor,
      places.Pairwise (fun d e => e.rest.length < d.rest.length) ∧
      List.Forall₂ (IsEntryAt type) entries places := by
  obtain ⟨_, d, -, h⟩ := bind_eq_ok.1 h
  obtain ⟨found, e, hFound, h⟩ := bind_eq_ok.1 h
  obtain ⟨_, _, -, h⟩ := bind_eq_ok.1 h
  cases h
  obtain ⟨k, _, hKind, hFound⟩ := bind_eq_ok.1 hFound
  cases hKind
  split at hFound
  · cases hFound
    exact ⟨[], .nil, .nil⟩
  · obtain ⟨places, -, hOrder, hPlaces⟩ := places_of_commaList hFound
    exact ⟨places, hOrder, hPlaces.imp fun _ _ ⟨_, hRead⟩ => isEntryAt_of_paramEntry hRead⟩

/-- **Parameters are grouped as their entries say.** A list that is read has one parameter for each
entry of the source. Where one entry has a name and a type, each parameter has the name and the ellipsis
of its entry and the first type from there on; otherwise none has a name, and a single name is a type.
Once its entries and the closing bracket are read, a list is rejected only where one entry has a name and
a type, and another one has no name or the last one no type. -/
theorem params_grouping (type : Parser GoType) (c : Cursor) :
    (∀ params c', Parser.params type c = .ok (params, c') → ∃ opened entries places,
      paramEntries type c = .ok ((opened, entries), c') ∧
      places.Pairwise (fun d e : Cursor => e.rest.length < d.rest.length) ∧
      List.Forall₂ (IsEntryAt type) entries places ∧ ParamEntry.IsGrouping entries params) ∧
    ∀ opened entries c', paramEntries type c = .ok ((opened, entries), c') →
      ((∃ e, Parser.params type c = .error e) ↔
        (∃ entry ∈ entries, entry.name? ≠ none ∧ entry.type? ≠ none) ∧
          ((∃ entry ∈ entries, entry.type? ≠ none ∧ entry.name? = none) ∨
            ∃ last, entries.getLast? = some last ∧ last.type? = none)) := by
  constructor
  · intro params c' h
    cases hEntries : paramEntries type c with
    | error e =>
        rw [params_of_error hEntries] at h
        cases h
    | ok result =>
        obtain ⟨⟨opened, entries⟩, d⟩ := result
        rw [params_of_ok hEntries] at h
        cases hFound : ParamEntry.resolve opened.span entries with
        | error e => rw [hFound] at h; cases h
        | ok found =>
            rw [hFound] at h
            cases h
            obtain ⟨places, hOrder, hPlaces⟩ := places_of_paramEntries hEntries
            exact ⟨opened, entries, places, rfl, hOrder, hPlaces, ParamEntry.isGrouping_of_resolve hFound⟩
  · intro opened entries c' hEntries
    rw [← ParamEntry.resolve_eq_error_iff opened.span, params_of_ok hEntries]
    cases ParamEntry.resolve opened.span entries with
    | ok params => exact iff_of_false (by rintro ⟨_, ⟨⟩⟩) (by rintro ⟨_, ⟨⟩⟩)
    | error e => exact iff_of_true ⟨e, rfl⟩ ⟨e, rfl⟩

/-- The names, the starts of the types and the ellipses in the list of a source. -/
example : ((Parser.params goType (Cursor.ofRun (Lexer.ofSource .statements
      "(a, b int, c ...string)".toList).run)).toOption.map fun found => found.1.map fun param =>
        (param.name.map Identifier.name, param.type.span.col, param.variadic)) =
    some [(some "a".toList, 7, false), (some "b".toList, 7, false), (some "c".toList, 17, true)] := by
  decide +kernel

end Parser

end GoTemplate
