import GoTemplate.Proofs.Syntax.Ensures
import GoTemplate.Proofs.Syntax.ParamGrouping
import GoTemplate.Proofs.Syntax.TypeText

/-!
The types within a type come from the reader of types. In a list of parameters the types are those of the
entries: several names may share the type behind them, and a name alone may turn out to be a type.
-/

namespace GoTemplate

namespace ParamEntry

variable {opened : Span} {entry : ParamEntry} {entries : List ParamEntry} {params : List (Param GoType)}

theorem type_toUnnamed {type : GoType} (h : entry.type? = some type) : entry.toUnnamed.type = type := by
  cases entry with
  | bare => cases h
  | unnamed => exact Option.some.inj h
  | named => exact Option.some.inj h

theorem Named.exists_entry (h : Named entries params) :
    ∀ param ∈ params, ∃ entry ∈ entries, param.type = entry.toUnnamed.type := by
  induction h with
  | nil => simp
  | @cons entry entries params name type hName hType hRest ih =>
      obtain ⟨found, hFound, hSame⟩ := List.exists_of_findSome?_eq_some hType
      refine List.forall_mem_cons.2 ⟨⟨found, hFound, (type_toUnnamed hSame).symm⟩, fun param hParam => ?_⟩
      obtain ⟨other, hOther, hType⟩ := ih param hParam
      exact ⟨other, List.mem_cons_of_mem entry hOther, hType⟩

/-- The names of parameters are those of the entries. -/
theorem Named.exists_isName (h : Named entries params)
    (hEntries : ∀ entry ∈ entries, ∀ name ∈ entry.name?, IsName name.name) :
    ∀ param ∈ params, ∃ name, param.name = some name ∧ IsName name.name := by
  induction h with
  | nil => simp
  | @cons entry entries params name type hName hType hRest ih =>
      obtain ⟨hEntry, hOthers⟩ := List.forall_mem_cons.1 hEntries
      exact List.forall_mem_cons.2 ⟨⟨name, rfl, hEntry name hName⟩, ih hOthers⟩

/-- The type of a parameter stands in one of the entries. -/
theorem exists_entry_of_resolve (h : resolve opened entries = .ok params) :
    ∀ param ∈ params, ∃ entry ∈ entries, param.type = entry.toUnnamed.type := by
  rw [resolve] at h
  split at h
  · cases hNamed : toNamed opened entries with
    | error e => rw [hNamed] at h; cases h
    | ok result =>
        rw [hNamed] at h
        cases h
        exact ((toNamed_eq_ok_iff ..).1 hNamed).1.exists_entry
  · cases h
    rw [List.forall_mem_map]
    exact fun entry hEntry => ⟨entry, hEntry, rfl⟩

end ParamEntry

namespace Parser

section

variable {α : Type} {Here : Cursor → Prop} (hHere : Advances Here)

include hHere

theorem ensures_memberName : Ensures Here memberName fun _ c => Here c := by
  refine (ensures_eat hHere).bind fun dot => ?_
  cases dot with
  | false => exact ensures_pure fun c hc => hc.1
  | true => exact Ensures.map ((ensures_identifier hHere).pre fun c hc => hc.1) fun _ c hc => hc

theorem ensures_tag : Ensures Here tag fun _ c => Here c := by
  have hTag : Ensures Here (do return some (← take).lexeme) fun _ c => Here c :=
    (ensures_take hHere).bind fun _ => ensures_pure fun c hc => hc
  refine ensures_kind fun found => ?_
  split
  · exact hTag.pre fun c hc => hc.1
  · exact hTag.pre fun c hc => hc.1
  · exact ensures_pure fun c hc => hc.1

theorem ensures_fieldNames : Ensures Here fieldNames fun _ c => Here c := by
  refine ensures_look fun embedded => ?_
  cases embedded with
  | true => exact ensures_pure fun c hc => hc.1
  | false =>
      have hNames : Ensures Here (sepBy .comma identifier) fun names c => Here c ∧ names ≠ [] ∧
          ∀ name ∈ names, True :=
        ensures_sepBy hHere ((ensures_identifier hHere).mono (fun c hc => hc) fun _ c hc => ⟨hc, trivial⟩)
      exact hNames.mono (fun c hc => hc.1) fun _ c hc => hc.1

theorem ensures_expression {stops : TokenKind → Bool} :
    Ensures Here (expression stops) fun _ c => Here c := by
  intro c text c' hc hRun
  rw [expression] at hRun
  cases hSplit : Brackets.splitExpression stops [] c.rest with
  | error e => rw [hSplit] at hRun; cases hRun
  | ok split =>
      obtain ⟨taken, rest⟩ := split
      rw [hSplit] at hRun
      dsimp only at hRun
      cases hLast : taken.getLast? with
      | none => rw [hLast] at hRun; cases hRun
      | some last =>
          rw [hLast] at hRun
          cases hRun
          obtain ⟨hRest, -⟩ := Brackets.splitExpression_eq_ok hSplit
          exact hHere.behind hc hRest hLast

theorem ensures_arrayLength : Ensures Here arrayLength fun _ c => Here c := by
  refine ensures_kind fun found => ?_
  split
  · exact ((ensures_take hHere).pre fun c hc => hc.1).bind fun _ => ensures_pure fun c hc => hc
  · exact (ensures_expression hHere).pre fun c hc => hc.1

end

/-! ## Forms of types -/

section

variable {α : Type} {Here : Cursor → Prop} (hHere : Advances Here) {type : Parser GoType}
  {P : GoType → Prop} (hType : Ensures Here type fun found c => Here c ∧ P found)

include hHere hType

theorem ensures_typeArgs :
    Ensures Here (typeArgs type) fun args c => Here c ∧ ∀ arg ∈ args, P arg := by
  refine (ensures_expect hHere).bind fun _ => (ensures_commaList? hHere hType).bind fun args => ?_
  exact (ensures_expect hHere).keep.bind fun _ => ensures_pure fun c hc => hc

theorem ensures_namedType :
    Ensures Here (namedType type) fun found c => Here c ∧ ∀ part ∈ found.parts, P part := by
  refine (ensures_identifier hHere).bind fun first => (ensures_memberName hHere).bind fun second => ?_
  refine (ensures_ifNext (ensures_typeArgs hHere hType) (by simp)).bind fun args => ?_
  refine (ensures_spanFrom _).bind fun span => ?_
  cases second with
  | none => exact ensures_pure fun c hc => hc
  | some name => exact ensures_pure fun c hc => hc

variable (hName : ∀ c, Here c → entryForm c = .bareName →
  P (.ofName ⟨c.current.lexeme, c.current.span⟩))

section

include hName

theorem ensures_paramEntry :
    Ensures Here (paramEntry type) fun entry c => Here c ∧ P entry.toUnnamed.type := by
  have hOnly {make : GoType → ParamEntry} (hMake : ∀ found, (make found).toUnnamed.type = found) :
      Ensures Here (do return make (← type)) fun entry c => Here c ∧ P entry.toUnnamed.type :=
    hType.bind fun found => ensures_pure fun c hc => by rwa [hMake]
  refine ensures_look fun form => ?_
  cases form with
  | ellipsis => exact ((ensures_take hHere).pre fun c hc => hc.1).bind fun _ => hOnly fun _ => rfl
  | bareName =>
      rintro c entry c' ⟨hc, hForm⟩ hRun
      obtain ⟨name, d, hIdentifier, hRun⟩ := bind_eq_ok.1 hRun
      cases hRun
      obtain ⟨-, rfl, rfl⟩ := identifier_eq_ok hIdentifier
      exact ⟨hHere c hc, hName c hc hForm⟩
  | type => exact (hOnly fun _ => rfl).pre fun c hc => hc.1
  | nameAndType =>
      refine ((ensures_identifier hHere).pre fun c hc => hc.1).bind fun name => ?_
      exact (ensures_eat hHere).bind fun variadic => (hOnly fun _ => rfl).pre fun c hc => hc.1

theorem ensures_params :
    Ensures Here (params type) fun params c => Here c ∧ ∀ param ∈ params, P param.type := by
  refine (ensures_expect hHere).bind fun opened => ?_
  refine (ensures_commaList? hHere (ensures_paramEntry hHere hType hName)).bind fun entries => ?_
  refine (ensures_expect hHere).keep.bind fun _ => ?_
  rintro c params c' ⟨hc, hEntries⟩ hRun
  cases hResolve : ParamEntry.resolve opened.span entries with
  | error e => rw [hResolve] at hRun; cases hRun
  | ok found =>
      rw [hResolve] at hRun
      cases hRun
      refine ⟨hc, fun param hParam => ?_⟩
      obtain ⟨entry, hEntry, hSame⟩ := ParamEntry.exists_entry_of_resolve hResolve param hParam
      rw [hSame]
      exact hEntries entry hEntry

theorem ensures_results :
    Ensures Here (results type) fun params c => Here c ∧ ∀ param ∈ params, P param.type := by
  have hSingle : Ensures Here (do return [(⟨none, ← type, false⟩ : Param GoType)])
      fun params c => Here c ∧ ∀ param ∈ params, P param.type :=
    hType.bind fun found => ensures_pure fun c hc => by simpa using hc
  refine ensures_kind fun found => ?_
  split
  case h_1 => exact (ensures_params hHere hType hName).pre fun c hc => hc.1
  case h_11 => exact ensures_pure fun c hc => ⟨hc.1, by simp⟩
  all_goals exact hSingle.pre fun c hc => hc.1

theorem ensures_signature :
    Ensures Here (signature type) fun signature c => Here c ∧ ∀ part ∈ signature.types, P part := by
  refine ensures_here.bind fun start => ?_
  refine (ensures_params hHere hType hName).bind fun params => ?_
  refine (ensures_results hHere hType hName).keep.bind fun results => ?_
  refine (ensures_spanFrom start).bind fun span => ensures_pure fun c ⟨⟨hc, hResults⟩, hParams⟩ => ⟨hc, ?_⟩
  exact List.forall_mem_append.2 ⟨List.forall_mem_map.2 hParams, List.forall_mem_map.2 hResults⟩

end

/-! ### Fields and elements -/

theorem ensures_constraint :
    Ensures Here (constraint type) fun terms c => Here c ∧ terms ≠ [] ∧ ∀ term ∈ terms, P term.type := by
  refine ensures_sepBy hHere ((ensures_eat hHere).bind fun tilde => ?_)
  exact (hType.pre fun c hc => hc.1).bind fun found => ensures_pure fun c hc => hc

theorem ensures_field : Ensures Here (field type) fun found c => Here c ∧ P found.type := by
  have hStart : Ensures Here fieldStart fun _ c => Here c := by
    refine ensures_kind fun found => ?_
    split
    · exact ensures_pure fun c hc => hc.1
    · exact ensures_pure fun c hc => hc.1
    · exact ensures_reject
  refine hStart.bind fun _ => (ensures_fieldNames hHere).bind fun names => hType.bind fun fieldType => ?_
  exact (ensures_tag hHere).keep.bind fun text => ensures_pure fun c hc => hc

omit hType in
/-- The lines between curly brackets. -/
theorem ensures_block {line : Parser α} {Q : α → Prop} {R : GoType → Prop} (k : TokenKind)
    (make : List α → Span → GoType) (hLine : Ensures Here line fun a c => Here c ∧ Q a)
    (hMake : ∀ as span, (∀ a ∈ as, Q a) → R (make as span)) : Ensures Here (do
      let keyword ← expect k
      let _ ← expect (.opening .curly)
      let as ← statements (.closing .curly) line
      let _ ← expect (.closing .curly)
      return make as (← spanFrom keyword.span)) fun found c => Here c ∧ R found := by
  refine (ensures_expect hHere).bind fun keyword => (ensures_expect hHere).bind fun _ => ?_
  refine (ensures_statements hHere hLine).bind fun as => (ensures_expect hHere).keep.bind fun _ => ?_
  exact (ensures_spanFrom _).bind fun span => ensures_pure fun c hc => ⟨hc.1, hMake as span hc.2⟩

theorem ensures_structType :
    Ensures Here (structType type) fun found c => Here c ∧ ∀ part ∈ found.parts, P part :=
  ensures_block hHere (.keyword .struct) .struct (ensures_field hHere hType) fun _ _ hFields =>
    List.forall_mem_map.2 hFields

include hName

theorem ensures_interfaceElement : Ensures Here (interfaceElement type) fun element c =>
    Here c ∧ ∀ part ∈ element.types, P part := by
  refine ensures_kind fun found => ensures_look fun next => ?_
  split
  · refine ((ensures_identifier hHere).pre fun c hc => hc.1.1).bind fun name => ?_
    exact (ensures_signature hHere hType hName).bind fun signature => ensures_pure fun c hc => hc
  · refine ((ensures_constraint hHere hType).pre fun c hc => hc.1.1).bind fun terms => ?_
    exact ensures_pure fun c hc => ⟨hc.1, List.forall_mem_map.2 hc.2.2⟩

theorem ensures_interfaceType :
    Ensures Here (interfaceType type) fun found c => Here c ∧ ∀ part ∈ found.parts, P part := by
  refine ensures_block hHere (.keyword .interface) .interface (ensures_interfaceElement hHere hType hName)
    fun elements span hElements part hPart => ?_
  obtain ⟨element, hElement, hPart⟩ := List.mem_flatMap.1 hPart
  exact hElements element hElement part hPart

omit hName

/-! ### All forms -/

omit hHere in
theorem ensures_elem {make : GoType → Span → GoType} (start : Span)
    (hMake : ∀ elem span, (make elem span).parts = [elem]) : Ensures Here (do
      let elem ← type
      return make elem (← spanFrom start)) fun found c => Here c ∧ ∀ part ∈ found.parts, P part :=
  hType.bind fun elem => (ensures_spanFrom start).bind fun span => ensures_pure fun c ⟨hc, hElem⟩ =>
    ⟨hc, by simpa [hMake] using hElem⟩

theorem ensures_sequenceType (start : Span) :
    Ensures Here (sequenceType type start) fun found c => Here c ∧ ∀ part ∈ found.parts, P part := by
  refine (ensures_eat hHere).bind fun empty => ?_
  cases empty with
  | true => exact (ensures_elem hType start fun _ _ => rfl).pre fun c hc => hc.1
  | false =>
      refine ((ensures_arrayLength hHere).pre fun c hc => hc.1).bind fun length => ?_
      exact (ensures_expect hHere).bind fun _ => ensures_elem hType start fun _ _ => rfl

include hName

/-- The parts of a type of any form satisfy what the types that are read do, and the names that turn out
to be types. -/
theorem ensures_typeForm :
    Ensures Here (typeForm type) fun found c => Here c ∧ ∀ part ∈ found.parts, P part := by
  refine ensures_here.bind fun start => ensures_kind fun found => ?_
  suffices h : Ensures Here _ _ from h.pre fun c hc => hc.1
  have hTake {f : Token → Parser GoType}
      (hf : ∀ t, Ensures Here (f t) fun found c => Here c ∧ ∀ part ∈ found.parts, P part) :
      Ensures Here (take >>= f) fun found c => Here c ∧ ∀ part ∈ found.parts, P part :=
    (ensures_take hHere).bind hf
  split
  case h_1 => exact ensures_namedType hHere hType
  case h_2 => exact hTake fun _ => ensures_elem hType start fun _ _ => rfl
  case h_3 => exact hTake fun _ => ensures_sequenceType hHere hType start
  case h_4 =>
    refine hTake fun _ => (ensures_expect hHere).bind fun _ => hType.bind fun key => ?_
    refine (ensures_expect hHere).keep.bind fun _ => hType.keep.bind fun value => ?_
    refine (ensures_spanFrom start).bind fun span => ensures_pure fun c ⟨⟨hc, hValue⟩, hKey⟩ => ⟨hc, ?_⟩
    simpa [GoType.parts] using ⟨hKey, hValue⟩
  case h_5 =>
    refine hTake fun _ => (ensures_eat hHere).bind fun sends => ?_
    exact (ensures_elem hType start fun _ _ => rfl).pre fun c hc => hc.1
  case h_6 =>
    exact hTake fun _ => (ensures_expect hHere).bind fun _ => ensures_elem hType start fun _ _ => rfl
  case h_7 =>
    exact hTake fun _ => (ensures_signature hHere hType hName).bind fun signature =>
      ensures_pure fun c hc => hc
  case h_8 => exact ensures_structType hHere hType
  case h_9 => exact ensures_interfaceType hHere hType hName
  case h_10 =>
    refine hTake fun _ => hType.bind fun inner => (ensures_expect hHere).keep.bind fun _ => ?_
    refine (ensures_spanFrom start).bind fun span => ensures_pure fun c ⟨hc, hInner⟩ => ⟨hc, ?_⟩
    simpa [GoType.parts] using hInner
  case h_11 => exact ensures_reject

end

end Parser

end GoTemplate
