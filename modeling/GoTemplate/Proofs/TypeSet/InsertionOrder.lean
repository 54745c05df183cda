import GoTemplate.Proofs.TypeSet.Product
import Mathlib.Data.Finset.Card
import Mathlib.Data.List.Nodup

/-!
Type sets as maps that keep the order of insertion. A set made by insertions is told by two things: in
which order its placeholders were first given a type, and which type each was given last.
-/

namespace GoTemplate.TypeSet

/-- The placeholders that insertions give a type, in the order in which each is first given one. -/
def firstInsertions (history : List (Text × Text)) : List Text := (history.map Prod.fst).eraseDups

/-- The type that a placeholder is given last. -/
def lastInsertion? (history : List (Text × Text)) (key : Text) : Option Text :=
  (history.filter (·.1 = key)).getLast?.map Prod.snd

/-- The set after further insertions. -/
def insertAll (s : TypeSet) (later : List (Text × Text)) : TypeSet :=
  later.foldl (fun s pair => s.insert pair.1 pair.2) s

theorem insertAll_ofList (first later : List (Text × Text)) :
    (ofList first).insertAll later = ofList (first ++ later) := by
  rw [ofList, ofList, insertAll, List.foldl_append]

theorem ofList_concat (history : List (Text × Text)) (pair : Text × Text) :
    ofList (history ++ [pair]) = (ofList history).insert pair.1 pair.2 := by
  rw [ofList, List.foldl_append]
  rfl

/-! ## One insertion -/

private theorem lookup_pair (pair : Text × Text) (pairs : List (Text × Text)) (key : Text) :
    (pair :: pairs).lookup key = if pair.1 = key then some pair.2 else pairs.lookup key := by
  rw [List.lookup_cons]
  by_cases hKey : pair.1 = key
  · rw [if_pos hKey, hKey, beq_self_eq_true]
  · rw [if_neg hKey, beq_eq_false_iff_ne.2 (Ne.symm hKey)]

section

variable (s : TypeSet) {key : Text} (value : Text)

theorem keys_insert :
    (s.insert key value).keys = if key ∈ s.keys then s.keys else s.keys ++ [key] :=
  keys_insertPair key value s.entries

/-- A placeholder that has a type is given another one in its place. -/
theorem entries_insert_of_mem (h : key ∈ s.keys) : (s.insert key value).entries =
    s.entries.map fun entry => if entry.1 = key then (key, value) else entry := by
  obtain ⟨pairs, hNodup⟩ := s
  change insertPair key value pairs = pairs.map _
  change key ∈ pairs.map Prod.fst at h
  induction pairs with
  | nil => cases h
  | cons pair pairs ih =>
      rw [List.map_cons, List.nodup_cons] at hNodup
      rw [insertPair, List.map_cons]
      by_cases hKey : pair.1 = key
      · -- No other pair has the key, so that all others stay.
        have hOthers : ∀ entry ∈ pairs, entry.1 ≠ key := fun entry hEntry hSame =>
          hNodup.1 (List.mem_map.2 ⟨entry, hEntry, hSame.trans hKey.symm⟩)
        have hSame : pairs.map (fun entry => if entry.1 = key then (key, value) else entry) = pairs := by
          rw [List.map_congr_left fun entry hEntry => if_neg (hOthers entry hEntry), List.map_id']
        rw [if_pos hKey, if_pos hKey, hSame]
      · rw [if_neg hKey, if_neg hKey, ih hNodup.2 (by simpa [Ne.symm hKey] using h)]

theorem get?_insert (other : Text) :
    (s.insert key value).get? other = if key = other then some value else s.get? other := by
  change (insertPair key value s.entries).lookup other = if key = other then _ else s.entries.lookup other
  induction s.entries with
  | nil => exact lookup_pair (key, value) [] other
  | cons pair pairs ih =>
      rw [insertPair]
      by_cases hKey : pair.1 = key
      · rw [if_pos hKey, lookup_pair, lookup_pair, hKey]
        split <;> rfl
      · rw [if_neg hKey, lookup_pair, lookup_pair, ih]
        by_cases hOther : pair.1 = other
        · rw [if_pos hOther, if_pos hOther, if_neg (hOther ▸ Ne.symm hKey)]
        · rw [if_neg hOther, if_neg hOther]

end

/-! ## All insertions -/

section

variable (history : List (Text × Text))

theorem firstInsertions_concat (pair : Text × Text) :
    firstInsertions (history ++ [pair]) = if pair.1 ∈ firstInsertions history then firstInsertions history
      else firstInsertions history ++ [pair.1] := by
  simp only [firstInsertions, List.map_append, List.map_singleton, List.eraseDups_append,
    List.mem_eraseDups]
  split
  · simp [List.removeAll, *]
  · simp [List.removeAll, List.eraseDups_cons, *]

theorem lastInsertion?_concat (pair : Text × Text) (key : Text) :
    lastInsertion? (history ++ [pair]) key =
      if pair.1 = key then some pair.2 else lastInsertion? history key := by
  rw [lastInsertion?, List.filter_append]
  by_cases hKey : pair.1 = key
  · simp [hKey]
  · simp [hKey, lastInsertion?]

/-- What is first given a type earlier stands earlier. -/
theorem firstInsertions_pairwise : (firstInsertions history).Pairwise fun key other =>
    (history.map Prod.fst).idxOf key < (history.map Prod.fst).idxOf other := by
  induction history using List.reverseRecOn with
  | nil => exact .nil
  | append_singleton history pair ih =>
      rw [firstInsertions_concat, List.map_append, List.map_singleton]
      have hMem {key : Text} (h : key ∈ firstInsertions history) : key ∈ history.map Prod.fst :=
        List.mem_eraseDups.1 h
      have hPlace {key : Text} (h : key ∈ firstInsertions history) :
          (history.map Prod.fst ++ [pair.1]).idxOf key = (history.map Prod.fst).idxOf key :=
        List.idxOf_append_of_mem (hMem h)
      have hEarlier : (firstInsertions history).Pairwise fun key other =>
          (history.map Prod.fst ++ [pair.1]).idxOf key < (history.map Prod.fst ++ [pair.1]).idxOf other :=
        ih.imp_of_mem fun hKey hOther hLess => by rwa [hPlace hKey, hPlace hOther]
      split
      · exact hEarlier
      · rename_i hNew
        refine List.pairwise_append.2 ⟨hEarlier, List.pairwise_singleton _ _, fun key hKey other hOther => ?_⟩
        obtain rfl := List.mem_singleton.1 hOther
        rw [hPlace hKey, List.idxOf_append_of_notMem (mt List.mem_eraseDups.2 hNew)]
        exact Nat.lt_add_right _ (List.idxOf_lt_length_of_mem (hMem hKey))

theorem keys_ofList : (ofList history).keys = firstInsertions history := by
  induction history using List.reverseRecOn with
  | nil => rfl
  | append_singleton history pair ih => rw [ofList_concat, keys_insert, ih, firstInsertions_concat]

theorem get?_ofList (key : Text) : (ofList history).get? key = lastInsertion? history key := by
  induction history using List.reverseRecOn with
  | nil => rfl
  | append_singleton history pair ih => rw [ofList_concat, get?_insert, ih, lastInsertion?_concat]

end

/-- The entries are the placeholders with their types. -/
theorem entries_eq (s : TypeSet) :
    s.entries = s.keys.filterMap fun key => (s.get? key).map (key, ·) := by
  obtain ⟨pairs, hNodup⟩ := s
  change pairs = (pairs.map Prod.fst).filterMap fun key => (pairs.lookup key).map (key, ·)
  induction pairs with
  | nil => rfl
  | cons pair pairs ih =>
      rw [List.map_cons, List.nodup_cons] at hNodup
      have hOthers : ∀ key ∈ pairs.map Prod.fst, ((pair :: pairs).lookup key).map (key, ·) =
          (pairs.lookup key).map (key, ·) := fun key hKey => by
        have hOther : pair.1 ≠ key := fun hSame => hNodup.1 (hSame ▸ hKey)
        rw [lookup_pair, if_neg hOther]
      rw [List.map_cons, List.filterMap_cons, lookup_pair, if_pos rfl, List.filterMap_congr hOthers,
        ← ih hNodup.2]
      rfl

/-- The placeholders in their order, and the type of each, are all that there is to a set. -/
theorem eq_iff_keys_get? {s t : TypeSet} : s = t ↔ s.keys = t.keys ∧ ∀ key, s.get? key = t.get? key := by
  refine ⟨fun h => h ▸ ⟨rfl, fun _ => rfl⟩, fun ⟨hKeys, hGet⟩ => entries_injective ?_⟩
  rw [entries_eq s, entries_eq t, hKeys]
  simp only [hGet]

/-- A type set is a map that keeps the order of insertion. After any insertions its placeholders are
different, and they stand in the order in which each was first given a type. The type of a placeholder
is the one that it was given last, and a placeholder that was given none has none. The size is the number
of different placeholders. A further insertion replaces the type of a placeholder in its place and leaves
all else as it was, or comes last. Sets made by insertions are equal exactly if these agree on the order
of the first ones and on the last types. -/
theorem insertAll_isOrdered (first later : List (Text × Text)) :
    let history := first ++ later
    let s := (ofList first).insertAll later
    (s.keys.Nodup ∧ s.keys = firstInsertions history ∧ s.keys.Pairwise fun key other =>
      (history.map Prod.fst).idxOf key < (history.map Prod.fst).idxOf other) ∧
    (∀ key, s.get? key = lastInsertion? history key ∧
      (s.get? key = none ↔ key ∉ history.map Prod.fst)) ∧
    s.size = (history.map Prod.fst).toFinset.card ∧
    (∀ key value, (s.insert key value).entries =
      if key ∈ s.keys then s.entries.map fun entry => if entry.1 = key then (key, value) else entry
      else s.entries ++ [(key, value)]) ∧
    ∀ first' later', s = (ofList first').insertAll later' ↔
      firstInsertions history = firstInsertions (first' ++ later') ∧
        ∀ key, lastInsertion? history key = lastInsertion? (first' ++ later') key := by
  intro history s
  have hSet : s = ofList history := insertAll_ofList first later
  have hKeys : s.keys = firstInsertions history := by rw [hSet, keys_ofList]
  have hGet (key : Text) : s.get? key = lastInsertion? history key := by rw [hSet, get?_ofList]
  have hMem (key : Text) : key ∈ s.keys ↔ key ∈ history.map Prod.fst := by
    rw [hKeys, firstInsertions, List.mem_eraseDups]
  refine ⟨⟨s.nodup_keys, hKeys, hKeys ▸ firstInsertions_pairwise history⟩, fun key => ⟨hGet key, ?_⟩, ?_,
    fun key value => ?_, fun first' later' => ?_⟩
  · rw [hGet, lastInsertion?, Option.map_eq_none_iff, List.getLast?_eq_none_iff, List.filter_eq_nil_iff]
    simp only [decide_eq_true_eq, List.mem_map, not_exists, not_and]
  · have hSame : (history.map Prod.fst).toFinset = s.keys.toFinset := by
      ext key
      rw [List.mem_toFinset, List.mem_toFinset, hMem]
    rw [hSame, List.toFinset_card_of_nodup (show s.keys.Nodup from s.nodup_keys), keys, List.length_map, size]
  · split
    · exact entries_insert_of_mem s value ‹_›
    · exact entries_insert_of_not_mem ‹_›
  · rw [insertAll_ofList, eq_iff_keys_get?, hKeys, keys_ofList]
    simp only [hGet, get?_ofList]

example : ((ofList [("A".toList, "int".toList), ("B".toList, "string".toList)]).insert
    "A".toList "bool".toList).render = "A=bool B=string".toList := by decide

end GoTemplate.TypeSet
