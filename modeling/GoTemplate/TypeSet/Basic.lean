import GoTemplate.Text.Basic

/-!
Type sets: the specific type for each placeholder, in the order in which the placeholders were
first given.
-/

namespace GoTemplate

/-- Give `key` the value `value` in a list of pairs: in the place of the pair with that key, or
else at the end. -/
def insertPair (key value : Text) : List (Text × Text) → List (Text × Text)
  | [] => [(key, value)]
  | pair :: pairs =>
    if pair.1 = key then (key, value) :: pairs else pair :: insertPair key value pairs

/-- The keys after an insertion: a new one comes last. -/
theorem keys_insertPair (key value : Text) (pairs : List (Text × Text)) :
    (insertPair key value pairs).map Prod.fst =
      if key ∈ pairs.map Prod.fst then pairs.map Prod.fst else pairs.map Prod.fst ++ [key] := by
  induction pairs with
  | nil => rfl
  | cons pair pairs ih =>
    by_cases hKey : pair.1 = key
    · simp [insertPair, hKey]
    · have hOther : key ≠ pair.1 := Ne.symm hKey
      by_cases hMem : key ∈ pairs.map Prod.fst
      · rw [if_pos hMem] at ih
        rw [if_pos (by simpa [hOther] using hMem)]
        simp [insertPair, hKey, ih]
      · rw [if_neg hMem] at ih
        rw [if_neg (by simpa [hOther] using hMem)]
        simp [insertPair, hKey, ih]

/-- Specific types by placeholder. No placeholder has two. -/
structure TypeSet where
  entries : List (Text × Text)
  nodup_keys : (entries.map Prod.fst).Nodup

namespace TypeSet

/-- Two sets are equal where they have the same pairs in the same order. -/
instance : DecidableEq TypeSet := fun s t =>
  decidable_of_iff (s.entries = t.entries) (by cases s; cases t; simp)

/-- The set without any placeholder. -/
def empty : TypeSet := ⟨[], List.nodup_nil⟩

/-- The placeholders in order. -/
def keys (s : TypeSet) : List Text := s.entries.map Prod.fst

/-- Give a placeholder a specific type. A placeholder that has one keeps its place. -/
def insert (s : TypeSet) (key value : Text) : TypeSet where
  entries := insertPair key value s.entries
  nodup_keys := by
    rw [keys_insertPair]
    split
    · exact s.nodup_keys
    · rename_i hNew
      rw [List.nodup_append]
      refine ⟨s.nodup_keys, by simp, ?_⟩
      intro a hMem b hLast hEq
      simp only [List.mem_singleton] at hLast
      exact hNew (hLast ▸ hEq ▸ hMem)

/-- The set that a list of insertions makes. -/
def ofList (pairs : List (Text × Text)) : TypeSet :=
  pairs.foldl (fun s pair => s.insert pair.1 pair.2) empty

/-- The specific type of a placeholder. -/
def get? (s : TypeSet) (key : Text) : Option Text := s.entries.lookup key

/-- Whether the placeholder has a specific type. -/
def contains (s : TypeSet) (key : Text) : Bool := (s.get? key).isSome

/-- The number of placeholders. -/
def size (s : TypeSet) : Nat := s.entries.length

/-- The set as it is given on a command line: `placeholder=type`, separated by spaces. -/
def render (s : TypeSet) : Text :=
  Text.joinWithSpaces (s.entries.map fun (key, value) => key ++ '=' :: value)

end TypeSet

end GoTemplate
