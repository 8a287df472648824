/-!
Finite maps as lists of entries with distinct keys, in the order in which the keys first came.
-/

namespace ScoreStore

/-- A finite map from keys to values. -/
structure Table (κ α : Type) where
  /-- The keys with their values, oldest key first. -/
  entries : List (κ × α) := []
  /-- No key has two entries. -/
  distinct : (entries.map Prod.fst).Nodup := by decide

namespace Table

variable {κ α : Type} [DecidableEq κ]

/-- The value of the entry for a key. -/
def lookup (key : κ) : List (κ × α) → Option α
  | [] => none
  | entry :: rest => if entry.1 = key then some entry.2 else lookup key rest

/-- Puts a value under a key, in place of the key's entry or after all entries. -/
def putEntry (key : κ) (value : α) : List (κ × α) → List (κ × α)
  | [] => [(key, value)]
  | entry :: rest =>
    if entry.1 = key then (key, value) :: rest else entry :: putEntry key value rest

/-- The keys after putting an entry are the old ones, with a new key at the end. -/
theorem keys_putEntry (key : κ) (value : α) (entries : List (κ × α)) :
    (putEntry key value entries).map Prod.fst =
      if key ∈ entries.map Prod.fst then entries.map Prod.fst
      else entries.map Prod.fst ++ [key] := by
  -- The search for the key passes every entry with another key.
  induction entries with
  | nil => simp [putEntry]
  | cons entry rest ih =>
    by_cases same : entry.1 = key
    · simp [putEntry, same]
    · by_cases later : key ∈ rest.map Prod.fst <;>
        simp_all [putEntry, Ne.symm same]

/-- Putting an entry keeps the keys distinct. -/
theorem nodup_putEntry (key : κ) (value : α) {entries : List (κ × α)}
    (distinct : (entries.map Prod.fst).Nodup) :
    ((putEntry key value entries).map Prod.fst).Nodup := by
  -- Only a key that was absent is added.
  rw [keys_putEntry]
  split
  · exact distinct
  · next absent =>
    refine List.nodup_append.mpr ⟨distinct, by simp, ?_⟩
    intro known knownMember new newMember same
    simp only [List.mem_singleton] at newMember
    subst newMember same
    exact absent knownMember

omit [DecidableEq κ] in
/-- Leaving out entries keeps the keys distinct. -/
theorem nodup_filter (keep : κ × α → Bool) {entries : List (κ × α)}
    (distinct : (entries.map Prod.fst).Nodup) :
    ((entries.filter keep).map Prod.fst).Nodup :=
  -- The remaining keys are some of the old keys in the old order.
  distinct.sublist (List.filter_sublist.map Prod.fst)

/-- The map without entries. -/
def empty : Table κ α := ⟨[], by simp⟩

/-- The value under a key. -/
def get? (table : Table κ α) (key : κ) : Option α := lookup key table.entries

/-- Whether the map has an entry for a key. -/
def contains (table : Table κ α) (key : κ) : Bool := (table.get? key).isSome

/-- The map with a value under a key, replacing the key's earlier value. -/
def set (table : Table κ α) (key : κ) (value : α) : Table κ α :=
  ⟨putEntry key value table.entries, nodup_putEntry key value table.distinct⟩

/-- The map without an entry for a key. -/
def erase (table : Table κ α) (key : κ) : Table κ α :=
  ⟨table.entries.filter fun entry => entry.1 ≠ key, nodup_filter _ table.distinct⟩

/-- The number of entries. -/
def size (table : Table κ α) : Nat := table.entries.length

/-- The keys, oldest first. -/
def keys (table : Table κ α) : List κ := table.entries.map Prod.fst

/-- Searching after putting an entry finds the new value under its key
and the old ones elsewhere. -/
theorem lookup_putEntry (key other : κ) (value : α) (entries : List (κ × α)) :
    lookup other (putEntry key value entries) =
      if key = other then some value else lookup other entries := by
  -- Both searches pass the same entries until they meet the key.
  induction entries with
  | nil => simp [putEntry, lookup]
  | cons entry rest ih =>
    by_cases put : entry.1 = key
    · by_cases same : key = other <;> simp_all [putEntry, lookup]
    · by_cases found : entry.1 = other
      · subst found
        simp [putEntry, lookup, put, Ne.symm put]
      · simp [putEntry, lookup, put, found, ih]

/-- Searching without the entries of one key misses that key alone. -/
theorem lookup_filter_ne (key other : κ) (entries : List (κ × α)) :
    lookup other (entries.filter fun entry => entry.1 ≠ key) =
      if key = other then none else lookup other entries := by
  -- The entries left out are exactly those that a search for the key would find.
  induction entries with
  | nil => simp [lookup]
  | cons entry rest ih =>
    by_cases gone : entry.1 = key
    · by_cases same : key = other <;> simp_all [lookup]
    · by_cases found : entry.1 = other
      · subst found
        simp [lookup, gone, Ne.symm gone]
      · simp_all [lookup]

/-- Setting a key changes what is found under it and nothing else. -/
@[simp] theorem get?_set (table : Table κ α) (key other : κ) (value : α) :
    (table.set key value).get? other = if key = other then some value else table.get? other :=
  lookup_putEntry key other value table.entries

/-- Erasing a key hides its entry and no other. -/
@[simp] theorem get?_erase (table : Table κ α) (key other : κ) :
    (table.erase key).get? other = if key = other then none else table.get? other :=
  lookup_filter_ne key other table.entries

/-- The empty map has no value under any key. -/
@[simp] theorem get?_empty (key : κ) : (empty : Table κ α).get? key = none := rfl

end Table
end ScoreStore
