import Mathlib.Data.List.Basic
import Mathlib.Data.List.Nodup
import Mathlib.Data.List.Perm.Basic
import ScoreStore.Table

/-!
Laws of finite maps: membership of entries, equal sizes, and counting entries after an update.
-/

namespace ScoreStore.Table

variable {κ α β : Type} [DecidableEq κ]

/-- Searching a list of entries with distinct keys finds exactly its entries. -/
theorem lookup_eq_some_iff {key : κ} {value : α} {entries : List (κ × α)}
    (distinct : (entries.map Prod.fst).Nodup) :
    lookup key entries = some value ↔ (key, value) ∈ entries := by
  -- The search stops at the first entry for the key, and no later one exists.
  induction entries with
  | nil => simp [lookup]
  | cons entry rest ih =>
    simp only [List.map_cons, List.nodup_cons] at distinct
    obtain ⟨fresh, distinct⟩ := distinct
    by_cases found : entry.1 = key
    · -- A second entry for the key would repeat it.
      have later : (key, value) ∉ rest := fun member =>
        fresh (found ▸ List.mem_map_of_mem (f := Prod.fst) member)
      -- The first entry is the one that is found.
      simp only [lookup, if_pos found, Option.some.injEq, List.mem_cons, later, or_false]
      subst found
      exact ⟨fun same => by rw [← same], fun same => by rw [← same]⟩
    · simp only [lookup, if_neg found, List.mem_cons, ih distinct]
      exact ⟨Or.inr, fun member => member.resolve_left fun same => found (by rw [← same])⟩

/-- The entries of a map are the keys with the values found under them. -/
theorem mem_entries_iff {table : Table κ α} {key : κ} {value : α} :
    (key, value) ∈ table.entries ↔ table.get? key = some value :=
  (lookup_eq_some_iff table.distinct).symm

/-- A map contains a key exactly when a value is found under it. -/
theorem contains_iff {table : Table κ α} {key : κ} :
    table.contains key = true ↔ ∃ value, table.get? key = some value :=
  Option.isSome_iff_exists

/-- A map lacks a key exactly when nothing is found under it. -/
theorem contains_eq_false_iff {table : Table κ α} {key : κ} :
    table.contains key = false ↔ table.get? key = none := by
  simp [contains]

/-- The listed keys are those that the map contains. -/
@[simp] theorem mem_keys_iff {table : Table κ α} {key : κ} :
    key ∈ table.keys ↔ table.contains key = true := by
  -- A listed key comes from an entry, whose value the search finds.
  rw [contains_iff, keys, List.mem_map]
  constructor
  · rintro ⟨⟨known, value⟩, member, rfl⟩
    exact ⟨value, mem_entries_iff.mp member⟩
  · rintro ⟨value, found⟩
    exact ⟨(key, value), mem_entries_iff.mpr found, rfl⟩

omit [DecidableEq κ] in
/-- No key is listed twice. -/
theorem nodup_keys (table : Table κ α) : table.keys.Nodup := table.distinct

/-- The empty map contains no key. -/
@[simp] theorem contains_empty (key : κ) : (empty : Table κ α).contains key = false := rfl

/-- Setting a key adds that key alone. -/
@[simp] theorem contains_set (table : Table κ α) (key other : κ) (value : α) :
    (table.set key value).contains other = (decide (key = other) || table.contains other) := by
  by_cases same : key = other <;> simp [contains, same]

/-- Erasing a key removes that key alone. -/
@[simp] theorem contains_erase (table : Table κ α) (key other : κ) :
    (table.erase key).contains other = (decide (key ≠ other) && table.contains other) := by
  by_cases same : key = other <;> simp [contains, same]

/-- A condition on some entry is one on some key with the value found under it. -/
theorem any_entries_iff {table : Table κ α} {holds : κ × α → Bool} :
    table.entries.any holds = true ↔
      ∃ key value, table.get? key = some value ∧ holds (key, value) = true := by
  -- Entries and what is found under their keys are the same thing.
  simp only [List.any_eq_true, Prod.exists, mem_entries_iff]

/-- Maps with the same keys have the same number of entries. -/
theorem size_eq_of_contains {left : Table κ α} {right : Table κ β}
    (same : ∀ key, left.contains key = right.contains key) : left.size = right.size := by
  -- The two lists of keys have no repetitions, so they are permutations of each other.
  have permuted : left.keys.Perm right.keys :=
    (List.perm_ext_iff_of_nodup left.nodup_keys right.nodup_keys).mpr fun key => by simp [same]
  simpa [keys, size] using permuted.length_eq

/-- A map without entries contains no key, and conversely. -/
theorem size_eq_zero_iff {table : Table κ α} :
    table.size = 0 ↔ ∀ key, table.contains key = false := by
  -- A first entry would have a key that the map contains.
  constructor
  · intro none key
    -- There is nothing to search.
    have empty : table.entries = [] := List.length_eq_zero_iff.mp none
    simp [contains, get?, lookup, empty]
  · intro absent
    refine List.length_eq_zero_iff.mpr (List.eq_nil_iff_forall_not_mem.mpr ?_)
    intro entry member
    have := absent entry.1
    rw [contains_eq_false_iff, mem_entries_iff.mp member] at this
    -- The entry would be found under its key.
    simp at this

/-- Putting two entries under one key in turn keeps the second. -/
theorem putEntry_putEntry (key : κ) (first second : α) (entries : List (κ × α)) :
    putEntry key second (putEntry key first entries) = putEntry key second entries := by
  -- The first entry is put where the second one will look for it.
  induction entries with
  | nil => simp [putEntry]
  | cons entry rest ih =>
    -- At its key the entry is replaced twice, and elsewhere it is passed twice.
    by_cases same : entry.1 = key <;> simp [putEntry, same, ih]

/-- Setting a key twice keeps the second value. -/
@[simp] theorem set_set (table : Table κ α) (key : κ) (first second : α) :
    (table.set key first).set key second = table.set key second := by
  simp only [set, putEntry_putEntry]

section Counting

variable (holds : κ × α → Bool)

/-- One for a value under a key that is counted, zero otherwise. -/
def weight (key : κ) : Option α → Nat
  | none => 0
  | some value => if holds (key, value) then 1 else 0

/-- How many entries are counted. -/
def count (table : Table κ α) : Nat := table.entries.countP holds

/-- Putting an entry counts it in place of the earlier entry. -/
theorem countP_putEntry (key : κ) (value : α) (entries : List (κ × α)) :
    (putEntry key value entries).countP holds + weight holds key (lookup key entries) =
      entries.countP holds + weight holds key (some value) := by
  -- Entries before the key count on both sides.
  induction entries with
  | nil => simp [putEntry, lookup, weight, List.countP_cons]
  | cons entry rest ih =>
    obtain ⟨known, stored⟩ := entry
    by_cases same : known = key
    · subst same
      simp only [putEntry, lookup, weight, if_true, List.countP_cons]
      omega
    · simp only [putEntry, lookup, same, if_false, List.countP_cons]
      omega

/-- Setting a key counts its new entry in place of the earlier one. -/
theorem count_set (table : Table κ α) (key : κ) (value : α) :
    (table.set key value).count holds + weight holds key (table.get? key) =
      table.count holds + weight holds key (some value) :=
  countP_putEntry holds key value table.entries

/-- Leaving out the entries of a key leaves out what was counted under it. -/
theorem countP_filter_ne (key : κ) {entries : List (κ × α)}
    (distinct : (entries.map Prod.fst).Nodup) :
    (entries.filter fun entry => entry.1 ≠ key).countP holds +
        weight holds key (lookup key entries) = entries.countP holds := by
  -- After the entry for the key no other one is left out.
  induction entries with
  | nil => simp [lookup, weight]
  | cons entry rest ih =>
    obtain ⟨known, stored⟩ := entry
    simp only [List.map_cons, List.nodup_cons] at distinct
    obtain ⟨fresh, distinct⟩ := distinct
    have later := ih distinct
    by_cases same : known = key
    · -- The entry itself goes, and the rest stays whole.
      subst same
      have others : rest.filter (fun other => other.1 ≠ known) = rest :=
        List.filter_eq_self.mpr fun other member => decide_eq_true fun same =>
          fresh (same ▸ List.mem_map_of_mem (f := Prod.fst) member)
      rw [List.filter_cons_of_neg (by simp), others]
      simp only [lookup, weight, if_true, List.countP_cons]
    · rw [List.filter_cons_of_pos (by simpa using same)]
      simp only [lookup, same, if_false, List.countP_cons]
      omega

/-- Erasing a key leaves out what was counted under it. -/
theorem count_erase (table : Table κ α) (key : κ) :
    (table.erase key).count holds + weight holds key (table.get? key) = table.count holds :=
  countP_filter_ne holds key table.distinct

/-- An entry that is counted makes the count positive. -/
theorem count_pos {table : Table κ α} {key : κ} {value : α}
    (found : table.get? key = some value) (counted : holds (key, value) = true) :
    0 < table.count holds :=
  List.countP_pos_iff.mpr ⟨(key, value), mem_entries_iff.mpr found, counted⟩

end Counting

omit [DecidableEq κ] in
/-- All entries together are as many as the size tells. -/
theorem count_true (table : Table κ α) : table.count (fun _ => true) = table.size :=
  congrFun List.countP_true table.entries

omit [DecidableEq κ] in
/-- Among all entries each key weighs one if it is there. -/
theorem weight_true (key : κ) (value : Option α) :
    weight (fun _ => true) key value = if value.isSome then 1 else 0 := by
  cases value <;> rfl

/-- Setting a key makes a map greater by one unless the key was there. -/
theorem size_set (table : Table κ α) (key : κ) (value : α) :
    (table.set key value).size + (if table.contains key then 1 else 0) = table.size + 1 := by
  have counted := table.count_set (fun _ => true) key value
  rwa [count_true, count_true, weight_true] at counted

/-- Erasing a key makes a map smaller by one if the key was there. -/
theorem size_erase (table : Table κ α) (key : κ) :
    (table.erase key).size + (if table.contains key then 1 else 0) = table.size := by
  have counted := table.count_erase (fun _ => true) key
  rwa [count_true, count_true, weight_true] at counted

end ScoreStore.Table
