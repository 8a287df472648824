import ScoreStore.Proofs.Journal
import ScoreStore.Proofs.Keyspace.Tallied

/-! All databases of a server: what changes among them, index by index. -/

namespace ScoreStore

/-- Two lists of databases of the same length, related index by index. -/
structure Indexwise (related : Nat → Database → Database → Prop) (before after : List Database) :
    Prop where
  /-- There are as many databases as before. -/
  length : after.length = before.length
  /-- The databases at every index are related. -/
  each : ∀ index old new, before[index]? = some old → after[index]? = some new →
    related index old new

namespace Indexwise

variable {related : Nat → Database → Database → Prop} {before between after : List Database}
  {index : Nat}

/-- A list is related to itself if all databases are. -/
theorem refl (same : ∀ index database, related index database database)
    (databases : List Database) : Indexwise related databases databases where
  length := rfl
  each := by
    intro index old new found located
    -- One index has one database.
    obtain rfl : old = new := Option.some.inj (found.symm.trans located)
    exact same index old

/-- A database after a change was some database before it. -/
theorem source (changed : Indexwise related before after) {new : Database}
    (located : after[index]? = some new) :
    ∃ old, before[index]? = some old ∧ related index old new := by
  -- As many databases as before, so that there was one at the index.
  have within : index < before.length :=
    changed.length ▸ (List.getElem?_eq_some_iff.mp located).1
  have found : before[index]? = some before[index] := List.getElem?_eq_getElem within
  exact ⟨before[index], found, changed.each index _ new found located⟩

/-- A database before a change is some database after it. -/
theorem target (changed : Indexwise related before after) {old : Database}
    (found : before[index]? = some old) :
    ∃ new, after[index]? = some new ∧ related index old new := by
  have within : index < after.length :=
    changed.length ▸ (List.getElem?_eq_some_iff.mp found).1
  have located : after[index]? = some after[index] := List.getElem?_eq_getElem within
  exact ⟨after[index], located, changed.each index old _ found located⟩

/-- Two changes in turn relate what they relate in turn. -/
theorem trans (early : Indexwise related before between) (late : Indexwise related between after)
    (chained : ∀ index old middle new, related index old middle → related index middle new →
      related index old new) : Indexwise related before after where
  length := late.length.trans early.length
  each := by
    -- In between there is a database at the same index.
    intro index old new found located
    obtain ⟨middle, known, second⟩ := late.source located
    exact chained index old middle new (early.each index old middle found known) second

/-- What is related stays so under a weaker relation. -/
theorem imp {weaker : Nat → Database → Database → Prop} (changed : Indexwise related before after)
    (implies : ∀ index old new, related index old new → weaker index old new) :
    Indexwise weaker before after where
  length := changed.length
  each := fun index old new found located =>
    implies index old new (changed.each index old new found located)

/-- A change of one database relates the lists if the other databases are related to themselves. -/
theorem set {old new : Database} (found : before[index]? = some old)
    (changed : related index old new)
    (others : ∀ other database, index ≠ other → related other database database) :
    Indexwise related before (before.set index new) where
  length := List.length_set
  each := by
    intro other first second known located
    by_cases same : index = other
    · -- At the index the new database is found.
      subst same
      have within : index < before.length := (List.getElem?_eq_some_iff.mp found).1
      rw [List.getElem?_set_self within] at located
      obtain rfl : old = first := Option.some.inj (found.symm.trans known)
      obtain rfl : new = second := Option.some.inj located
      exact changed
    · -- At any other index the database is the old one.
      rw [List.getElem?_set_ne same] at located
      obtain rfl : first = second := Option.some.inj (known.symm.trans located)
      exact others other first same

end Indexwise

/-- A change of all databases that writes certain keys and no others. -/
abbrev WritesAll (names : List KeyName) : List Database → List Database → Prop :=
  Indexwise fun index => Database.Writes fun key => (index, key) ∈ names

/-- A change of all databases that keeps values, and the versions of keys
that are told to be watched. -/
abbrev SparesAll (watching : KeyName → Nat) : List Database → List Database → Prop :=
  Indexwise fun index => Database.Spares fun key => watching (index, key)

/-- All databases are in order and count the watchers of every key as told. -/
def TalliedAll (watching : KeyName → Nat) (databases : List Database) : Prop :=
  ∀ index (database : Database), databases[index]? = some database →
    database.Tallied fun key => watching (index, key)

namespace WritesAll

/-- Nothing is written. -/
theorem refl (databases : List Database) : WritesAll [] databases databases :=
  Indexwise.refl
    (fun _ database => (Database.Writes.refl database).congr fun _ => by simp) databases

/-- A change of one database writes its keys. -/
theorem set {databases : List Database} {index : Nat} {old new : Database} {keys : List Bytes}
    (found : databases[index]? = some old) (writes : Database.Writes (· ∈ keys) old new) :
    WritesAll (keys.map (index, ·)) databases (databases.set index new) := by
  -- The names are those of the one index, with the keys that are written.
  refine Indexwise.set found (writes.congr fun key => by simp) fun other database different => ?_
  exact (Database.Writes.refl database).congr fun key => by simp [different]

end WritesAll

/-- The keys of all databases. -/
def allNames (databases : List Database) : List KeyName :=
  databases.zipIdx.flatMap fun (database, index) => database.values.keys.map (index, ·)

/-- A key is among those of all databases if its database has a value under it. -/
theorem mem_allNames {databases : List Database} {index : Nat} {database : Database} {key : Bytes}
    (found : databases[index]? = some database) :
    (index, key) ∈ allNames databases ↔ database.contains key = true := by
  -- A listed key has the index of the database that it was listed from.
  simp only [allNames, List.mem_flatMap, Prod.exists, List.mem_zipIdx_iff_getElem?]
  constructor
  · rintro ⟨other, position, located, member⟩
    obtain ⟨named, listed, same⟩ := List.mem_map.mp member
    simp only [Prod.mk.injEq] at same
    obtain ⟨rfl, rfl⟩ := same
    obtain rfl : database = other := Option.some.inj (found.symm.trans located)
    exact Table.mem_keys_iff.mp listed
  · -- And a key that is there is listed with its index.
    intro present
    exact ⟨database, index, found, List.mem_map_of_mem (Table.mem_keys_iff.mpr present)⟩

/-- Removing all keys of all databases writes them. -/
theorem WritesAll.flushAll (databases : List Database) :
    WritesAll (allNames databases) databases (databases.map Database.flush) where
  length := List.length_map _
  each := by
    -- Each database writes what it had, which is what is named at its index.
    intro index old new before after
    rw [List.getElem?_map, before, Option.map_some, Option.some.injEq] at after
    subst after
    exact (Database.Writes.flush old).congr fun key => (mem_allNames before).symm

/-- Releasing keys keeps the number of databases. -/
theorem length_release (names : List KeyName) (databases : List Database) :
    (names.foldl (fun databases (index, key) => databases.modify index (·.unwatch key))
      databases).length = databases.length := by
  -- Each release replaces one database.
  induction names generalizing databases with
  | nil => rfl
  | cons first rest ih =>
    rw [List.foldl_cons, ih]
    exact List.length_modify _ _ _

/-- Replacing a database by one with the same values leaves all values alone. -/
theorem map_values_set {databases : List Database} {index : Nat} {old new : Database}
    (found : databases[index]? = some old) (same : new.values = old.values) :
    (databases.set index new).map Database.values = databases.map Database.values := by
  obtain ⟨within, rfl⟩ := List.getElem?_eq_some_iff.mp found
  -- The list of values is set to what it holds already.
  rw [List.map_set, same, ← List.getElem_map Database.values (h := by simpa using within)]
  exact List.set_getElem_self _

/-- Releasing keys leaves all values alone. -/
theorem map_values_release (names : List KeyName) (databases : List Database) :
    (names.foldl (fun databases (index, key) => databases.modify index (·.unwatch key))
      databases).map Database.values = databases.map Database.values := by
  -- By induction on the names.
  induction names generalizing databases with
  | nil => rfl
  | cons first rest ih =>
    -- One release changes one database, and no value in it.
    rw [List.foldl_cons, ih]
    refine List.ext_getElem? fun index => ?_
    rw [List.getElem?_map, List.getElem?_map, List.getElem?_modify]
    cases databases[index]? with
    | none => rfl
    | some database =>
      show some (Database.values (if first.1 = index then database.unwatch first.2 else database)) =
        some database.values
      split
      · rw [Database.values_unwatch]
      · rfl

/-- The value of a key in the database of its index. -/
def valueAt (databases : List Database) (name : KeyName) : Option Value :=
  databases[name.1]?.bind (·.get? name.2)

/-- The value of a key of a database that exists is what this database has. -/
theorem valueAt_eq {databases : List Database} {index : Nat} {database : Database}
    (found : databases[index]? = some database) (key : Bytes) :
    valueAt databases (index, key) = database.get? key := by
  rw [valueAt, found]
  rfl

/-- Databases with the same values find the same value under every key. -/
theorem valueAt_congr {before after : List Database}
    (same : after.map Database.values = before.map Database.values) :
    valueAt after = valueAt before := by
  -- The values of one index are those of the same index in the list of values.
  funext name
  have values := congrArg (·[name.1]?) same
  simp only [List.getElem?_map] at values
  have read (databases : List Database) : valueAt databases name =
      (databases[name.1]?.map Database.values).bind (·.get? name.2) := by
    unfold valueAt
    cases databases[name.1]? <;> rfl
  rw [read, read, values]

/-- A change keeps the value of a key if the database of the key keeps it. -/
theorem Indexwise.valueAt_kept {related : Nat → Database → Database → Prop}
    {before after : List Database} {name : KeyName} (changed : Indexwise related before after)
    (kept : ∀ old new, related name.1 old new → new.get? name.2 = old.get? name.2) :
    valueAt after name = valueAt before name := by
  -- There is a database at the index before exactly if there is one after.
  unfold valueAt
  cases found : before[name.1]? with
  -- No database was there, and none came.
  | none =>
    have past : before.length ≤ name.1 := List.getElem?_eq_none_iff.mp found
    rw [List.getElem?_eq_none (changed.length.symm ▸ past)]
  | some old =>
    obtain ⟨new, located, same⟩ := changed.target found
    rw [located]
    exact kept old new same

/-- A key that is not written keeps its value. -/
theorem WritesAll.valueAt_kept {names : List KeyName} {before after : List Database}
    (writes : WritesAll names before after) {name : KeyName} (unwritten : name ∉ names) :
    valueAt after name = valueAt before name :=
  Indexwise.valueAt_kept writes fun _ _ changed => changed.value name.2 unwritten

section Watching

variable {watching others : KeyName → Nat} {databases : List Database} {index : Nat} {key : Bytes}

/-- One more watcher of a key is one more in the database of the key. -/
theorem withWatcher_same : (fun name => withWatcher watching (index, key) (index, name)) =
    withWatcher (fun name => watching (index, name)) key := by
  funext name
  simp [withWatcher]

/-- One more watcher of a key is no more in any other database. -/
theorem withWatcher_other {other : Nat} (different : index ≠ other) :
    (fun name => withWatcher watching (index, key) (other, name)) =
      fun name => watching (other, name) := by
  funext name
  simp [withWatcher, different]

namespace TalliedAll

/-- Writing leaves the count of watchers alone. -/
theorem writes {names : List KeyName} {after : List Database}
    (tallied : TalliedAll watching databases) (writes : WritesAll names databases after) :
    TalliedAll watching after := by
  -- Each database is written by itself.
  intro index new located
  obtain ⟨old, found, changed⟩ := writes.source located
  exact (tallied index old found).writes changed

/-- A new watcher of a key is one more to count. -/
theorem watch {database : Database} (tallied : TalliedAll watching databases)
    (found : databases[index]? = some database) (key : Bytes) :
    TalliedAll (withWatcher watching (index, key))
      (databases.set index (database.watch key).2) := by
  -- The database of the key counts the watcher, and the others have none to count.
  intro other new located
  by_cases same : index = other
  · subst same
    have within : index < databases.length := (List.getElem?_eq_some_iff.mp found).1
    rw [List.getElem?_set_self within] at located
    obtain rfl : (database.watch key).2 = new := Option.some.inj located
    rw [withWatcher_same]
    exact (tallied index database found).watch key
  · rw [List.getElem?_set_ne same] at located
    rw [withWatcher_other same]
    exact tallied other new located

/-- A watcher of a key that leaves is one less to count. -/
theorem unwatch (tallied : TalliedAll (withWatcher watching (index, key)) databases) :
    TalliedAll watching (databases.modify index (·.unwatch key)) := by
  -- The database of the key counted the watcher, and the others did not.
  intro other new located
  rw [List.getElem?_modify] at located
  obtain ⟨old, found, changed⟩ := Option.map_eq_some_iff.mp located
  have counts := tallied other old found
  by_cases same : index = other
  · subst same
    rw [if_pos rfl] at changed
    rw [withWatcher_same] at counts
    exact changed ▸ counts.unwatch
  · rw [if_neg same] at changed
    rw [withWatcher_other same] at counts
    exact changed ▸ counts

/-- A watcher that leaves spares the keys that are still watched. -/
theorem spares_unwatch (tallied : TalliedAll (withWatcher watching (index, key)) databases) :
    SparesAll watching databases (databases.modify index (·.unwatch key)) where
  length := List.length_modify _ _ _
  each := by
    -- Only the database of the key sees its watcher go.
    intro other old new found located
    rw [List.getElem?_modify, found] at located
    have changed : (if index = other then old.unwatch key else old) = new :=
      Option.some.inj located
    have counts := tallied other old found
    by_cases same : index = other
    · subst same
      rw [if_pos rfl] at changed
      rw [withWatcher_same] at counts
      exact changed ▸ counts.spares_unwatch
    · rw [if_neg same] at changed
      exact changed ▸ Database.Spares.refl _ old

/-- Releasing keys in turn takes one watcher from each, and spares the keys that others watch. -/
theorem release {names : List KeyName} (distinct : names.Nodup)
    (tallied : TalliedAll (fun name => others name + if name ∈ names then 1 else 0) databases) :
    TalliedAll others (names.foldl
        (fun databases (index, key) => databases.modify index (·.unwatch key)) databases) ∧
      SparesAll others databases (names.foldl
        (fun databases (index, key) => databases.modify index (·.unwatch key)) databases) := by
  -- By induction on the names, of which none is released twice.
  induction names generalizing databases with
  | nil =>
    refine ⟨by simpa using tallied, Indexwise.refl (fun _ database => ?_) databases⟩
    exact Database.Spares.refl _ database
  | cons first rest ih =>
    obtain ⟨index, key⟩ := first
    obtain ⟨fresh, distinct⟩ := List.nodup_cons.mp distinct
    -- The first key is watched once more than it is after its release.
    have split : (fun name => others name + if name ∈ (index, key) :: rest then 1 else 0) =
        withWatcher (fun name => others name + if name ∈ rest then 1 else 0) (index, key) := by
      funext name
      by_cases same : (index, key) = name
      · subst same
        simp [withWatcher, fresh]
      · simp [withWatcher, same, Ne.symm same]
    rw [split] at tallied
    obtain ⟨counts, later⟩ := ih distinct tallied.unwatch
    -- What is watched by others is watched by them and by those still to be released.
    have early : SparesAll others databases (databases.modify index (·.unwatch key)) := by
      refine tallied.spares_unwatch.imp fun other old new spares => spares.weaken fun name => ?_
      exact Nat.lt_add_right _
    exact ⟨counts, early.trans later fun _ _ _ _ => Database.Spares.trans⟩

end TalliedAll
end Watching
end ScoreStore
