import ScoreStore.Proofs.Keyspace.All

/-!
Changes that keep all data, which are values, the versions of keys with values and the last version,
and changes that keep all keys but one.
-/

namespace ScoreStore

namespace Database

/-- A change that keeps the data of a database; only watchers, and versions of keys
without values, may differ. -/
structure KeepsData (before after : Database) : Prop where
  values : after.values = before.values
  versions : ∀ key, before.contains key = true →
    after.versions.get? key = before.versions.get? key
  lastVersion : after.lastVersion = before.lastVersion

namespace KeepsData

theorem refl (database : Database) : KeepsData database database := ⟨rfl, fun _ _ => rfl, rfl⟩

theorem trans {before between after : Database} (early : KeepsData before between)
    (late : KeepsData between after) : KeepsData before after where
  values := late.values.trans early.values
  -- Versions are kept of keys that have a value, and values are the same in between.
  versions := by
    intro key present
    have still : between.contains key = true := by
      rw [contains, early.values]
      exact present
    exact (late.versions key still).trans (early.versions key present)
  lastVersion := late.lastVersion.trans early.lastVersion

/-- A new watcher is counted, and nothing else happens. -/
theorem watch (database : Database) (key : Bytes) : KeepsData database (database.watch key).2 :=
  ⟨rfl, fun _ _ => rfl, rfl⟩

/-- The last watcher takes the version along only if the key has no value. -/
theorem unwatch (database : Database) (key : Bytes) :
    KeepsData database (database.unwatch key) where
  values := values_unwatch database key
  versions := by
    intro other present
    -- A version goes only with the last watcher, and not while there is a value.
    unfold Database.unwatch
    cases database.watchers.get? key with
    -- A key that nobody watches has no watch to give back.
    | none => rfl
    | some count =>
      dsimp only
      -- One watcher fewer is left, or none.
      split
      · rfl
      · by_cases same : key = other
        · subst same
          simp only [present, if_true]
        · dsimp only
          split
          · rfl
          · rw [Table.get?_erase, if_neg same]
  lastVersion := lastVersion_unwatch database key

end KeepsData
end Database

/-- A change that keeps the data of all databases. -/
abbrev KeepsAllData : List Database → List Database → Prop :=
  Indexwise fun _ => Database.KeepsData

namespace KeepsAllData

theorem refl (databases : List Database) : KeepsAllData databases databases :=
  Indexwise.refl (fun _ => Database.KeepsData.refl) databases

theorem trans {before between after : List Database} (early : KeepsAllData before between)
    (late : KeepsAllData between after) : KeepsAllData before after :=
  Indexwise.trans early late fun _ _ _ _ => Database.KeepsData.trans

/-- Releasing keys in turn keeps all data. -/
theorem release (names : List KeyName) (databases : List Database) :
    KeepsAllData databases (names.foldl
      (fun databases (index, key) => databases.modify index (·.unwatch key)) databases) := by
  -- By induction on the names, in the order in which they are released.
  induction names generalizing databases with
  | nil => exact refl databases
  | cons first rest ih =>
    -- One key is released, and then the others.
    have released : KeepsAllData databases (databases.modify first.1 (·.unwatch first.2)) := by
      refine ⟨List.length_modify _ _ _, fun index old new found located => ?_⟩
      rw [List.getElem?_modify, found] at located
      have changed : (if first.1 = index then old.unwatch first.2 else old) = new :=
        Option.some.inj located
      -- Only the database of the key is touched.
      split at changed
      · exact changed ▸ Database.KeepsData.unwatch old first.2
      · exact changed ▸ Database.KeepsData.refl old
    exact released.trans (ih _)

end KeepsAllData

/-- A change that keeps the values and versions of all keys but some, and all counts of watchers. -/
structure Database.KeepsBut (changed : Bytes → Prop) (before after : Database) : Prop where
  watchers : after.watchers = before.watchers
  value : ∀ key, ¬ changed key → after.get? key = before.get? key
  version : ∀ key, ¬ changed key → after.versions.get? key = before.versions.get? key

/-- A change of all databases that keeps all keys but one, and all counts of watchers. -/
abbrev KeepsAllBut (name : KeyName) : List Database → List Database → Prop :=
  Indexwise fun index => Database.KeepsBut fun key => (index, key) = name

/-- Keys that are not written are kept. -/
theorem Database.Writes.keepsBut {written changed : Bytes → Prop} {before after : Database}
    (writes : Writes written before after) (only : ∀ key, written key → changed key) :
    KeepsBut changed before after where
  watchers := writes.watchers
  value := fun key kept => writes.value key fun touched => kept (only key touched)
  version := fun key kept => writes.kept key fun touched => kept (only key touched)

namespace KeepsAllBut

variable {before after : List Database} {name : KeyName}

theorem refl (name : KeyName) (databases : List Database) : KeepsAllBut name databases databases :=
  Indexwise.refl (fun _ _ => ⟨rfl, fun _ _ => rfl, fun _ _ => rfl⟩) databases

/-- A change of one key in its database keeps all other keys of all databases. -/
theorem set {index : Nat} {key : Bytes} {old new : Database} (found : before[index]? = some old)
    (kept : Database.KeepsBut (· = key) old new) :
    KeepsAllBut (index, key) before (before.set index new) := by
  -- In all other databases every key is another one.
  refine Indexwise.set found ?_ fun _ _ _ => ⟨rfl, fun _ _ => rfl, fun _ _ => rfl⟩
  have apart {other : Bytes} (different : ¬ (index, other) = (index, key)) : ¬ other = key :=
    fun same => different (congrArg (index, ·) same)
  exact ⟨kept.watchers, fun other different => kept.value other (apart different),
    fun other different => kept.version other (apart different)⟩

/-- All other keys have the value that they had. -/
theorem valueAt_other (kept : KeepsAllBut name before after) {other : KeyName}
    (different : other ≠ name) : valueAt after other = valueAt before other :=
  Indexwise.valueAt_kept kept fun _ _ changed => changed.value other.2 different

end KeepsAllBut
end ScoreStore
