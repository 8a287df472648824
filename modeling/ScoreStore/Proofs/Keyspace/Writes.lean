import ScoreStore.Proofs.Keyspace.Sound
import ScoreStore.Proofs.SortedSet.Sound

/-! Writing: which keys a change of a database writes, and what it does to versions and watchers. -/

namespace ScoreStore

/-- A value as it is stored: any string, or a sound sorted set with members. -/
def Value.Proper : Value → Prop
  | .string _ => True
  | .sortedSet set => set.Sound ∧ set.isEmpty = false

namespace Database

variable {database before between after : Database} {written first second : Bytes → Prop}

/-- All stored values are proper. -/
def Proper (database : Database) : Prop :=
  ∀ key value, database.get? key = some value → value.Proper

/-- The database without keys has no improper value. -/
theorem proper_empty : empty.Proper := fun _ _ found => nomatch found

/-- A change of versions that renews those of watched written keys and keeps those of other keys. -/
structure Advances (written : Bytes → Prop) (before after : Database) : Prop where
  /-- Nobody starts or stops watching. -/
  watchers : after.watchers = before.watchers
  /-- No version is given back, as long as the greatest one was not reached. -/
  grows : after.lastVersion < maxVersion → before.lastVersion ≤ after.lastVersion
  /-- A key that is not written keeps its version. -/
  kept : ∀ key, ¬ written key → after.versions.get? key = before.versions.get? key
  /-- A watched key that is written gets a version that is greater than all earlier ones. -/
  renewed : ∀ key, written key → before.watchers.contains key = true →
    after.lastVersion < maxVersion → before.lastVersion < after.version key

namespace Advances

/-- Nothing happens to any version. -/
theorem refl (database : Database) : Advances (fun _ => False) database database where
  watchers := rfl
  grows := fun _ => Nat.le_refl _
  kept := fun _ _ => rfl
  renewed := fun _ none => none.elim

/-- Two changes in turn write the keys of either. -/
theorem trans (early : Advances first before between) (late : Advances second between after) :
    Advances (fun key => first key ∨ second key) before after where
  watchers := late.watchers.trans early.watchers
  grows := fun below =>
    Nat.le_trans (early.grows (Nat.lt_of_le_of_lt (late.grows below) below)) (late.grows below)
  kept := fun key neither =>
    (late.kept key (neither ∘ Or.inr)).trans (early.kept key (neither ∘ Or.inl))
  renewed := by
    intro key either watched below
    -- Below the greatest version at the end means below it in between.
    have middle : between.lastVersion < maxVersion := Nat.lt_of_le_of_lt (late.grows below) below
    -- A later write renews the version once more, and without one the version stays.
    by_cases again : second key
    · have twice := late.renewed key again (early.watchers ▸ watched) below
      exact Nat.lt_of_le_of_lt (early.grows middle) twice
    · have once := early.renewed key (either.resolve_right again) watched middle
      rwa [version, late.kept key again]

/-- The written keys may be described in another way. -/
theorem congr (advances : Advances first before after) (same : ∀ key, first key ↔ second key) :
    Advances second before after := by
  -- Two sets of keys with the same members are the same set.
  obtain rfl : first = second := funext fun key => propext (same key)
  exact advances

/-- Values do not matter to versions. -/
theorem ofValues {values : Table Bytes Value}
    (advances : Advances written { before with values } after) : Advances written before after :=
  ⟨advances.watchers, advances.grows, advances.kept, advances.renewed⟩

/-- A key with a new version is written. -/
theorem touch (database : Database) (key : Bytes) :
    Advances (· = key) database (database.touch key) where
  watchers := rfl
  grows := fun below => by
    simp only [Database.touch] at below ⊢
    omega
  kept := fun other different => by simp [Database.touch, Ne.symm different]
  renewed := fun other same _ below => by
    -- A version below the greatest one was not cut off, so it is the next one.
    simp only [Database.touch, version, same, Table.get?_set, if_true, Option.getD_some] at below ⊢
    omega

/-- A key whose version is settled is written. -/
theorem forget (database : Database) (key : Bytes) :
    Advances (· = key) database (database.forget key) := by
  -- Without watchers there is no version that has to be renewed.
  unfold Database.forget
  split
  · exact touch database key
  · next unwatched =>
    refine ⟨rfl, fun _ => Nat.le_refl _, fun other different => ?_, fun other same watched => ?_⟩
    · -- Only the entry of this key is dropped.
      simp [Ne.symm different]
    · exact absurd (same ▸ watched) unwatched

/-- Settling versions in turn writes all the keys. -/
theorem foldl_forget (keys : List Bytes) (database : Database) :
    Advances (· ∈ keys) database (keys.foldl Database.forget database) := by
  -- One settled key after another writes one key after another.
  induction keys generalizing database with
  | nil => exact (refl database).congr fun key => by simp
  | cons key rest ih =>
    exact ((forget database key).trans (ih (database.forget key))).congr fun other => by simp

end Advances

/-- A change of a database that writes certain keys and no others. -/
structure Writes (written : Bytes → Prop) (before after : Database) : Prop
    extends Advances written before after where
  /-- Bookkeeping stays in order. -/
  sound : before.Sound → after.Sound
  /-- Values stay proper. -/
  proper : before.Proper → after.Proper
  /-- A key that is not written keeps its value. -/
  value : ∀ key, ¬ written key → after.get? key = before.get? key

namespace Writes

/-- Nothing is written. -/
theorem refl (database : Database) : Writes (fun _ => False) database database :=
  { Advances.refl database with sound := id, proper := id, value := fun _ _ => rfl }

/-- Two changes in turn write the keys of either. -/
theorem trans (early : Writes first before between) (late : Writes second between after) :
    Writes (fun key => first key ∨ second key) before after :=
  { early.toAdvances.trans late.toAdvances with
    sound := late.sound ∘ early.sound
    proper := late.proper ∘ early.proper
    value := fun key neither =>
      (late.value key (neither ∘ Or.inr)).trans (early.value key (neither ∘ Or.inl)) }

/-- The written keys may be described in another way. -/
theorem congr (writes : Writes first before after) (same : ∀ key, first key ↔ second key) :
    Writes second before after := by
  obtain rfl : first = second := funext fun key => propext (same key)
  exact writes

/-- Storing a value writes its key. -/
theorem put (database : Database) (key : Bytes) {value : Value}
    (proper : database.Proper → value.Proper) :
    Writes (· = key) database (database.put key value) where
  toAdvances := (Advances.touch (database.revise key value) key).ofValues
  sound := fun sound => sound.put key value
  proper := by
    -- What is found under the key is the new value, and elsewhere what was there.
    intro others other stored found
    simp only [Database.get?, Database.put, touch, revise, Table.get?_set] at found
    split at found
    · cases found
      exact proper others
    · exact others other stored found
  value := fun other different => by
    simp [Database.get?, Database.put, Database.touch, revise, Ne.symm different]

/-- Removing a key writes it if it had a value. -/
theorem delete (database : Database) (key : Bytes) :
    Writes (fun other => other = key ∧ database.contains key = true) database
      (database.delete key).2 where
  toAdvances := by
    -- A key is settled after its value is gone, and one without a value is left alone.
    unfold Database.delete
    split
    · next present =>
      have settled := Advances.forget { database with values := database.values.erase key } key
      exact settled.ofValues.congr fun other => by simp [present]
    · next absent => exact (Advances.refl database).congr fun other => by simp [absent]
  sound := fun sound => sound.delete key
  proper := by
    intro others other stored found
    simp only [Database.get?, values_delete, Table.get?_erase] at found
    split at found
    · cases found
    · exact others other stored found
  value := by
    intro other unwritten
    simp only [Database.get?, values_delete, Table.get?_erase]
    split
    · next same =>
      -- The key is not written only if it had no value before.
      have absent : database.contains other = false := by simpa [same] using unwritten
      exact (Table.contains_eq_false_iff.mp absent).symm
    · rfl

/-- Removing all keys writes those that had values. -/
theorem flush (database : Database) :
    Writes (fun key => database.contains key = true) database database.flush where
  toAdvances := by
    -- The keys are those that had values, although all values are gone when they are settled.
    have settled :=
      Advances.foldl_forget database.values.keys { database with values := .empty }
    exact settled.ofValues.congr fun _ => Table.mem_keys_iff
  sound := SoundBut.flush
  proper := fun _ key stored found => by simp [Database.get?] at found
  value := by
    intro key absent
    have none : database.values.get? key = none :=
      Table.contains_eq_false_iff.mp (Bool.not_eq_true _ ▸ absent)
    simp [Database.get?, none]

end Writes
end Database
end ScoreStore
