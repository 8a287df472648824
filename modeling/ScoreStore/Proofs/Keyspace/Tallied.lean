import ScoreStore.Proofs.Keyspace.Writes

/-! Tallied databases: in order, with watchers counted as often as they are told to watch. -/

namespace ScoreStore

/-- One more watcher of a key. -/
def withWatcher {κ : Type} [DecidableEq κ] (watching : κ → Nat) (key : κ) : κ → Nat :=
  fun other => watching other + if key = other then 1 else 0

namespace Database

variable {database : Database} {watching : Bytes → Nat}

/-- A database in order that counts the watchers of every key as told. -/
structure Tallied (watching : Bytes → Nat) (database : Database) : Prop where
  /-- Bookkeeping is in order. -/
  sound : database.Sound
  /-- Values are proper. -/
  proper : database.Proper
  /-- Watchers are counted as told. -/
  counted : ∀ key, database.watchCount key = watching key

/-- A new watcher is counted. -/
theorem watchCount_watch (database : Database) (key other : Bytes) :
    (database.watch key).2.watchCount other =
      database.watchCount other + if key = other then 1 else 0 := by
  -- Only the count of the watched key grows, whether it had one before or not.
  by_cases same : key = other <;> simp [watchCount, Database.watch, same]

/-- A watcher that leaves is no longer counted. -/
theorem watchCount_unwatch (database : Database) (key other : Bytes) :
    (database.unwatch key).watchCount other =
      database.watchCount other - if key = other then 1 else 0 := by
  -- A key that nobody watches stays at zero.
  unfold Database.unwatch
  cases counted : database.watchers.get? key with
  | none =>
    by_cases same : key = other
    · subst same
      simp [watchCount, counted]
    · simp [same]
  | some count =>
    dsimp only
    by_cases same : key = other
    · subst same
      split <;> simp [watchCount, counted]
      omega
    · -- Counts of other keys are not touched, whether the count goes or is lowered.
      split <;> simp [watchCount, same]

/-- A key keeps its version if another watcher of it stays. -/
theorem version_unwatch {key other : Bytes} (stays : key = other → 1 < database.watchCount key) :
    (database.unwatch key).version other = database.version other := by
  -- Only the last watcher of a key takes its version along.
  unfold Database.unwatch
  cases counted : database.watchers.get? key with
  | none => rfl
  | some count =>
    dsimp only
    split
    · rfl
    · next last =>
      -- The key itself has another watcher, so the one that lost its last watcher is another key.
      have different : key ≠ other := fun same => by
        have several := stays same
        simp only [watchCount, counted, Option.getD_some] at several
        exact last several
      simp only [version]
      split <;> simp [different]

/-- The last version given out stays when a watcher leaves. -/
@[simp] theorem lastVersion_unwatch (database : Database) (key : Bytes) :
    (database.unwatch key).lastVersion = database.lastVersion := by
  -- Versions are dropped at most, and none is given out.
  unfold Database.unwatch
  split
  · rfl
  · split <;> rfl

/-- Values stay when a watcher leaves. -/
@[simp] theorem values_unwatch (database : Database) (key : Bytes) :
    (database.unwatch key).values = database.values := by
  -- Values do not depend on who watches their keys.
  unfold Database.unwatch
  split
  · rfl
  · split <;> rfl

/-- A change that keeps all values, the last version, and the versions of keys
that are told to be watched. -/
structure Spares (watching : Bytes → Nat) (before after : Database) : Prop where
  /-- Values stay. -/
  values : after.values = before.values
  /-- No version is given out. -/
  lastVersion : after.lastVersion = before.lastVersion
  /-- Watched keys keep their versions. -/
  version : ∀ key, 0 < watching key → after.version key = before.version key

/-- Nothing changes. -/
theorem Spares.refl (watching : Bytes → Nat) (database : Database) :
    Spares watching database database :=
  ⟨rfl, rfl, fun _ _ => rfl⟩

/-- Two changes in turn keep what both keep. -/
theorem Spares.trans {before between after : Database} (early : Spares watching before between)
    (late : Spares watching between after) : Spares watching before after where
  values := late.values.trans early.values
  lastVersion := late.lastVersion.trans early.lastVersion
  version := fun key watched => (late.version key watched).trans (early.version key watched)

/-- Fewer keys that are told to be watched are spared with the others. -/
theorem Spares.weaken {few : Bytes → Nat} {before after : Database}
    (spares : Spares watching before after) (fewer : ∀ key, 0 < few key → 0 < watching key) :
    Spares few before after :=
  { spares with version := fun key watched => spares.version key (fewer key watched) }

namespace Tallied

/-- The database without keys counts nobody. -/
theorem empty : Database.empty.Tallied fun _ => 0 where
  sound := sound_empty
  proper := proper_empty
  counted := fun _ => rfl

/-- Writing leaves the count of watchers alone. -/
theorem writes {written : Bytes → Prop} {after : Database} (tallied : database.Tallied watching)
    (writes : Writes written database after) : after.Tallied watching where
  sound := writes.sound tallied.sound
  proper := writes.proper tallied.proper
  counted := fun key => by rw [watchCount, writes.watchers, ← tallied.counted key, watchCount]

/-- A new watcher is one more to count. -/
theorem watch (tallied : database.Tallied watching) (key : Bytes) :
    (database.watch key).2.Tallied (withWatcher watching key) where
  sound := tallied.sound.watch key
  proper := tallied.proper
  counted := fun other => by rw [watchCount_watch, tallied.counted, withWatcher]

/-- A watcher that leaves is one less to count. -/
theorem unwatch {key : Bytes} (tallied : database.Tallied (withWatcher watching key)) :
    (database.unwatch key).Tallied watching where
  sound := tallied.sound.unwatch key
  proper := by
    -- The values are those from before, and so they are as they should be.
    intro other value found
    rw [Database.get?, values_unwatch] at found
    exact tallied.proper other value found
  counted := fun other => by
    -- The count includes the watcher that leaves, so that the difference is not cut off at zero.
    rw [watchCount_unwatch, tallied.counted, withWatcher, Nat.add_sub_cancel]

/-- Keys that others watch are spared when a watcher leaves. -/
theorem spares_unwatch {key : Bytes} (tallied : database.Tallied (withWatcher watching key)) :
    Spares watching database (database.unwatch key) where
  values := values_unwatch database key
  lastVersion := lastVersion_unwatch database key
  version := by
    intro other watched
    -- The watcher that leaves and one of the others make at least two.
    refine version_unwatch fun same => ?_
    rw [tallied.counted, withWatcher, if_pos rfl, same]
    omega

/-- A key that is told to be watched has a count. -/
theorem watched {key : Bytes} (tallied : database.Tallied watching) (watched : 0 < watching key) :
    database.watchers.contains key = true :=
  watched_of_watchCount (by rwa [tallied.counted])

/-- A key with a count is told to be watched. -/
theorem watching_pos {key : Bytes} (tallied : database.Tallied watching)
    (watched : database.watchers.contains key = true) : 0 < watching key := by
  -- A count is never zero.
  obtain ⟨count, found⟩ := Table.contains_iff.mp watched
  have zero := tallied.sound.nonzero key
  rw [found] at zero
  rw [← tallied.counted key, watchCount, found, Option.getD_some]
  exact Nat.pos_of_ne_zero fun none => zero (congrArg some none)

end Tallied
end Database

end ScoreStore
