import ScoreStore.Proofs.Moves

/-! Databases count the watched keys of a connection, whatever the connection does. -/

namespace ScoreStore

/-- How often a connection with these watched keys is to be counted as a watcher of a key. -/
def share (watched : Table KeyName Nat) (name : KeyName) : Nat :=
  if watched.contains name then 1 else 0

/-- A connection that starts to watch a key is one more watcher of it. -/
theorem share_set {watched : Table KeyName Nat} {name : KeyName}
    (fresh : ¬ watched.contains name = true) (others : KeyName → Nat) (version : Nat) :
    (fun other => others other + share (watched.set name version) other) =
      withWatcher (fun other => others other + share watched other) name := by
  -- The key was not among its watched keys before.
  funext other
  by_cases same : name = other
  · subst same
    simp [withWatcher, share, fresh]
  · simp [withWatcher, share, same]

namespace Scope

/-- The databases are in order, and count the connection besides the
others that watch their keys. -/
def Tallied (others : KeyName → Nat) (scope : Scope) : Prop :=
  TalliedAll (fun name => others name + share scope.connection.watched name) scope.databases

variable {others : KeyName → Nat} {scope : Scope}

/-- Watching a key counts the connection as its watcher. -/
theorem Tallied.watch {database : Database} (tallied : scope.Tallied others)
    (found : scope.database? = some database) (key : Bytes) :
    (scope.watch key).Tallied others := by
  rw [watch_eq found]
  -- A key that is watched already is not counted again.
  split
  · exact tallied
  · next fresh =>
    unfold Tallied
    rw [share_set fresh]
    exact TalliedAll.watch tallied found key

/-- Watching a key spares all keys. -/
theorem spares_watch (watching : KeyName → Nat) {database : Database}
    (found : scope.database? = some database) (key : Bytes) :
    SparesAll watching scope.databases (scope.watch key).databases := by
  have same : SparesAll watching scope.databases scope.databases :=
    Indexwise.refl (fun _ database => Database.Spares.refl _ database) scope.databases
  rw [watch_eq found]
  split
  · exact same
  · -- Watchers are counted apart from versions and values.
    refine Indexwise.set found ⟨rfl, rfl, fun _ _ => rfl⟩ fun _ database _ => ?_
    exact Database.Spares.refl _ database

/-- Releasing all watched keys no longer counts the connection, and spares
the keys that others watch. -/
theorem Tallied.unwatchAll (tallied : scope.Tallied others) :
    scope.unwatchAll.Tallied others ∧
      SparesAll others scope.databases scope.unwatchAll.databases := by
  -- The connection is counted once for each key that it lists.
  have shares : (fun name => others name + share scope.connection.watched name) =
      fun name => others name + if name ∈ scope.connection.watched.keys then 1 else 0 := by
    funext name
    simp [share]
  unfold Tallied at tallied
  rw [shares] at tallied
  exact TalliedAll.release scope.connection.watched.nodup_keys tallied

/-- Databases keep counting the watched keys of a connection, whatever the connection does. -/
theorem Tallied.moves {number : Nat} {before after : Scope} {notes : Journal}
    (tallied : before.Tallied others) (moves : Moves number before notes after) :
    after.Tallied others := by
  -- A move is made of writes, watches and releases.
  induction moves with
  -- Writes count no watchers.
  | write databases watched =>
    have counts := TalliedAll.writes tallied databases
    unfold Tallied
    rw [watched]
    exact counts
  | watch found key => exact tallied.watch found key
  | release scope => exact tallied.unwatchAll.1
  | trans early late first second => exact second (first tallied)

end Scope
end ScoreStore
