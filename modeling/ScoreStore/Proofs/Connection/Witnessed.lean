import ScoreStore.Proofs.Connection.Tallied

/-! The versions that connections keep tell which watched keys were written since, and no others. -/

namespace ScoreStore

/-- A version kept for a key tells whether the key was written since. -/
structure Database.Stamped (overwritten : Prop) (database : Database) (key : Bytes)
    (version : Nat) : Prop where
  /-- The version was given out. -/
  given : database.lastVersion < maxVersion → version ≤ database.lastVersion
  /-- A key that was not written still has the version. -/
  current : ¬ overwritten → database.version key = version
  /-- A key that was written has a greater version. -/
  outdated : overwritten → database.lastVersion < maxVersion → version < database.version key

namespace Database.Stamped

variable {overwritten : Prop} {before after : Database} {key : Bytes} {version : Nat}

/-- The current version of a key is one that tells of no write. -/
theorem fresh {database : Database} (sound : database.Sound) (key : Bytes) :
    database.Stamped False key (database.version key) where
  given := fun _ => by
    -- A key without a version counts as having the version zero.
    unfold Database.version
    cases found : database.versions.get? key with
    | none => exact Nat.zero_le _
    | some version => exact (sound.bounded key version found).2
  current := fun _ => rfl
  outdated := fun impossible => impossible.elim

/-- Another way to say whether the key was written. -/
theorem congr {other : Prop} (stamped : before.Stamped overwritten key version)
    (same : overwritten ↔ other) : before.Stamped other key version :=
  propext same ▸ stamped

/-- A write of a watched key is told by the version that was kept. -/
theorem writes {written : Bytes → Prop} (stamped : before.Stamped overwritten key version)
    (writes : Writes written before after) (watched : before.watchers.contains key = true) :
    after.Stamped (overwritten ∨ written key) key version where
  given := fun below =>
    -- Writes raise the greatest version, so that one below it stays below it.
    have grows := writes.grows below
    Nat.le_trans (stamped.given (Nat.lt_of_le_of_lt grows below)) grows
  current := by
    intro neither
    -- A key that is not written keeps its version.
    have kept := writes.kept key (neither ∘ Or.inr)
    rw [Database.version, kept]
    exact stamped.current (neither ∘ Or.inl)
  outdated := by
    intro either below
    have earlier : before.lastVersion < maxVersion := Nat.lt_of_le_of_lt (writes.grows below) below
    by_cases again : written key
    · -- A watched key that is written gets a version beyond all that were given out before.
      exact Nat.lt_of_le_of_lt (stamped.given earlier) (writes.renewed key again watched below)
    · have kept := writes.kept key again
      rw [Database.version, kept]
      exact stamped.outdated (either.resolve_right again) earlier

/-- A change that spares the key tells of no write. -/
theorem spares {watching : Bytes → Nat} (stamped : before.Stamped overwritten key version)
    (spares : Spares watching before after) (watched : 0 < watching key) :
    after.Stamped overwritten key version where
  given := fun below => by
    -- Nothing is written here, and watched keys keep their versions.
    rw [spares.lastVersion] at below ⊢
    exact stamped.given below
  current := fun unwritten => (spares.version key watched).trans (stamped.current unwritten)
  outdated := fun written below => by
    rw [spares.lastVersion] at below
    rw [spares.version key watched]
    exact stamped.outdated written below

end Database.Stamped

/-- The versions that a connection keeps for its watched keys tell what a journal tells. -/
structure Witnessed (journal : Journal) (number : Nat) (databases : List Database)
    (watched : Table KeyName Nat) : Prop where
  /-- The watched keys are those that the connection watches by the journal. -/
  watching : ∀ name, watched.contains name = true ↔ journal.Watching number name
  /-- Every kept version tells whether its key was written since. -/
  stamped : ∀ index key version, watched.get? (index, key) = some version →
    ∃ database, databases[index]? = some database ∧
      database.Stamped (journal.Overwritten number (index, key)) key version

namespace Witnessed

variable {journal : Journal} {number : Nat} {databases after : List Database}
  {watched : Table KeyName Nat} {watching : KeyName → Nat}

/-- A connection that watches nothing by the journal keeps nothing. -/
theorem empty (nothing : ∀ name, ¬ journal.Watching number name) :
    Witnessed journal number databases .empty where
  watching := fun name => by simp [nothing name]
  -- Nothing is watched.
  stamped := fun _ _ _ found => nomatch found

/-- Writes are told by the versions of the written keys that are watched. -/
theorem writes {names : List KeyName} (witnessed : Witnessed journal number databases watched)
    (writes : WritesAll names databases after) (tallied : TalliedAll watching databases)
    (counted : ∀ name, watched.contains name = true → 0 < watching name) :
    Witnessed (journal ++ names.map .wrote) number after watched where
  watching := fun name => (witnessed.watching name).trans Journal.watching_append_wrote.symm
  stamped := by
    intro index key version found
    obtain ⟨old, located, stamped⟩ := witnessed.stamped index key version found
    obtain ⟨new, relocated, changed⟩ := writes.target located
    -- The database counts the connection as a watcher, so that a write renews the version.
    have held : watched.contains (index, key) = true := Table.contains_iff.mpr ⟨version, found⟩
    have counts := (tallied index old located).watched (counted _ held)
    refine ⟨new, relocated, (stamped.writes changed counts).congr ?_⟩
    rw [Journal.overwritten_append_wrote, ← witnessed.watching]
    simp [held]

/-- A note that is about neither the connection nor a write tells of nothing, and
neither do the databases. -/
theorem spares {note : Note} (witnessed : Witnessed journal number databases watched)
    (spares : SparesAll watching databases after)
    (counted : ∀ name, watched.contains name = true → 0 < watching name)
    (unwatched : ∀ name, watched.contains name = false → note ≠ .watched number name)
    (unreleased : note ≠ .released number) (unwritten : ∀ name, note ≠ .wrote name) :
    Witnessed (journal ++ [note]) number after watched where
  watching := by
    intro name
    rw [Journal.watching_snoc, ← witnessed.watching]
    -- The note begins a watch of this connection only on a key that it watches.
    cases held : watched.contains name with
    | true => simp [unreleased]
    | false => simp [unwatched name held]
  stamped := by
    intro index key version found
    obtain ⟨old, located, stamped⟩ := witnessed.stamped index key version found
    obtain ⟨new, relocated, changed⟩ := spares.target located
    have held : watched.contains (index, key) = true := Table.contains_iff.mpr ⟨version, found⟩
    -- No note of this kind is a write.
    refine ⟨new, relocated, (stamped.spares changed (counted _ held)).congr ?_⟩
    rw [Journal.overwritten_snoc]
    simp [unreleased, unwritten]

/-- Watching a key once more keeps the version of its first watch. -/
theorem watch_again {name : KeyName} (witnessed : Witnessed journal number databases watched)
    (held : watched.contains name = true) :
    Witnessed (journal ++ [.watched number name]) number databases watched := by
  -- Nothing changes, and the note is about a key that is watched already.
  have same : SparesAll (fun _ => 1) databases databases :=
    Indexwise.refl (fun _ database => Database.Spares.refl _ database) databases
  refine witnessed.spares same (fun _ _ => Nat.one_pos) (fun other absent equal => ?_)
    (by simp) (by simp)
  obtain rfl := (Note.watched.inj equal).2
  cases held.symm.trans absent

/-- The first watch of a key keeps a version that tells of no write. -/
theorem watch_fresh {index version : Nat} {key : Bytes} {database : Database}
    (witnessed : Witnessed journal number databases watched)
    (fresh : ¬ watched.contains (index, key) = true)
    (spares : SparesAll (fun _ => 1) databases after) (located : after[index]? = some database)
    (stamped : database.Stamped False key version) :
    Witnessed (journal ++ [.watched number (index, key)]) number after
      (watched.set (index, key) version) where
  watching := by
    intro name
    rw [Table.contains_set, Journal.watching_snoc, ← witnessed.watching]
    simp
  stamped := by
    -- A key that is not watched is not written since a watch of it.
    have unwritten : ¬ journal.Overwritten number (index, key) :=
      (fresh ∘ (witnessed.watching _).mpr) ∘ Journal.Overwritten.watching
    intro position other known kept
    rw [Table.get?_set] at kept
    rw [Journal.overwritten_snoc]
    split at kept
    · next same =>
      obtain ⟨rfl, rfl⟩ := Prod.mk.inj same
      obtain rfl := Option.some.inj kept
      exact ⟨database, located, stamped.congr (by simp [unwritten])⟩
    · -- The other watched keys tell what they told before.
      obtain ⟨old, found, tells⟩ := witnessed.stamped position other known kept
      obtain ⟨new, relocated, changed⟩ := spares.target found
      exact ⟨new, relocated, (tells.spares changed Nat.one_pos).congr (by simp)⟩

/-- The watch of a key is told by the version that is kept for it, now or since the first watch. -/
theorem watch {scope : Scope} {database : Database} {others : KeyName → Nat}
    (witnessed : Witnessed journal number scope.databases scope.connection.watched)
    (found : scope.database? = some database) (tallied : scope.Tallied others) (key : Bytes) :
    Witnessed (journal ++ [.watched number (scope.connection.selected, key)]) number
      (scope.watch key).databases (scope.watch key).connection.watched := by
  have spared := Scope.spares_watch (fun _ => 1) found key
  rw [Scope.watch_eq found] at spared ⊢
  split at spared
  · -- A key that is watched is not watched again, but it is noted.
    next held =>
    rw [if_pos held]
    exact witnessed.watch_again held
  · next fresh =>
    have within : scope.connection.selected < scope.databases.length :=
      (List.getElem?_eq_some_iff.mp found).1
    -- The version that is put down is the one that the key has now.
    have sound := (tallied _ database found).sound.watch key
    rw [if_neg fresh]
    exact witnessed.watch_fresh fresh spared (List.getElem?_set_self within)
      (Database.Stamped.fresh sound key)

/-- What one connection does is told by the versions that another connection keeps. -/
theorem moves_other {other : Nat} {before after : Scope} {notes : Journal}
    {others : KeyName → Nat} (different : other ≠ number)
    (counted : ∀ name, watched.contains name = true → 0 < others name)
    (moves : Scope.Moves number before notes after) (tallied : before.Tallied others)
    (witnessed : Witnessed journal other before.databases watched) :
    Witnessed (journal ++ notes) other after.databases watched := by
  -- The other connection is counted among the watchers all the time.
  induction moves generalizing journal with
  | write databases kept =>
    exact witnessed.writes databases tallied fun name held =>
      Nat.lt_of_lt_of_le (counted name held) (Nat.le_add_right _ _)
  | watch found key =>
    -- A watch of this connection is none of the other one.
    exact witnessed.spares (Scope.spares_watch others found key) counted
      (by simp [Ne.symm different]) (by simp) (by simp)
  | release scope =>
    exact witnessed.spares tallied.unwatchAll.2 counted (by simp) (by simp [Ne.symm different])
      (by simp)
  | trans early late first second =>
    have between := first tallied witnessed
    rw [← List.append_assoc]
    exact second (tallied.moves early) between

/-- What a connection does is told by the versions that it keeps itself. -/
theorem moves_self {before after : Scope} {notes : Journal} {others : KeyName → Nat}
    (moves : Scope.Moves number before notes after) (tallied : before.Tallied others)
    (witnessed : Witnessed journal number before.databases before.connection.watched) :
    Witnessed (journal ++ notes) number after.databases after.connection.watched := by
  -- Each step appends its notes to the journal that the next step starts from.
  induction moves generalizing journal with
  | write databases kept =>
    rw [kept]
    -- The connection counts itself as a watcher of what it watches.
    exact witnessed.writes databases tallied fun name held => by simp [share, held]
  | watch found key => exact witnessed.watch found tallied key
  | release scope =>
    -- After a release the connection watches nothing by the journal either.
    refine empty fun name watching => ?_
    rw [Journal.watching_snoc] at watching
    simp at watching
  | trans early late first second =>
    have between := first tallied witnessed
    rw [← List.append_assoc]
    exact second (tallied.moves early) between

end Witnessed
end ScoreStore
