import ScoreStore.Proofs.Server.Run

/-! What databases keep about their keys in every run: members, versions and watchers. -/

namespace ScoreStore.Server

/-- What a database of a server keeps about its keys. -/
structure KeepsKeys (server : Server) (index : Nat) (database : Database) : Prop where
  /-- Every sorted set has members. -/
  members : ∀ key set, database.get? key = some (.sortedSet set) → set.elements ≠ []
  /-- Every key with a value has a version that was given out. -/
  versioned : ∀ key, database.contains key = true → ∃ version,
    database.versions.get? key = some version ∧ 1 ≤ version ∧ version ≤ database.lastVersion
  /-- No two keys have the same version, as long as the greatest version was not reached. -/
  distinct : database.lastVersion < Database.maxVersion → ∀ key other version otherVersion,
    database.versions.get? key = some version →
      database.versions.get? other = some otherVersion → key ≠ other → version ≠ otherVersion
  /-- A key without a value has a version only while some open connection watches it. -/
  remembered : ∀ key version, database.get? key = none →
    database.versions.get? key = some version → ∃ number connection,
      server.connections.get? number = some connection ∧
        connection.watched.contains (index, key) = true
  /-- The watchers of every key are the open connections that watch it. -/
  counted : ∀ key, (database.watchers.get? key).getD 0 = server.holders (index, key)
  /-- No key is counted with zero watchers. -/
  nonzero : ∀ key, database.watchers.get? key ≠ some 0
  /-- When no open connection watches anything, the keys with versions are those with values. -/
  settled : (∀ number connection, server.connections.get? number = some connection →
    connection.watched.size = 0) → database.versions.size = database.size

/-- All databases of a server keep what they should about their keys. -/
def KeepsAllKeys (server : Server) : Prop :=
  ∀ index database, server.databases[index]? = some database → server.KeepsKeys index database

/-- A positive number of holders comes from an open connection that watches the key. -/
theorem exists_of_holders_pos {server : Server} {name : KeyName}
    (watched : 0 < server.holders name) :
    ∃ number connection, server.connections.get? number = some connection ∧
      connection.watched.contains name = true := by
  -- Some entry of the connections is counted.
  obtain ⟨⟨number, connection⟩, member, held⟩ := List.countP_pos_iff.mp watched
  exact ⟨number, connection, Table.mem_entries_iff.mp member, held⟩

/-- A server in order keeps what it should about its keys. -/
theorem Sound.keepsAllKeys {journal : Journal} {server : Server} (sound : Sound journal server) :
    server.KeepsAllKeys := by
  intro index database found
  have tallied := sound.tallied index database found
  refine ⟨?_, ?_, ?_, ?_, tallied.counted, tallied.sound.nonzero, ?_⟩
  · intro key set stored empty
    -- A sound set has as many elements as its size tells, and a proper one is not empty.
    obtain ⟨agrees, nonempty⟩ := tallied.proper key _ stored
    rw [SortedSet.isEmpty, agrees.size_eq, empty] at nonempty
    cases nonempty
  · intro key present
    -- Versions are kept for all values, and all of them were given out.
    obtain ⟨version, stored⟩ := Table.contains_iff.mp (tallied.sound.versioned key present)
    exact ⟨version, stored, tallied.sound.bounded key version stored⟩
  · intro below key other version otherVersion stored otherStored different same
    subst same
    exact different (tallied.sound.distinct below key other version stored otherStored)
  · intro key version absent stored
    -- A version is kept for a value or for a watcher, and there is no value.
    have kept := tallied.sound.remembered key List.not_mem_nil
      (Table.contains_iff.mpr ⟨version, stored⟩)
    have missing : database.contains key = false := Table.contains_eq_false_iff.mpr absent
    have watched := kept.resolve_left (by simp [missing])
    exact exists_of_holders_pos (tallied.watching_pos watched)
  · intro nobody
    -- Without watchers a version is kept for a value only, and every value has one.
    have unwatched : ∀ key, ¬ database.watchers.contains key = true := by
      intro key watched
      obtain ⟨number, connection, opened, held⟩ :=
        exists_of_holders_pos (tallied.watching_pos watched)
      have absent := Table.size_eq_zero_iff.mp (nobody number connection opened) (index, key)
      cases held.symm.trans absent
    refine Table.size_eq_of_contains fun key => Bool.eq_iff_iff.mpr ⟨fun versioned => ?_, ?_⟩
    · exact (tallied.sound.remembered key List.not_mem_nil versioned).resolve_right (unwatched key)
    · exact tallied.sound.versioned key

/-- In every run all databases keep what they should about their keys. -/
theorem run_keepsAllKeys (databaseCount : Nat) (endpoint : Endpoint) (events : List Event) :
    ((start databaseCount endpoint).run events).KeepsAllKeys :=
  -- A server is in order from its start on.
  ((sound_start databaseCount endpoint).run events).keepsAllKeys

end ScoreStore.Server
