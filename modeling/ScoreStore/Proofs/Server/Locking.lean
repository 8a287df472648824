import ScoreStore.Proofs.Server.Fits

/-!
Watched keys as optimistic locks: a transaction is given up exactly when one of them was written.
-/

namespace ScoreStore

/-- Versions that witness a journal differ from the current ones exactly
when a key was written since. -/
theorem Witnessed.modified_iff {journal : Journal} {number : Nat} {scope : Scope}
    (witnessed : Witnessed journal number scope.databases scope.connection.watched)
    (remain : ∀ database ∈ scope.databases, database.lastVersion < Database.maxVersion) :
    scope.watchedModified = true ↔ ∃ name, journal.Overwritten number name := by
  unfold Scope.watchedModified
  rw [Table.any_entries_iff]
  constructor
  · -- A version that differs is not the current one, so the key was written.
    rintro ⟨⟨index, key⟩, version, kept, differs⟩
    obtain ⟨database, found, stamped⟩ := witnessed.stamped index key version kept
    refine ⟨(index, key), Classical.byContradiction fun unwritten => ?_⟩
    simp only [found, bne_iff_ne] at differs
    exact differs (stamped.current unwritten)
  · -- A key that was written is still watched, and its version is greater now.
    rintro ⟨⟨index, key⟩, overwritten⟩
    have held := (witnessed.watching (index, key)).mpr overwritten.watching
    obtain ⟨version, kept⟩ := Table.contains_iff.mp held
    obtain ⟨database, found, stamped⟩ := witnessed.stamped index key version kept
    have greater := stamped.outdated overwritten (remain database (List.mem_of_getElem? found))
    refine ⟨(index, key), version, kept, ?_⟩
    simp only [found, bne_iff_ne]
    omega

namespace Server

/-- No database has given out the greatest version. -/
def VersionsRemain (server : Server) : Prop :=
  ∀ database ∈ server.databases, database.lastVersion < Database.maxVersion

/-- A transaction is given up, and nothing runs, exactly when a key that the connection
watches was written since. -/
theorem exec_given_up_iff_overwritten {databaseCount : Nat} {endpoint : Endpoint}
    {events : List Event} {server : Server} {number : Nat} {request : Request}
    (reached : (start databaseCount endpoint).run events = server)
    (remain : server.VersionsRemain)
    (named : request.name = "exec") (bare : request.arguments = [])
    (queueing : (server.scope number).connection.queueing = true)
    (clean : (server.scope number).connection.dirty = false) :
    let overwritten := ∃ name,
      ((start databaseCount endpoint).journal events).Overwritten number name
    let handled := server.handle number request
    (handled.2 = .ok { reply := .missingArray } ↔ overwritten) ∧
      (overwritten →
        handled.1 = server.withScope number (server.scope number).leaveTransaction.countAborted ∧
        handled.1.databases.map Database.values = server.databases.map Database.values) ∧
      (¬ overwritten → ∃ final replies,
        (server.scope number).startQueue.runAll (server.scope number).connection.queue =
          (final, .ok replies) ∧
        handled = (server.withScope number final.leaveTransaction.countExecuted,
          .ok { reply := .array replies })) := by
  subst reached
  have sound := (sound_start databaseCount endpoint).run events
  have fits := ((fits_start databaseCount endpoint).run events).connections number
  -- Only what holds in every state that is reached is needed from here on.
  generalize (start databaseCount endpoint).run events = server at *
  rw [List.nil_append] at sound
  have decides : (server.scope number).watchedModified = true ↔
      ∃ name, ((start databaseCount endpoint).journal events).Overwritten number name :=
    Witnessed.modified_iff (sound.witnessed number) remain
  simp only [handle_exec server number named bare]
  -- The check of the versions decides between the two ways.
  by_cases modified : (server.scope number).watchedModified = true
  · -- Leaving the transaction is all that happens.
    have given : (server.scope number).execute =
        ((server.scope number).leaveTransaction.countAborted, .ok { reply := .missingArray }) := by
      simp [Scope.execute, queueing, clean, modified, Scope.reply]
    have overwritten := decides.mp modified
    have spared : (server.scope number).leaveTransaction.databases.map Database.values =
        server.databases.map Database.values := Scope.map_values_unwatchAll _
    rw [given]
    exact ⟨⟨fun _ => overwritten, fun _ => rfl⟩, fun _ => ⟨rfl, spared⟩,
      fun unwritten => absurd overwritten unwritten⟩
  · -- The queue runs, and an array of replies is not a missing one.
    have unwritten : ¬ ∃ name,
        ((start databaseCount endpoint).journal events).Overwritten number name :=
      modified ∘ decides.mpr
    obtain ⟨final, replies, ran, result, _⟩ :=
      fits.execute queueing clean (Bool.not_eq_true _ ▸ modified)
    rw [result]
    refine ⟨⟨fun same => ?_, fun some => absurd some unwritten⟩, fun some => absurd some unwritten,
      fun _ => ⟨final, replies, ran, rfl⟩⟩
    simp at same

/-- A transaction is given up when another connection sets a key that was watched before. -/
theorem exec_given_up_after_set :
    let events : List Event := [.connect 1, .connect 2,
      .request 1 ⟨Text.bytes "WATCH", [Text.bytes "k"]⟩,
      .request 2 ⟨Text.bytes "SET", [Text.bytes "k", Text.bytes "v"]⟩,
      .request 1 ⟨Text.bytes "MULTI", []⟩]
    let server := (start 1 ⟨"localhost", 6379⟩).run events
    (server.handle 1 ⟨Text.bytes "EXEC", []⟩).2 = .ok { reply := .missingArray } := by
  intro events server
  have reached : (start 1 ⟨"localhost", 6379⟩).run events = server := rfl
  have remain : server.VersionsRemain := by
    unfold VersionsRemain
    decide +kernel
  -- The write comes after the watch, and nothing of the connection itself comes in between.
  have journal : (start 1 ⟨"localhost", 6379⟩).journal events =
      [.watched 1 (0, Text.bytes "k"), .wrote (0, Text.bytes "k")] := by decide +kernel
  have named : Request.name ⟨Text.bytes "EXEC", []⟩ = "exec" := by decide +kernel
  have queueing : (server.scope 1).connection.queueing = true := by decide +kernel
  have clean : (server.scope 1).connection.dirty = false := by decide +kernel
  have given := exec_given_up_iff_overwritten reached remain named rfl queueing clean
  refine given.1.mpr ⟨(0, Text.bytes "k"), ?_⟩
  rw [journal]
  exact ⟨[], [.wrote (0, Text.bytes "k")], rfl, by simp, by simp⟩

end Server
end ScoreStore
