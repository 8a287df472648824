import ScoreStore.Proofs.Server.Listing
import ScoreStore.Proofs.Server.Typed

/-!
What a connection finds under a key, and what one command on a sorted set
makes of it and tells of it.
-/

namespace ScoreStore.Server

/-- A connection outside a transaction finds a set under a key of its database, where a key that
holds nothing has the empty set. -/
structure Finds (server : Server) (number : Nat) (name : KeyName) (set : SortedSet) : Prop where
  reached : server.IsReached
  outside : server.isQueueing number = false
  selected : (server.scope number).connection.selected = name.1
  held : (valueAt server.databases name = none ∧ set = .empty) ∨
    valueAt server.databases name = some (.sortedSet set)

/-- What a command with some arguments would be told now. -/
def Tells (server : Server) (number : Nat) (verb : CommandName) (arguments : List Bytes)
    (reply : Reply) : Prop :=
  ∀ request : Request, request.name = verb.text → request.arguments = arguments →
    (server.handle number request).2 = .ok { reply }

/-- What an action on the set under a key comes to: its reply, and the database
that it makes of another one. -/
structure Acts (server : Server) (number : Nat) (name : KeyName) (set : SortedSet)
    (action : SortedSetAction) (before after : Database) (handled : Handled Server) : Prop where
  found : server.databases[name.1]? = some before
  ran : action.run name.2 before = (.ok (action.effect set).1, after)
  writes : Database.Writes (fun key => key = name.2 ∧ action.writes set = true) before after
  changed : handled.1.databases[name.1]? = some after
  told : handled.2 = .ok { reply := (action.effect set).1 }
  finds : handled.1.Finds number name (action.effect set).2
  others : KeepsAllBut name server.databases handled.1.databases

variable {server : Server} {number : Nat} {name : KeyName} {set : SortedSet} {request : Request}

namespace Finds

/-- The set is what the database of the key has under it. -/
theorem exists_database (finds : server.Finds number name set) : ∃ database,
    server.databases[name.1]? = some database ∧ database.sortedSet name.2 = .ok set := by
  -- The connection has the database selected, so that it exists.
  have within : name.1 < server.databases.length :=
    finds.selected ▸ (finds.reached.fits.connections number).selected
  have found := List.getElem?_eq_getElem within
  refine ⟨_, found, Database.sortedSet_eq_ok_iff.mpr ?_⟩
  rw [← valueAt_eq found]
  exact finds.held

/-- What is found is sound. -/
theorem sound (finds : server.Finds number name set) : set.Sound := by
  obtain ⟨database, found, stored⟩ := finds.exists_database
  exact (finds.reached.proper found).sound stored

/-- A key exists exactly if the set that is found there has elements. -/
theorem exists_iff (finds : server.Finds number name set) :
    (valueAt server.databases name).isSome = true ↔ set.elements ≠ [] := by
  -- Either nothing is stored and nothing is in the set, or the set is stored.
  rcases finds.held with ⟨absent, rfl⟩ | stored
  · rw [absent]
    exact iff_of_false Bool.false_ne_true fun nonempty => nonempty rfl
  · -- No set without elements is stored.
    obtain ⟨sound, members⟩ := finds.reached.proper_valueAt stored
    rw [stored]
    refine iff_of_true rfl fun none => ?_
    rw [SortedSet.isEmpty, sound.size_eq, none] at members
    cases members

/-- A request that is read as an action on the set has the effect of that action, and no other. -/
theorem acts {action : SortedSetAction} (finds : server.Finds number name set)
    (accepted : request.instruction server.site = .ok (.act (.sortedSet name.2 action))) :
    ∃ before after,
      server.Acts number name set action before after (server.handle number request) := by
  obtain ⟨before, found, stored⟩ := finds.exists_database
  obtain ⟨reply, after, ran, exact, writes⟩ := SortedSetAction.run_spec stored action
  obtain ⟨rfl, storedAfter⟩ := exact finds.sound
  -- The action runs at once, on the database that the connection has selected.
  have selected : (server.scope number).database? = some before := by
    rw [Scope.database?, finds.selected]
    exact found
  have run : (Action.sortedSet name.2 action).run (server.scope number) =
      .ok ((action.effect set).1, (server.scope number).withDatabase after) := by
    rw [Action.run, Scope.onDatabase_of_found selected, ran]
    rfl
  have handled := handle_of_run finds.outside accepted run
  -- Of all databases only this one is replaced.
  have databases : (server.handle number request).1.databases =
      server.databases.set name.1 after := by
    rw [handled, ← finds.selected]
    rfl
  have within : name.1 < server.databases.length := (List.getElem?_eq_some_iff.mp found).1
  have changed : (server.handle number request).1.databases[name.1]? = some after := by
    rw [databases, List.getElem?_set_self within]
  refine ⟨before, after, found, ran, writes, changed, by rw [handled], ?_, ?_⟩
  · -- The server that is left is one that is reached, with the connection as it was.
    refine ⟨finds.reached.handle number request, ?_, ?_, ?_⟩
    · rw [handled, isQueueing, scope_withScope]
      exact finds.outside
    · rw [handled, scope_withScope]
      exact finds.selected
    · have same := valueAt_eq changed name.2
      rw [Prod.mk.eta] at same
      rw [same]
      exact Database.sortedSet_eq_ok_iff.mp storedAfter
  · -- No other name is written, since the action has only this one.
    rw [databases]
    exact KeepsAllBut.set found (writes.keepsBut fun key wrote => wrote.1)

/-- A request that is read as an action on the set is told what the action tells of it. -/
theorem answer {action : SortedSetAction} (finds : server.Finds number name set)
    (accepted : request.instruction server.site = .ok (.act (.sortedSet name.2 action))) :
    (server.handle number request).2 = .ok { reply := (action.effect set).1 } := by
  obtain ⟨before, after, acts⟩ := finds.acts accepted
  exact acts.told

/-- A command with some arguments after the key is told what its action tells. -/
theorem tells (finds : server.Finds number name set) (verb : CommandName) (words : List Bytes)
    (action : SortedSetAction) (group : verb.group = .sortedSets)
    (taken : verb.entry.accepts (words.length + 2) = true)
    (read : ∀ request : Request, request.arguments = name.2 :: words →
      SortedSetAction.ofName? request verb = some (.ok action)) :
    server.Tells number verb (name.2 :: words) (action.effect set).1 := by
  intro request named arguments
  -- The words are the name of the command, the key and those behind it.
  have first : request.arguments.head? = some name.2 := by rw [arguments]; rfl
  have count : request.words.length = words.length + 2 := by
    rw [Request.words, arguments]
    rfl
  exact finds.answer (Request.instruction_sortedSet group named (count ▸ taken) first
    (read request arguments) server.site)

/-- The number of elements is told. -/
theorem tells_zcard (finds : server.Finds number name set) :
    server.Tells number .zcard [name.2] (.count set.size) :=
  finds.tells .zcard [] .size rfl rfl fun _ _ => rfl

/-- The score of a member is told, as it is written. -/
theorem tells_zscore (finds : server.Finds number name set) (member : Bytes) :
    server.Tells number .zscore [name.2, member]
      (.ofBytes? ((set.score? member).map Score.write)) := by
  -- The one word behind the key is the member.
  refine finds.tells .zscore [member] (.score member) rfl rfl fun request arguments => ?_
  rw [SortedSetAction.ofName?, Request.need, arguments]
  rfl

end Finds

/-- What can be seen under a key is found there. -/
theorem IsReached.finds_of_contentAt {elements : List Element} (reached : server.IsReached)
    (number : Nat) (outside : server.isQueueing number = false)
    (selected : (server.scope number).connection.selected = name.1)
    (content : server.contentAt name = some (.sortedSet elements)) :
    ∃ set, server.Finds number name set ∧ set.elements = elements := by
  obtain ⟨set, stored, same⟩ := exists_set_of_contentAt content
  exact ⟨set, ⟨reached, outside, selected, Or.inr stored⟩, same⟩

end ScoreStore.Server
