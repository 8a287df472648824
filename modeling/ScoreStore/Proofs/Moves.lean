import ScoreStore.Proofs.Command.Writes
import ScoreStore.Proofs.Keyspace.All
import ScoreStore.Transaction

/-!
Moves: all that a connection does to databases and to its watched keys,
with the notes that it leaves.
-/

namespace ScoreStore

/-- The keys that an action writes. -/
def Action.written (scope : Scope) : Action → List KeyName
  | flushAll => allNames scope.databases
  | action =>
    match scope.database? with
    | none => []
    | some database => (action.writtenIn database).map (scope.connection.selected, ·)

/-- The notes that an action of a connection leaves. -/
def Action.notes (number : Nat) (scope : Scope) : Action → Journal
  | unwatch => [.released number]
  | action => (action.written scope).map .wrote

namespace Scope

/-- The notes that actions of a connection leave in turn. -/
def queueNotes (number : Nat) (scope : Scope) : List Action → Journal
  | [] => []
  | action :: rest =>
    match action.run scope with
    | .error _ => []
    | .ok (_, after) => action.notes number scope ++ after.queueNotes number rest

/-- The notes that an instruction for a connection leaves. -/
def notes (number : Nat) (scope : Scope) : Instruction → Journal
  -- Queued actions leave theirs when the queue runs.
  | .act action =>
    if scope.connection.queueing then [] else scope.queueNotes number [action]
  | .execute =>
    if !scope.connection.queueing then []
    else if scope.connection.dirty || scope.watchedModified then [.released number]
    else
      let ran := scope.startQueue.queueNotes number scope.connection.queue
      match (scope.startQueue.runAll scope.connection.queue).2 with
      | .error _ => ran
      | .ok _ => ran ++ [.released number]
  | .discard => if scope.connection.queueing then [.released number] else []
  | .watch keys =>
    if scope.connection.queueing || scope.database?.isNone then []
    else keys.map fun key => .watched number (scope.connection.selected, key)
  | .beginTransaction => []
  | .quit => []

/-- The notes that a request of a connection leaves. -/
def requestNotes (number : Nat) (scope : Scope) : Except Obstacle Instruction → Journal
  | .ok instruction => scope.notes number instruction
  | .error _ => []

/-- What runs on the selected database leaves it as it has it at its end, refused or not. -/
theorem onDatabase_of_found {scope : Scope} {database : Database}
    (found : scope.database? = some database)
    (body : Database → Except WrongType Reply × Database) :
    scope.onDatabase body =
      .ok (.ofResult (body database).1, scope.withDatabase (body database).2) := by
  simp only [onDatabase, found]

/-- Watching a key counts a watcher and keeps the version, unless the key is watched already. -/
theorem watch_eq {scope : Scope} {database : Database} (found : scope.database? = some database)
    (key : Bytes) :
    scope.watch key =
      if scope.connection.watched.contains (scope.connection.selected, key) then scope
      else { scope with
        databases := scope.databases.set scope.connection.selected (database.watch key).2
        connection := { scope.connection with
          watched :=
            scope.connection.watched.set (scope.connection.selected, key)
              (database.version key) } } := by
  have located : scope.databases[scope.connection.selected]? = some database := found
  simp only [watch, watchIn, located]
  -- The key is watched already, or its watcher and its version are put down.
  rfl

/-- Watching a key leaves the selection alone. -/
theorem selected_watch {scope : Scope} {database : Database}
    (found : scope.database? = some database) (key : Bytes) :
    (scope.watch key).connection.selected = scope.connection.selected := by
  rw [watch_eq found]
  split <;> rfl

/-- Watching a key leaves the selected database in its place. -/
theorem database?_watch {scope : Scope} {database : Database}
    (found : scope.database? = some database) (key : Bytes) :
    ∃ next, (scope.watch key).database? = some next := by
  -- It is replaced by itself with one more watcher, if anything is replaced.
  have within : scope.connection.selected < scope.databases.length :=
    (List.getElem?_eq_some_iff.mp found).1
  rw [watch_eq found]
  split
  · exact ⟨database, found⟩
  · exact ⟨(database.watch key).2, List.getElem?_set_self within⟩

/-- Releasing all watched keys leaves all values alone. -/
theorem map_values_unwatchAll (scope : Scope) :
    scope.unwatchAll.databases.map Database.values = scope.databases.map Database.values :=
  map_values_release scope.connection.watched.keys scope.databases

/-- All that a connection can do to databases and to its watched keys, step by step. -/
inductive Moves (number : Nat) : Scope → Journal → Scope → Prop
  /-- It writes keys. -/
  | write {before after : Scope} {names : List KeyName}
      (databases : WritesAll names before.databases after.databases)
      (watched : after.connection.watched = before.connection.watched) :
      Moves number before (names.map .wrote) after
  /-- It watches a key of the selected database. -/
  | watch {scope : Scope} {database : Database} (found : scope.database? = some database)
      (key : Bytes) :
      Moves number scope [.watched number (scope.connection.selected, key)] (scope.watch key)
  /-- It releases all watched keys. -/
  | release (scope : Scope) : Moves number scope [.released number] scope.unwatchAll
  /-- It does one thing after another. -/
  | trans {before between after : Scope} {first second : Journal}
      (early : Moves number before first between) (late : Moves number between second after) :
      Moves number before (first ++ second) after

namespace Moves

variable {number : Nat} {scope before after : Scope} {reply : Reply}

/-- Nothing happens to databases and watched keys. -/
theorem idle (databases : after.databases = before.databases)
    (watched : after.connection.watched = before.connection.watched) :
    Moves number before [] after := by
  have nothing : WritesAll [] before.databases after.databases :=
    databases.symm ▸ WritesAll.refl before.databases
  exact write nothing watched

/-- Leaving a transaction releases all watched keys. -/
theorem leave (scope : Scope) : Moves number scope [.released number] scope.leaveTransaction := by
  -- What else leaving does is nothing to databases and watched keys.
  have forgets : Moves number scope [] { scope with
      connection := { scope.connection with queueing := false, dirty := false, queue := [] } } :=
    idle rfl rfl
  exact forgets.trans (release _)

/-- A body that runs on the selected database writes its keys there. -/
theorem onDatabase (keys : Database → List Bytes)
    {body : Database → Except WrongType Reply × Database}
    (writes : ∀ old, Database.Writes (· ∈ keys old) old (body old).2)
    (ran : scope.onDatabase body = .ok (reply, after)) :
    Moves number scope ((match scope.database? with
      | none => []
      | some database => (keys database).map (scope.connection.selected, ·)).map .wrote) after := by
  -- Without a selected database the action would have failed.
  cases found : scope.database? with
  | none => simp [Scope.onDatabase, found] at ran
  | some database =>
    rw [onDatabase_of_found found] at ran
    obtain ⟨_, rfl⟩ := Prod.mk.inj (Except.ok.inj ran)
    exact write (WritesAll.set found (writes database)) rfl

/-- A sorted-set action makes the notes of its key if it changes the set. -/
theorem sortedSet {key : Bytes} {action : SortedSetAction}
    (ran : (Action.sortedSet key action).run scope = .ok (reply, after)) :
    Moves number scope ((Action.sortedSet key action).notes number scope) after :=
  onDatabase (fun database => (Action.sortedSet key action).writtenIn database)
    (fun old => action.writes_run key old) ran

/-- An action moves on with its notes. -/
theorem action {action : Action} (ran : action.run scope = .ok (reply, after)) :
    Moves number scope (action.notes number scope) after := by
  -- Actions that do not depend on the selected database write none of its keys.
  have apart (databases : after.databases = scope.databases)
      (watched : after.connection.watched = scope.connection.watched) :
      Moves number scope ((match scope.database? with
        | none => []
        | some _ => ([] : List Bytes).map (scope.connection.selected, ·)).map .wrote) after := by
    cases scope.database? <;> exact idle databases watched
  -- Actions on the selected database that only look leave it as it is.
  have looks (old : Database) : Database.Writes (· ∈ ([] : List Bytes)) old old :=
    (Database.Writes.refl old).congr fun _ => by simp
  cases action with simp only [Action.run] at ran
  | answer known =>
    obtain ⟨_, rfl⟩ := Prod.mk.inj (Except.ok.inj ran)
    exact apart rfl rfl
  | report =>
    obtain ⟨_, rfl⟩ := Prod.mk.inj (Except.ok.inj ran)
    exact apart rfl rfl
  -- Another database may be selected now, but nothing in any of them is other than before.
  | select index =>
    obtain ⟨_, rfl⟩ := Prod.mk.inj (Except.ok.inj ran)
    exact apart rfl rfl
  | flush =>
    refine onDatabase (fun database => database.values.keys) (fun old => ?_) ran
    exact (Database.Writes.flush old).congr fun key => Table.mem_keys_iff.symm
  | flushAll =>
    -- Flushing all does not depend on what is selected.
    obtain ⟨_, rfl⟩ := Prod.mk.inj (Except.ok.inj ran)
    exact write (WritesAll.flushAll scope.databases) rfl
  | delete keys =>
    refine onDatabase (fun database => keys.filter database.contains) (fun old => ?_) ran
    exact (Database.deleteAll_writes old keys).congr fun key => by simp
  | countExisting keys => exact onDatabase (fun _ => []) looks ran
  | typeOf key => exact onDatabase (fun _ => []) looks ran
  | set key content =>
    refine onDatabase (fun _ => [key]) (fun old => ?_) ran
    have proper : (Value.string content).Proper := trivial
    exact (Database.Writes.put old key fun _ => proper).congr fun other => by simp
  | get key => exact onDatabase (fun _ => []) looks ran
  | sortedSet key action => exact sortedSet ran
  | unwatch =>
    obtain ⟨_, rfl⟩ := Prod.mk.inj (Except.ok.inj ran)
    exact release scope

/-- Actions in turn move on with their notes, up to the first one without a reply. -/
theorem runAll (actions : List Action) (scope : Scope) :
    Moves number scope (scope.queueNotes number actions) (scope.runAll actions).1 := by
  -- The notes of an action depend on what the earlier ones have left.
  induction actions generalizing scope with
  | nil => exact idle rfl rfl
  | cons first rest ih =>
    cases ran : first.run scope with
    -- A fault ends the queue, and nothing is noted from there on.
    | error fault =>
      simp only [queueNotes, Scope.runAll, ran]
      exact idle rfl rfl
    | ok result =>
      simp only [queueNotes, Scope.runAll, ran]
      exact (action ran).trans (ih result.2)

/-- Watching keys in turn leaves a note for each. -/
theorem watchAll (keys : List Bytes) {scope : Scope} {database : Database}
    (found : scope.database? = some database) :
    Moves number scope (keys.map fun key => .watched number (scope.connection.selected, key))
      (keys.foldl Scope.watch scope) := by
  -- By induction on the keys, in the order in which they are asked for.
  induction keys generalizing scope database with
  | nil => exact idle rfl rfl
  | cons key rest ih =>
    -- The selected database stays selected, though its watchers may have changed.
    obtain ⟨next, located⟩ := database?_watch found key
    have later := ih located
    rw [selected_watch found] at later
    exact (watch found key).trans later

/-- Running the queue, or giving it up, moves on with the notes. -/
theorem execute (scope : Scope) :
    Moves number scope (scope.notes number .execute) scope.execute.1 := by
  have given : Moves number scope [.released number] scope.leaveTransaction.countAborted :=
    (leave scope).trans (idle rfl rfl)
  simp only [Scope.execute, notes]
  split
  · -- Outside a transaction nothing is executed.
    exact idle rfl rfl
  · -- A transaction that is given up releases its watches and runs nothing.
    by_cases dirty : scope.connection.dirty = true
    · simp only [dirty, if_true, Bool.true_or]
      exact given
    · by_cases modified : scope.watchedModified = true
      · simp only [dirty, modified, if_true, Bool.or_true]
        exact given
      · -- Otherwise the queue runs with the watches still on, and they are released after it.
        have started : Moves number scope [] scope.startQueue := idle rfl rfl
        have moves := started.trans (runAll scope.connection.queue scope.startQueue)
        simp only [dirty, modified, Bool.or_self]
        cases ran : scope.startQueue.runAll scope.connection.queue with
        | mk final result =>
          rw [ran] at moves
          cases result with
          | error fault => exact moves
          | ok replies => exact moves.trans ((leave final).trans (idle rfl rfl))

/-- An instruction moves on with its notes. -/
theorem follow (scope : Scope) (instruction : Instruction) :
    Moves number scope (scope.notes number instruction) (scope.follow instruction).1 := by
  cases instruction with
  | act action =>
    -- What is queued is noted when the queue runs.
    simp only [Scope.follow, Scope.act, notes]
    split
    · exact idle rfl rfl
    · -- One action that runs is a queue of its own.
      have moves : Moves number scope (scope.queueNotes number [action])
          (scope.runAll [action]).1 := runAll [action] scope
      cases ran : action.run scope with
      | error fault => simpa only [Scope.runAll, ran] using moves
      | ok result => simpa only [Scope.runAll, ran, Scope.reply] using moves
  | beginTransaction =>
    simp only [Scope.follow, Scope.beginTransaction, notes]
    split <;> exact idle rfl rfl
  | execute => exact execute scope
  | discard =>
    simp only [Scope.follow, Scope.discard, notes]
    -- Outside a transaction there is nothing to discard.
    split
    · exact leave scope
    · exact idle rfl rfl
  | watch keys =>
    simp only [Scope.follow, Scope.watchAll, notes]
    by_cases queueing : scope.connection.queueing = true
    · simp only [queueing, if_true, Bool.true_or]
      exact idle rfl rfl
    · cases found : scope.database? with
      | none =>
        simp only [queueing, Option.isNone_none, Bool.or_true, if_true]
        exact idle rfl rfl
      | some database =>
        simp only [queueing, Option.isNone_some, Bool.or_self]
        exact watchAll keys found
  | quit => exact idle rfl rfl

/-- A request moves on with its notes. -/
theorem handle (scope : Scope) (reading : Except Obstacle Instruction) :
    Moves number scope (scope.requestNotes number reading) (scope.handle reading).1 := by
  cases reading with
  | ok instruction => exact follow scope instruction
  -- A refusal marks the transaction at most.
  | error obstacle => cases obstacle <;> exact idle rfl rfl

/-- A key without the note of a write keeps its value. -/
theorem valueAt_kept {notes : Journal} (moves : Moves number before notes after) {name : KeyName}
    (unwritten : .wrote name ∉ notes) :
    valueAt after.databases name = valueAt before.databases name := by
  -- Only the writes of a move touch values.
  -- By induction on the moves.
  induction moves with
  | write databases _ =>
    refine databases.valueAt_kept fun member => unwritten ?_
    exact List.mem_map_of_mem member
  | watch found key =>
    -- A watcher that comes changes only how many there are.
    refine congrFun (valueAt_congr ?_) name
    rw [watch_eq found]
    split
    · rfl
    · exact map_values_set found rfl
  | release scope => exact congrFun (valueAt_congr (map_values_unwatchAll scope)) name
  | trans _ _ early late =>
    simp only [List.mem_append, not_or] at unwritten
    exact (late unwritten.2).trans (early unwritten.1)

end Moves
end Scope
end ScoreStore
