import ScoreStore.Proofs.Command.Instruction
import ScoreStore.Proofs.Connection.Tallied

/-! Connections that can go on: the databases that they selected and will select exist. -/

namespace ScoreStore

/-- The number of databases stays, whatever a connection does. -/
theorem Scope.Moves.length {number : Nat} {before after : Scope} {notes : Journal}
    (moves : Moves number before notes after) :
    after.databases.length = before.databases.length := by
  -- Databases are changed in their places.
  induction moves with
  | write databases watched => exact databases.length
  -- One watcher more replaces one database, if any.
  | watch found key => exact (spares_watch (fun _ => 0) found key).length
  | release scope => exact length_release scope.connection.watched.keys scope.databases
  | trans early late first second => exact second.trans first

/-- Leaving a transaction keeps the number of databases. -/
theorem Scope.length_leaveTransaction (scope : Scope) :
    scope.leaveTransaction.databases.length = scope.databases.length := by
  -- Leaving is a move, whatever its notes are.
  have moved : Moves 0 scope _ scope.leaveTransaction := Moves.leave scope
  exact moved.length

/-- Running an action keeps the number of databases. -/
theorem Action.length_run {scope after : Scope} {action : Action} {reply : Reply}
    (ran : action.run scope = .ok (reply, after)) :
    after.databases.length = scope.databases.length := by
  have moved : Scope.Moves 0 scope _ after := Scope.Moves.action ran
  exact moved.length

/-- Handling a request keeps the number of databases. -/
theorem Scope.length_handle (scope : Scope) (reading : Except Obstacle Instruction) :
    (scope.handle reading).1.databases.length = scope.databases.length := by
  have moved : Moves 0 scope _ (scope.handle reading).1 := Moves.handle scope reading
  exact moved.length

/-- The selected database of a connection exists, as do those that its queue selects. -/
structure Connection.Fits (count : Nat) (connection : Connection) : Prop where
  /-- The selected database exists. -/
  selected : connection.selected < count
  /-- The queued actions fit. -/
  queue : ∀ action ∈ connection.queue, action.Fits count

/-- Putting the selected database where it was changes nothing. -/
theorem Scope.withDatabase_self {scope : Scope} {database : Database}
    (found : scope.database? = some database) : scope.withDatabase database = scope := by
  obtain ⟨within, rfl⟩ := List.getElem?_eq_some_iff.mp found
  exact congrArg (fun databases => { scope with databases }) (List.set_getElem_self within)

/-- An action on the selected database gets a reply and leaves the connection alone. -/
theorem Scope.onDatabase_ok {scope : Scope}
    (selected : scope.connection.selected < scope.databases.length)
    (body : Database → Except WrongType Reply × Database) :
    ∃ reply after, scope.onDatabase body = .ok (reply, after) ∧
      after.connection = scope.connection := by
  -- Even a value of another type gets a reply.
  have found : scope.database? = some scope.databases[scope.connection.selected] :=
    List.getElem?_eq_getElem selected
  exact ⟨_, _, onDatabase_of_found found body, rfl⟩

/-- An action gets a reply, changes of its connection the selection and the watched keys at most,
and selects only a database that it fits. -/
theorem Action.run_spec {scope : Scope}
    (selected : scope.connection.selected < scope.databases.length)
    (action : Action) :
    ∃ reply after, action.run scope = .ok (reply, after) ∧
      after.connection = { scope.connection with
        selected := after.connection.selected, watched := after.connection.watched } ∧
      (action.Fits scope.databases.length →
        after.connection.selected < scope.databases.length) := by
  -- An action on the selected database leaves the whole connection alone.
  have onSelected (body : Database → Except WrongType Reply × Database) :
      ∃ reply after, scope.onDatabase body = .ok (reply, after) ∧
        after.connection = { scope.connection with
          selected := after.connection.selected, watched := after.connection.watched } ∧
        (action.Fits scope.databases.length →
          after.connection.selected < scope.databases.length) := by
    obtain ⟨reply, after, ran, same⟩ := Scope.onDatabase_ok selected body
    exact ⟨reply, after, ran, by rw [same], fun _ => same ▸ selected⟩
  cases action with simp only [Action.run]
  | answer known => exact ⟨known, scope, rfl, rfl, fun _ => selected⟩
  | report => exact ⟨_, scope, rfl, rfl, fun _ => selected⟩
  -- What is selected is checked against the databases when it is read.
  | select index => exact ⟨_, _, rfl, rfl, id⟩
  | flush => exact onSelected _
  | flushAll => exact ⟨_, _, rfl, rfl, fun _ => selected⟩
  | delete keys => exact onSelected _
  | countExisting keys => exact onSelected _
  | typeOf key => exact onSelected _
  | set key content => exact onSelected _
  | get key => exact onSelected _
  | sortedSet key action => exact onSelected _
  | unwatch => exact ⟨_, _, rfl, rfl, fun _ => selected⟩

namespace Scope

/-- The connection fits the databases that it can reach. -/
def Fits (scope : Scope) : Prop := scope.connection.Fits scope.databases.length

/-- Actions that fit all get a reply, and they leave of their connection what one action leaves. -/
theorem runAll_spec {scope : Scope} (selected : scope.connection.selected < scope.databases.length)
    {actions : List Action} (fits : ∀ action ∈ actions, action.Fits scope.databases.length) :
    ∃ final replies, scope.runAll actions = (final, .ok replies) ∧
      final.connection = { scope.connection with
        selected := final.connection.selected, watched := final.connection.watched } ∧
      final.connection.selected < scope.databases.length := by
  -- Each action leaves a selection that exists, so the next one runs as well.
  induction actions generalizing scope with
  | nil => exact ⟨scope, [], rfl, rfl, selected⟩
  | cons action rest ih =>
    obtain ⟨reply, next, ran, first, within⟩ := action.run_spec selected
    have length := Action.length_run ran
    obtain ⟨final, replies, ranRest, second, withinRest⟩ := ih
      (length.symm ▸ within (fits action List.mem_cons_self))
      fun later member => length.symm ▸ fits later (List.mem_cons_of_mem action member)
    -- The replies are put together as the actions are run.
    refine ⟨final, reply :: replies, ?_, second.trans (by rw [first]), length ▸ withinRest⟩
    simp only [runAll, ran, ranRest, Except.map]

/-- A connection that leaves its transaction still fits. -/
theorem fits_leaveTransaction {scope : Scope}
    (selected : scope.connection.selected < scope.databases.length) :
    scope.leaveTransaction.Fits where
  selected := by
    rw [length_leaveTransaction]
    exact selected
  queue := fun _ member => absurd member List.not_mem_nil

/-- Watching keys leaves the selection and the transaction alone. -/
theorem connection_watchAll (keys : List Bytes) (scope : Scope) :
    (keys.foldl watch scope).connection = { scope.connection with
      watched := (keys.foldl watch scope).connection.watched } := by
  -- Each watch at most records its key.
  induction keys generalizing scope with
  | nil => rfl
  | cons key rest ih =>
    have first : (scope.watch key).connection = { scope.connection with
        watched := (scope.watch key).connection.watched } := by
      simp only [watch, watchIn]
      split
      · rfl
      · split <;> rfl
    rw [List.foldl_cons, ih, first]

/-- A connection that runs its queue, or gives it up, still fits. -/
theorem fits_execute {scope : Scope} (fits : scope.Fits) : scope.execute.1.Fits := by
  unfold execute
  split
  · -- Outside a transaction nothing changes.
    exact fits
  · split
    · -- A transaction that is given up leaves its queue empty.
      exact fits_leaveTransaction fits.selected
    · split
      · exact fits_leaveTransaction fits.selected
      · -- The queue may leave another selection, which is one of its own.
        have started : scope.startQueue.connection.selected <
            scope.startQueue.databases.length := fits.selected
        obtain ⟨final, replies, ran, _, within⟩ := runAll_spec started fits.queue
        have moved : Moves 0 scope.startQueue _ _ :=
          Moves.runAll scope.connection.queue scope.startQueue
        rw [ran] at moved ⊢
        have selected : final.connection.selected < final.databases.length :=
          moved.length.symm ▸ within
        have left := fits_leaveTransaction selected
        exact ⟨left.selected, left.queue⟩

/-- A connection that follows an instruction that fits still fits. -/
theorem Fits.follow {scope : Scope} (fits : scope.Fits) {instruction : Instruction}
    (fitting : instruction.Fits scope.databases.length) : (scope.follow instruction).1.Fits := by
  -- Actions are queued or run as they were read, and everything else keeps or empties the queue.
  cases instruction with
  | act action =>
    simp only [Scope.follow, Scope.act]
    split
    · -- The action is queued as it was read.
      refine ⟨fits.selected, fun queued member => ?_⟩
      rcases List.mem_append.mp member with earlier | last
      · exact fits.queue queued earlier
      · rw [List.mem_singleton.mp last]
        exact fitting
    · -- The action runs, and selects a database that is there if it selects any.
      obtain ⟨reply, next, ran, same, within⟩ := action.run_spec fits.selected
      have length := Action.length_run ran
      simp only [ran]
      refine ⟨length ▸ within fitting, fun queued member => ?_⟩
      have kept : next.connection.queue = scope.connection.queue := by rw [same]
      exact length ▸ fits.queue queued (kept ▸ member)
  | beginTransaction =>
    simp only [Scope.follow, Scope.beginTransaction]
    split
    · exact ⟨fits.selected, fits.queue⟩
    · -- A transaction begins with an empty queue.
      exact ⟨fits.selected, fun _ member => absurd member List.not_mem_nil⟩
  | execute => exact fits_execute fits
  | discard =>
    simp only [Scope.follow, Scope.discard]
    split
    · exact fits_leaveTransaction fits.selected
    · exact fits
  | watch keys =>
    simp only [Scope.follow, Scope.watchAll]
    split
    · exact ⟨fits.selected, fits.queue⟩
    · split
      · exact fits
      · next database found =>
        have moved : Moves 0 scope _ _ := Moves.watchAll keys found
        have same := connection_watchAll keys scope
        -- Watching records names and keeps the rest of the connection.
        refine ⟨?_, ?_⟩
        · rw [reply, moved.length, same]
          exact fits.selected
        · rw [reply, moved.length, same]
          exact fits.queue
  | quit => exact fits

/-- A queue that runs gets a reply for every action, and leaves nothing of the
transaction but watched keys. -/
theorem Fits.execute {scope : Scope} (fits : scope.Fits)
    (queueing : scope.connection.queueing = true) (clean : scope.connection.dirty = false)
    (unmodified : scope.watchedModified = false) :
    ∃ final replies, scope.startQueue.runAll scope.connection.queue = (final, .ok replies) ∧
      scope.execute = (final.leaveTransaction.countExecuted, .ok { reply := .array replies }) ∧
      final.connection.queueing = false ∧ final.leaveTransaction = final.unwatchAll := by
  have started : scope.startQueue.connection.selected < scope.startQueue.databases.length :=
    fits.selected
  -- What the queue leaves of the connection is not queueing, not dirty, and has nothing queued.
  obtain ⟨final, replies, ran, shape, _⟩ := runAll_spec started fits.queue
  -- Of the connection only the selection and the watched keys may be others.
  refine ⟨final, replies, ran, ?_, by rw [shape]; rfl, ?_⟩
  · simp [Scope.execute, queueing, clean, unmodified, ran, reply]
  · have cleared : { final.connection with queueing := false, dirty := false, queue := [] } =
        final.connection := by
      rw [shape]
      simp [startQueue, clean]
    rw [leaveTransaction, cleared]

end Scope
end ScoreStore
