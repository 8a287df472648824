import ScoreStore.Proofs.Connection.Fits

/-!
What can come of a request, with the state that it leaves and the answer that it gets, case by case.
-/

namespace ScoreStore

namespace Scope

/-- What can come of a request that was read in some way. -/
inductive Outcome (scope : Scope) (reading : Except Obstacle Instruction) : Handled Scope → Prop
  /-- It has no reply. -/
  | failed (fault : Fault) (read : reading = .error (.fault fault)) :
    Outcome scope reading (scope, .error fault)
  /-- It is refused. -/
  | refused (refusal : Refusal) (read : reading = .error (.refusal refusal)) :
    Outcome scope reading (scope.refuse refusal)
  /-- Its action is queued. -/
  | queued (action : Action) (read : reading = .ok (.act action))
    (queueing : scope.connection.queueing = true) :
    Outcome scope reading ((scope.enqueue action).reply (.status "QUEUED"))
  /-- Its action runs. -/
  | ran (action : Action) (read : reading = .ok (.act action))
    (queueing : scope.connection.queueing = false) {reply : Reply} {after : Scope}
    (ran : action.run scope = .ok (reply, after))
    (connection : after.connection = { scope.connection with
      selected := after.connection.selected, watched := after.connection.watched }) :
    Outcome scope reading (after.reply reply)
  /-- A transaction begins. -/
  | begun (read : reading = .ok .beginTransaction) (queueing : scope.connection.queueing = false) :
    Outcome scope reading (reply { scope with
      connection := { scope.connection with queueing := true, dirty := false, queue := [] } } .ok)
  /-- Keys are watched. -/
  | watching (keys : List Bytes) (read : reading = .ok (.watch keys))
    (queueing : scope.connection.queueing = false) :
    Outcome scope reading ((keys.foldl watch scope).reply .ok)
  /-- It must not be made in a transaction, and is refused. -/
  | misplaced (refusal : Refusal) (queueing : scope.connection.queueing = true)
    (read : reading = .ok .beginTransaction ∧ refusal = .nestedTransaction ∨
      ∃ keys, reading = .ok (.watch keys) ∧ refusal = .watchInTransaction) :
    Outcome scope reading (scope.refuse refusal)
  /-- There is no transaction that could end. -/
  | pointless (refusal : Refusal) (queueing : scope.connection.queueing = false)
    (read : reading = .ok .execute ∧ refusal = .nothingToExecute ∨
      reading = .ok .discard ∧ refusal = .nothingToDiscard) :
    Outcome scope reading (scope.reply refusal.reply)
  /-- The queue does not run because a command was refused. -/
  | aborted (read : reading = .ok .execute) (queueing : scope.connection.queueing = true)
    (dirty : scope.connection.dirty = true) :
    Outcome scope reading
      (scope.leaveTransaction.countAborted.reply Refusal.abortedTransaction.reply)
  /-- The queue does not run because a watched key was modified. -/
  | overtaken (read : reading = .ok .execute) (queueing : scope.connection.queueing = true)
    (clean : scope.connection.dirty = false) (modified : scope.watchedModified = true) :
    Outcome scope reading (scope.leaveTransaction.countAborted.reply .missingArray)
  /-- The queue runs. -/
  | executed (read : reading = .ok .execute) (queueing : scope.connection.queueing = true)
    (clean : scope.connection.dirty = false) (unmodified : scope.watchedModified = false)
    {final : Scope} {replies : List Reply}
    (ran : scope.startQueue.runAll scope.connection.queue = (final, .ok replies)) :
    Outcome scope reading (final.leaveTransaction.countExecuted.reply (.array replies))
  /-- The queue is dropped. -/
  | discarded (read : reading = .ok .discard) (queueing : scope.connection.queueing = true) :
    Outcome scope reading (scope.leaveTransaction.reply .ok)
  /-- The connection ends. -/
  | quit (read : reading = .ok .quit) :
    Outcome scope reading (scope, .ok { reply := .ok, closes := true })

variable {scope : Scope}

/-- An action is queued in a transaction, and runs outside. -/
theorem outcome_act (fits : scope.Fits) (action : Action) :
    Outcome scope (.ok (.act action)) (scope.act action) := by
  unfold act
  cases queueing : scope.connection.queueing with
  | true => exact .queued action rfl queueing
  | false =>
    -- On a connection that fits, every action has a reply.
    obtain ⟨reply, after, ran, same, _⟩ := action.run_spec fits.selected
    simp only [Bool.false_eq_true, if_false, ran]
    exact .ran action rfl queueing ran same

/-- The queue runs unless there is none, a command was refused, or a watched key was modified. -/
theorem outcome_execute (fits : scope.Fits) : Outcome scope (.ok .execute) scope.execute := by
  unfold execute
  -- The checks are made in this order, so that a spoiled transaction
  -- never looks at its watched keys.
  split
  · next outside => exact .pointless _ (by simpa using outside) (Or.inl ⟨rfl, rfl⟩)
  · next inside =>
    -- From here on a transaction has begun.
    have queueing : scope.connection.queueing = true := by simpa using inside
    split
    · next dirty => exact .aborted rfl queueing dirty
    · next clean =>
      have clean : scope.connection.dirty = false := by simpa using clean
      split
      · next modified => exact .overtaken rfl queueing clean modified
      · next unmodified =>
        -- Only actions that fit were queued, so that each of them has a reply.
        have started : scope.startQueue.connection.selected < scope.startQueue.databases.length :=
          fits.selected
        obtain ⟨final, replies, ran, _⟩ := runAll_spec started fits.queue
        rw [ran]
        exact .executed rfl queueing clean (by simpa using unmodified) ran

/-- Something of this comes of every request. -/
theorem outcome_handle (fits : scope.Fits) (reading : Except Obstacle Instruction) :
    Outcome scope reading (scope.handle reading) := by
  cases reading with
  | error obstacle =>
    cases obstacle with
    -- An obstacle is answered before anything is done.
    | fault fault => exact .failed fault rfl
    | refusal refusal => exact .refused refusal rfl
  | ok instruction =>
    cases instruction with
    | act action => exact outcome_act fits action
    | beginTransaction =>
      simp only [handle, follow, beginTransaction]
      -- Transactions do not nest.
      cases queueing : scope.connection.queueing with
      | true => exact .misplaced _ queueing (Or.inl ⟨rfl, rfl⟩)
      | false => exact .begun rfl queueing
    | execute => exact outcome_execute fits
    | discard =>
      simp only [handle, follow, discard]
      -- What is queued is dropped only where there is a queue.
      cases queueing : scope.connection.queueing with
      | true => exact .discarded rfl queueing
      | false => exact .pointless _ queueing (Or.inr ⟨rfl, rfl⟩)
    | watch keys =>
      simp only [handle, follow, watchAll]
      cases queueing : scope.connection.queueing with
      | true => exact .misplaced _ queueing (Or.inr ⟨keys, rfl, rfl⟩)
      | false =>
        -- The selected database is there, so that its keys can be watched.
        obtain ⟨database, found⟩ : ∃ database, scope.database? = some database :=
          ⟨_, List.getElem?_eq_getElem fits.selected⟩
        rw [found]
        exact .watching keys rfl queueing
    | quit => exact .quit rfl

end Scope
end ScoreStore
