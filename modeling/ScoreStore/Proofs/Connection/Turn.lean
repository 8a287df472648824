import ScoreStore.Proofs.Connection.Outcome

/-! What a request does to the queue of its connection, and how the answer tells of it. -/

namespace ScoreStore

/-- Whether an answer says that a command was queued. -/
def tellsQueued : Except Fault Answer → Bool
  | .ok ⟨.status text, _⟩ => text == "QUEUED"
  | _ => false

namespace Scope

/-- What a request does to the queue of its connection. -/
inductive Turn (scope : Scope) (reading : Except Obstacle Instruction) (handled : Handled Scope) :
    Prop
  /-- An action is queued, and the answer says so. -/
  | queues (action : Action) (read : reading = .ok (.act action))
      (queueing : scope.connection.queueing = true) (told : tellsQueued handled.2 = true)
      (still : handled.1.connection.queueing = true)
      (queue : handled.1.connection.queue = scope.connection.queue ++ [action])
  /-- A transaction begins with nothing queued. -/
  | begins (queueing : scope.connection.queueing = false) (untold : tellsQueued handled.2 = false)
      (queue : handled.1.connection.queue = [])
  /-- The transaction is over, if there was one. -/
  | ends (ended : handled.1.connection.queueing = false)
  /-- Nothing happens to the transaction. -/
  | keeps (untold : tellsQueued handled.2 = false)
      (queueing : handled.1.connection.queueing = scope.connection.queueing)
      (queue : handled.1.connection.queue = scope.connection.queue)

variable {scope : Scope}

/-- Every request queues an action, begins or ends a transaction, or does nothing to it. -/
theorem handle_turn (fits : scope.Fits) (reading : Except Obstacle Instruction) :
    Turn scope reading (scope.handle reading) := by
  -- An answer of success is another text than that of queueing.
  have untold (closes : Bool) : tellsQueued (.ok { reply := .ok, closes }) = false := by
    cases closes <;> decide
  have outcome := outcome_handle fits reading
  generalize scope.handle reading = handled at outcome ⊢
  cases outcome with
  -- Refusals and other errors leave the transaction as it is, but for its mark.
  | failed | refused | misplaced | pointless => exact .keeps rfl rfl rfl
  | queued action read queueing => exact .queues action read queueing rfl queueing rfl
  | ran action read queueing ran same =>
    -- No action begins a transaction.
    refine .ends ?_
    rw [reply, same]
    exact queueing
  | begun read queueing => exact .begins queueing (untold false) rfl
  | watching keys read queueing =>
    have same := connection_watchAll keys scope
    refine .keeps (untold false) ?_ ?_ <;> rw [reply, same]
  -- All four ends of a transaction stop the queueing.
  | aborted | overtaken | executed | discarded => exact .ends rfl
  | quit => exact .keeps (untold true) rfl rfl

end Scope
end ScoreStore
