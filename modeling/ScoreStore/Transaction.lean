import ScoreStore.Command.Instruction
import ScoreStore.Command.Run

/-!
What a connection does with instructions: running actions, queueing them,
and running the queue at once.
-/

namespace ScoreStore

/-- What a client receives for a request, and whether its connection ends with it. -/
structure Answer where
  /-- The reply. -/
  reply : Reply
  /-- Whether the connection ends after the reply. -/
  closes : Bool := false

/-- The state after a request, and its answer unless there is none. -/
abbrev Handled (state : Type) := state × Except Fault Answer

namespace Scope

/-- Answers a request without any effect. -/
def reply (scope : Scope) (reply : Reply) : Handled Scope := (scope, .ok { reply })

/-- Refuses a request, which also spoils the transaction. -/
def refuse (scope : Scope) (refusal : Refusal) : Handled Scope :=
  scope.markDirty.reply refusal.reply

/-- Appends an action to the queue. -/
def enqueue (scope : Scope) (action : Action) : Scope :=
  { scope with
    connection := { scope.connection with queue := scope.connection.queue ++ [action] } }

/-- Runs an action, or queues it after a transaction has begun. -/
def act (scope : Scope) (action : Action) : Handled Scope :=
  -- A queued action is answered before it runs, when only its words have been checked.
  if scope.connection.queueing then (scope.enqueue action).reply (.status "QUEUED")
  else match action.run scope with
    | .error fault => (scope, .error fault)
    | .ok (reply, scope) => scope.reply reply

/-- Begins a transaction with an empty queue. -/
def beginTransaction (scope : Scope) : Handled Scope :=
  if scope.connection.queueing then scope.refuse .nestedTransaction
  else
    reply { scope with
      connection := { scope.connection with queueing := true, dirty := false, queue := [] } } .ok

/-- Runs actions in turn, up to the first one without a reply. -/
def runAll (scope : Scope) : List Action → Scope × Except Fault (List Reply)
  -- What earlier actions did stays done.
  | [] => (scope, .ok [])
  | action :: rest =>
    match action.run scope with
    | .error fault => (scope, .error fault)
    | .ok (reply, scope) =>
      let (scope, replies) := scope.runAll rest
      (scope, replies.map (reply :: ·))

/-- Counts a transaction that was given up. -/
def countAborted (scope : Scope) : Scope :=
  { scope with counters := { scope.counters with aborted := scope.counters.aborted + 1 } }

/-- Counts a transaction that ran. -/
def countExecuted (scope : Scope) : Scope :=
  { scope with counters := { scope.counters with executed := scope.counters.executed + 1 } }

/-- The scope as the queue finds it when it runs: no longer queueing, with nothing queued. -/
def startQueue (scope : Scope) : Scope :=
  { scope with connection := { scope.connection with queueing := false, queue := [] } }

/-- Runs the queue at once, unless a command was refused or a watched key was modified. -/
def execute (scope : Scope) : Handled Scope :=
  if !scope.connection.queueing then scope.reply Refusal.nothingToExecute.reply
  -- A spoiled transaction is told as such even if a watched key was modified.
  else if scope.connection.dirty then
    scope.leaveTransaction.countAborted.reply Refusal.abortedTransaction.reply
  else if scope.watchedModified then scope.leaveTransaction.countAborted.reply .missingArray
  else match scope.startQueue.runAll scope.connection.queue with
    -- A transaction that fails midway is not left in full: its watched keys stay watched.
    | (scope, .error fault) => (scope, .error fault)
    | (scope, .ok replies) => scope.leaveTransaction.countExecuted.reply (.array replies)

/-- Drops the queue. -/
def discard (scope : Scope) : Handled Scope :=
  if scope.connection.queueing then scope.leaveTransaction.reply .ok
  else scope.reply Refusal.nothingToDiscard.reply

/-- Watches keys, as long as no transaction has begun. -/
def watchAll (scope : Scope) (keys : List Bytes) : Handled Scope :=
  if scope.connection.queueing then scope.refuse .watchInTransaction
  else match scope.database? with
    | none => (scope, .error .noSuchDatabase)
    | some _ => (keys.foldl watch scope).reply .ok

/-- Follows an instruction. -/
def follow (scope : Scope) : Instruction → Handled Scope
  | .act action => scope.act action
  | .beginTransaction => scope.beginTransaction
  | .execute => scope.execute
  | .discard => scope.discard
  | .watch keys => scope.watchAll keys
  -- The connection is closed by its caller, after the reply.
  | .quit => (scope, .ok { reply := .ok, closes := true })

/-- Handles what a request was read as. -/
def handle (scope : Scope) : Except Obstacle Instruction → Handled Scope
  | .ok instruction => scope.follow instruction
  -- A refusal spoils a transaction whether one has begun or not.
  | .error (.refusal refusal) => scope.refuse refusal
  | .error (.fault fault) => (scope, .error fault)

end Scope
end ScoreStore
