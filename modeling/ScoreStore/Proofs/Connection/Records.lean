import ScoreStore.Proofs.Connection.Turn

/-!
What the answers since a transaction began tell of its connection: whether it is
spoiled, and how long its queue is.
-/

namespace ScoreStore

/-- Whether an answer is an error reply. -/
def tellsError : Except Fault Answer → Bool
  | .ok ⟨.error _, _⟩ => true
  | _ => false

/-- What a transaction has come to agrees with the answers since it began. -/
structure Connection.Records (connection : Connection) (answers : List (Except Fault Answer)) :
    Prop where
  /-- The transaction is spoiled once there was an error reply. -/
  dirty : connection.queueing = true →
    (connection.dirty = true ↔ ∃ answer ∈ answers, tellsError answer = true)
  /-- As many commands are queued as were answered so. -/
  queue : connection.queueing = true → connection.queue.length = answers.countP tellsQueued
  /-- Outside a transaction nothing is queued. -/
  idle : connection.queueing = false → connection.queue = []

namespace Connection.Records

variable {connection : Connection} {answers : List (Except Fault Answer)}

/-- A connection outside a transaction with nothing queued has nothing to agree with. -/
theorem outside (queueing : connection.queueing = false) (queue : connection.queue = [])
    (answers : List (Except Fault Answer)) : connection.Records answers where
  -- Both claims are about the time within a transaction.
  dirty within := nomatch queueing.symm.trans within
  queue within := nomatch queueing.symm.trans within
  idle _ := queue

section

variable {answer : Except Fault Answer} (records : connection.Records answers)
include records

/-- An answer of neither kind tells of no change. -/
theorem untold (noError : tellsError answer = false) (notQueued : tellsQueued answer = false) :
    connection.Records (answers ++ [answer]) where
  dirty within := by
    -- The mark counts errors only, and the queue only what is told as queued.
    rw [records.dirty within]
    simp [noError]
  queue within := by
    rw [records.queue within]
    simp [notQueued]
  idle := records.idle

/-- An error reply tells that the transaction is spoiled. -/
theorem spoiled (told : tellsError answer = true) (notQueued : tellsQueued answer = false) :
    { connection with dirty := true }.Records (answers ++ [answer]) where
  dirty _ := by simp [told]
  queue within := by
    rw [records.queue within]
    simp [notQueued]
  idle := records.idle

/-- An answer that a command was queued tells of one action more. -/
theorem queued (queueing : connection.queueing = true) (action : Action)
    (noError : tellsError answer = false) (told : tellsQueued answer = true) :
    { connection with queue := connection.queue ++ [action] }.Records (answers ++ [answer]) where
  dirty within := by
    rw [records.dirty within]
    -- The action joins the queue, and its answer those that tell of one.
    simp [noError]
  queue within := by
    rw [List.length_append, records.queue within]
    simp [told]
  idle outside := nomatch queueing.symm.trans outside

end

end Connection.Records

namespace Scope

variable {scope : Scope} {reading : Except Obstacle Instruction} {handled : Handled Scope}
  {answers : List (Except Fault Answer)}

/-- Whatever comes of a request, the connection still agrees with the answers
since its transaction began. -/
theorem Outcome.records (outcome : Outcome scope reading handled)
    (records : scope.connection.Records answers) :
    handled.1.connection.Records
      (if scope.connection.queueing ∧ handled.1.connection.queueing then answers ++ [handled.2]
        else []) := by
  -- Outside a transaction it is enough that nothing gets queued.
  have kept {after : Connection} {answer : Except Fault Answer}
      (same : after.queueing = scope.connection.queueing)
      (queue : after.queue = scope.connection.queue)
      (inside : after.Records (answers ++ [answer])) :
      after.Records (if scope.connection.queueing ∧ after.queueing then answers ++ [answer]
        else []) := by
    cases queueing : scope.connection.queueing with
    | true => simpa [same, queueing] using inside
    | false => exact .outside (same.trans queueing) (queue.trans (records.idle queueing)) _
  cases outcome with
  -- A fault is neither an error reply nor an answer of queueing.
  | failed fault => exact kept rfl rfl (records.untold rfl rfl)
  | refused refusal => exact kept rfl rfl (records.spoiled rfl rfl)
  | queued action read queueing =>
    rw [if_pos ⟨queueing, queueing⟩]
    exact records.queued queueing action rfl rfl
  | ran action read queueing ran same =>
    -- An action changes at most the selection and the watched keys of its connection.
    refine .outside ?_ ?_ _
    · rw [reply, same]
      exact queueing
    · rw [reply, same]
      exact records.idle queueing
  | begun read queueing =>
    -- The answer to the request that begins the transaction does not count.
    rw [if_neg fun both => Bool.false_ne_true (queueing.symm.trans both.1)]
    refine ⟨fun _ => ⟨fun dirty => absurd dirty Bool.false_ne_true, ?_⟩, fun _ => rfl, fun _ => rfl⟩
    rintro ⟨answer, member, -⟩
    exact absurd member List.not_mem_nil
  | watching keys read queueing =>
    have same := connection_watchAll keys scope
    refine .outside ?_ ?_ _
    · rw [reply, same]
      exact queueing
    · rw [reply, same]
      exact records.idle queueing
  | misplaced refusal => exact kept rfl rfl (records.spoiled rfl rfl)
  | pointless refusal queueing => exact .outside queueing (records.idle queueing) _
  -- All four ends of a transaction leave the queue empty.
  | aborted | overtaken | executed | discarded => exact .outside rfl rfl _
  | quit =>
    -- The state stays as it was, whether a transaction goes on or not.
    have notQueued : tellsQueued (.ok { reply := .ok, closes := true }) = false := by decide
    exact kept rfl rfl (records.untold rfl notQueued)

/-- A queue that runs gives as many replies as it has actions. -/
theorem length_runAll {scope final : Scope} {actions : List Action} {replies : List Reply}
    (ran : scope.runAll actions = (final, .ok replies)) : replies.length = actions.length := by
  -- A run that gets to its end has run every action.
  induction actions generalizing scope final replies with
  | nil =>
    cases ran
    rfl
  | cons action rest ih =>
    rw [runAll] at ran
    split at ran
    · cases ran
    · next reply next first =>
      cases others : next.runAll rest with
      | mk last results =>
        rw [others] at ran
        cases results with
        | error fault => cases ran
        | ok found =>
          cases ran
          rw [List.length_cons, List.length_cons, ih others]

end Scope
end ScoreStore
