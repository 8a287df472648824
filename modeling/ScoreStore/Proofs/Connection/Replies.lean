import ScoreStore.Proofs.Command.Reading
import ScoreStore.Proofs.Connection.Outcome

/-!
Replies to requests: each is one value on the wire, unless it tells of a
refusal with more than a line.
-/

namespace ScoreStore

/-- The error reply for a refusal that quotes nothing is one value. -/
theorem Refusal.IsFixed.wire {refusal : Refusal} (fixed : refusal.IsFixed) :
    Wire refusal.reply.encode :=
  -- A fixed message quotes nothing.
  Reply.wire_error_iff.mpr (isLine_message fun _ quoted => nomatch fixed.symm.trans quoted)

/-- The reply to a request that succeeded and has nothing to tell is one value. -/
theorem Reply.wire_ok : Wire Reply.ok.encode := wire_status (by decide +kernel)

/-- What is made of a result is told by one value, and so is a value of another type. -/
theorem Reply.wire_ofResult_map {α : Type} (result : Except WrongType α) {made : α → Reply}
    (wire : ∀ value, Wire (made value).encode) : Wire (ofResult (result.map made)).encode := by
  cases result with
  | ok value => exact wire value
  | error wrong =>
    have fixed : Refusal.wrongType.IsFixed := rfl
    exact fixed.wire

/-- The reply of a run, if it has one, is one value. -/
def Tells : Except Fault (Reply × Scope) → Prop
  | .ok (reply, _) => Wire reply.encode
  | .error _ => True

/-- What runs on the selected database is answered by what the run tells. -/
theorem Tells.onDatabase {scope : Scope} {body : Database → Except WrongType Reply × Database}
    (wire : ∀ database, Wire (Reply.ofResult (body database).1).encode) :
    Tells (scope.onDatabase body) := by
  -- Without a database there is a fault, which tells nothing.
  cases found : scope.database? with
  | none =>
    simp only [Scope.onDatabase, found]
    trivial
  | some database =>
    rw [Scope.onDatabase_of_found found]
    exact wire database

/-- The reply for giving scores to members is one value. -/
theorem AddTally.wire_reply (rule : AddRule) (countChanges : Bool) (tally : Option AddTally) :
    Wire (AddTally.reply rule countChanges tally).encode := by
  -- By what was counted, or by what there was nothing to count of.
  cases tally with
  | none =>
    have fixed : Refusal.sumNotANumber.IsFixed := rfl
    exact fixed.wire
  | some tally =>
    simp only [AddTally.reply]
    split
    · exact Reply.wire_ofBytes? _
    · exact Reply.wire_integer _

/-- What a command does with a sorted set is told by one value. -/
theorem SortedSetAction.wire_run (key : Bytes) (database : Database) (action : SortedSetAction) :
    Wire (Reply.ofResult (action.run key database).1).encode := by
  -- Every action but the removal of a range makes its reply of what it found.
  cases action with
  | add rule countChanges elements =>
    exact Reply.wire_ofResult_map _ fun tally => AddTally.wire_reply rule countChanges tally
  | size | count | remove => exact Reply.wire_ofResult_map _ fun _ => Reply.wire_integer _
  | score member => exact Reply.wire_ofResult_map _ fun _ => Reply.wire_ofBytes? _
  -- A rank is a number, or it is missing.
  | rank reverse member =>
    refine Reply.wire_ofResult_map _ fun set => ?_
    split
    · exact Reply.wire_integer _
    · exact Reply.wire_missing
  | list selection reverse page withScores =>
    exact Reply.wire_ofResult_map _ fun _ => Reply.wire_ofList _
  | removeSelected selection =>
    simp only [SortedSetAction.run]
    -- The set is read first, and a value of another type is told of at once.
    split
    · next wrong _ =>
      have fixed : Refusal.wrongType.IsFixed := rfl
      exact fixed.wire
    · exact Reply.wire_ofResult_map _ fun _ => Reply.wire_integer _

/-- The word for a type is a line. -/
theorem Value.isLine_typeName (value : Value) : (Text.bytes value.typeName).IsLine := by
  have words : (Text.bytes "string").IsLine ∧ (Text.bytes "zset").IsLine := by decide +kernel
  cases value with
  | string content => exact words.1
  | sortedSet set => exact words.2

/-- Every action that speaks is answered by one value. -/
theorem Action.tells_run {action : Action} (speaks : action.Speaks) (scope : Scope) :
    Tells (action.run scope) := by
  -- Actions on the selected database may find a value of another type, which is told as well.
  cases action with simp only [Action.run]
  | answer reply => exact speaks
  | report => exact Reply.wire_bulk _
  | select | flushAll | unwatch => exact Reply.wire_ok
  | flush | set =>
    refine .onDatabase fun database => ?_
    exact Reply.wire_ok
  | delete | countExisting =>
    refine .onDatabase fun database => ?_
    exact Reply.wire_integer _
  | typeOf key =>
    refine .onDatabase fun database => ?_
    cases database.get? key with
    | none => exact Reply.wire_status (by decide +kernel)
    | some value => exact Reply.wire_status value.isLine_typeName
  | get key =>
    exact .onDatabase fun _ => Reply.wire_ofResult_map _ fun _ => Reply.wire_ofBytes? _
  | sortedSet key action => exact .onDatabase fun database => action.wire_run key database

namespace Scope

/-- Actions that speak are answered by one value each. -/
theorem wire_runAll {scope final : Scope} {actions : List Action} {replies : List Reply}
    (speaks : ∀ action ∈ actions, action.Speaks)
    (ran : scope.runAll actions = (final, .ok replies)) : ∀ reply ∈ replies, Wire reply.encode := by
  -- The replies are those of the actions in turn.
  induction actions generalizing scope final replies with
  | nil =>
    cases ran
    exact fun reply member => absurd member List.not_mem_nil
  | cons action rest ih =>
    obtain ⟨first, later⟩ := List.forall_mem_cons.mp speaks
    have told := action.tells_run first scope
    rw [runAll] at ran
    split at ran
    · cases ran
    · next reply next here =>
      rw [here] at told
      cases others : next.runAll rest with
      | mk last results =>
        rw [others] at ran
        cases results with
        -- One reply is put in front of the others.
        | error fault => cases ran
        | ok found =>
          cases ran
          exact List.forall_mem_cons.mpr ⟨told, ih later others⟩

/-- What the connection has queued is answered by one value each. -/
def Speaks (scope : Scope) : Prop := ∀ action ∈ scope.connection.queue, action.Speaks

variable {scope : Scope} {reading : Except Obstacle Instruction} {handled : Handled Scope}
  {request : Request} {site : Site}

/-- Every request gets an answer, which is one value unless it tells of a refusal
whose message is not a line. -/
theorem Outcome.answers (outcome : Outcome scope reading handled) (speaks : scope.Speaks)
    (asked : Comes (·.Echoes request) (request.Asks site) reading) :
    ∃ answer, handled.2 = .ok answer ∧ (Wire answer.reply.encode ↔
      ∀ refusal, reading = .error (.refusal refusal) → (Text.bytes refusal.message).IsLine) := by
  -- Only what was refused when it was read can quote anything.
  have always {answer : Answer} (wire : Wire answer.reply.encode)
      {instruction : Instruction} (read : reading = .ok instruction) :
      Wire answer.reply.encode ↔
        ∀ refusal, reading = .error (.refusal refusal) → (Text.bytes refusal.message).IsLine :=
    ⟨fun _ refusal refused => (nomatch read.symm.trans refused), fun _ => wire⟩
  cases outcome with
  | failed fault read =>
    -- No reading comes to a fault.
    rw [read] at asked
    exact asked.elim
  | refused refusal read =>
    -- This reply holds the message, and is one value just if the message is a line.
    refine ⟨_, rfl, Reply.wire_error_iff.trans
      ⟨fun line other again => ?_, fun lines => lines _ read⟩⟩
    cases read.symm.trans again
    exact line
  | queued action read => exact ⟨_, rfl, always (Reply.wire_status (by decide +kernel)) read⟩
  | ran action read queueing ran =>
    rw [read] at asked
    have told := action.tells_run asked.2 scope
    rw [ran] at told
    exact ⟨_, rfl, always told read⟩
  | begun read | discarded read | quit read => exact ⟨_, rfl, always Reply.wire_ok read⟩
  | watching keys read => exact ⟨_, rfl, always Reply.wire_ok read⟩
  -- What is refused only when it is followed quotes nothing.
  | misplaced refusal queueing read =>
    rcases read with ⟨read, rfl⟩ | ⟨keys, read, rfl⟩
    · exact ⟨_, rfl, always (Refusal.IsFixed.wire rfl) read⟩
    · exact ⟨_, rfl, always (Refusal.IsFixed.wire rfl) read⟩
  | pointless refusal queueing read =>
    rcases read with ⟨read, rfl⟩ | ⟨read, rfl⟩
    · exact ⟨_, rfl, always (Refusal.IsFixed.wire rfl) read⟩
    · exact ⟨_, rfl, always (Refusal.IsFixed.wire rfl) read⟩
  | aborted read => exact ⟨_, rfl, always (Refusal.IsFixed.wire rfl) read⟩
  | overtaken read => exact ⟨_, rfl, always Reply.wire_missingArray read⟩
  | executed read _ _ _ ran =>
    exact ⟨_, rfl, always (Reply.wire_array (wire_runAll speaks ran)) read⟩

/-- What is queued after a request was queued before, or is the action
that the request asked for. -/
theorem Outcome.speaks (outcome : Outcome scope reading handled) (speaks : scope.Speaks)
    (asked : Comes (·.Echoes request) (request.Asks site) reading) : handled.1.Speaks := by
  -- The queue grows only by the action that was read, and otherwise stays or is emptied.
  cases outcome with
  | failed | refused | misplaced | pointless | quit => exact speaks
  -- The action that was read is the one that is new.
  | queued action read =>
    rw [read] at asked
    intro queued member
    rcases List.mem_append.mp member with earlier | last
    · exact speaks queued earlier
    · rw [List.mem_singleton.mp last]
      exact asked.2
  -- What ran leaves the queue as it was.
  | ran action read queueing ran same =>
    intro queued member
    rw [reply, same] at member
    exact speaks queued member
  | watching keys read queueing =>
    have same := connection_watchAll keys scope
    intro queued member
    rw [reply, same] at member
    exact speaks queued member
  | begun | aborted | overtaken | executed | discarded =>
    exact fun _ member => absurd member List.not_mem_nil

end Scope
end ScoreStore
