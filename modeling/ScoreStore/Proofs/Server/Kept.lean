import ScoreStore.Proofs.Command.Entry
import ScoreStore.Proofs.Connection.Records
import ScoreStore.Proofs.Keyspace.Kept
import ScoreStore.Proofs.Server.Queueing

/-!
Only commands that write and succeed change data: all other requests keep every value and version.
-/

namespace ScoreStore

/-- Whether a reply says that a command was refused or queued, or that a
transaction was given up. -/
def Reply.tellsUndone : Reply → Bool
  | error _ | missingArray => true
  | status text => text = "QUEUED"
  | _ => false

/-- Whether an answer has such a reply. -/
def tellsUndone : Except Fault Answer → Bool
  | .ok answer => answer.reply.tellsUndone
  | .error _ => false

/-- A byte string, or none, tells of nothing of that kind. -/
theorem Reply.tellsUndone_ofBytes? (content : Option Bytes) :
    (ofBytes? content).tellsUndone = false := by
  cases content <;> rfl

/-- Whether the command of a request is one that may write, according to the table. -/
def Request.mayWrite (request : Request) : Bool :=
  match CommandName.ofLowercase? request.name with
  | none => false
  | some name => name.entry.writes

namespace SortedSetAction

variable {key : Bytes} {database new : Database} {action : SortedSetAction}

/-- Something that may not write leaves the database as it is. -/
theorem database_of_not_mayWrite (key : Bytes) (database : Database)
    (reads : action.mayWrite = false) : (action.run key database).2 = database := by
  -- What only looks at the set gives the database back.
  cases action with
  | size | score | rank | count | list => rfl
  | add | remove | removeSelected => cases reads

/-- Where adding stops at a score that would be no number, nothing was added before. -/
theorem database_of_addMembers_none {rule : AddRule} {elements : List Element} {tally : AddTally}
    (numbers : ∀ element ∈ elements, element.score.isNaN = false)
    (single : rule.increment = true → elements.length = 1)
    (ran : database.addMembers key rule tally elements = (.ok none, new)) : new = database := by
  cases increment : rule.increment with
  -- With an increment there is one element, and without one nothing can fail.
  | true =>
    -- The first element is the only one, so that nothing precedes the one that fails.
    obtain ⟨element, rfl⟩ := List.length_eq_one_iff.mp (single increment)
    unfold Database.addMembers Database.addMember at ran
    cases stored : database.sortedSet key with
    | error wrong => simp [stored, Except.map] at ran
    | ok set =>
      simp only [stored, Except.map] at ran
      cases recorded : tally.record? (set.add rule element.member element.score).1 with
      | some next => simp [recorded, Database.addMembers] at ran
      | none =>
        -- Nothing recorded means that the sum was no number, which leaves the set as it is.
        have stops := AddTally.record?_eq_none_iff.mp recorded
        simp only [recorded, Prod.mk.injEq, true_and] at ran
        rw [← ran, Database.storeAdded_eq, stops]
        rfl
  | false =>
    -- No element fails, whatever was added before it.
    exfalso
    induction elements generalizing database tally with
    | nil => simp [Database.addMembers] at ran
    | cons element rest ih =>
      obtain ⟨number, numbers⟩ := List.forall_mem_cons.mp numbers
      unfold Database.addMembers Database.addMember at ran
      cases stored : database.sortedSet key with
      | error wrong => simp [stored, Except.map] at ran
      | ok set =>
        simp only [stored, Except.map] at ran
        cases recorded : tally.record? (set.add rule element.member element.score).1 with
        -- Without an increment the score is one of the request, and that is a number.
        | none =>
          exact fst_add_ne_notANumber set increment number element.member
            (AddTally.record?_eq_none_iff.mp recorded)
        | some next =>
          simp only [recorded] at ran
          refine ih numbers (fun increments => ?_) ran
          cases increment.symm.trans increments

/-- Something orderly that is refused leaves the database as it is. -/
theorem database_of_tellsUndone (orderly : action.IsOrderly)
    (undone : (Reply.ofResult (action.run key database).1).tellsUndone = true) :
    (action.run key database).2 = database := by
  -- A refusal stops at the first access, and what is told is a failure for additions only.
  cases result : (action.run key database).1 with
  | error wrong => exact snd_run_of_refused result
  | ok told =>
    rw [result] at undone
    cases action with
    | size | score | count | list | rank => rfl
    | add rule countChanges elements =>
      cases added : database.addMembers key rule {} elements with
      | mk counted after =>
        simp only [run, added] at result ⊢
        cases counted with
        | error wrong => cases result
        | ok tally =>
          obtain rfl := Except.ok.inj result
          cases tally with
          | none => exact database_of_addMembers_none orderly.2.1 orderly.2.2 added
          | some tally =>
            -- A tally is told by a count or a score.
            simp only [Reply.ofResult, AddTally.reply] at undone
            split at undone
            · rw [Reply.tellsUndone_ofBytes?] at undone
              cases undone
            · cases undone
    | remove members =>
      cases removed : database.removeEach key members with
      | mk counted after =>
        simp only [run, removed] at result
        -- A count of what was removed is no refusal.
        cases counted with
        | error wrong => cases result
        | ok count =>
          obtain rfl := Except.ok.inj result
          cases undone
    -- What is selected is removed like named members, once the set is found.
    | removeSelected selection =>
      cases stored : database.sortedSet key with
      | error wrong => simp only [run, stored]
      | ok set =>
        cases removed : database.removeEach key
            ((selection.select false set).map Element.member) with
        | mk counted after =>
          simp only [run, stored, removed] at result
          cases counted with
          | error wrong => cases result
          | ok count =>
            obtain rfl := Except.ok.inj result
            cases undone

end SortedSetAction

namespace Scope

variable {scope after : Scope} {reply : Reply}

/-- A body that leaves its database as it is leaves all databases as they are. -/
theorem databases_of_onDatabase {body : Database → Except WrongType Reply × Database}
    (same : ∀ database, .ofResult (body database).1 = reply → (body database).2 = database)
    (ran : scope.onDatabase body = .ok (reply, after)) : after.databases = scope.databases := by
  -- The body runs on the selected database and gives it back with its reply.
  cases found : scope.database? with
  | none => simp [onDatabase, found] at ran
  | some database =>
    rw [onDatabase_of_found found] at ran
    obtain ⟨told, rfl⟩ := Prod.mk.inj (Except.ok.inj ran)
    rw [same database told, withDatabase_self found]

/-- Leaving a transaction keeps all data. -/
theorem keepsAllData_leaveTransaction (scope : Scope) :
    KeepsAllData scope.databases scope.leaveTransaction.databases :=
  KeepsAllData.release scope.connection.watched.keys scope.databases

/-- Watching keys keeps all data. -/
theorem keepsAllData_watchAll (keys : List Bytes) (scope : Scope) :
    KeepsAllData scope.databases (keys.foldl watch scope).databases := by
  -- By induction on the keys, each of which is watched on top of the others.
  induction keys generalizing scope with
  | nil => exact KeepsAllData.refl _
  | cons key rest ih =>
    -- The first key gets one more watcher at most.
    refine KeepsAllData.trans ?_ (ih (scope.watch key))
    cases found : scope.database? with
    | none =>
      have missing : scope.databases[scope.connection.selected]? = none := found
      simp only [watch, watchIn, missing]
      exact KeepsAllData.refl _
    | some database =>
      rw [watch_eq found]
      split
      · exact KeepsAllData.refl _
      · exact Indexwise.set found (Database.KeepsData.watch database key)
          fun _ other _ => Database.KeepsData.refl other

end Scope

namespace Action

variable {scope after : Scope} {reply : Reply} {action : Action}

/-- An action that may not write keeps all data. -/
theorem keepsAllData_of_not_mayWrite (reads : action.mayWrite = false)
    (ran : action.run scope = .ok (reply, after)) :
    KeepsAllData scope.databases after.databases := by
  have kept (same : after.databases = scope.databases) :
      KeepsAllData scope.databases after.databases := same ▸ KeepsAllData.refl _
  -- Only unwatching changes anything, and it changes no data.
  cases action with
  | answer | report | select =>
    obtain ⟨_, rfl⟩ := Prod.mk.inj (Except.ok.inj ran)
    exact kept rfl
  | countExisting | typeOf | get =>
    simp only [run] at ran
    exact kept (Scope.databases_of_onDatabase (fun _ _ => rfl) ran)
  | sortedSet key action =>
    exact kept (Scope.databases_of_onDatabase
      (fun database _ => SortedSetAction.database_of_not_mayWrite key database reads) ran)
  | unwatch =>
    obtain ⟨_, rfl⟩ := Prod.mk.inj (Except.ok.inj ran)
    exact KeepsAllData.release scope.connection.watched.keys scope.databases
  | flush | flushAll | delete | set => cases reads

/-- An action that is refused keeps all data. -/
theorem keepsAllData_of_tellsUndone (orderly : action.IsOrderly) (undone : reply.tellsUndone = true)
    (ran : action.run scope = .ok (reply, after)) :
    KeepsAllData scope.databases after.databases := by
  -- A command that may write has not written if it tells of a failure.
  cases reads : action.mayWrite with
  | false => exact keepsAllData_of_not_mayWrite reads ran
  | true =>
    have kept (same : after.databases = scope.databases) :
        KeepsAllData scope.databases after.databases := same ▸ KeepsAllData.refl _
    cases action with
    | answer | report | select | countExisting | typeOf | get | unwatch => cases reads
    | flushAll =>
      -- What writes without looking at values always succeeds.
      obtain ⟨rfl, _⟩ := Prod.mk.inj (Except.ok.inj ran)
      cases undone
    | flush | set | delete =>
      simp only [run] at ran
      refine kept (Scope.databases_of_onDatabase (fun database told => ?_) ran)
      subst told
      cases undone
    | sortedSet key action =>
      refine kept (Scope.databases_of_onDatabase (fun database told => ?_) ran)
      subst told
      exact SortedSetAction.database_of_tellsUndone orderly undone

end Action

namespace Server

/-- Whether a request of a connection runs its queue. -/
def RunsQueue (server : Server) (number : Nat) (request : Request) : Prop :=
  request.name = "exec" ∧ request.arguments = [] ∧
    (server.scope number).connection.queueing = true ∧
    (server.scope number).connection.dirty = false ∧
    (server.scope number).watchedModified = false

variable {server : Server}

/-- A request that runs no queue keeps all data, unless its command may write and its
answer tells of no refusal. -/
theorem Fits.keepsAllData (fits : server.Fits) {number : Nat} {request : Request}
    (noQueue : ¬ server.RunsQueue number request)
    (undone : request.mayWrite = false ∨ tellsUndone (server.handle number request).2 = true) :
    KeepsAllData server.databases (server.handle number request).1.databases := by
  have asked := Request.instruction_comes server.site request
  have suits : ∀ name, CommandName.ofLowercase? request.name = some name →
      Yields (·.Suits name request) (request.instruction server.site) :=
    fun name known => Request.instruction_yields known
  have outcome := Scope.outcome_handle (fits.connections number) (request.instruction server.site)
  rw [handle_eq] at undone ⊢
  generalize (server.scope number).handle (request.instruction server.site) = handled
    at outcome undone ⊢
  show KeepsAllData (server.scope number).databases handled.1.databases
  cases outcome with
  -- Nothing is run here, or only the connection changes.
  | failed | refused | queued | begun | misplaced | pointless | quit => exact KeepsAllData.refl _
  -- Watching and leaving change counts of watchers and no values.
  | watching keys read queueing => exact Scope.keepsAllData_watchAll keys _
  | aborted | overtaken | discarded => exact Scope.keepsAllData_leaveTransaction _
  | executed read queueing clean unmodified =>
    -- Only one request runs the queue.
    rw [read] at asked
    exact absurd ⟨asked.1, asked.2, queueing, clean, unmodified⟩ noQueue
  | ran action read queueing ran =>
    cases known : CommandName.ofLowercase? request.name with
    | none =>
      -- A request with an unknown name is refused.
      rw [Request.instruction, known] at read
      cases read
    | some name =>
      have suited : action.Suits name request := suits name known _ read
      -- Either the command never writes, or its reply tells that it has not.
      rcases undone with reads | undone
      · rw [Request.mayWrite, known] at reads
        exact Action.keepsAllData_of_not_mayWrite (suited.writes.trans reads) ran
      · exact Action.keepsAllData_of_tellsUndone suited.orderly undone ran

/-- In every run a request that runs no queue keeps all data, unless its command may write and its
answer tells of no refusal. -/
theorem run_keepsAllData (databaseCount : Nat) (endpoint : Endpoint) (events : List Event)
    {server : Server} (reached : (start databaseCount endpoint).run events = server) (number : Nat)
    (request : Request) (noQueue : ¬ server.RunsQueue number request)
    (undone : request.mayWrite = false ∨ tellsUndone (server.handle number request).2 = true) :
    KeepsAllData server.databases (server.handle number request).1.databases :=
  (reached ▸ (fits_start databaseCount endpoint).run events).keepsAllData noQueue undone

/-- Members that are added to a string leave it as it is, and so does an increment of an
infinite score to no number. -/
theorem run_keepsAllData_zadd :
    let events : List Event := [.connect 1,
      .request 1 ⟨Text.bytes "SET", [Text.bytes "s", Text.bytes "x"]⟩,
      .request 1 ⟨Text.bytes "ZADD", [Text.bytes "z", Text.bytes "inf", Text.bytes "a"]⟩]
    let server := (start 1 ⟨"localhost", 6379⟩).run events
    let several : Request := ⟨Text.bytes "ZADD", [Text.bytes "s", Text.bytes "1", Text.bytes "a",
      Text.bytes "2", Text.bytes "b"]⟩
    let increment : Request := ⟨Text.bytes "ZADD", [Text.bytes "z", Text.bytes "INCR",
      Text.bytes "-inf", Text.bytes "a"]⟩
    (tellsError (server.handle 1 several).2 = true ∧
        KeepsAllData server.databases (server.handle 1 several).1.databases) ∧
      tellsError (server.handle 1 increment).2 = true ∧
        KeepsAllData server.databases (server.handle 1 increment).1.databases := by
  intro events server several increment
  have reached : (start 1 ⟨"localhost", 6379⟩).run events = server := rfl
  have noQueue (request : Request) (named : request.name ≠ "exec") :
      ¬ server.RunsQueue 1 request := fun runs => named runs.1
  -- One request finds a string, and the other sum is no number.
  have first := run_keepsAllData 1 _ events reached 1 several (noQueue several (by decide +kernel))
    (Or.inr (by decide +kernel))
  have second := run_keepsAllData 1 _ events reached 1 increment
    (noQueue increment (by decide +kernel)) (Or.inr (by decide +kernel))
  exact ⟨⟨by decide +kernel, first⟩, by decide +kernel, second⟩

end Server
end ScoreStore
