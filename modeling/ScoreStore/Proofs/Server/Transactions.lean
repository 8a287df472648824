import ScoreStore.Proofs.Connection.Records
import ScoreStore.Proofs.Server.Replies

/-!
Transactions from their beginning to their end: each request is queued or refused, and the
end tells what became of them.
-/

namespace ScoreStore

/-- Requests that are not queued in a transaction: those that end it, or the connection. -/
def Request.EndsTransaction (request : Request) : Prop :=
  request.name = "quit" ∨
    (request.name = "exec" ∨ request.name = "discard") ∧ request.arguments = []

instance (request : Request) : Decidable request.EndsTransaction :=
  inferInstanceAs (Decidable (request.name = "quit" ∨
    (request.name = "exec" ∨ request.name = "discard") ∧ request.arguments = []))

/-- A connection outside of any transaction, with nothing refused, queued or watched. -/
structure Connection.IsCleared (connection : Connection) : Prop where
  /-- No transaction goes on. -/
  queueing : connection.queueing = false
  /-- No command was refused. -/
  dirty : connection.dirty = false
  /-- Nothing is queued. -/
  queue : connection.queue = []
  /-- No key is watched. -/
  watched : connection.watched = .empty

namespace Server

/-- The answers to a connection after the one to the request that began its transaction. -/
def transactionAnswers (number : Nat) (server : Server) (answers : List (Except Fault Answer)) :
    List Event → List (Except Fault Answer)
  -- They count as long as the transaction goes on.
  | [] => answers
  | event :: rest =>
    (server.after event).transactionAnswers number
      (if server.isQueueing number ∧ (server.after event).isQueueing number then
        answers ++ server.answerTo number event else []) rest

/-- The server with another state of a connection, and everything else as it was. -/
def withConnection (server : Server) (number : Nat) (connection : Connection) : Server :=
  { server with connections := server.connections.set number connection }

variable {server : Server} {number : Nat} {answers : List (Except Fault Answer)}

/-- Whatever happens, a connection agrees with the answers since its transaction began. -/
theorem records_after (fits : server.Fits)
    (records : (server.scope number).connection.Records answers) (event : Event) :
    ((server.after event).scope number).connection.Records
      (if server.isQueueing number ∧ (server.after event).isQueueing number then
        answers ++ server.answerTo number event else []) := by
  by_cases own : ∃ request, event = .request number request
  · -- What comes of the request decides about the connection and the answer together.
    obtain ⟨request, rfl⟩ := own
    have outcome := Scope.outcome_handle (fits.connections number)
      (request.instruction server.site)
    have told : server.answerTo number (.request number request) =
        [((server.scope number).handle (request.instruction server.site)).2] := by
      rw [answerTo_request, handle_eq]
    simp only [isQueueing, connection_request, told]
    exact outcome.records records
  · have others : ∀ request, event ≠ .request number request := fun request same =>
      own ⟨request, same⟩
    rw [answerTo_eq_nil others, List.append_nil]
    have kept : ((server.after event).scope number).connection = (server.scope number).connection ∨
        ((server.after event).scope number).connection = {} := connection_after others
    rcases kept with same | fresh
    · -- Nothing was answered, and the transaction goes on if there is one.
      simp only [isQueueing, same, and_self]
      split
      · exact records
      · next outside =>
        have queueing : (server.scope number).connection.queueing = false := by simpa using outside
        exact .outside queueing (records.idle queueing) _
    · -- The connection was closed, and with it its transaction.
      rw [fresh]
      exact .outside rfl rfl _

/-- Through any run a connection agrees with the answers since its transaction began. -/
theorem records_run (fits : server.Fits)
    (records : (server.scope number).connection.Records answers) (events : List Event) :
    ((server.run events).scope number).connection.Records
      (server.transactionAnswers number answers events) := by
  induction events generalizing server answers with
  | nil => exact records
  | cons event rest ih => exact ih (fits.after event) (records_after fits records event)

/-- In a transaction every other request is queued or refused, and nothing else changes. -/
theorem handle_queueing (fits : server.Fits) (queueing : server.isQueueing number = true)
    {request : Request} (goesOn : ¬ request.EndsTransaction) :
    let connection := (server.scope number).connection
    (∃ action, server.handle number request =
      (server.withConnection number { connection with queue := connection.queue ++ [action] },
        .ok { reply := .status "QUEUED" })) ∨
      ∃ text, server.handle number request =
        (server.withConnection number { connection with dirty := true },
          .ok { reply := .error text }) := by
  intro connection
  have asked := Request.instruction_comes server.site request
  have outcome := Scope.outcome_handle (fits.connections number) (request.instruction server.site)
  rw [handle_eq]
  -- Whatever needs to be outside of a transaction does not happen.
  have inside (outside : (server.scope number).connection.queueing = false) : False :=
    Bool.false_ne_true (outside.symm.trans queueing)
  generalize (server.scope number).handle (request.instruction server.site) = handled at outcome ⊢
  cases outcome with
  | failed fault read =>
    -- A request is never read as nothing at all.
    rw [read] at asked
    exact asked.elim
  | refused refusal | misplaced refusal => exact Or.inr ⟨refusal.message, rfl⟩
  | queued action => exact Or.inl ⟨action, rfl⟩
  | ran _ _ outside | begun _ outside | watching _ _ outside | pointless _ outside =>
    exact (inside outside).elim
  -- An end is only read from a request to end the transaction.
  | aborted read | overtaken read | executed read =>
    rw [read] at asked
    exact absurd (Or.inr ⟨Or.inl asked.1, asked.2⟩) goesOn
  | discarded read =>
    rw [read] at asked
    exact absurd (Or.inr ⟨Or.inr asked.1, asked.2⟩) goesOn
  | quit read =>
    rw [read] at asked
    exact absurd (Or.inl asked) goesOn

/-- Values in all databases and the selection are those of another server. -/
def KeepsValues (number : Nat) (before after : Server) : Prop :=
  after.databases.map Database.values = before.databases.map Database.values ∧
    (after.scope number).connection.selected = (before.scope number).connection.selected

/-- The request to run the queue clears the connection, and its reply tells what
became of the transaction. -/
theorem handle_exec_queueing (fits : server.Fits) (queueing : server.isQueueing number = true)
    (records : (server.scope number).connection.Records answers) {request : Request}
    (named : request.name = "exec") (bare : request.arguments = []) :
    ((server.handle number request).1.scope number).connection.IsCleared ∧
      ∃ reply, (server.handle number request).2 = .ok { reply } ∧
        (reply = Refusal.abortedTransaction.reply ↔ ∃ answer ∈ answers, tellsError answer = true) ∧
        (∀ replies, reply = .array replies → replies.length = answers.countP tellsQueued) ∧
        ((∀ replies, reply ≠ .array replies) →
          server.KeepsValues number (server.handle number request).1) := by
  have outcome := Scope.outcome_execute (fits.connections number)
  have errors := records.dirty queueing
  have length := records.queue queueing
  rw [handle_exec server number named bare]
  -- In a transaction there are three ways to end it.
  generalize (server.scope number).execute = handled at outcome ⊢
  unfold KeepsValues
  rw [scope_withScope]
  cases outcome with
  | aborted read inside dirty =>
    -- The transaction is spoiled, which an error reply told.
    refine ⟨⟨rfl, rfl, rfl, rfl⟩, _, rfl, ?_, ?_, ?_⟩
    · exact ⟨fun _ => errors.mp dirty, fun _ => rfl⟩
    · intro replies same
      cases same
    · intro _
      exact ⟨Scope.map_values_unwatchAll _, rfl⟩
  | overtaken read inside clean =>
    -- There was no error reply, and releasing the watched keys changes no value.
    refine ⟨⟨rfl, rfl, rfl, rfl⟩, _, rfl, ?_, ?_, ?_⟩
    · exact ⟨fun same => (nomatch same), fun some => absurd (errors.mpr some) (by simp [clean])⟩
    · intro replies same
      cases same
    · intro _
      exact ⟨Scope.map_values_unwatchAll _, rfl⟩
  | executed read inside clean unmodified ran =>
    -- Each action has its reply, and each action was answered as queued.
    refine ⟨⟨rfl, rfl, rfl, rfl⟩, _, rfl, ?_, ?_, ?_⟩
    · exact ⟨fun same => (nomatch same), fun some => absurd (errors.mpr some) (by simp [clean])⟩
    · intro replies same
      cases same
      exact (Scope.length_runAll ran).trans length
    · intro noArray
      exact absurd rfl (noArray _)
  -- Nothing else comes of this request in a transaction.
  | pointless refusal outside => exact absurd (outside.symm.trans queueing) Bool.false_ne_true
  | misplaced refusal inside read => rcases read with ⟨same, -⟩ | ⟨keys, same, -⟩ <;> cases same
  | failed fault read | refused refusal read | queued action read | ran action read | begun read
  | watching keys read | discarded read | quit read => cases read

/-- The request to drop the queue clears the connection. -/
theorem handle_discard_queueing (queueing : server.isQueueing number = true)
    {request : Request} (named : request.name = "discard") (bare : request.arguments = []) :
    ((server.handle number request).1.scope number).connection.IsCleared := by
  have within : (server.scope number).connection.queueing = true := queueing
  rw [handle_eq, Request.instruction_discard named bare, scope_withScope]
  simp only [Scope.handle, Scope.follow, Scope.discard, within, if_true]
  exact ⟨rfl, rfl, rfl, rfl⟩

/-- In every run, a connection in a transaction gets each request queued or refused, and ends the
transaction as its answers tell; outside nothing is queued. -/
theorem transaction_protocol (databaseCount : Nat) (endpoint : Endpoint) (events : List Event)
    (number : Nat) :
    let server := (start databaseCount endpoint).run events
    let connection := (server.scope number).connection
    let answers := (start databaseCount endpoint).transactionAnswers number [] events
    (connection.queueing = false → connection.queue = []) ∧
      (connection.queueing = true →
        (∀ request : Request, ¬ request.EndsTransaction → Xor
          (∃ action, server.handle number request =
            (server.withConnection number { connection with queue := connection.queue ++ [action] },
              .ok { reply := .status "QUEUED" }))
          (∃ text, server.handle number request =
            (server.withConnection number { connection with dirty := true },
              .ok { reply := .error text }))) ∧
        (∀ request : Request, request.name = "exec" → request.arguments = [] →
          ((server.handle number request).1.scope number).connection.IsCleared ∧
          ∃ reply, (server.handle number request).2 = .ok { reply } ∧
            (reply = Refusal.abortedTransaction.reply ↔
              ∃ answer ∈ answers, tellsError answer = true) ∧
            (∀ replies, reply = .array replies → replies.length = answers.countP tellsQueued) ∧
            ((∀ replies, reply ≠ .array replies) →
              server.KeepsValues number (server.handle number request).1)) ∧
        (∀ request : Request, request.name = "discard" → request.arguments = [] →
          ((server.handle number request).1.scope number).connection.IsCleared)) := by
  intro server connection answers
  -- The run keeps connections in order, and each in agreement with its answers.
  have fits : server.Fits := (fits_start databaseCount endpoint).run events
  have records : connection.Records answers :=
    records_run (fits_start databaseCount endpoint) (.outside rfl rfl []) events
  refine ⟨records.idle, fun queueing => ⟨fun request goesOn => ?_, fun request named bare => ?_,
    fun request named bare => ?_⟩⟩
  · -- No reply is a success and an error.
    rcases handle_queueing fits queueing goesOn with ⟨action, queued⟩ | ⟨text, refused⟩
    · refine Or.inl ⟨⟨action, queued⟩, ?_⟩
      rintro ⟨text, refused⟩
      have same := congrArg Prod.snd (queued.symm.trans refused)
      cases same
    · refine Or.inr ⟨⟨text, refused⟩, ?_⟩
      rintro ⟨action, queued⟩
      have same := congrArg Prod.snd (queued.symm.trans refused)
      cases same
  · exact handle_exec_queueing fits queueing records named bare
  · exact handle_discard_queueing queueing named bare

/-- A command that is refused in a transaction, after one that is queued, aborts the transaction. -/
theorem transaction_protocol_refused :
    let events : List Event := [.connect 1, .request 1 ⟨Text.bytes "MULTI", []⟩,
      .request 1 ⟨Text.bytes "SET", [Text.bytes "k", Text.bytes "v"]⟩,
      .request 1 ⟨Text.bytes "GET", []⟩]
    let server := (start 1 ⟨"localhost", 6379⟩).run events
    let connection := (server.scope 1).connection
    let executed := server.handle 1 ⟨Text.bytes "EXEC", []⟩
    Xor
        (∃ action, server.handle 1 ⟨Text.bytes "PING", []⟩ =
          (server.withConnection 1 { connection with queue := connection.queue ++ [action] },
            .ok { reply := .status "QUEUED" }))
        (∃ text, server.handle 1 ⟨Text.bytes "PING", []⟩ =
          (server.withConnection 1 { connection with dirty := true },
            .ok { reply := .error text })) ∧
      (∃ reply, executed.2 = .ok { reply } ∧ reply = Refusal.abortedTransaction.reply) ∧
      (executed.1.scope 1).connection.IsCleared ∧ server.KeepsValues 1 executed.1 := by
  intro events server connection executed
  have queueing : (server.scope 1).connection.queueing = true := by decide +kernel
  have refused : ∃ answer ∈ (start 1 ⟨"localhost", 6379⟩).transactionAnswers 1 [] events,
      tellsError answer = true := by decide +kernel
  have named : Request.name ⟨Text.bytes "EXEC", []⟩ = "exec" := by decide +kernel
  have protocol := transaction_protocol 1 ⟨"localhost", 6379⟩ events 1
  obtain ⟨others, execution, -⟩ := protocol.2 queueing
  obtain ⟨cleared, reply, told, aborted, -, kept⟩ := execution ⟨Text.bytes "EXEC", []⟩ named rfl
  have same := aborted.mpr refused
  refine ⟨others ⟨Text.bytes "PING", []⟩ (by decide +kernel), ⟨reply, told, same⟩, cleared,
    kept fun replies array => ?_⟩
  cases same.symm.trans array

end Server
end ScoreStore
