import ScoreStore.Proofs.Connection.Replies
import ScoreStore.Proofs.Server.Queueing

/-!
The replies to a connection: as many values as it made requests, which the client can tell apart.
-/

namespace ScoreStore

/-- The request that an event is, if a connection makes it. -/
def Event.requestBy? (number : Nat) : Event → Option Request
  | .request other asked => if other = number then some asked else none
  | _ => none

/-- The bytes of an answer, if there is one. -/
def answerBytes? : Except Fault Answer → Option Bytes
  | .ok answer => some answer.reply.encode
  | .error _ => none

namespace Server

/-- The answer to an event, if it is a request of a connection. -/
def answerTo (server : Server) (number : Nat) (event : Event) : List (Except Fault Answer) :=
  ((event.requestBy? number).map fun request => (server.handle number request).2).toList

/-- The answers to a connection through events in turn. -/
def answers (number : Nat) (server : Server) : List Event → List (Except Fault Answer)
  | [] => []
  | event :: rest => server.answerTo number event ++ (server.after event).answers number rest

/-- From a state on, no request of a connection is refused with a message that has a line end. -/
def RefusesInLines (number : Nat) (server : Server) : List Event → Prop
  | [] => True
  | event :: rest =>
    (∀ request, event.requestBy? number = some request → ∀ refusal,
      request.instruction server.site = .error (.refusal refusal) →
        (Text.bytes refusal.message).IsLine) ∧
      (server.after event).RefusesInLines number rest

/-- A request of a connection is answered to it. -/
theorem answerTo_request (server : Server) (number : Nat) (request : Request) :
    server.answerTo number (.request number request) = [(server.handle number request).2] := by
  simp [answerTo, Event.requestBy?]

/-- Only requests of a connection are answered to it. -/
theorem answerTo_eq_nil {server : Server} {number : Nat} {event : Event}
    (others : ∀ request, event ≠ .request number request) : server.answerTo number event = [] := by
  have none : event.requestBy? number = none := by
    -- Only a request of this number is answered to it.
    unfold Event.requestBy?
    split
    · next other asked => exact if_neg fun same => others asked (by rw [same])
    · rfl
  rw [answerTo, none]
  rfl

/-- What every connection has queued is answered by one value each. -/
def Speaks (server : Server) : Prop := ∀ number, (server.scope number).Speaks

variable {server : Server} {number : Nat}

/-- Whatever happens, the queues are still answered by one value each. -/
theorem Speaks.after (speaks : server.Speaks) (fits : server.Fits) (event : Event) :
    (server.after event).Speaks := by
  -- A queue changes by requests of its own connection, and is gone when that is closed.
  intro number
  by_cases own : ∃ request, event = .request number request
  · obtain ⟨request, rfl⟩ := own
    have outcome := Scope.outcome_handle (fits.connections number) (request.instruction server.site)
    rw [Server.after, handle_eq, scope_withScope]
    exact outcome.speaks (speaks number) (Request.instruction_comes server.site request)
  · have kept : ((server.after event).scope number).connection = (server.scope number).connection ∨
        ((server.after event).scope number).connection = {} :=
      connection_after fun request same => own ⟨request, same⟩
    unfold Scope.Speaks
    rcases kept with same | fresh
    · rw [same]
      exact speaks number
    · rw [fresh]
      exact fun _ member => absurd member List.not_mem_nil

/-- Through any run the queues are answered by one value each. -/
theorem Speaks.run (speaks : server.Speaks) (fits : server.Fits) (events : List Event) :
    (server.run events).Speaks := by
  -- By induction on the events.
  induction events generalizing server with
  | nil => exact speaks
  | cons event rest ih => exact ih (speaks.after fits event) (fits.after event)

/-- A request gets an answer, which is one value unless it tells of a refusal
whose message is not a line. -/
theorem handle_answers (fits : server.Fits) (speaks : server.Speaks) (number : Nat)
    (request : Request) :
    ∃ answer, (server.handle number request).2 = .ok answer ∧
      (Wire answer.reply.encode ↔ ∀ refusal,
        request.instruction server.site = .error (.refusal refusal) →
          (Text.bytes refusal.message).IsLine) ∧
      ((∀ word ∈ request.words, word.IsLine) → Wire answer.reply.encode) := by
  have asked := Request.instruction_comes server.site request
  have outcome := Scope.outcome_handle (fits.connections number) (request.instruction server.site)
  obtain ⟨answer, told, exact⟩ := outcome.answers (speaks number) asked
  refine ⟨answer, by rw [handle_eq, told], exact, fun lines => exact.mpr fun refusal refused => ?_⟩
  -- A message quotes words of the request at most.
  rw [refused] at asked
  exact asked lines

/-- Requests made of lines are not refused with more than a line. -/
theorem RefusesInLines.of_lines {events : List Event}
    (lines : ∀ request ∈ events.filterMap (Event.requestBy? number),
      ∀ word ∈ request.words, word.IsLine) : server.RefusesInLines number events := by
  -- By induction on the events, of which only the requests of the connection have words.
  induction events generalizing server with
  | nil => trivial
  | cons event rest ih =>
    cases made : event.requestBy? number with
    | none =>
      rw [List.filterMap_cons_none made] at lines
      refine ⟨fun request same => ?_, ih lines⟩
      cases made.symm.trans same
    | some request =>
      rw [List.filterMap_cons_some made] at lines
      obtain ⟨line, lines⟩ := List.forall_mem_cons.mp lines
      refine ⟨fun other same refusal refused => ?_, ih lines⟩
      obtain rfl := Option.some.inj (made.symm.trans same)
      -- A message quotes words of the request at most.
      have asked := Request.instruction_comes server.site request
      rw [refused] at asked
      exact asked line

/-- Every request is answered, and by one value each if and only if all
refusals are told by lines. -/
theorem answers_wire_iff (fits : server.Fits) (speaks : server.Speaks) (number : Nat)
    (events : List Event) :
    ((server.answers number events).filterMap answerBytes?).length =
        (events.filterMap (Event.requestBy? number)).length ∧
      ((∀ value ∈ (server.answers number events).filterMap answerBytes?, Wire value) ↔
        server.RefusesInLines number events) := by
  -- Events that are no request of the connection change neither list.
  induction events generalizing server with
  | nil => exact ⟨rfl, fun _ => trivial, fun _ _ member => absurd member List.not_mem_nil⟩
  | cons event rest ih =>
    obtain ⟨length, wires⟩ := ih (fits.after event) (speaks.after fits event)
    rw [answers, List.filterMap_append, answerTo, RefusesInLines]
    cases made : event.requestBy? number with
    | none =>
      rw [List.filterMap_cons_none made]
      refine ⟨length, wires.trans ⟨fun later => ⟨fun request same => ?_, later⟩, And.right⟩⟩
      cases same
    | some request =>
      -- A request adds one value to the replies and one condition to the refusals.
      obtain ⟨answer, told, exact, -⟩ := handle_answers fits speaks number request
      have bytes : answerBytes? (server.handle number request).2 = some answer.reply.encode := by
        rw [told, answerBytes?]
      simp only [Option.map_some, Option.toList_some, List.filterMap_cons_some bytes,
        List.filterMap_cons_some made, List.filterMap_nil, List.cons_append, List.nil_append,
        List.length_cons, length, List.forall_mem_cons, exact, wires, Option.some.injEq,
        forall_eq', true_and]

/-- In every run a request is answered by one value, unless a refusal quotes a line end of it; and
the answers to requests that are not so refused can be told apart, whatever their words. -/
theorem answered_by_one_value (databaseCount : Nat) (endpoint : Endpoint) (events : List Event)
    (number : Nat) :
    let server := (start databaseCount endpoint).run events
    (∀ request : Request, ∃ answer, (server.handle number request).2 = .ok answer ∧
      (Wire answer.reply.encode ↔ ∀ refusal,
        request.instruction server.site = .error (.refusal refusal) →
          (Text.bytes refusal.message).IsLine) ∧
      ((∀ word ∈ request.words, word.IsLine) → Wire answer.reply.encode)) ∧
    let requests := events.filterMap (Event.requestBy? number)
    let replies := ((start databaseCount endpoint).answers number events).filterMap answerBytes?
    let inLines := (start databaseCount endpoint).RefusesInLines number events
    replies.length = requests.length ∧
      ((∀ value ∈ replies, Wire value) ↔ inLines) ∧
      (inLines → ∀ values : List Bytes, (∀ value ∈ values, Wire value) →
        values.flatten = replies.flatten → values = replies) ∧
      ((∀ request ∈ requests, ∀ word ∈ request.words, word.IsLine) → inLines) := by
  have fits := fits_start databaseCount endpoint
  -- At the start nothing is queued.
  have speaks : (start databaseCount endpoint).Speaks :=
    fun number action member => absurd member List.not_mem_nil
  obtain ⟨length, wires⟩ := answers_wire_iff fits speaks number events
  refine ⟨handle_answers (fits.run events) (speaks.run fits events) number, length, wires, ?_,
    RefusesInLines.of_lines⟩
  -- One value each can be told apart from what follows it.
  exact fun told values wire same => Wire.eq_of_flatten wire (wires.mpr told) same

/-- A value with line ends is stored, and its reply and that to an unknown
command can be told apart. -/
theorem answered_by_one_value_unknown :
    let events : List Event := [.connect 1,
      .request 1 ⟨Text.bytes "SET", [Text.bytes "k", Text.bytes "a\r\nb"]⟩,
      .request 1 ⟨Text.bytes "NOSUCH", []⟩]
    let replies := ((start 1 ⟨"localhost", 6379⟩).answers 1 events).filterMap answerBytes?
    (∃ answer, (((start 1 ⟨"localhost", 6379⟩).run events).handle 1
        ⟨Text.bytes "ECHO", [Text.bytes "k"]⟩).2 = .ok answer ∧ Wire answer.reply.encode) ∧
      replies.length = 2 ∧ ∀ values : List Bytes, (∀ value ∈ values, Wire value) →
        values.flatten = replies.flatten → values = replies := by
  intro events replies
  obtain ⟨answers, length, -, apart, -⟩ := answered_by_one_value 1 ⟨"localhost", 6379⟩ events 1
  obtain ⟨answer, told, -, wire⟩ := answers ⟨Text.bytes "ECHO", [Text.bytes "k"]⟩
  have unknown : (Text.bytes (Refusal.unknownCommand "nosuch").message).IsLine := by
    decide +kernel
  refine ⟨⟨answer, told, wire (by decide +kernel)⟩, length, apart ⟨?_, ?_, ?_, trivial⟩⟩
  · -- Connecting is no request.
    rintro _ ⟨⟩
  · -- Nothing is refused here, whatever the value.
    rintro _ ⟨⟩ refusal refused
    cases refused
  · -- A name without a line end is quoted as it is.
    rintro _ ⟨⟩ refusal refused
    cases refused
    exact unknown

/-- A name with a line end is quoted as it is, and then the reply is not one value. -/
theorem not_answered_by_one_value : ¬ ∀ (databaseCount : Nat) (endpoint : Endpoint)
    (events : List Event) (number : Nat) (request : Request), ∃ answer,
      (((start databaseCount endpoint).run events).handle number request).2 = .ok answer ∧
        Wire answer.reply.encode := by
  intro answered
  obtain ⟨answer, told, wire⟩ :=
    answered 1 ⟨"localhost", 6379⟩ [.connect 0] 0 ⟨Text.bytes "a\r\nb", []⟩
  -- The name is quoted with its line end.
  have refused : Request.instruction ((start 1 ⟨"localhost", 6379⟩).run [.connect 0]).site
      ⟨Text.bytes "a\r\nb", []⟩ = .error (.refusal (.unknownCommand "a\r\nb")) := by
    rfl
  rw [handle_eq, refused] at told
  cases told
  exact absurd (Reply.wire_error_iff.mp wire) (by decide +kernel)

end Server
end ScoreStore
