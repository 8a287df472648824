import ScoreStore.Proofs.Connection.Turn
import ScoreStore.Proofs.Server.Fits

/-! Queued requests: running them at once is the same as handling them one after the other. -/

namespace ScoreStore.Server

/-- Whether a connection queues its commands. -/
def isQueueing (server : Server) (number : Nat) : Bool := (server.scope number).connection.queueing

/-- The request of a connection that an event is, if it is answered as queued. -/
def newlyQueued (server : Server) (number : Nat) : Event → List Request
  | .request other request =>
    if other = number ∧ tellsQueued (server.handle number request).2 then [request] else []
  | _ => []

/-- The requests of a connection that were answered as queued since its transaction began. -/
def queuedRequests (number : Nat) (server : Server) (queued : List Request) :
    List Event → List Request
  -- Nothing is queued any more as soon as the transaction is over.
  | [] => queued
  | event :: rest =>
    (server.after event).queuedRequests number
      (if (server.after event).isQueueing number then queued ++ server.newlyQueued number event
        else []) rest

/-- Handles requests of a connection in turn, and gives the answers. -/
def handleAll (server : Server) (number : Nat) :
    List Request → Server × List (Except Fault Answer)
  | [] => (server, [])
  | request :: rest =>
    let (server, answer) := server.handle number request
    let (server, answers) := server.handleAll number rest
    (server, answer :: answers)

/-- Requests are read as actions in turn. -/
def ReadAs (site : Site) (requests : List Request) (actions : List Action) : Prop :=
  requests.map (fun request => request.instruction site) =
    actions.map fun action => .ok (.act action)

/-- The queue of a connection holds what its queued requests are read as. -/
structure Queued (site : Site) (number : Nat) (server : Server) (requests : List Request) :
    Prop where
  /-- Requests are read as at the given site. -/
  reading : server.site = site
  /-- All connections fit the databases. -/
  fits : server.Fits
  /-- The queue holds what the requests are read as. -/
  queue : server.isQueueing number = true →
    ReadAs site requests (server.scope number).connection.queue
  /-- Outside a transaction nothing is queued. -/
  outside : server.isQueueing number = false → requests = []

/-- What a connection leaves takes the place of what it left before. -/
@[simp] theorem withScope_withScope (server : Server) (number : Nat) (first second : Scope) :
    (server.withScope number first).withScope number second = server.withScope number second := by
  simp [withScope]

/-- Only binding the server to an address changes how requests are read. -/
theorem site_after {server : Server} {event : Event} (unbound : ∀ address, event ≠ .bind address) :
    (server.after event).site = server.site := by
  -- The number of databases, which bounds selections, never changes.
  cases event with
  | bind address => exact absurd rfl (unbound address)
  -- Opening a connection changes no database.
  | connect number =>
    simp only [after, connect]
    split <;> rfl
  | request number request =>
    rw [after, handle_eq]
    have length := (server.scope number).length_handle (request.instruction server.site)
    generalize (server.scope number).handle (request.instruction server.site) = handled at length
    exact congrArg (Site.mk · server.endpoint) length
  | close number =>
    -- Closing one releases watches, which changes no number.
    simp only [after, close]
    split
    · exact congrArg (Site.mk · server.endpoint) (Scope.length_leaveTransaction _)
    · rfl
  | received amount => rfl
  | command => rfl
  | sent amount => rfl

/-- A connection is left as its own request leaves it. -/
theorem connection_request (server : Server) (number : Nat) (request : Request) :
    ((server.after (.request number request)).scope number).connection =
      ((server.scope number).handle (request.instruction server.site)).1.connection := by
  rw [after, handle_eq, scope_withScope]

/-- Only its own requests change a connection, unless it is closed and seen as a new one. -/
theorem connection_after {server : Server} {number : Nat} {event : Event}
    (others : ∀ request, event ≠ .request number request) :
    ((server.after event).scope number).connection = (server.scope number).connection ∨
      ((server.after event).scope number).connection = {} := by
  cases event with
  | bind address => exact Or.inl rfl
  | connect other =>
    simp only [after, connect]
    split
    · exact Or.inl rfl
    · next absent =>
      have fresh := Table.contains_eq_false_iff.mp (Bool.not_eq_true _ ▸ absent)
      by_cases same : other = number
      · -- A connection that is opened was seen as a new one before.
        subst same
        exact Or.inl (by simp [scope, fresh])
      · exact Or.inl (by simp [scope, same])
  | request other request =>
    -- Only the connection that asks is written back.
    have different : other ≠ number := fun same => others request (same ▸ rfl)
    rw [after, handle_eq]
    exact Or.inl (connection_withScope different)
  | close other =>
    simp only [after, close]
    split
    · -- A connection that is closed is seen as a new one afterwards.
      by_cases same : other = number
      · exact Or.inr (by simp [scope, same])
      · exact Or.inl (by simp [scope, same])
    · exact Or.inl rfl
  | received amount => exact Or.inl rfl
  | command => exact Or.inl rfl
  | sent amount => exact Or.inl rfl

namespace Queued

variable {site : Site} {number : Nat} {server : Server} {requests : List Request}

/-- Outside a transaction nothing was queued. -/
theorem start (fits : server.Fits) (outside : server.isQueueing number = false) :
    Queued server.site number server [] where
  reading := rfl
  fits := fits
  queue := fun within => nomatch outside.symm.trans within
  outside := fun _ => rfl

/-- Whatever a connection asks for, its queue holds what its queued requests are read as. -/
theorem request (queued : Queued site number server requests) (request : Request) :
    let event : Event := .request number request
    Queued site number (server.after event) (if (server.after event).isQueueing number
      then requests ++ server.newlyQueued number event else []) := by
  intro event
  have unbound : ∀ address, event ≠ .bind address := fun address same => nomatch same
  -- Queue and answer are those that the connection alone would have.
  have own : ((server.after event).scope number).connection =
      ((server.scope number).handle (request.instruction site)).1.connection := by
    rw [← queued.reading]
    exact connection_request server number request
  have told : server.newlyQueued number event =
      if tellsQueued ((server.scope number).handle (request.instruction site)).2 then [request]
      else [] := by
    simp only [event, newlyQueued, handle_eq, queued.reading, true_and]
  refine ⟨(site_after unbound).trans queued.reading, queued.fits.after event, ?_, ?_⟩
  · intro still
    rw [if_pos still, told]
    unfold isQueueing at still
    rw [own] at still ⊢
    cases Scope.handle_turn (queued.fits.connections number) (request.instruction site) with
    | queues action read queueing tells _ queue =>
      -- The request is the last one on the list, and its action the last one in the queue.
      rw [queue, tells, if_pos rfl, ReadAs, List.map_append, List.map_append, queued.queue queueing]
      simp [read]
    -- The transaction begins now, with nothing queued yet.
    | begins queueing untold queue =>
      rw [queued.outside queueing, untold, queue]
      rfl
    -- A transaction that is over has no list any more.
    | ends ended => cases ended.symm.trans still
    | keeps untold queueing queue =>
      -- The queue is the old one, and so is the list.
      rw [untold, queue]
      rw [queueing] at still
      simpa using queued.queue still
  · intro ended
    rw [if_neg (by simp [ended])]

/-- Whatever happens, the queue of a connection holds what its queued requests are read as. -/
theorem after (queued : Queued site number server requests) {event : Event}
    (unbound : ∀ address, event ≠ .bind address) :
    Queued site number (server.after event) (if (server.after event).isQueueing number
      then requests ++ server.newlyQueued number event else []) := by
  by_cases own : ∃ request, event = .request number request
  · obtain ⟨request, rfl⟩ := own
    exact queued.request request
  · -- Any other event leaves the connection or closes it.
    have others : ∀ request, event ≠ .request number request := fun request same =>
      own ⟨request, same⟩
    have none : server.newlyQueued number event = [] := by
      -- A request that counts would be one of the connection.
      unfold newlyQueued
      split
      · next other request =>
        exact if_neg fun both => others request (by rw [both.1])
      · rfl
    rw [none, List.append_nil]
    -- A list that is kept has the queue that is kept.
    refine ⟨(site_after unbound).trans queued.reading, queued.fits.after event, ?_, ?_⟩
    · intro still
      rw [if_pos still]
      rcases connection_after others with same | fresh
      · unfold isQueueing at still
        rw [same] at still ⊢
        exact queued.queue still
      · rw [isQueueing, fresh] at still
        cases still
    · intro ended
      rw [if_neg (by simp [ended])]

/-- Through any run the queue of a connection holds what its queued requests are read as. -/
theorem run (queued : Queued site number server requests) {events : List Event}
    (unbound : ∀ address, .bind address ∉ events) :
    Queued site number (server.run events) (server.queuedRequests number requests events) := by
  -- The list of queued requests grows and shrinks with the queue.
  induction events generalizing server requests with
  | nil => exact queued
  | cons event rest ih =>
    have first : ∀ address, event ≠ .bind address := fun address same =>
      unbound address (same ▸ List.mem_cons_self)
    exact ih (queued.after first) fun address member =>
      unbound address (List.mem_cons_of_mem event member)

end Queued

/-- Every request gets an answer. -/
theorem length_handleAll (server : Server) (number : Nat) (requests : List Request) :
    (server.handleAll number requests).2.length = requests.length := by
  -- By induction on the requests, each of which gets one answer.
  induction requests generalizing server with
  | nil => rfl
  | cons request rest ih => simp [handleAll, ih]

/-- Handling requests outside a transaction in turn is running the actions that they are read as. -/
theorem handleAll_eq (server : Server) (number : Nat) (scope : Scope) {requests : List Request}
    {actions : List Action}
    (read : ReadAs ⟨scope.databases.length, server.endpoint⟩ requests actions)
    (selected : scope.connection.selected < scope.databases.length)
    (fits : ∀ action ∈ actions, action.Fits scope.databases.length)
    (outside : scope.connection.queueing = false) :
    ∃ final replies, scope.runAll actions = (final, .ok replies) ∧
      (server.withScope number scope).handleAll number requests =
        (server.withScope number final, replies.map fun reply => .ok { reply }) := by
  -- The queue and the requests get shorter together, and no action begins a transaction.
  induction actions generalizing scope requests with
  | nil =>
    obtain rfl : requests = [] := List.map_eq_nil_iff.mp read
    exact ⟨scope, [], rfl, rfl⟩
  | cons action rest ih =>
    obtain ⟨request, others, rfl, first, later⟩ := List.map_eq_cons_iff.mp read
    obtain ⟨reply, next, ran, same, within⟩ := action.run_spec selected
    have length := Action.length_run ran
    -- The connection is outside all the time, so that every action runs at once.
    have still : next.connection.queueing = false := by rw [same]; exact outside
    have goesOn : ReadAs ⟨next.databases.length, server.endpoint⟩ others rest := by
      rw [length]
      exact later
    obtain ⟨final, replies, ranRest, handled⟩ := ih next goesOn
      (length.symm ▸ within (fits action List.mem_cons_self))
      (fun queued member => length.symm ▸ fits queued (List.mem_cons_of_mem action member)) still
    -- The first request is read as the first action, which runs at once.
    have one : (server.withScope number scope).handle number request =
        (server.withScope number next, .ok { reply }) := by
      have reading : request.instruction (server.withScope number scope).site =
          .ok (.act action) := first
      rw [handle_eq, reading, scope_withScope]
      simp [Scope.handle, Scope.follow, Scope.act, outside, ran, Scope.reply]
    refine ⟨final, reply :: replies, ?_, ?_⟩
    · simp only [Scope.runAll, ran, ranRest, Except.map]
    · simp only [handleAll, one, handled, List.map_cons]

/-- Running the queue at once gives the replies, databases and connections that its requests give
one after the other, followed by a release of all watched keys. -/
theorem exec_eq_handleAll {databaseCount : Nat} {endpoint : Endpoint} {earlier later : List Event}
    {before server : Server} {number : Nat} {request unwatch : Request}
    (started : (start databaseCount endpoint).run earlier = before)
    (reached : before.run later = server)
    (outside : before.isQueueing number = false)
    (unbound : ∀ address, .bind address ∉ later)
    (queueing : server.isQueueing number = true)
    (clean : (server.scope number).connection.dirty = false)
    (unmodified : (server.scope number).watchedModified = false)
    (named : request.name = "exec") (bare : request.arguments = [])
    (unwatchNamed : unwatch.name = "unwatch") (unwatchBare : unwatch.arguments = []) :
    let requests := before.queuedRequests number [] later
    let sequential :=
      (server.withScope number (server.scope number).startQueue).handleAll number requests
    let released := (sequential.1.handle number unwatch).1
    let executed := server.handle number request
    ∃ replies : List Reply,
      sequential.2 = replies.map (fun reply => .ok { reply }) ∧
      executed.2 = .ok { reply := .array replies } ∧
      (Reply.array replies).encode =
        Reply.arrayHeader requests.length ++ replies.flatMap Reply.encode ∧
      executed.1.databases = released.databases ∧
      executed.1.connections = released.connections := by
  intro requests sequential released executed
  -- The queue holds what the requests are read as, from the beginning of the transaction on.
  have fits : before.Fits := started ▸ (fits_start databaseCount endpoint).run earlier
  have queued := (Queued.start fits outside).run unbound
  rw [reached] at queued
  have own := queued.fits.connections number
  have read : ReadAs server.site requests (server.scope number).connection.queue := by
    rw [queued.reading]
    exact queued.queue queueing
  -- Both ways run the same actions from the same state.
  obtain ⟨final, replies, ran, result, ended, left⟩ := own.execute queueing clean unmodified
  obtain ⟨_, _, again, handled⟩ :=
    handleAll_eq server number (server.scope number).startQueue read own.selected own.queue rfl
  rw [ran] at again
  cases again
  -- There are as many replies as requests, which is what the header counts.
  have lengths : replies.length = requests.length := by
    have answered := length_handleAll
      (server.withScope number (server.scope number).startQueue) number requests
    rwa [handled, List.length_map] at answered
  have execution : executed = (server.withScope number final.leaveTransaction.countExecuted,
      .ok { reply := .array replies }) := by
    show server.handle number request = _
    rw [handle_exec server number named bare, result]
  -- Leaving the transaction is nothing but a release by then.
  have release : released = server.withScope number final.unwatchAll := by
    show (sequential.1.handle number unwatch).1 = _
    rw [show sequential = _ from handled, handle_eq,
      Request.instruction_unwatch unwatchNamed unwatchBare, scope_withScope]
    simp [Scope.handle, Scope.follow, Scope.act, ended, Action.run, Scope.reply]
  refine ⟨replies, congrArg Prod.snd handled, congrArg Prod.snd execution, ?_, ?_, ?_⟩
  · rw [Reply.encode_array, lengths]
  · rw [execution, release, left]
    rfl
  · rw [execution, release, left]
    rfl

/-- A queued selection counts for the command after it, as it does outside a transaction. -/
theorem exec_eq_handleAll_select :
    let requests : List Request := [⟨Text.bytes "SELECT", [Text.bytes "1"]⟩,
      ⟨Text.bytes "SET", [Text.bytes "k", Text.bytes "v"]⟩]
    let later : List Event := .request 1 ⟨Text.bytes "MULTI", []⟩ :: requests.map (.request 1)
    let before := (start 2 ⟨"localhost", 6379⟩).run [.connect 1]
    let server := before.run later
    before.queuedRequests 1 [] later = requests ∧
      let sequential := (server.withScope 1 (server.scope 1).startQueue).handleAll 1
        (before.queuedRequests 1 [] later)
      let released := (sequential.1.handle 1 ⟨Text.bytes "UNWATCH", []⟩).1
      let executed := server.handle 1 ⟨Text.bytes "EXEC", []⟩
      ∃ replies : List Reply,
        sequential.2 = replies.map (fun reply => .ok { reply }) ∧
        executed.2 = .ok { reply := .array replies } ∧
        executed.1.databases = released.databases := by
  intro requests later before server
  have started : (start 2 ⟨"localhost", 6379⟩).run [.connect 1] = before := rfl
  have reached : before.run later = server := rfl
  -- Both requests are told that they are queued.
  have queued : before.queuedRequests 1 [] later = requests := by decide +kernel
  have outside : before.isQueueing 1 = false := by decide +kernel
  have unbound : ∀ address, .bind address ∉ later := by simp [later]
  have queueing : server.isQueueing 1 = true := by decide +kernel
  have clean : (server.scope 1).connection.dirty = false := by decide +kernel
  have unmodified : (server.scope 1).watchedModified = false := by decide +kernel
  have named : Request.name ⟨Text.bytes "EXEC", []⟩ = "exec" := by decide +kernel
  have unwatchNamed : Request.name ⟨Text.bytes "UNWATCH", []⟩ = "unwatch" := by decide +kernel
  obtain ⟨replies, answers, answer, _, databases, _⟩ := exec_eq_handleAll started reached
    outside unbound queueing clean unmodified named rfl unwatchNamed rfl
  exact ⟨queued, replies, answers, answer, databases⟩

end ScoreStore.Server
