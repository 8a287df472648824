import ScoreStore.Proofs.Connection.Records
import ScoreStore.Proofs.Server.Queueing

/-!
Requests never break a connection: each one gets a reply, and nothing is
looked for where there is nothing.
-/

namespace ScoreStore

namespace AddOptions

/-- Whether a word is an option in front of scores and members. -/
def isOption (word : Bytes) : Bool := (({} : AddOptions).take? (Request.lowered word)).isSome

/-- Which words are options does not depend on the options before them. -/
theorem isSome_take? (options : AddOptions) (word : Bytes) :
    (options.take? (Request.lowered word)).isSome = isOption word := by
  -- Which fields are set so far is not asked by any of the option words.
  unfold isOption take?
  split <;> rfl

/-- The words behind the options start at the first word that is none. -/
theorem snd_read (options : AddOptions) (words : List Bytes) :
    (read options words).2 = words.drop (words.takeWhile isOption).length := by
  induction words generalizing options with
  | nil => rfl
  | cons word rest ih =>
    -- The word is taken exactly if it is an option, and the options after it are others.
    have same := isSome_take? options word
    rw [read, List.takeWhile_cons]
    cases taken : options.take? (Request.lowered word) with
    | none =>
      rw [taken] at same
      rw [← same]
      rfl
    | some more =>
      rw [taken] at same
      rw [← same]
      exact ih more

end AddOptions

namespace Request

/-- Where the scores and members to add start among the words of a
request, counted from its name. -/
def pairsStart (request : Request) : Nat :=
  2 + ((request.words.drop 2).takeWhile AddOptions.isOption).length

/-- The words that are cut off in one piece to be added or removed start within the request. -/
structure CutsInside (request : Request) : Prop where
  /-- What is added starts within the request. -/
  added : request.name = CommandName.zadd.text →
    CommandName.zadd.entry.accepts request.words.length = true →
    request.pairsStart ≤ request.words.length ∧
      (AddOptions.read {} (request.arguments.drop 1)).2 = request.words.drop request.pairsStart
  /-- What is removed starts within the request. -/
  removed : request.name = CommandName.zrem.text →
    CommandName.zrem.entry.accepts request.words.length = true →
    2 ≤ request.words.length ∧ request.arguments.drop 1 = request.words.drop 2

/-- The least number of words covers what is cut off. -/
theorem cutsInside (request : Request) : request.CutsInside where
  added := by
    intro _ taken
    -- The arity asks for the name, the key and a pair: the words before the options are there.
    have least : 4 ≤ request.arguments.length + 1 := arity_le taken
    -- There are no more options than words.
    have options : ((request.words.drop 2).takeWhile AddOptions.isOption).length ≤
        (request.words.drop 2).length := (List.takeWhile_prefix _).length_le
    have length : request.words.length = request.arguments.length + 1 := List.length_cons
    rw [List.length_drop, length] at options
    refine ⟨?_, ?_⟩
    · rw [pairsStart, length]
      omega
    · rw [AddOptions.snd_read, pairsStart, ← List.drop_drop]
      rfl
  removed := by
    intro _ taken
    have least : 3 ≤ request.arguments.length + 1 := arity_le taken
    -- The words are those of the request with its name in front.
    refine ⟨?_, rfl⟩
    rw [words, List.length_cons]
    omega

end Request

/-- In all sorted sets of some databases the position of a member is less than the size, so that it
can be counted from the end. -/
def RanksInside (databases : List Database) : Prop :=
  ∀ (index : Nat) (database : Database) key set member position,
    databases[index]? = some database → database.get? key = some (.sortedSet set) →
    set.rank? member = some position → 1 ≤ set.size ∧ position ≤ set.size - 1

/-- Positions are inside where all values are proper. -/
theorem TalliedAll.ranksInside {watching : KeyName → Nat} {databases : List Database}
    (tallied : TalliedAll watching databases) : RanksInside databases := by
  intro index database key set member position found stored ranked
  -- Proper values are sound sets, whose positions are those of their elements.
  have sound : set.Sound := ((tallied index database found).proper key _ stored).1
  have below := sound.rank?_lt_size ranked
  omega

namespace Server

/-- The number of databases stays. -/
theorem length_after (server : Server) (event : Event) :
    (server.after event).databases.length = server.databases.length := by
  -- Only binding changes the site, and the number of databases is a part of it.
  by_cases bound : ∃ address, event = .bind address
  · obtain ⟨address, rfl⟩ := bound
    rfl
  · exact congrArg Site.databaseCount (site_after fun address same => bound ⟨address, same⟩)

theorem length_run (server : Server) (events : List Event) :
    (server.run events).databases.length = server.databases.length := by
  -- By induction on the events, each of which keeps the number.
  induction events generalizing server with
  | nil => rfl
  | cons event rest ih => exact (ih (server.after event)).trans (server.length_after event)

/-- No request can break a connection of a server with so many databases. -/
structure Unbroken (server : Server) (databaseCount : Nat) : Prop where
  /-- There are as many databases as told. -/
  databases : server.databases.length = databaseCount
  /-- Every connection has selected one of them. -/
  selected : ∀ number, (server.scope number).connection.selected < databaseCount
  /-- Every request gets a reply. -/
  answered : ∀ number request, ∃ answer, (server.handle number request).2 = .ok answer
  /-- Positions can be counted from the end. -/
  ranked : RanksInside server.databases
  /-- The queued actions get a reply each, one after the other, and find a database to work on. -/
  queue : ∀ number done rest, (server.scope number).connection.queue = done ++ rest →
    ∃ between replies, (server.scope number).startQueue.runAll done = (between, .ok replies) ∧
      replies.length = done.length ∧ between.connection.selected < between.databases.length ∧
      RanksInside between.databases
  /-- A queue that runs is answered in full. -/
  executed : ∀ number request, request.name = CommandName.exec.text → request.arguments = [] →
    (server.scope number).connection.queueing = true →
    (server.scope number).connection.dirty = false →
    (server.scope number).watchedModified = false →
    ∃ replies, (server.handle number request).2 = .ok { reply := .array replies } ∧
      replies.length = (server.scope number).connection.queue.length

variable {server : Server}

/-- A request of a connection that fits gets a reply. -/
theorem Fits.answered (fits : server.Fits) (number : Nat) (request : Request) :
    ∃ answer, (server.handle number request).2 = .ok answer := by
  have asked := Request.instruction_comes server.site request
  have outcome := Scope.outcome_handle (fits.connections number) (request.instruction server.site)
  rw [handle_eq]
  generalize (server.scope number).handle (request.instruction server.site) = handled at outcome ⊢
  cases outcome with
  | failed fault read =>
    -- No request is read as a fault.
    rw [read] at asked
    exact asked.elim
  -- All other outcomes are answers.
  | refused | queued | ran | begun | watching | misplaced | pointless | aborted | overtaken
  | executed | discarded | quit => exact ⟨_, rfl⟩

/-- The beginning of a queue runs, and leaves databases in order. -/
theorem queue_runs {journal : Journal} (fits : server.Fits) (sound : server.Sound journal)
    {number : Nat} {done rest : List Action}
    (queued : (server.scope number).connection.queue = done ++ rest) :
    ∃ between replies, (server.scope number).startQueue.runAll done = (between, .ok replies) ∧
      replies.length = done.length ∧ between.connection.selected < between.databases.length ∧
      RanksInside between.databases := by
  -- The queue starts on the selected database, which is there.
  have own := fits.connections number
  have started : (server.scope number).startQueue.connection.selected <
      (server.scope number).startQueue.databases.length := own.selected
  -- What is queued is read already, and a part of a queue selects as safely as all of it.
  obtain ⟨between, replies, ran, _, selected⟩ := Scope.runAll_spec started
    fun action member => own.queue action (queued ▸ List.mem_append_left rest member)
  have moves : Scope.Moves number _ _ _ :=
    Scope.Moves.runAll done (server.scope number).startQueue
  rw [ran] at moves
  -- What is counted and watched is the same before the queue runs.
  have tallied : (server.scope number).startQueue.Tallied (server.otherHolders number) :=
    sound.scope number
  refine ⟨between, replies, ran, Scope.length_runAll ran, moves.length.symm ▸ selected, ?_⟩
  exact TalliedAll.ranksInside (tallied.moves moves)

/-- A server in order whose connections fit cannot be broken. -/
theorem Fits.unbroken {journal : Journal} (fits : server.Fits) (sound : server.Sound journal) :
    server.Unbroken server.databases.length where
  databases := rfl
  selected := fun number => (fits.connections number).selected
  answered := fits.answered
  ranked := sound.tallied.ranksInside
  queue := fun number done rest queued => queue_runs fits sound queued
  executed := by
    intro number request named bare queueing clean unmodified
    obtain ⟨final, replies, ran, executed, _⟩ :=
      (fits.connections number).execute queueing clean unmodified
    refine ⟨replies, ?_, Scope.length_runAll ran⟩
    rw [handle_exec server number named bare, executed]

/-- In every run no request can break a connection, and none cuts off words where there are none. -/
theorem run_unbroken (databaseCount : Nat) (endpoint : Endpoint) (events : List Event) :
    ((start databaseCount endpoint).run events).Unbroken (max databaseCount 1) ∧
      ∀ request : Request, request.CutsInside := by
  have length : ((start databaseCount endpoint).run events).databases.length =
      max databaseCount 1 := (length_run _ events).trans List.length_replicate
  have fits := (fits_start databaseCount endpoint).run events
  have sound := (sound_start databaseCount endpoint).run events
  exact ⟨length ▸ fits.unbroken sound, fun request => request.cutsInside⟩

end Server
end ScoreStore
