import ScoreStore.Proofs.Command.Instruction
import ScoreStore.Proofs.Connection.Witnessed
import ScoreStore.Server.Link

/-! Runs of a server: events in any order, the journal that they leave, and what stays in order. -/

namespace ScoreStore

/-- Something that happens to a server. -/
inductive Event where
  /-- The server is bound to an address. -/
  | bind (address : SocketAddress)
  /-- A connection is opened. -/
  | connect (number : Nat)
  /-- A connection makes a request. -/
  | request (number : Nat) (request : Request)
  /-- A connection is closed. -/
  | close (number : Nat)
  /-- Bytes arrive. -/
  | received (amount : Nat)
  /-- A command is taken from the network. -/
  | command
  /-- Bytes are sent. -/
  | sent (amount : Nat)

namespace Server

/-- The server after an event. -/
def after (server : Server) : Event → Server
  | .bind address => server.boundTo address
  | .connect number => server.connect number
  | .request number request => (server.handle number request).1
  | .close number => server.close number
  | .received amount => server.countReceived amount
  | .command => server.countCommand
  | .sent amount => server.countSent amount

/-- The server after events in turn. -/
def run (server : Server) (events : List Event) : Server := events.foldl after server

/-- The notes that an event leaves. -/
def notes (server : Server) : Event → Journal
  | .request number request =>
    (server.scope number).requestNotes number (request.instruction server.site)
  | .close number => if server.connections.contains number then [.released number] else []
  | _ => []

/-- The journal that events leave in turn. -/
def journal (server : Server) : List Event → Journal
  | [] => []
  | event :: rest => server.notes event ++ (server.after event).journal rest

/-- A request acts on what its connection can reach. -/
theorem handle_eq (server : Server) (number : Nat) (request : Request) :
    server.handle number request =
      (server.withScope number
        ((server.scope number).handle (request.instruction server.site)).1,
        ((server.scope number).handle (request.instruction server.site)).2) := by
  -- The reading is left closed, since none of it matters here.
  unfold handle handleAs
  generalize (server.scope number).handle (request.instruction server.site) = result
  rfl

/-- The request to run the queue runs it. -/
theorem handle_exec (server : Server) (number : Nat) {request : Request}
    (named : request.name = "exec") (bare : request.arguments = []) :
    server.handle number request =
      (server.withScope number (server.scope number).execute.1,
        (server.scope number).execute.2) := by
  rw [handle_eq, Request.instruction_exec named bare]
  rfl

/-- A key without the note of a write keeps its value whatever happens. -/
theorem valueAt_after (server : Server) (event : Event) {name : KeyName}
    (unwritten : .wrote name ∉ server.notes event) :
    valueAt (server.after event).databases name = valueAt server.databases name := by
  -- Requests write what their notes say, and everything else at most releases watches.
  cases event with
  | request number request =>
    have moves : Scope.Moves number (server.scope number) _ _ :=
      Scope.Moves.handle (server.scope number) (request.instruction server.site)
    rw [after, handle_eq]
    exact moves.valueAt_kept unwritten
  -- A connection that closes gives back what it watches.
  | close number =>
    simp only [after, close]
    split
    · exact congrFun (valueAt_congr (Scope.map_values_unwatchAll _)) name
    · rfl
  -- All others leave the databases alone.
  | connect number =>
    simp only [after, connect]
    split <;> rfl
  | bind address => rfl
  | received amount => rfl
  | command => rfl
  | sent amount => rfl

/-- Whether a connection watches a key. -/
def holding (name : KeyName) (entry : Nat × Connection) : Bool := entry.2.watched.contains name

/-- How many open connections watch a key. -/
def holders (server : Server) (name : KeyName) : Nat := server.connections.count (holding name)

/-- How many open connections besides a given one watch a key. -/
def otherHolders (server : Server) (number : Nat) (name : KeyName) : Nat :=
  (server.connections.erase number).count (holding name)

/-- The watched keys of a connection, none when it is not open. -/
def watchedBy (server : Server) (number : Nat) : Table KeyName Nat :=
  (server.scope number).connection.watched

section Scopes

variable {server : Server} {number other : Nat} {scope : Scope}

/-- A connection finds again what it left. -/
@[simp] theorem scope_withScope : (server.withScope number scope).scope number = scope := by
  simp [Server.scope, withScope]

/-- The other connections stay what they were. -/
theorem connection_withScope (different : number ≠ other) :
    ((server.withScope number scope).scope other).connection =
      (server.scope other).connection := by
  simp [Server.scope, withScope, different]

end Scopes

section Holders

variable (server : Server) (number : Nat) (name : KeyName)

/-- Every connection is one of the holders or none of them. -/
theorem holders_eq : server.holders name =
    server.otherHolders number name + share (server.watchedBy number) name := by
  -- The entry of the connection weighs as much as its share.
  have split := Table.count_erase (holding name) server.connections number
  have weighed : Table.weight (holding name) number (server.connections.get? number) =
      share (server.watchedBy number) name := by
    unfold watchedBy scope
    cases server.connections.get? number <;> rfl
  rw [weighed] at split
  exact split.symm

/-- What a connection does is nothing to the other holders. -/
theorem otherHolders_withScope (scope : Scope) :
    (server.withScope number scope).otherHolders number name = server.otherHolders number name := by
  -- The entry of the connection is left out on both sides.
  have setting := Table.count_set (holding name) server.connections number scope.connection
  have erasing := Table.count_erase (holding name) server.connections number
  have again := Table.count_erase (holding name)
    (server.connections.set number scope.connection) number
  rw [Table.get?_set, if_pos rfl] at again
  show ((server.connections.set number scope.connection).erase number).count (holding name) =
    (server.connections.erase number).count (holding name)
  -- What was watched and what is watched now are taken off the two counts.
  omega

end Holders

/-- A connection that watches a key is a holder besides every other connection. -/
theorem otherHolders_pos {server : Server} {number other : Nat} {name : KeyName}
    (different : other ≠ number) (held : (server.watchedBy other).contains name = true) :
    0 < server.otherHolders number name := by
  -- A connection that is not open watches nothing.
  unfold watchedBy scope at held
  cases found : server.connections.get? other with
  | none =>
    rw [found] at held
    cases held
  | some connection =>
    rw [found] at held
    -- Leaving out another connection leaves this one in.
    have stays : (server.connections.erase number).get? other = some connection := by
      rw [Table.get?_erase, if_neg (Ne.symm different), found]
    exact Table.count_pos _ stays held

/-- All databases are in order, and the versions that connections keep
tell what the journal tells. -/
structure Sound (journal : Journal) (server : Server) : Prop where
  /-- The databases count the holders of every key. -/
  tallied : TalliedAll server.holders server.databases
  /-- The watched keys of every connection are witnesses of the journal. -/
  witnessed : ∀ number, Witnessed journal number server.databases (server.watchedBy number)

/-- A server that has just started is in order. -/
theorem sound_start (databaseCount : Nat) (endpoint : Endpoint) :
    Sound [] (start databaseCount endpoint) where
  tallied := by
    -- All databases are empty, and nobody watches anything.
    intro index database found
    have member : database ∈ List.replicate (max databaseCount 1) Database.empty :=
      List.mem_of_getElem? found
    rw [List.eq_of_mem_replicate member]
    exact Database.Tallied.empty
  -- No connection has a watched key to be compared.
  witnessed := fun number => Witnessed.empty fun name => Journal.not_watching_nil

namespace Sound

variable {journal notes : Journal} {server : Server} {number : Nat}

/-- Counters and the address do not matter. -/
theorem congr {other : Server} (sound : Sound journal server)
    (databases : other.databases = server.databases)
    (connections : other.connections = server.connections) : Sound journal other where
  tallied := by
    have same : other.holders = server.holders := by
      funext name
      rw [holders, connections, ← holders]
    rw [same, databases]
    exact sound.tallied
  witnessed := by
    intro number
    have same : other.watchedBy number = server.watchedBy number := by
      simp only [watchedBy, scope, connections]
    rw [same, databases]
    exact sound.witnessed number

/-- A connection finds the databases counting its own watched keys besides those of the others. -/
theorem scope (sound : Sound journal server) (number : Nat) :
    (server.scope number).Tallied (server.otherHolders number) := by
  have split : server.holders = fun name =>
      server.otherHolders number name + share (server.watchedBy number) name :=
    funext (server.holders_eq number)
  show TalliedAll (fun name =>
    server.otherHolders number name + share (server.watchedBy number) name) server.databases
  rw [← split]
  exact sound.tallied

/-- A server stays in order when a connection moves on. -/
theorem moves {scope : Scope} (sound : Sound journal server)
    (moves : Scope.Moves number (server.scope number) notes scope) :
    Sound (journal ++ notes) (server.withScope number scope) where
  tallied := by
    have counts := (sound.scope number).moves moves
    have split : (server.withScope number scope).holders = fun name =>
        -- Of all connections only this one may watch other keys now.
        server.otherHolders number name + share scope.connection.watched name := by
      funext name
      rw [holders_eq _ number, otherHolders_withScope, watchedBy, scope_withScope]
    rw [split]
    exact counts
  witnessed := by
    -- A connection tells of its own writes as it tells of those of the others.
    intro other
    by_cases same : other = number
    · subst same
      rw [watchedBy, scope_withScope]
      exact Witnessed.moves_self moves (sound.scope other) (sound.witnessed other)
    · rw [watchedBy, connection_withScope (Ne.symm same)]
      exact Witnessed.moves_other same (fun name held => otherHolders_pos same held) moves
        (sound.scope number) (sound.witnessed other)

/-- A server stays in order when a connection is opened. -/
theorem connect (sound : Sound journal server) (number : Nat) :
    Sound journal (server.connect number) := by
  unfold Server.connect
  split
  · exact sound
  · next absent =>
    -- A connection that is not open has nothing yet, and nothing is what it starts with.
    have fresh : (server.scope number).connection = {} := by
      simp only [Table.contains_eq_false_iff.mp (Bool.not_eq_true _ ▸ absent), Server.scope]
      rfl
    have idle : Scope.Moves number (server.scope number) [] (server.scope number) :=
      Scope.Moves.idle rfl rfl
    have opened := sound.moves idle
    rw [List.append_nil] at opened
    refine opened.congr rfl ?_
    simp only [withScope, fresh]

/-- A server stays in order when a connection is closed. -/
theorem close (sound : Sound journal server) (number : Nat) :
    -- Nothing moves, so that the notes stay as they are.
    Sound (journal ++ server.notes (.close number)) (server.close number) := by
  unfold Server.close Server.notes
  by_cases present : server.connections.contains number = true
  · -- The connection has released its watched keys, so it may go.
    simp only [if_pos present]
    have left := sound.moves (Scope.Moves.leave (server.scope number))
    constructor
    · -- Without the connection, the watchers are those of all others.
      have same : (server.withScope number (server.scope number).leaveTransaction).holders =
          server.otherHolders number := by
        funext name
        rw [holders_eq _ number, otherHolders_withScope, watchedBy, scope_withScope]
        simp [Scope.leaveTransaction, Scope.unwatchAll, share]
      have counts := left.tallied
      rw [same] at counts
      exact counts
    · intro other
      have kept := left.witnessed other
      by_cases same : number = other
      · subst same
        simpa [watchedBy, Server.scope, withScope, Scope.leaveTransaction, Scope.unwatchAll]
          using kept
      · simpa [watchedBy, Server.scope, withScope, same] using kept
  · -- A number without a connection closes nothing.
    simpa only [if_neg present, List.append_nil] using sound

/-- An event that leaves no note keeps a server in order if only counters or the address change. -/
theorem quiet {event : Event} (none : server.notes event = [])
    (sound : Sound journal (server.after event)) :
    Sound (journal ++ server.notes event) (server.after event) := by
  rwa [none, List.append_nil]

/-- A server stays in order whatever happens. -/
theorem after (sound : Sound journal server) (event : Event) :
    Sound (journal ++ server.notes event) (server.after event) := by
  cases event with
  | bind address => exact quiet rfl (sound.congr rfl rfl)
  | connect number => exact quiet rfl (sound.connect number)
  | request number request =>
    -- The notes of a request are those of the moves it makes.
    have moved := sound.moves
      (Scope.Moves.handle (server.scope number) (request.instruction server.site))
    rw [Server.after, handle_eq, Server.notes]
    exact moved
  | close number => exact sound.close number
  | received amount => exact quiet rfl (sound.congr rfl rfl)
  | command => exact quiet rfl (sound.congr rfl rfl)
  | sent amount => exact quiet rfl (sound.congr rfl rfl)

/-- A server stays in order through all its runs. -/
theorem run (sound : Sound journal server) (events : List Event) :
    Sound (journal ++ server.journal events) (server.run events) := by
  -- The notes of the first event belong to the journal before the others.
  induction events generalizing journal server with
  | nil =>
    rw [Server.journal, List.append_nil]
    exact sound
  | cons event rest ih =>
    have later := ih (sound.after event)
    rwa [List.append_assoc] at later

end Sound
end Server
end ScoreStore
