import ScoreStore.Request.Stream
import ScoreStore.Transaction

/-! Servers: databases shared by numbered connections, which come, send requests and go. -/

namespace ScoreStore

/-- A server with its connections. -/
structure Server where
  /-- The databases, by index. -/
  databases : List Database
  /-- The open connections, by number. -/
  connections : Table Nat Connection := .empty
  /-- The counters. -/
  counters : Counters := {}
  /-- The address that the server gives for itself. -/
  endpoint : Endpoint

namespace Server

/-- A server without keys and connections, with at least one database. -/
def start (databaseCount : Nat) (endpoint : Endpoint) : Server :=
  { databases := List.replicate (max databaseCount 1) .empty, endpoint }

/-- The server bound to an address, which it then gives for itself. -/
def boundTo (server : Server) (address : SocketAddress) : Server :=
  { server with endpoint := address.endpoint }

/-- What the reading of requests depends on. -/
def site (server : Server) : Site := ⟨server.databases.length, server.endpoint⟩

/-- Opens a connection, unless it is open. -/
def connect (server : Server) (number : Nat) : Server :=
  -- A number that is in use stays with the connection that has it.
  if server.connections.contains number then server
  else { server with
    connections := server.connections.set number {}
    counters := { server.counters with opened := server.counters.opened + 1 } }

/-- What the commands of a connection can reach. -/
def scope (server : Server) (number : Nat) : Scope where
  databases := server.databases
  -- A number without a connection acts as a new one.
  connection := (server.connections.get? number).getD {}
  counters := server.counters

/-- The server after the commands of a connection did something. -/
def withScope (server : Server) (number : Nat) (scope : Scope) : Server :=
  { server with
    databases := scope.databases
    connections := server.connections.set number scope.connection
    counters := scope.counters }

/-- Closes a connection, which leaves its transaction and releases its watched keys. -/
def close (server : Server) (number : Nat) : Server :=
  if server.connections.contains number then
    -- Watched keys are released, while what was done stays done.
    let scope := (server.scope number).leaveTransaction
    { server with
      databases := scope.databases
      connections := server.connections.erase number
      counters := { server.counters with closed := server.counters.closed + 1 } }
  else server

/-- Handles a request of a connection, read in a given way. -/
def handleAs (reading : Site → Request → Except Obstacle Instruction) (server : Server)
    (number : Nat) (request : Request) : Handled Server :=
  let (scope, answer) := (server.scope number).handle (reading server.site request)
  (server.withScope number scope, answer)

/-- Handles a request of a connection. -/
def handle (server : Server) (number : Nat) (request : Request) : Handled Server :=
  server.handleAs Request.instruction number request

/-- Handles the words of a request as a command of a group. -/
def handleInGroup (group : CommandGroup) (server : Server) (number : Nat) (request : Request) :
    Handled Server :=
  server.handleAs group.instruction number request

/-- The report of the counters. -/
def report (server : Server) : String :=
  server.counters.report (server.databases.map Database.size)

end Server
end ScoreStore
