import ScoreStore.Command.Action
import ScoreStore.Keyspace.Database
import ScoreStore.Server.Counters

/-! Connections: the selected database, the transaction being queued and the watched keys. -/

namespace ScoreStore

/-- The state of one connection. -/
structure Connection where
  /-- The index of the selected database. -/
  selected : Nat := 0
  /-- Whether commands are queued instead of run. -/
  queueing : Bool := false
  /-- Whether a command was refused since the transaction began. -/
  dirty : Bool := false
  /-- The queued commands, first one first. -/
  queue : List Action := []
  /-- The version of each watched key, by database and key, when it was first watched. -/
  watched : Table (Nat × Bytes) Nat := .empty

/-- What the commands of one connection can reach: all databases, the
connection and the counters. -/
structure Scope where
  /-- The databases, by index. -/
  databases : List Database
  /-- The connection. -/
  connection : Connection
  /-- The counters of the server. -/
  counters : Counters

namespace Scope

/-- The selected database. -/
def database? (scope : Scope) : Option Database := scope.databases[scope.connection.selected]?

/-- The scope with another value of the selected database. -/
def withDatabase (scope : Scope) (database : Database) : Scope :=
  { scope with databases := scope.databases.set scope.connection.selected database }

/-- Watches a key in a database, keeping the version of a key that is already watched. -/
def watchIn (index : Nat) (scope : Scope) (key : Bytes) : Scope :=
  -- The key is recorded under the selected index, which names the same database as a rule.
  let name := (scope.connection.selected, key)
  match scope.databases[index]? with
  | none => scope
  | some database =>
    if scope.connection.watched.contains name then scope
    else
      let (version, database) := database.watch key
      { scope with
        databases := scope.databases.set index database
        connection := { scope.connection with
          watched := scope.connection.watched.set name version } }

/-- Watches a key in the selected database. -/
def watch (scope : Scope) (key : Bytes) : Scope := scope.watchIn scope.connection.selected key

/-- Releases all watched keys. -/
def unwatchAll (scope : Scope) : Scope :=
  { scope with
    databases := scope.connection.watched.keys.foldl
      (fun databases (index, key) => databases.modify index (·.unwatch key)) scope.databases
    connection := { scope.connection with watched := .empty } }

/-- Whether a watched key has another version than when it was first watched. -/
def watchedModified (scope : Scope) : Bool :=
  -- A key of a database that does not exist counts as modified.
  scope.connection.watched.entries.any fun ((index, key), version) =>
    match scope.databases[index]? with
    | none => true
    | some database => database.version key != version

/-- Leaves the transaction: nothing is queued, refused or watched any more. -/
def leaveTransaction (scope : Scope) : Scope :=
  unwatchAll { scope with
    connection := { scope.connection with queueing := false, dirty := false, queue := [] } }

/-- Marks the transaction of the connection as refused. -/
def markDirty (scope : Scope) : Scope :=
  { scope with connection := { scope.connection with dirty := true } }

end Scope
end ScoreStore
