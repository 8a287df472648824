import ScoreStore.Command.Name
import ScoreStore.Reply

/-! The command table: how many words each command takes, where its keys are, and what it may do. -/

namespace ScoreStore

/-- What is known about a command before it runs. -/
structure CommandEntry where
  /-- The number of words, or with a minus sign the least number of words. -/
  arity : Int := 2
  /-- The position of the first key, zero when there is none. -/
  firstKey : Int := 1
  /-- The position of the last key, where minus one stands for the last word. -/
  lastKey : Int := 1
  /-- The distance from one key to the next. -/
  keyStep : Nat := 1
  /-- The command only reads. -/
  reads : Bool := false
  /-- The command may write. -/
  writes : Bool := false
  /-- The command is about the server itself. -/
  isAdmin : Bool := false
  /-- The command is about the connection. -/
  isConnection : Bool := false
  /-- The command is never queued. -/
  isImmediate : Bool := false
deriving DecidableEq

namespace CommandEntry

/-- The entry of a command with one key and nothing said about what it does. -/
def basic : CommandEntry := {}

/-- The entry with another number of words. -/
def withArity (entry : CommandEntry) (arity : Int) : CommandEntry := { entry with arity := arity }

/-- The entry of a command without keys. -/
def withoutKeys (entry : CommandEntry) : CommandEntry :=
  { entry with firstKey := 0, lastKey := 0, keyStep := 0 }

/-- The entry of a command whose words are all keys from the first key on. -/
def withAllKeys (entry : CommandEntry) : CommandEntry := { entry with lastKey := -1 }

/-- The entry of a command that only reads. -/
def reading (entry : CommandEntry) : CommandEntry := { entry with reads := true }

/-- The entry of a command that may write. -/
def writing (entry : CommandEntry) : CommandEntry := { entry with writes := true }

/-- The entry of a command about the server itself. -/
def forAdmin (entry : CommandEntry) : CommandEntry := { entry with isAdmin := true }

/-- The entry of a command about the connection. -/
def forConnection (entry : CommandEntry) : CommandEntry := { entry with isConnection := true }

/-- The entry of a command that is never queued. -/
def immediate (entry : CommandEntry) : CommandEntry := { entry with isImmediate := true }

/-- Whether the command takes a number of words, its name included. -/
def accepts (entry : CommandEntry) (count : Nat) : Bool :=
  -- A least number of words is written as its negative.
  if entry.arity < 0 then entry.arity.natAbs ≤ count else count == entry.arity.natAbs

/-- The words for what the command may do. -/
def flags (entry : CommandEntry) : List String :=
  (if entry.reads then ["readonly"] else []) ++ (if entry.writes then ["write"] else []) ++
    (if entry.isAdmin then ["admin"] else []) ++
    (if entry.isConnection then ["connection"] else []) ++
    (if entry.isImmediate then ["notransaction"] else [])

/-- The entry as clients see it, with four empty lists for what this server does not tell. -/
def describe (entry : CommandEntry) (name : String) : Reply :=
  .array [.bulk (Text.bytes name), .integer entry.arity,
    .ofList (entry.flags.map Text.bytes), .integer entry.firstKey, .integer entry.lastKey,
    .integer entry.keyStep, .array [], .array [], .array [], .array []]

end CommandEntry

namespace CommandName

/-- The table entry of a command. -/
def entry : CommandName → CommandEntry
  -- Most commands take one key, and the others are told apart first.
  | ping | quit | command => (CommandEntry.basic.withoutKeys.withArity (-1)).forConnection
  | echo | select => CommandEntry.basic.withoutKeys.forConnection
  | info => (CommandEntry.basic.withoutKeys.withArity (-1)).reading
  | flushAll | flushDb => (CommandEntry.basic.withoutKeys.withArity (-1)).writing
  | cluster => (CommandEntry.basic.withoutKeys.withArity (-2)).forAdmin
  | multi | exec | discard => (CommandEntry.basic.withoutKeys.withArity 1).immediate
  | unwatch => CommandEntry.basic.withoutKeys.withArity 1
  | del => (CommandEntry.basic.withAllKeys.withArity (-2)).writing
  | existing => (CommandEntry.basic.withAllKeys.withArity (-2)).reading
  | watch => (CommandEntry.basic.withAllKeys.withArity (-2)).immediate
  | typeOf | get | zcard => CommandEntry.basic.reading
  | zrank | zrevrank | zscore => (CommandEntry.basic.withArity 3).reading
  | zcount | zlexcount => (CommandEntry.basic.withArity 4).reading
  | zrange | zrevrange | zrangebylex | zrevrangebylex | zrangebyscore | zrevrangebyscore =>
    (CommandEntry.basic.withArity (-4)).reading
  | set => (CommandEntry.basic.withArity 3).writing
  | zadd => (CommandEntry.basic.withArity (-4)).writing
  | zrem => (CommandEntry.basic.withArity (-3)).writing
  | zincrby | zremrangebylex | zremrangebyrank | zremrangebyscore =>
    (CommandEntry.basic.withArity 4).writing

/-- The command table as clients see it. -/
def table : Reply := .array (all.map fun name => name.entry.describe name.text)

end CommandName
end ScoreStore
