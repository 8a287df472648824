import ScoreStore.Address
import ScoreStore.Command.SortedSetWords
import ScoreStore.Command.Table

/-! Instructions: what a request asks a connection to do, and how requests are read as such. -/

namespace ScoreStore

/-- What a request asks a connection to do. -/
inductive Instruction where
  /-- Run an action, or queue it. -/
  | act (action : Action)
  /-- Begin a transaction. -/
  | beginTransaction
  /-- Run the queued actions. -/
  | execute
  /-- Drop the queued actions. -/
  | discard
  /-- Watch keys. -/
  | watch (keys : List Bytes)
  /-- End the connection. -/
  | quit

/-- What the reading of requests depends on besides their words. -/
structure Site where
  /-- How many databases there are. -/
  databaseCount : Nat
  /-- The address that the server gives for itself. -/
  endpoint : Endpoint
deriving DecidableEq

namespace Cluster

/-- The last of the hash slots, all of which belong to this server. -/
def lastSlot : Nat := 16383

/-- The slot that is told for every key. -/
def keySlot : Nat := 163

/-- The identifier of this server among cluster nodes. -/
def nodeId : String := "09dbe9720cda62f7865eabc5fd8857c5d2678366"

/-- The list of nodes that is told to clients. -/
def nodes : String :=
  "e7d1eecce10fd6bb5eb35b9f99a514335d9ba9ca 127.0.0.1:7000@7000 myself,master - 0 0 1 connected 0-16383"

/-- The ranges of slots with the node that holds them. -/
def slots (endpoint : Endpoint) : Reply :=
  .array [.array [.count 0, .count lastSlot,
    .array [.bulk (Text.bytes endpoint.host), .count endpoint.port, .bulk (Text.bytes nodeId)]]]

end Cluster

/-- The greatest database index that can be selected. -/
def maxDatabaseIndex : Nat := Decimal.maxUnsigned16

namespace Request

/-- The first argument in lowercase, empty when there is none. -/
def subcommand (request : Request) : String := ((request.arguments.head?).map lowered).getD ""

/-- Reads a command about the connection. -/
def connectionInstruction (site : Site) (request : Request) :
    CommandName → Except Obstacle Instruction
  | .ping =>
    match request.arguments with
    | [] => .ok (.act (.answer (.status "PONG")))
    | [message] => .ok (.act (.answer (.bulk message)))
    | _ => .error (.refusal (.wrongCount "ping"))
  | .echo => do
    let message ← request.need 0
    return .act (.answer (.bulk message))
  | .select => do
    let word ← request.need 0
    let index ← orRefuse .badDatabaseIndex (Decimal.signed64? word)
    -- All three bounds are checked before the action is made, so that a queued selection succeeds.
    if 0 ≤ index ∧ index ≤ maxDatabaseIndex ∧ index < site.databaseCount then
      return .act (.select index.toNat)
    else .error (.refusal .databaseIndexOutOfRange)
  | .quit => .ok .quit
  | _ => .error (.fault (.foreignCommand .connection request.name))

/-- Reads a command about the server. -/
def serverInstruction (request : Request) : CommandName → Except Obstacle Instruction
  | .command =>
    match request.arguments with
    | [] => .ok (.act (.answer CommandName.table))
    | word :: rest =>
      -- Words after the count are not ignored but make the subcommand an unknown one.
      if lowered word = "count" ∧ rest = [] then
        .ok (.act (.answer (.count CommandName.all.length)))
      else .error (.refusal (.unknownSubcommand (lowered word)))
  | .info => .ok (.act .report)
  | _ => .error (.fault (.foreignCommand .server request.name))

/-- Reads a command about the cluster, whatever its name. -/
def clusterInstruction (site : Site) (request : Request) : Except Obstacle Instruction :=
  -- Each subcommand takes a fixed number of words, and is not supported with another one.
  if request.subcommand = "slots" ∧ request.arguments.length = 1 then
    .ok (.act (.answer (Cluster.slots site.endpoint)))
  else if request.subcommand = "keyslot" ∧ request.arguments.length = 2 then
    .ok (.act (.answer (.count Cluster.keySlot)))
  else if request.subcommand = "nodes" ∧ request.arguments.length = 1 then
    .ok (.act (.answer (.bulk (Text.bytes Cluster.nodes))))
  else
    .error (.refusal (.unsupportedCluster
      (" ".intercalate (request.arguments.map Text.ofBytes))))

/-- Reads a command about keys of any type. -/
def keysInstruction (request : Request) : CommandName → Except Obstacle Instruction
  | .del => .ok (.act (.delete request.arguments))
  | .existing => .ok (.act (.countExisting request.arguments))
  | .typeOf => do
    let key ← request.need 0
    return .act (.typeOf key)
  | .flushDb => .ok (.act .flush)
  | .flushAll => .ok (.act .flushAll)
  | _ => .error (.fault (.foreignCommand .keys request.name))

/-- Reads a command on strings. -/
def stringsInstruction (request : Request) : CommandName → Except Obstacle Instruction
  | .set => do
    let key ← request.need 0
    let content ← request.need 1
    return .act (.set key content)
  | .get => do
    let key ← request.need 0
    return .act (.get key)
  | _ => .error (.fault (.foreignCommand .strings request.name))

/-- Reads a command about transactions. -/
def transactionsInstruction (request : Request) : CommandName → Except Obstacle Instruction
  | .multi => .ok .beginTransaction
  | .exec => .ok .execute
  | .discard => .ok .discard
  | .watch => .ok (.watch request.arguments)
  | .unwatch => .ok (.act .unwatch)
  | _ => .error (.fault (.foreignCommand .transactions request.name))

end Request

/-- The group that handles a command. -/
def CommandName.group : CommandName → CommandGroup
  -- All commands but those on sorted sets are told by name.
  | ping | echo | select | quit => .connection
  | command | info => .server
  | cluster => .cluster
  | del | existing | typeOf | flushDb | flushAll => .keys
  | set | get => .strings
  | multi | exec | discard | watch | unwatch => .transactions
  | _ => .sortedSets

/-- Reads a request as a command of a group, without looking at the number of its words. -/
def CommandGroup.instruction (group : CommandGroup) (site : Site) (request : Request) :
    Except Obstacle Instruction :=
  -- The cluster group takes any name, and the others only the names of their commands.
  match group, CommandName.ofLowercase? request.name with
  | .cluster, _ => request.clusterInstruction site
  | _, none => .error (.fault (.foreignCommand group request.name))
  | .sortedSets, some name => (request.sortedSetAction name).map .act
  | .strings, some name => request.stringsInstruction name
  | .keys, some name => request.keysInstruction name
  | .connection, some name => request.connectionInstruction site name
  | .server, some name => request.serverInstruction name
  | .transactions, some name => request.transactionsInstruction name

/-- Reads a request: its name must be known and take the number of its words. -/
def Request.instruction (site : Site) (request : Request) : Except Obstacle Instruction :=
  -- The name is looked up first, then the words are counted, and only then are they looked at.
  match CommandName.ofLowercase? request.name with
  | none => .error (.refusal (.unknownCommand request.name))
  | some name =>
    if name.entry.accepts request.words.length then name.group.instruction site request
    else .error (.refusal (.wrongCount name.text))

end ScoreStore
