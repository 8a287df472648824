/-! The names of the commands, and how a text is recognised as one. -/

namespace ScoreStore

/-- A command that clients may ask for. -/
inductive CommandName where
  | cluster | command | del | discard | echo | exec | existing | flushAll | flushDb | get | info
  | multi | ping | quit | select | set | typeOf | unwatch | watch
  | zadd | zcard | zcount | zincrby | zlexcount
  | zrange | zrangebylex | zrangebyscore | zrank
  | zrem | zremrangebylex | zremrangebyrank | zremrangebyscore
  | zrevrange | zrevrangebylex | zrevrangebyscore | zrevrank | zscore
deriving DecidableEq, Repr

namespace CommandName

/-- The identifier of the name in the enumeration of all names. -/
def identifier : CommandName → String
  | cluster => "Cluster" | command => "Command" | del => "Del" | discard => "Discard"
  | echo => "Echo" | exec => "Exec" | existing => "Exists" | flushAll => "FlushAll"
  | flushDb => "FlushDb" | get => "Get" | info => "Info" | multi => "Multi" | ping => "Ping"
  | quit => "Quit" | select => "Select" | set => "Set" | typeOf => "Type"
  | unwatch => "Unwatch" | watch => "Watch" | zadd => "Zadd" | zcard => "Zcard"
  | zcount => "Zcount" | zincrby => "Zincrby" | zlexcount => "Zlexcount" | zrange => "Zrange"
  | zrangebylex => "Zrangebylex" | zrangebyscore => "Zrangebyscore" | zrank => "Zrank"
  | zrem => "Zrem" | zremrangebylex => "Zremrangebylex" | zremrangebyrank => "Zremrangebyrank"
  | zremrangebyscore => "Zremrangebyscore" | zrevrange => "Zrevrange"
  | zrevrangebylex => "Zrevrangebylex" | zrevrangebyscore => "Zrevrangebyscore"
  | zrevrank => "Zrevrank" | zscore => "Zscore"

/-- The key of the name in the command table. -/
def text : CommandName → String
  | cluster => "cluster" | command => "command" | del => "del" | discard => "discard"
  | echo => "echo" | exec => "exec" | existing => "exists" | flushAll => "flushall"
  | flushDb => "flushdb" | get => "get" | info => "info" | multi => "multi" | ping => "ping"
  | quit => "quit" | select => "select" | set => "set" | typeOf => "type"
  | unwatch => "unwatch" | watch => "watch" | zadd => "zadd" | zcard => "zcard"
  | zcount => "zcount" | zincrby => "zincrby" | zlexcount => "zlexcount" | zrange => "zrange"
  | zrangebylex => "zrangebylex" | zrangebyscore => "zrangebyscore" | zrank => "zrank"
  | zrem => "zrem" | zremrangebylex => "zremrangebylex" | zremrangebyrank => "zremrangebyrank"
  | zremrangebyscore => "zremrangebyscore" | zrevrange => "zrevrange"
  | zrevrangebylex => "zrevrangebylex" | zrevrangebyscore => "zrevrangebyscore"
  | zrevrank => "zrevrank" | zscore => "zscore"

/-- All names, in alphabetical order. -/
def all : List CommandName :=
  [cluster, command, del, discard, echo, exec, existing, flushAll, flushDb, get, info,
    multi, ping, quit, select, set, typeOf, unwatch, watch,
    zadd, zcard, zcount, zincrby, zlexcount,
    zrange, zrangebylex, zrangebyscore, zrank,
    zrem, zremrangebylex, zremrangebyrank, zremrangebyscore,
    zrevrange, zrevrangebylex, zrevrangebyscore, zrevrank, zscore]

/-- The command under exactly this key of the table. -/
def ofLowercase? (name : String) : Option CommandName := all.find? fun known => known.text == name

/-- The command with this identifier in any case of the letters A to Z. -/
def ofAnyCase? (name : String) : Option CommandName :=
  all.find? fun known =>
    known.identifier.toList.map Char.toLower == name.toList.map Char.toLower

end CommandName
end ScoreStore
