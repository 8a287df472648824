/-! The counters of a server, and their report. -/

namespace ScoreStore

/-- What a server has counted since it started. -/
structure Counters where
  /-- Connections opened. -/
  opened : Nat := 0
  /-- Connections closed. -/
  closed : Nat := 0
  /-- Commands taken from the network. -/
  commands : Nat := 0
  /-- Bytes received. -/
  received : Nat := 0
  /-- Bytes sent. -/
  sent : Nat := 0
  /-- Transactions that ran. -/
  executed : Nat := 0
  /-- Transactions that were given up. -/
  aborted : Nat := 0
deriving DecidableEq

namespace Counters

/-- The lines of the report for databases of the given sizes. -/
def lines (counters : Counters) (sizes : List Nat) : List String :=
  -- Databases without keys are passed over.
  ["# Stats",
    "connections_opened:" ++ toString counters.opened,
    "connections_closed:" ++ toString counters.closed,
    "total_commands_processed:" ++ toString counters.commands,
    "total_net_input_bytes:" ++ toString counters.received,
    "total_net_output_bytes:" ++ toString counters.sent,
    "transactions_executed:" ++ toString counters.executed,
    "transactions_aborted:" ++ toString counters.aborted,
    "",
    "# Keyspace"] ++
    (sizes.zipIdx.filter fun (size, _) => size ≠ 0).map fun (size, index) =>
      "db" ++ toString index ++ ":keys=" ++ toString size

/-- The report for databases of the given sizes. -/
def report (counters : Counters) (sizes : List Nat) : String :=
  "\r\n".intercalate (counters.lines sizes)

end Counters
end ScoreStore
