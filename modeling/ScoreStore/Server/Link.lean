import ScoreStore.Server

/-! Links: the bytes of a connection, from what arrives to what is sent back. -/

namespace ScoreStore

/-- The receiving end of an open connection. -/
structure Link where
  /-- The number of the connection. -/
  number : Nat
  /-- The bytes that no request has taken yet. -/
  left : Bytes := []
  /-- Whether the server still reads from the connection. -/
  isOpen : Bool := true
deriving DecidableEq

namespace Server

/-- Counts bytes that arrive. -/
def countReceived (server : Server) (amount : Nat) : Server :=
  { server with counters := { server.counters with received := server.counters.received + amount } }

/-- Counts a command from the network. -/
def countCommand (server : Server) : Server :=
  { server with counters := { server.counters with commands := server.counters.commands + 1 } }

/-- Counts bytes that are sent. -/
def countSent (server : Server) (amount : Nat) : Server :=
  { server with counters := { server.counters with sent := server.counters.sent + amount } }

/-- Handles requests in turn, and gives the bytes to send and whether the connection goes on. -/
def serveAll (server : Server) (number : Nat) : List Request → Server × Bytes × Bool
  -- A request without a reply ends the connection, and so does one that asks for it.
  | [] => (server, [], true)
  | request :: rest =>
    match server.countCommand.handle number request with
    | (server, .error _) => (server, [], false)
    | (server, .ok answer) =>
      let bytes := answer.reply.encode
      let server := server.countSent bytes.length
      if answer.closes then (server, bytes, false)
      else
        let (server, more, goesOn) := server.serveAll number rest
        (server, bytes ++ more, goesOn)

/-- Takes a chunk of bytes from a connection, and gives the bytes to send. -/
def receive (server : Server) (link : Link) (chunk : Bytes) : Server × Link × Bytes :=
  -- Nothing more is read once the connection has ended or sent what is no request.
  if link.isOpen then
    let arrival := Arrival.ofBuffer (link.left ++ chunk)
    let (server, bytes, goesOn) :=
      (server.countReceived chunk.length).serveAll link.number arrival.requests
    (server, { link with left := arrival.left, isOpen := goesOn && arrival.isOpen }, bytes)
  else (server, link, [])

end Server
end ScoreStore
