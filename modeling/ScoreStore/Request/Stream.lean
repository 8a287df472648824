import ScoreStore.Request.Reader

/-! Reading requests from a stream of bytes that arrives in chunks. -/

namespace ScoreStore

namespace Request

/-- The first request that has words leaves fewer bytes. -/
theorem length_readFirst {buffer rest : Bytes} {request : Request}
    (read : readFirst buffer = .ok (request, rest)) : rest.length < buffer.length := by
  -- Requests without words only take more bytes away.
  fun_induction readFirst buffer with
  | case1 buffer reason failed => simp at read
  | case2 buffer remaining empty ih =>
    have shorter := length_readWords empty
    have := ih read
    omega
  | case3 buffer remaining verb arguments found =>
    simp only [Except.ok.injEq, Prod.mk.injEq] at read
    exact read.2 ▸ length_readWords found

/-- A request read from a buffer leaves fewer bytes. -/
theorem length_read {buffer rest : Bytes} {request : Request}
    (found : Request.read buffer = .ok (request, rest)) : rest.length < buffer.length := by
  -- The limit on the buffer only adds failures.
  unfold Request.read at found
  split at found
  · simp at found
  · exact length_readFirst found

end Request

/-- What a buffer came to: the requests in it, why reading stopped, and the bytes not read. -/
structure Arrival where
  /-- The requests, first one first. -/
  requests : List Request
  /-- Why no further request was read. -/
  stop : ReadError
  /-- The bytes after the last request. -/
  left : Bytes
deriving DecidableEq

namespace Arrival

/-- The arrival with one request more in front. -/
def after (request : Request) (arrival : Arrival) : Arrival :=
  { arrival with requests := request :: arrival.requests }

/-- Reads requests until one cannot be read. -/
def ofBuffer (buffer : Bytes) : Arrival :=
  match _found : Request.read buffer with
  | .error reason => ⟨[], reason, buffer⟩
  | .ok (request, rest) => (ofBuffer rest).after request
termination_by buffer.length
decreasing_by exact Request.length_read _found

/-- Whether more bytes may still complete a request. -/
def isOpen (arrival : Arrival) : Bool := arrival.stop == .incomplete

/-- What each chunk of a stream comes to, up to the first one that cannot be continued. -/
def ofChunks (left : Bytes) : List Bytes → List Arrival
  -- A chunk joins the bytes that earlier chunks left.
  | [] => []
  | chunk :: later =>
    let arrival := ofBuffer (left ++ chunk)
    if arrival.isOpen then arrival :: ofChunks arrival.left later else [arrival]

end Arrival
end ScoreStore
