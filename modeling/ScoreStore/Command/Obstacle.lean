import ScoreStore.Command.Refusal
import ScoreStore.Decimal
import ScoreStore.Request

/-! What keeps a request from becoming an instruction, and reading single words of a request. -/

namespace ScoreStore

/-- What keeps a request from becoming an instruction. -/
inductive Obstacle where
  /-- The request has no reply at all. -/
  | fault (fault : Fault)
  /-- The request is answered with an error. -/
  | refusal (refusal : Refusal)
deriving DecidableEq

namespace Request

/-- The argument at a position, which must be there. -/
def need (request : Request) (position : Nat) : Except Obstacle Bytes :=
  match request.arguments[position]? with
  | some word => .ok word
  | none => .error (.fault .missingArgument)

/-- A value that must be there, or else the request is refused. -/
def orRefuse {α : Type} (refusal : Refusal) : Option α → Except Obstacle α
  | some value => .ok value
  | none => .error (.refusal refusal)

/-- The signed 64-bit integer at a position. -/
def needInteger (request : Request) (position : Nat) : Except Obstacle Int := do
  let word ← request.need position
  orRefuse .notAnInteger (Decimal.signed64? word)

end Request
end ScoreStore
