import ScoreStore.Text.Lowercase
import ScoreStore.Text.Utf8

/-! Requests: a verb with its arguments. -/

namespace ScoreStore

/-- What a client asks for. -/
structure Request where
  /-- The first word. -/
  verb : Bytes
  /-- The words after it. -/
  arguments : List Bytes
deriving DecidableEq

namespace Request

/-- The request made of some words, unless there are none. -/
def ofWords? : List Bytes → Option Request
  | [] => none
  | verb :: arguments => some ⟨verb, arguments⟩

/-- The words of a request. -/
def words (request : Request) : List Bytes := request.verb :: request.arguments

/-- The text of a byte string in lowercase, as names and options are compared. -/
def lowered (word : Bytes) : String := Text.lower (Text.ofBytes word)

/-- The name of the command that the request asks for. -/
def name (request : Request) : String := lowered request.verb

end Request
end ScoreStore
