import ScoreStore.Decimal
import ScoreStore.Text.Utf8

/-! Replies, and their form on the wire. -/

namespace ScoreStore

/-- What a client receives for a request. -/
inductive Reply where
  /-- A short word of success. -/
  | status (text : String)
  /-- The reason for a refusal. -/
  | error (text : String)
  /-- A whole number. -/
  | integer (value : Int)
  /-- A byte string. -/
  | bulk (content : Bytes)
  /-- The byte string that is not there. -/
  | missing
  /-- The array that is not there. -/
  | missingArray
  /-- A sequence of replies. -/
  | array (items : List Reply)

namespace Reply

/-- A line: the byte that names its kind, its content and the line end. -/
def line (kind : UInt8) (content : Bytes) : Bytes := kind :: content ++ Bytes.lineEnd

/-- The line that announces the number of items of an array. -/
def arrayHeader (count : Nat) : Bytes := line Ascii.asterisk (Decimal.ofNat count)

/-- A byte string with its length in front. -/
def encodeBulk (content : Bytes) : Bytes :=
  line Ascii.dollar (Decimal.ofNat content.length) ++ content ++ Bytes.lineEnd

mutual

/-- The bytes of a reply. -/
def encode : Reply → Bytes
  | status text => line Ascii.plus (Text.bytes text)
  | error text => line Ascii.minus (Text.bytes text)
  | integer value => line Ascii.colon (Decimal.ofInt value)
  | bulk content => encodeBulk content
  -- What is missing has a length or a number of items that nothing can have.
  | missing => line Ascii.dollar (Decimal.ofInt (-1))
  | missingArray => line Ascii.asterisk (Decimal.ofInt (-1))
  | array items => arrayHeader items.length ++ encodeAll items

/-- The bytes of replies in turn. -/
def encodeAll : List Reply → Bytes
  | [] => []
  | reply :: rest => encode reply ++ encodeAll rest

end

/-- The reply to a request that succeeded and has nothing to tell. -/
def ok : Reply := status "OK"

/-- A count. -/
def count (value : Nat) : Reply := integer value

/-- A byte string, or none. -/
def ofBytes? : Option Bytes → Reply
  | some content => bulk content
  | none => missing

/-- Byte strings in turn. -/
def ofList (items : List Bytes) : Reply := array (items.map bulk)

end Reply
end ScoreStore
