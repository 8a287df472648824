import ScoreStore.Proofs.Connection.Records
import ScoreStore.Proofs.Reply.Wire
import ScoreStore.Proofs.Request.RoundTrip

/-!
Replies written piece by piece: first a number of items, and then as many items.

The number is told before the items are written, and each writer counts in its own way. What it
tells is the number of pieces that follow.
-/

namespace ScoreStore

namespace Reply

/-- Byte strings in turn are counted, and each one has its own length in front. -/
theorem encode_ofList (items : List Bytes) :
    (ofList items).encode = arrayHeader items.length ++ items.flatMap encodeBulk := by
  rw [ofList, encode_array, List.length_map, List.flatMap_map]
  rfl

/-- With scores there are two pieces for each element, and without them one. -/
theorem length_pieces (withScores : Bool) (elements : List Element) :
    (elements.flatMap fun element =>
        if withScores then [element.member, element.score.write] else [element.member]).length =
      if withScores then elements.length * 2 else elements.length := by
  cases withScores with
  | false => simp
  | true =>
    -- Every element adds the same number of pieces.
    simp [List.length_flatMap]

/-- The number told for a list of elements is doubled for scores, and the scores come in between. -/
theorem encode_ofElements (withScores : Bool) (elements : List Element) :
    (ofElements withScores elements).encode =
      arrayHeader (if withScores then elements.length * 2 else elements.length) ++
        elements.flatMap fun element => encodeBulk element.member ++
          if withScores then encodeBulk element.score.write else [] := by
  rw [ofElements, encode_ofList, length_pieces, List.flatMap_assoc]
  -- With scores or without, the pieces of an element are encoded one behind the other.
  cases withScores <;> simp

end Reply

/-- The bytes that ask for a request are those of a reply with its words. -/
theorem Request.bytes_eq_encode (request : Request) :
    request.bytes = (Reply.ofList request.words).encode := (Reply.encode_ofList _).symm

/-- An entry of the command table is announced as ten items. -/
theorem CommandEntry.encode_describe (entry : CommandEntry) (name : String) :
    (entry.describe name).encode = Reply.arrayHeader 10 ++
      Reply.encodeBulk (Text.bytes name) ++ (Reply.integer entry.arity).encode ++
      (Reply.ofList (entry.flags.map Text.bytes)).encode ++
      (Reply.integer entry.firstKey).encode ++ (Reply.integer entry.lastKey).encode ++
      (Reply.integer entry.keyStep).encode ++ Reply.arrayHeader 0 ++ Reply.arrayHeader 0 ++
      Reply.arrayHeader 0 ++ Reply.arrayHeader 0 := by
  simp [describe, Reply.encode_array, Reply.encode, Reply.encodeAll]

/-- The command table is announced as many entries as there are commands. -/
theorem CommandName.encode_table : table.encode = Reply.arrayHeader all.length ++
    all.flatMap fun name => (name.entry.describe name.text).encode := by
  rw [table, Reply.encode_array, List.length_map, List.flatMap_map]

/-- The ranges of slots are one range of three items, and its node has three items as well. -/
theorem Cluster.encode_slots (endpoint : Endpoint) :
    (slots endpoint).encode = Reply.arrayHeader 1 ++ Reply.arrayHeader 3 ++
      (Reply.count 0).encode ++ (Reply.count lastSlot).encode ++ Reply.arrayHeader 3 ++
      Reply.encodeBulk (Text.bytes endpoint.host) ++ (Reply.count endpoint.port).encode ++
      Reply.encodeBulk (Text.bytes nodeId) := by
  simp [slots, Reply.encode_array, Reply.encode, Reply.encodeAll]

/-- A queue that runs is announced as many items as it has actions, before any of them has run. -/
theorem Scope.encode_runAll {scope final : Scope} {actions : List Action} {replies : List Reply}
    (ran : scope.runAll actions = (final, .ok replies)) :
    (Reply.array replies).encode =
      Reply.arrayHeader actions.length ++ replies.flatMap Reply.encode := by
  -- A queue that runs has one reply for each of its actions.
  rw [Reply.encode_array, length_runAll ran]

end ScoreStore
