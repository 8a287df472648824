import ScoreStore.Proofs.Range.Window
import ScoreStore.Proofs.Server.Finding

/-!
Listings by position: the reply shows exactly the elements that the window covers, counted
from the end that comes first.
-/

namespace ScoreStore

/-- The command that lists a window of positions, upwards or downwards. -/
def CommandName.listsByRank (reverse : Bool) : CommandName :=
  if reverse then .zrevrange else .zrange

/-- The words behind the ends of a listing ask for nothing more, or for scores. -/
inductive AsksScores : List Bytes → Bool → Prop where
  /-- There are no such words. -/
  | plain : AsksScores [] false
  /-- A single word asks for scores. -/
  | scores {word : Bytes} (named : Request.lowered word = "withscores") : AsksScores [word] true

namespace SortedSetAction

variable {request : Request} {key first second : Bytes} {words : List Bytes} {window : Window}

/-- Both ends of a window are read from integers. -/
theorem readByRank_eq (arguments : request.arguments = key :: first :: second :: words)
    (start : Decimal.signed64? first = some window.start)
    (stop : Decimal.signed64? second = some window.stop) :
    readByRank request = .ok (.byRank window) := by
  -- The first end is read before the second one is looked for.
  simp only [readByRank, Request.needInteger, Request.need, arguments]
  show (Request.orRefuse _ (Decimal.signed64? first)).bind _ = _
  rw [start]
  show (Request.orRefuse _ (Decimal.signed64? second)).bind _ = _
  rw [stop]
  rfl

/-- Both commands that list positions read the same words. -/
theorem ofName?_readListByRank (reverse : Bool) :
    ofName? request (.listsByRank reverse) = some (readListByRank reverse request) := by
  cases reverse <;> rfl

/-- A listing of positions is read from its window and what it asks for. -/
theorem ofName?_listsByRank {withScores : Bool} (reverse : Bool)
    (arguments : request.arguments = key :: first :: second :: words)
    (start : Decimal.signed64? first = some window.start)
    (stop : Decimal.signed64? second = some window.stop) (asks : AsksScores words withScores) :
    ofName? request (.listsByRank reverse) =
      some (.ok (list (.byRank window) reverse none withScores)) := by
  -- The words behind the ends are read after the window.
  have behind : readWithScores (request.arguments.drop 3) = .ok withScores := by
    rw [arguments]
    cases asks with
    | plain => rfl
    | scores asked => exact if_pos asked
  rw [ofName?_readListByRank, readListByRank, readByRank_eq arguments start stop]
  show some ((refusable (readWithScores (request.arguments.drop 3))).bind _) = _
  rw [behind]
  rfl

end SortedSetAction

/-- A set has as many elements in either order. -/
theorem SortedSet.Sound.length_directed {set : SortedSet} (sound : set.Sound) (reverse : Bool) :
    (directed reverse set.elements).length = set.size := by
  -- Turning a list round keeps its length.
  rw [sound.size_eq]
  cases reverse with
  | false => rfl
  | true => exact List.length_reverse

namespace Server

variable {server : Server} {number : Nat} {name : KeyName} {set : SortedSet}

/-- A listing of positions shows what its window cuts out of the elements in the order asked for. -/
theorem Finds.tells_listsByRank {first second : Bytes} {words : List Bytes} {window : Window}
    {withScores : Bool} (finds : server.Finds number name set) (reverse : Bool)
    (start : Decimal.signed64? first = some window.start)
    (stop : Decimal.signed64? second = some window.stop) (asks : AsksScores words withScores) :
    server.Tells number (.listsByRank reverse) (name.2 :: first :: second :: words)
      (.ofElements withScores (window.cut (directed reverse set.elements))) := by
  -- The command is one on sorted sets, takes three words or more, and is read as the listing.
  refine finds.tells (.listsByRank reverse) (first :: second :: words)
    (.list (.byRank window) reverse none withScores) ?_ ?_ fun request arguments => ?_
  · cases reverse <;> rfl
  · cases reverse <;> simp [CommandName.listsByRank, CommandName.entry, CommandEntry.accepts,
      CommandEntry.basic, CommandEntry.withArity, CommandEntry.reading]
  · exact SortedSetAction.ofName?_listsByRank reverse arguments start stop asks

end Server
end ScoreStore
