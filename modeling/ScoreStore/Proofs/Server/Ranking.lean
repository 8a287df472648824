import ScoreStore.Proofs.Server.Positions
import ScoreStore.Proofs.SortedSet.Position

/-!
Ranks over the wire: the rank that is told of a member is the position at which listings
show it, in either direction.
-/

namespace ScoreStore

/-- The command that tells a rank, counted upwards or downwards. -/
def CommandName.ranks (reverse : Bool) : CommandName := if reverse then .zrevrank else .zrank

/-- The rank of a member, counted upwards or downwards. -/
def SortedSet.rankIn? (set : SortedSet) (reverse : Bool) (member : Bytes) : Option Nat :=
  if reverse then set.reverseRank? member else set.rank? member

namespace Server

variable {server : Server} {number : Nat} {name : KeyName} {set : SortedSet} {member : Bytes}

namespace Finds

/-- The rank of a member is told, or that there is none. -/
theorem tells_rank (finds : server.Finds number name set) (reverse : Bool) (member : Bytes) :
    server.Tells number (.ranks reverse) [name.2, member]
      (((set.rankIn? reverse member).map Reply.count).getD .missing) := by
  -- Either command asks for the rank of the one member behind the key.
  refine finds.tells (.ranks reverse) [member] (.rank reverse member) ?_ ?_
    fun request arguments => ?_
  · cases reverse <;> rfl
  · cases reverse <;> rfl
  · have needed : request.need 1 = .ok member := by rw [Request.need, arguments]; rfl
    cases reverse <;> exact congrArg (fun word => some (Except.map _ word)) needed

/-- A listing from a position to the same one shows the member there. -/
theorem tells_position {position : Nat} {score : Score} (finds : server.Finds number name set)
    (reverse : Bool) (found : (directed reverse set.elements)[position]? = some ⟨member, score⟩)
    (short : (set.size : Int) ≤ Decimal.maxSigned64) :
    server.Tells number (.listsByRank reverse)
      [name.2, Decimal.ofNat position, Decimal.ofNat position] (.ofList [member]) := by
  have length := finds.sound.length_directed reverse
  -- A window of one position covers the element there, if there is one.
  have inside := (List.getElem?_eq_some_iff.mp found).1
  have least : Decimal.minSigned64 = -9223372036854775808 := rfl
  -- A position of a list within the limit is written and read as a signed integer.
  have atLeast : Decimal.minSigned64 ≤ (position : Int) := by omega
  have read : Decimal.signed64? (Decimal.ofNat position) =
      some (Window.mk position position).start :=
    Decimal.signed64?_ofInt atLeast (by omega)
  have listed := finds.tells_listsByRank reverse read read .plain
  rw [Window.cut_single found (by rw [length]; exact short), Reply.ofElements_false] at listed
  exact listed

end Finds

end Server
end ScoreStore
