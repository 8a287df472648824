import ScoreStore.Range.LexRange
import ScoreStore.Range.ScoreRange
import ScoreStore.Range.Window

/-! The three ways to select elements of a sorted set, in ascending or descending order. -/

namespace ScoreStore

/-- A way to select elements of a sorted set. -/
inductive Selection where
  /-- The elements with scores in a range. -/
  | byScore (range : ScoreRange)
  /-- The elements with members in a range, in the order of the members alone. -/
  | byLex (range : LexRange)
  /-- The elements at the positions of a window, counted in the order asked for. -/
  | byRank (window : Window)
deriving DecidableEq

/-- A list in its own order, or backwards. -/
def directed {α : Type} (reverse : Bool) (items : List α) : List α :=
  if reverse then items.reverse else items

/-- The elements of a set in the order of their members. -/
def SortedSet.byMember (set : SortedSet) : List Element :=
  sortBy (fun left right => Bytes.before left.member right.member) set.elements

/-- The selected elements of a set, in ascending or descending order. -/
def Selection.select (selection : Selection) (reverse : Bool) (set : SortedSet) : List Element :=
  -- Ranges are cut from the ascending list, but positions count from the end that comes first.
  match selection with
  | byScore range => directed reverse (range.cut set.elements)
  | byLex range => directed reverse (range.cut Element.member set.byMember)
  | byRank window => window.cut (directed reverse set.elements)

end ScoreStore
