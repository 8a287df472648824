/-! Pages of a result: how many items to skip, and how many to keep. -/

namespace ScoreStore

/-- A page: an offset and a count. -/
structure Page where
  /-- How many items are skipped. -/
  offset : Int
  /-- How many items are kept, all of them when negative. -/
  count : Int
deriving DecidableEq

/-- The items on the page, none when the offset is negative. -/
def Page.cut {α : Type} (page : Page) (items : List α) : List α :=
  -- A negative offset is not counted from the end.
  if page.offset < 0 then []
  else
    let rest := items.drop page.offset.toNat
    if page.count < 0 then rest else rest.take page.count.toNat

end ScoreStore
