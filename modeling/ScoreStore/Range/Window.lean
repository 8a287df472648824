import ScoreStore.Decimal

/-! Windows of positions: two ends counted from the start or, when negative, from the end. -/

namespace ScoreStore

/-- The positions between two ends, both included. -/
structure Window where
  /-- The first position. -/
  start : Int
  /-- The last position. -/
  stop : Int
deriving DecidableEq

namespace Window

/-- Brings an integer into the signed 64-bit range. -/
def saturate (value : Int) : Int := max Decimal.minSigned64 (min value Decimal.maxSigned64)

/-- The positions from the first up to but not including the second that the window covers in
a list of a given length. -/
def bounds (window : Window) (length : Nat) : Nat × Nat :=
  -- All arithmetic stays within 64 bits, and an inverted window covers nothing.
  let length := min (length : Int) Decimal.maxSigned64
  let start :=
    min (if window.start < 0 then max (saturate (length + window.start)) 0 else window.start) length
  let last := if window.stop < 0 then max (saturate (length + window.stop)) (-1) else window.stop
  let stop := min (saturate (last + 1)) length
  if stop ≤ start then (0, 0) else (start.toNat, stop.toNat)

/-- The items at the positions of the window. -/
def cut {α : Type} (window : Window) (items : List α) : List α :=
  let (start, stop) := window.bounds items.length
  (items.take stop).drop start

end Window
end ScoreStore
