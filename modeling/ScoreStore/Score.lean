/-! Scores: binary floating-point numbers of 64 bits, their order, rounding and addition. -/

namespace ScoreStore

/-- A binary64 number: its sign, and the position of its magnitude among all magnitudes. -/
structure Score where
  /-- Whether the sign bit is set. -/
  negative : Bool
  /-- The 63 bits below the sign, which count the magnitudes upwards from zero. -/
  magnitude : Nat
  /-- The magnitude has 63 bits. -/
  fits : magnitude < 0x8000000000000000 := by decide
deriving DecidableEq, Repr

namespace Score

/-- How many magnitudes share one binary exponent. -/
def binade : Nat := 1 <<< 52

/-- The position of infinity: all magnitudes above it are not numbers. -/
def infiniteMagnitude : Nat := 2047 * binade

/-- The score at a position, or infinity when the position lies beyond it. -/
def ofMagnitude (negative : Bool) (magnitude : Nat) : Score :=
  ⟨negative, min magnitude infiniteMagnitude,
    Nat.lt_of_le_of_lt (Nat.min_le_right ..) (by decide)⟩

/-- The number zero. -/
def zero : Score := ⟨false, 0, by decide⟩

/-- The result of an operation that has no number as its result. -/
def notANumber : Score := ⟨false, infiniteMagnitude + binade / 2, by decide⟩

/-- The score with the given 64 bits. -/
def ofBits (bits : UInt64) : Score :=
  ⟨0x8000000000000000 ≤ bits.toNat, bits.toNat % 0x8000000000000000, Nat.mod_lt _ (by decide)⟩

/-- The 64 bits of a score. -/
def toBits (score : Score) : UInt64 :=
  UInt64.ofNat (score.magnitude + if score.negative then 0x8000000000000000 else 0)

/-- Whether the score is no number. -/
def isNaN (score : Score) : Bool := infiniteMagnitude < score.magnitude

/-- Whether the score is an infinity of either sign. -/
def isInfinite (score : Score) : Bool := score.magnitude == infiniteMagnitude

/-- The place of a number among all numbers, where both zeros share one place. -/
def place (score : Score) : Int :=
  if score.negative then -(score.magnitude : Int) else score.magnitude

/-- Whether both scores are numbers and the first is the lesser. -/
def less (left right : Score) : Bool :=
  !left.isNaN && !right.isNaN && left.place < right.place

/-- Whether both scores are numbers and the first is not the greater. -/
def atMost (left right : Score) : Bool :=
  !left.isNaN && !right.isNaN && left.place ≤ right.place

/-- Whether both scores are numbers and the same one, regardless of the sign of zero. -/
def same (left right : Score) : Bool :=
  !left.isNaN && !right.isNaN && left.place == right.place

/-- The value of a finite magnitude as a multiple of the least positive number. -/
def units (magnitude : Nat) : Nat :=
  -- Below the second binade neighbours are one unit apart, and each further binade doubles that.
  if magnitude < binade then magnitude
  else (binade + magnitude % binade) <<< (magnitude / binade - 1)

/-- How many units make one. -/
def unitsPerOne : Nat := 1 <<< 1074

/-- The whole number nearest to a quotient, the even one of two equally near. -/
def divideToEven (numerator denominator : Nat) : Nat :=
  let quotient := numerator / denominator
  let twice := 2 * (numerator % denominator)
  if twice < denominator ∨ (twice = denominator ∧ quotient % 2 = 0) then quotient
  else quotient + 1

/-- The magnitude nearest to a quotient of units, the even one of two equally near. -/
def nearest (numerator denominator : Nat) : Nat :=
  -- Rounding up to the next power of two carries into the next binade by itself.
  let shift := (numerator / denominator).log2 - 52
  min (shift * binade + divideToEven numerator (denominator <<< shift)) infiniteMagnitude

/-- The exact value of a finite score in units. -/
def signedUnits (score : Score) : Int :=
  if score.negative then -(units score.magnitude : Int) else units score.magnitude

/-- The correctly rounded sum. -/
def add (left right : Score) : Score :=
  -- Opposite infinities have no sum, and an exact zero is negative only when both terms are.
  if left.isNaN || right.isNaN then notANumber
  else if left.isInfinite then
    if right.isInfinite && left.negative != right.negative then notANumber else left
  else if right.isInfinite then right
  else
    let sum := left.signedUnits + right.signedUnits
    if sum = 0 then ⟨left.negative && right.negative, 0, by decide⟩
    else ofMagnitude (sum < 0) (nearest sum.natAbs 1)

end Score
end ScoreStore
