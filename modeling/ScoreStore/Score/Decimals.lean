import ScoreStore.Decimal
import ScoreStore.Score

/-! Decimal numbers as a means to read and to write scores. -/

namespace ScoreStore.Score

/-- A decimal number: whole digits times a power of ten. -/
structure Decimals where
  /-- The digits as a whole number. -/
  digits : Nat
  /-- The power of ten that the digits count. -/
  exponent : Int
deriving DecidableEq, Repr

/-- The magnitude nearest to a decimal number. -/
def Decimals.magnitude (decimals : Decimals) : Nat :=
  nearest (decimals.digits * Decimal.powerOfTen decimals.exponent.toNat * unitsPerOne)
    (Decimal.powerOfTen (-decimals.exponent).toNat)

end ScoreStore.Score
