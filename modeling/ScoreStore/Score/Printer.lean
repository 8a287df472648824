import ScoreStore.Score.Decimals
import ScoreStore.Text.Utf8

/-! Writing scores: the fewest digits that read back as the same number, never with an exponent. -/

namespace ScoreStore.Score

/-- The most digits that any number needs to be told from its neighbours. -/
def mostDigits : Nat := 17

/-- A decimal place below that of every positive number. -/
def belowEveryPlace : Nat := 350

/-- The place of the leading digit of a positive magnitude, counted from the point. -/
def leadingPlace (magnitude : Nat) : Int :=
  -- Scaling up first leaves a whole number whose digits can be counted.
  let scaled := units magnitude * Decimal.powerOfTen belowEveryPlace / unitsPerOne
  (Decimal.ofNat scaled).length - belowEveryPlace

/-- A decimal number with a given number of digits that reads back as a
magnitude, if there is one. -/
def candidate? (magnitude : Nat) (place : Int) (count : Nat) : Option Decimals :=
  -- If any number on this grid reads back, so does one of the two around the magnitude.
  let exponent := place - count
  let numerator := units magnitude * Decimal.powerOfTen (-exponent).toNat
  let step := unitsPerOne * Decimal.powerOfTen exponent.toNat
  let below : Decimals := ⟨numerator / step, exponent⟩
  let above : Decimals := ⟨numerator / step + 1, exponent⟩
  let belowFits := below.magnitude == magnitude
  let aboveFits := above.magnitude == magnitude
  -- Of two that read back the nearer is taken, and the upper one when both are equally near.
  if belowFits && (!aboveFits || 2 * (numerator % step) < step) then some below
  else if aboveFits then some above
  else none

/-- The fewest digits that read back as a positive magnitude. -/
def shortest (magnitude : Nat) : Decimals :=
  let place := leadingPlace magnitude
  ((List.range mostDigits).findSome? fun less => candidate? magnitude place (less + 1)).getD
    ⟨0, 0⟩

/-- Writes a decimal number with a point where it has a fraction. -/
def Decimals.write (decimals : Decimals) : Bytes :=
  -- Padding on the left makes room for at least one digit before the point.
  if 0 ≤ decimals.exponent then
    Decimal.ofNat decimals.digits ++ List.replicate decimals.exponent.toNat Ascii.zero
  else
    let places := (-decimals.exponent).toNat
    let digits := Decimal.ofNat decimals.digits
    let padded := List.replicate (places + 1 - digits.length) Ascii.zero ++ digits
    let whole := padded.take (padded.length - places)
    let fraction := (padded.drop (padded.length - places)).reverse.dropWhile (· == Ascii.zero)
    if fraction.isEmpty then whole else whole ++ Ascii.point :: fraction.reverse

/-- Writes a score the way it is sent to clients. -/
def write (score : Score) : Bytes :=
  if score.isNaN then Text.bytes "NaN"
  else
    let sign : Bytes := if score.negative then [Ascii.minus] else []
    if score.isInfinite then sign ++ Text.bytes "inf"
    else if score.magnitude = 0 then sign ++ Text.bytes "0"
    else sign ++ (shortest score.magnitude).write

end ScoreStore.Score
