import ScoreStore.Score.Decimals
import ScoreStore.Text.Utf8

/-!
Reading scores: decimal notation with an optional fraction and exponent, rounded
correctly, and the named values.
-/

namespace ScoreStore.Score

/-- Whether a byte is a decimal digit. -/
def isDigit (byte : UInt8) : Bool := (Decimal.digit? byte).isSome

/-- The decimal places beyond which every number rounds to infinity. -/
def highestPlace : Int := 310

/-- The decimal place below which every number rounds to zero. -/
def lowestPlace : Int := -330

/-- The magnitude nearest to a number written as digits and a power of ten. -/
def magnitudeOfDecimal (digits : Bytes) (exponent : Int) : Nat :=
  -- The place of the leading digit settles numbers far out of range without their huge powers.
  let significant := digits.dropWhile (· == Ascii.zero)
  let place := significant.length + exponent
  if significant.isEmpty ∨ place < lowestPlace then 0
  else if highestPlace < place then infiniteMagnitude
  else
    let value := Decimal.valueInHalves significant.length.log2 significant
    Decimals.magnitude ⟨value, exponent⟩

/-- The size of an exponent from which on its further digits do not count. -/
def longExponent : Nat := 65536

/-- Reads the digits of an exponent, of which there must be one. -/
def exponentSize? (token : Bytes) : Option Nat :=
  -- An exponent of this size decides the magnitude unless the number has as many digits.
  if token.isEmpty then none
  else (token.mapM Decimal.digit?).map fun digits =>
    digits.foldl (fun size digit => if size < longExponent then size * 10 + digit else size) 0

/-- Reads the exponent that may follow the digits of a number. -/
def exponent? : Bytes → Option Int
  -- Nothing may follow its digits, and its mark needs at least one digit.
  | [] => some 0
  | mark :: token =>
    if mark ≠ Ascii.smallE ∧ mark ≠ Ascii.capitalE then none
    else match token with
      | Ascii.minus :: digits => (exponentSize? digits).map fun size => -(size : Int)
      | Ascii.plus :: digits => (exponentSize? digits).map fun size => (size : Int)
      | digits => (exponentSize? digits).map fun size => (size : Int)

/-- Reads a magnitude in decimal notation. -/
def decimalMagnitude? (token : Bytes) : Option Nat :=
  -- A point may stand at either end of the digits, but not alone.
  let whole := token.takeWhile isDigit
  let afterWhole := token.dropWhile isDigit
  let pointed := afterWhole.head? == some Ascii.point
  let fraction := if pointed then afterWhole.tail.takeWhile isDigit else []
  let rest := if pointed then afterWhole.tail.dropWhile isDigit else afterWhole
  if whole.isEmpty && fraction.isEmpty then none
  else (exponent? rest).map fun exponent =>
    magnitudeOfDecimal (whole ++ fraction) (exponent - fraction.length)

/-- Reads a magnitude by name, in any letter case. -/
def namedMagnitude? (token : Bytes) : Option Nat :=
  let name := token.map fun byte =>
    if Ascii.capitalA ≤ byte ∧ byte ≤ Ascii.capitalZ then byte + 32 else byte
  if name = Text.bytes "inf" ∨ name = Text.bytes "infinity" then some infiniteMagnitude
  else if name = Text.bytes "nan" then some notANumber.magnitude
  else none

/-- Reads a magnitude, by name or in decimal notation. -/
def magnitude? (token : Bytes) : Option Nat :=
  (namedMagnitude? token).or (decimalMagnitude? token)

/-- A score of the given sign, which may be no number. -/
def signed (negative : Bool) (magnitude : Nat) : Score :=
  if infiniteMagnitude < magnitude then notANumber else ofMagnitude negative magnitude

/-- Reads a score with an optional sign. -/
def read? (token : Bytes) : Option Score :=
  match token with
  | Ascii.minus :: rest => (magnitude? rest).map (signed true)
  | Ascii.plus :: rest => (magnitude? rest).map (signed false)
  | rest => (magnitude? rest).map (signed false)

/-- Reads a score that is a number. -/
def readNumber? (token : Bytes) : Option Score := (read? token).filter (!·.isNaN)

end ScoreStore.Score
