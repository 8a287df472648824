/-! Natural numbers in hexadecimal digits: reading them in either case, and writing them. -/

namespace ScoreStore.Hexadecimal

/-- The value of one hexadecimal digit. -/
def digit? (letter : Char) : Option Nat :=
  -- Digits, small letters and capitals are three consecutive runs.
  if letter.isDigit then some (letter.toNat - 48)
  else if 'a' ≤ letter ∧ letter ≤ 'f' then some (letter.toNat - 87)
  else if 'A' ≤ letter ∧ letter ≤ 'F' then some (letter.toNat - 55)
  else none

/-- The value of a run of hexadecimal digits, zero for an empty one. -/
def value? (letters : List Char) : Option Nat :=
  (letters.mapM digit?).map fun digits => digits.foldl (fun value digit => value * 16 + digit) 0

/-- Writes a natural number in small letters without leading zeros. -/
def ofNat (value : Nat) : List Char := Nat.toDigits 16 value

end ScoreStore.Hexadecimal
