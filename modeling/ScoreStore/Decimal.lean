import ScoreStore.Bytes

/-! Integers in decimal: reading digit runs with their signs and limits, and writing them. -/

namespace ScoreStore.Decimal

/-- The value of one decimal digit. -/
def digit? (byte : UInt8) : Option Nat :=
  -- The ten digits are consecutive, starting at the byte of zero.
  if Ascii.zero ≤ byte ∧ byte ≤ Ascii.nine then some (byte.toNat - Ascii.zero.toNat) else none

/-- Reads the remaining digits of a number whose leading digits are already known. -/
def continue? (leading : Nat) : Bytes → Option Nat
  | [] => some leading
  | byte :: rest => (digit? byte).bind fun digit => continue? (leading * 10 + digit) rest

/-- The value of a nonempty run of decimal digits, leading zeros allowed. -/
def digits? (token : Bytes) : Option Nat :=
  if token.isEmpty then none else continue? 0 token

/-- Reads the remaining digits of a number up to a limit, and stops where it is exceeded. -/
def continueUpTo? (limit leading : Nat) : Bytes → Option Nat
  | [] => some leading
  | byte :: rest => (digit? byte).bind fun digit =>
    let value := leading * 10 + digit
    if limit < value then none else continueUpTo? limit value rest

/-- The value of a nonempty run of decimal digits up to a limit, leading zeros allowed. -/
def digitsUpTo? (limit : Nat) (token : Bytes) : Option Nat :=
  if token.isEmpty then none else continueUpTo? limit 0 token

/-- A power of ten. -/
def powerOfTen (exponent : Nat) : Nat := Nat.pow 10 exponent

/-- The largest unsigned 16-bit integer. -/
def maxUnsigned16 : Nat := 65535

/-- The largest unsigned 32-bit integer. -/
def maxUnsigned32 : Nat := 4294967295

/-- The largest unsigned 64-bit integer. -/
def maxUnsigned64 : Nat := 18446744073709551615

/-- The largest signed 64-bit integer. -/
def maxSigned64 : Int := 9223372036854775807

/-- The smallest signed 64-bit integer. -/
def minSigned64 : Int := -9223372036854775808

/-- Reads an unsigned integer up to a limit, with an optional plus sign. -/
def unsigned? (limit : Nat) : Bytes → Option Nat
  -- A minus sign is refused even before zero.
  | Ascii.plus :: digits => digitsUpTo? limit digits
  | digits => digitsUpTo? limit digits

/-- Reads a signed 64-bit integer, with an optional sign. -/
def signed64? : Bytes → Option Int
  -- The range reaches one further below zero than above.
  | Ascii.minus :: digits =>
    (digitsUpTo? minSigned64.natAbs digits).map fun magnitude => -(magnitude : Int)
  | Ascii.plus :: digits =>
    (digitsUpTo? maxSigned64.natAbs digits).map fun magnitude => (magnitude : Int)
  | digits => (digitsUpTo? maxSigned64.natAbs digits).map fun magnitude => (magnitude : Int)

/-- The value of decimal digits. -/
def value (digits : Bytes) : Nat :=
  digits.foldl (fun value byte => value * 10 + (digit? byte).getD 0) 0

/-- The value of decimal digits, found in halves to some depth: the same, but quicker to find. -/
def valueInHalves : Nat → Bytes → Nat
  | 0, digits => value digits
  | depth + 1, digits =>
    let (high, low) := digits.splitAt (digits.length / 2)
    valueInHalves depth high * powerOfTen low.length + valueInHalves depth low

/-- Writes a natural number without leading zeros. -/
def ofNat (value : Nat) : Bytes :=
  (Nat.toDigits 10 value).map fun digit => UInt8.ofNat digit.toNat

/-- Writes an integer, with a minus sign when it is negative. -/
def ofInt : Int → Bytes
  | .ofNat value => ofNat value
  | .negSucc less => Ascii.minus :: ofNat (less + 1)

/-- Further digits never make a number smaller. -/
theorem le_of_continue? {leading value : Nat} {token : Bytes}
    (read : continue? leading token = some value) : leading ≤ value := by
  -- Each digit multiplies the value by ten before it is added.
  induction token generalizing leading with
  | nil => simp_all [continue?]
  | cons byte rest ih =>
    obtain ⟨digit, _, read⟩ := Option.bind_eq_some_iff.1 read
    have := ih read
    omega

/-- Stopping at the limit reads the same numbers as checking it at the end. -/
theorem continueUpTo?_eq_filter {limit leading : Nat} (small : leading ≤ limit) (token : Bytes) :
    continueUpTo? limit leading token = (continue? leading token).filter (· ≤ limit) := by
  -- A number that exceeds the limit on the way exceeds it at the end too.
  induction token generalizing leading with
  | nil => simp [continueUpTo?, continue?, Option.filter, small]
  | cons byte rest ih =>
    cases read : digit? byte with
    | none => simp [continueUpTo?, continue?, read]
    | some digit =>
      by_cases exceeded : limit < leading * 10 + digit
      · cases later : continue? (leading * 10 + digit) rest with
        | none => simp [continueUpTo?, continue?, read, exceeded, later]
        | some value =>
          have := le_of_continue? later
          simp [continueUpTo?, continue?, read, exceeded, later, Option.filter]
          omega
      · simp [continueUpTo?, continue?, read, exceeded, ih (Nat.le_of_not_lt exceeded)]

/-- A run of digits up to a limit is a run of digits whose value is within the limit. -/
theorem digitsUpTo?_eq_filter (limit : Nat) (token : Bytes) :
    digitsUpTo? limit token = (digits? token).filter (· ≤ limit) := by
  -- Reading starts from zero, which is within every limit.
  by_cases empty : token.isEmpty
  · simp [digitsUpTo?, digits?, empty]
  · simp [digitsUpTo?, digits?, empty, continueUpTo?_eq_filter (Nat.zero_le limit)]

/-- Digits in front count the power of ten of the digits behind them. -/
theorem value_append (high low : Bytes) :
    value (high ++ low) = value high * powerOfTen low.length + value low := by
  -- The statement holds from any leading value, which is what the induction needs.
  have general : ∀ (low : Bytes) (leading : Nat),
      low.foldl (fun value byte => value * 10 + (digit? byte).getD 0) leading
        = leading * powerOfTen low.length + value low := by
    intro low
    induction low with
    | nil => simp [value, powerOfTen]
    | cons byte rest ih =>
      intro leading
      simp only [value, List.foldl_cons, List.length_cons] at ih ⊢
      rw [ih, ih (0 * 10 + _)]
      simp only [powerOfTen, Nat.pow_succ, Nat.pow_eq]
      grind
  rw [value, List.foldl_append]
  exact general low _

/-- Halving does not change the value of digits. -/
theorem valueInHalves_eq_value (depth : Nat) (digits : Bytes) :
    valueInHalves depth digits = value digits := by
  -- The two halves make up the digits.
  induction depth generalizing digits with
  | zero => rfl
  | succ depth ih =>
    simp only [valueInHalves, List.splitAt_eq, ih]
    rw [← value_append, List.take_append_drop]

end ScoreStore.Decimal
