import ScoreStore.Decimal

/-!
Written numbers: they are nonempty runs of digits with a value, and read back as the
numbers they were written from.
-/

namespace ScoreStore.Decimal

/-- A byte is a digit if it has a value as one. -/
def IsDigit (byte : UInt8) : Prop := (digit? byte).isSome

instance (byte : UInt8) : Decidable (IsDigit byte) :=
  inferInstanceAs (Decidable ((digit? byte).isSome = true))

/-- Each of the ten digits reads as its own value. -/
theorem digit?_digitChar {digit : Nat} (small : digit < 10) :
    digit? (UInt8.ofNat digit.digitChar.toNat) = some digit := by
  -- Ten characters, each read on its own.
  rcases digit with _ | _ | _ | _ | _ | _ | _ | _ | _ | _ | digit
  all_goals first | rfl | omega

/-- Digits are read in two parts, where the second one goes on from the first. -/
theorem continue?_append (leading : Nat) (high low : Bytes) :
    continue? leading (high ++ low) = (continue? leading high).bind (continue? · low) := by
  -- By induction on the first digits, with the value of those in front of them.
  induction high generalizing leading with
  | nil => rfl
  | cons byte rest ih =>
    -- A byte that is no digit stops both ways at the same place.
    simp only [List.cons_append, continue?]
    cases digit? byte with
    | none => rfl
    | some digit => exact ih _

/-- What reads as a number consists of digits. -/
theorem isDigit_of_continue? {leading value : Nat} {token : Bytes}
    (read : continue? leading token = some value) : ∀ byte ∈ token, IsDigit byte := by
  -- Reading stops at the first byte that is no digit.
  induction token generalizing leading with
  | nil => exact fun byte member => absurd member List.not_mem_nil
  | cons head rest ih =>
    obtain ⟨digit, first, others⟩ := Option.bind_eq_some_iff.mp read
    intro byte member
    rcases List.mem_cons.mp member with rfl | later
    · exact Option.isSome_of_eq_some first
    · exact ih others byte later

/-- A number below ten is one digit. -/
theorem ofNat_of_lt_ten {value : Nat} (small : value < 10) :
    ofNat value = [UInt8.ofNat value.digitChar.toNat] := by
  rw [ofNat, Nat.toDigits_of_lt_base small]
  rfl

/-- A greater number is the number without its last digit, and then that digit. -/
theorem ofNat_of_ten_le {value : Nat} (large : 10 ≤ value) :
    ofNat value = ofNat (value / 10) ++ [UInt8.ofNat (value % 10).digitChar.toNat] := by
  rw [ofNat, Nat.toDigits_of_base_le (by decide) large, List.map_append]
  rfl

/-- The digits of a number read as that number. -/
theorem continue?_ofNat (value : Nat) : continue? 0 (ofNat value) = some value := by
  -- The induction takes away the last digit.
  induction value using Nat.strongRecOn with
  | ind value ih =>
    rcases Nat.lt_or_ge value 10 with small | large
    · simp [ofNat_of_lt_ten small, continue?, digit?_digitChar small]
    · have last : value % 10 < 10 := Nat.mod_lt _ (by decide)
      rw [ofNat_of_ten_le large, continue?_append, ih (value / 10) (by omega)]
      simp only [Option.bind_some, continue?, digit?_digitChar last, Option.some.injEq]
      omega

/-- A number is written with digits only. -/
theorem isDigit_ofNat (value : Nat) : ∀ byte ∈ ofNat value, IsDigit byte :=
  isDigit_of_continue? (continue?_ofNat value)

/-- A number is written with at least one digit. -/
theorem ofNat_ne_nil (value : Nat) : ofNat value ≠ [] := by
  simp [ofNat, Nat.toDigits_ne_nil]

/-- A written number reads back as itself. -/
theorem digits?_ofNat (value : Nat) : digits? (ofNat value) = some value := by
  rw [digits?, if_neg (by simpa using ofNat_ne_nil value), continue?_ofNat]

/-- A run of digits has no sign, so that only the limit matters. -/
theorem unsigned?_of_digits {limit : Nat} {token : Bytes} (digits : ∀ byte ∈ token, IsDigit byte) :
    unsigned? limit token = digitsUpTo? limit token := by
  unfold unsigned?
  split
  · -- A plus sign is no digit.
    exact absurd (digits Ascii.plus List.mem_cons_self) (by decide)
  · rfl

/-- The digits of a written number within a limit read back as this number. -/
theorem digitsUpTo?_ofNat {limit value : Nat} (within : value ≤ limit) :
    digitsUpTo? limit (ofNat value) = some value := by
  rw [digitsUpTo?_eq_filter, digits?_ofNat]
  simp [Option.filter, within]

/-- A written number within a limit reads back as itself. -/
theorem unsigned?_ofNat {limit value : Nat} (within : value ≤ limit) :
    unsigned? limit (ofNat value) = some value := by
  rw [unsigned?_of_digits (isDigit_ofNat value), digitsUpTo?_ofNat within]

/-- A number below a power of ten is written with no more digits than the exponent. -/
theorem length_ofNat_le {value exponent : Nat} (positive : 0 < exponent)
    (below : value < powerOfTen exponent) : (ofNat value).length ≤ exponent := by
  rw [ofNat, List.length_map]
  exact (Nat.length_toDigits_le_iff (by decide) positive).mpr below

/-- The digits are the ten bytes from zero to nine. -/
theorem isDigit_iff (byte : UInt8) : IsDigit byte ↔ Ascii.zero ≤ byte ∧ byte ≤ Ascii.nine := by
  unfold IsDigit digit?
  -- One case for each digit and one for all other bytes.
  split <;> simp_all

/-- What reads as a number is made of digits, and has their value behind the leading ones. -/
theorem continue?_eq_some_iff {leading value : Nat} {token : Bytes} :
    continue? leading token = some value ↔ (∀ byte ∈ token, IsDigit byte) ∧
      token.foldl (fun value byte => value * 10 + (digit? byte).getD 0) leading = value := by
  -- By induction on the token, with the value of the digits in front of it.
  induction token generalizing leading with
  | nil => simp [continue?]
  | cons byte rest ih =>
    rw [continue?, List.forall_mem_cons, List.foldl_cons]
    cases first : digit? byte with
    | none => simp [IsDigit, first]
    | some digit => simp [IsDigit, first, ih]

/-- A run of digits reads as its value. -/
theorem digits?_eq_some_iff {value : Nat} {token : Bytes} :
    digits? token = some value ↔
      token ≠ [] ∧ (∀ byte ∈ token, IsDigit byte) ∧ Decimal.value token = value := by
  simp only [digits?, List.isEmpty_iff]
  -- No digits are no number, and otherwise reading begins at zero.
  by_cases empty : token = []
  · simp [empty]
  · rw [if_neg empty, continue?_eq_some_iff]
    exact (and_iff_right empty).symm

/-- An unsigned number is read from a run of digits with or without a plus sign,
if it is within the limit. -/
theorem unsigned?_eq_some_iff {limit value : Nat} {token : Bytes} :
    unsigned? limit token = some value ↔
      ∃ digits, (token = digits ∨ token = Ascii.plus :: digits) ∧ digits ≠ [] ∧
        (∀ byte ∈ digits, IsDigit byte) ∧ Decimal.value digits = value ∧ value ≤ limit := by
  have plain (digits : Bytes) : digitsUpTo? limit digits = some value ↔ digits ≠ [] ∧
      (∀ byte ∈ digits, IsDigit byte) ∧ Decimal.value digits = value ∧ value ≤ limit := by
    rw [digitsUpTo?_eq_filter, Option.filter_eq_some_iff, digits?_eq_some_iff]
    simp only [decide_eq_true_eq, and_assoc]
  -- A plus sign is no digit, so that a token is read in one way only.
  have noDigit : ¬ IsDigit Ascii.plus := by decide
  unfold unsigned?
  split
  · -- With a plus in front the token without it would have to begin with a digit.
    next digits =>
    rw [plain]
    constructor
    · intro written
      exact ⟨digits, Or.inr rfl, written⟩
    · rintro ⟨others, rfl | same, nonempty, allDigits, written⟩
      · exact absurd (allDigits Ascii.plus List.mem_cons_self) noDigit
      · obtain ⟨_, rfl⟩ := List.cons.inj same
        exact ⟨nonempty, allDigits, written⟩
  · next unsigned =>
    rw [plain]
    constructor
    · intro written
      exact ⟨token, Or.inl rfl, written⟩
    · rintro ⟨others, rfl | same, written⟩
      · exact written
      · exact absurd same (unsigned others)

/-- What is read up to a limit does not exceed it. -/
theorem le_of_digitsUpTo? {limit value : Nat} {digits : Bytes}
    (read : digitsUpTo? limit digits = some value) : value ≤ limit := by
  rw [digitsUpTo?_eq_filter, Option.filter_eq_some_iff] at read
  exact of_decide_eq_true read.2

/-- What is read as a signed integer has 64 bits. -/
theorem signed64?_within {token : Bytes} {value : Int} (read : signed64? token = some value) :
    minSigned64 ≤ value ∧ value ≤ maxSigned64 := by
  have least : minSigned64 = -9223372036854775808 := rfl
  have greatest : maxSigned64 = 9223372036854775807 := rfl
  unfold signed64? at read
  -- Each sign has a limit of its own.
  split at read
  all_goals
    obtain ⟨magnitude, whole, rfl⟩ := Option.map_eq_some_iff.mp read
    obtain ⟨natural, digits, same⟩ := Option.bind_eq_some_iff.mp whole
    obtain rfl : (natural : Int) = magnitude := Option.some.inj same
    have := le_of_digitsUpTo? digits
    omega

/-- A run of digits has no sign, so that it is read as a natural number. -/
theorem signed64?_of_digits {token : Bytes} (digits : ∀ byte ∈ token, IsDigit byte) :
    signed64? token = (digitsUpTo? maxSigned64.natAbs token).map fun magnitude =>
      (magnitude : Int) := by
  unfold signed64?
  -- Neither sign is a digit.
  split
  · exact absurd (digits Ascii.minus List.mem_cons_self) (by decide)
  · exact absurd (digits Ascii.plus List.mem_cons_self) (by decide)
  · rfl

/-- A written integer of 64 bits reads back as itself. -/
theorem signed64?_ofInt {value : Int} (atLeast : minSigned64 ≤ value)
    (atMost : value ≤ maxSigned64) : signed64? (ofInt value) = some value := by
  have least : minSigned64 = -9223372036854775808 := rfl
  have greatest : maxSigned64 = 9223372036854775807 := rfl
  cases value with
  | ofNat natural =>
    rw [Int.ofNat_eq_natCast] at atMost
    have within : natural ≤ maxSigned64.natAbs := by omega
    rw [ofInt, signed64?_of_digits (isDigit_ofNat natural), digitsUpTo?_ofNat within]
    rfl
  | negSucc less =>
    have within : less + 1 ≤ minSigned64.natAbs := by omega
    have signed : signed64? (ofInt (.negSucc less)) =
        (digitsUpTo? minSigned64.natAbs (ofNat (less + 1))).map fun magnitude =>
          -(magnitude : Int) := by
      rw [ofInt]
      rfl
    rw [signed, digitsUpTo?_ofNat within]
    rfl

end ScoreStore.Decimal
