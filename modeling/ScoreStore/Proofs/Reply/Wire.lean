import ScoreStore.Proofs.Bytes
import ScoreStore.Proofs.Decimal
import ScoreStore.Proofs.Text
import ScoreStore.Reply

/-! Replies on the wire: the grammar of one value, and that values in turn can be told apart. -/

namespace ScoreStore

/-- The line in place of a length that tells of something that is not there. -/
def Wire.absence : Bytes := Text.bytes "-1"

/-- A decimal number, which a minus sign may precede. -/
def Wire.IsInteger (token : Bytes) : Prop :=
  ∃ digits, (token = digits ∨ token = Ascii.minus :: digits) ∧ (Decimal.digits? digits).isSome

/-- A value that is told by one line, after the byte that names its kind. -/
inductive Wire.Simple : UInt8 → Bytes → Prop
  /-- A word of success. -/
  | status {text : Bytes} (line : text.IsLine) : Simple Ascii.plus text
  /-- The reason for a refusal. -/
  | error {text : Bytes} (line : text.IsLine) : Simple Ascii.minus text
  /-- A whole number. -/
  | integer {token : Bytes} (number : Wire.IsInteger token) : Simple Ascii.colon token
  /-- The byte string that is not there. -/
  | missing : Simple Ascii.dollar Wire.absence
  /-- The array that is not there. -/
  | missingArray : Simple Ascii.asterisk Wire.absence

/-- The bytes of exactly one value. -/
inductive Wire : Bytes → Prop
  /-- A value that one line tells. -/
  | simple {kind : UInt8} {content : Bytes} (simple : Wire.Simple kind content) :
    Wire (kind :: content ++ Bytes.lineEnd)
  /-- A byte string of exactly the length that is told first. -/
  | bulk {token content : Bytes} (length : Decimal.digits? token = some content.length) :
    Wire (Ascii.dollar :: token ++ Bytes.lineEnd ++ (content ++ Bytes.lineEnd))
  /-- Exactly as many values as are told first. -/
  | array {token : Bytes} {items : List Bytes}
    (length : Decimal.digits? token = some items.length) (each : ∀ item ∈ items, Wire item) :
    Wire (Ascii.asterisk :: token ++ Bytes.lineEnd ++ items.flatten)

namespace Wire

/-- The digits of a number are on one line. -/
theorem plain_of_digits {token : Bytes} {value : Nat} (read : Decimal.digits? token = some value) :
    Ascii.carriageReturn ∉ token := by
  -- A carriage return would have to be a digit.
  intro member
  unfold Decimal.digits? at read
  split at read
  · cases read
  · exact absurd (Decimal.isDigit_of_continue? read _ member) (by decide)

/-- A value that one line tells is told without a carriage return. -/
theorem Simple.plain {kind : UInt8} {content : Bytes} (simple : Simple kind content) :
    Ascii.carriageReturn ∉ content := by
  cases simple with
  | status line => exact line.1
  | error line => exact line.1
  | integer number =>
    -- The digits have no line end, and neither has the sign in front of them.
    obtain ⟨digits, rfl | rfl, some⟩ := number
    · obtain ⟨value, read⟩ := Option.isSome_iff_exists.mp some
      exact plain_of_digits read
    · obtain ⟨value, read⟩ := Option.isSome_iff_exists.mp some
      exact fun member => (List.mem_cons.mp member).elim (by decide) (plain_of_digits read)
  | missing => decide +kernel
  | missingArray => decide +kernel

/-- A length is never told in place of what is not there. -/
theorem Simple.not_length {kind : UInt8} {token : Bytes} {value : Nat} (simple : Simple kind token)
    (marked : kind = Ascii.dollar ∨ kind = Ascii.asterisk) :
    Decimal.digits? token ≠ some value := by
  -- Of the values on one line only those that are not there start with these marks.
  have absent : Decimal.digits? absence ≠ some value := by
    rw [show Decimal.digits? absence = none by decide +kernel]
    exact fun found => nomatch found
  cases simple with
  | missing => exact absent
  | missingArray => exact absent
  | status line => exact absurd marked (by decide)
  | error line => exact absurd marked (by decide)
  | integer number => exact absurd marked (by decide)

/-- No value has no bytes. -/
theorem ne_nil {value : Bytes} (wire : Wire value) : value ≠ [] := by
  -- Every form has at least its first byte.
  cases wire <;> exact fun empty => nomatch empty

/-- Kind and first line of a value can be told from what follows them. -/
theorem eq_of_first_line {kind other : UInt8} {line others body rest : Bytes}
    (plain : Ascii.carriageReturn ∉ line) (otherPlain : Ascii.carriageReturn ∉ others)
    (same : kind :: (line ++ (Bytes.lineEnd ++ body)) =
      other :: (others ++ (Bytes.lineEnd ++ rest))) :
    kind = other ∧ line = others ∧ body = rest := by
  -- The first byte is the kind, and the rest up to the line end the line.
  obtain ⟨kinds, lines⟩ := List.cons.inj same
  rw [← List.append_assoc, ← List.append_assoc] at lines
  exact ⟨kinds, Bytes.eq_of_line_append plain otherPlain lines⟩

/-- Values in turn are told apart if bytes that start with one of them start with no other value. -/
theorem eq_of_flatten_append {values others : List Bytes} {rest more : Bytes}
    (length : values.length = others.length) (wire : ∀ value ∈ others, Wire value)
    (apart : ∀ value ∈ values, ∀ {other : Bytes}, Wire other → ∀ {rest more : Bytes},
      value ++ rest = other ++ more → value = other ∧ rest = more)
    (same : values.flatten ++ rest = others.flatten ++ more) : values = others ∧ rest = more := by
  -- The first values agree, and what follows them is compared in the same way.
  induction values generalizing others with
  | nil =>
    -- Without values on either side what follows is all there is.
    obtain rfl := List.length_eq_zero_iff.mp length.symm
    exact ⟨rfl, same⟩
  | cons value values ih =>
    obtain ⟨other, others, rfl⟩ := List.exists_cons_of_length_eq_add_one length.symm
    obtain ⟨first, later⟩ := List.forall_mem_cons.mp wire
    obtain ⟨here, there⟩ := List.forall_mem_cons.mp apart
    rw [List.flatten_cons, List.flatten_cons, List.append_assoc, List.append_assoc] at same
    obtain ⟨rfl, behind⟩ := here first same
    obtain ⟨rfl, ends⟩ := ih (Nat.succ.inj length) later there behind
    exact ⟨rfl, ends⟩

/-- Bytes that start with a value start with no other one. -/
theorem eq_of_append {first second : Bytes} (one : Wire first) (other : Wire second)
    {rest more : Bytes} (same : first ++ rest = second ++ more) : first = second ∧ rest = more := by
  -- The first lines agree, and they settle how many bytes or values follow.
  induction one generalizing second rest more with
  | simple simple =>
    -- By the form of the other value: it is the same one, or the first bytes differ.
    cases other with
    | simple others =>
      simp only [List.cons_append, List.append_assoc] at same
      obtain ⟨rfl, rfl, rfl⟩ := eq_of_first_line simple.plain others.plain same
      exact ⟨rfl, rfl⟩
    | bulk length =>
      simp only [List.cons_append, List.append_assoc] at same
      obtain ⟨rfl, rfl, _⟩ := eq_of_first_line simple.plain (plain_of_digits length) same
      exact absurd length (simple.not_length (Or.inl rfl))
    | array length each =>
      simp only [List.cons_append, List.append_assoc] at same
      obtain ⟨rfl, rfl, _⟩ := eq_of_first_line simple.plain (plain_of_digits length) same
      exact absurd length (simple.not_length (Or.inr rfl))
  | bulk length =>
    cases other with
    | simple others =>
      simp only [List.cons_append, List.append_assoc] at same
      obtain ⟨rfl, rfl, _⟩ := eq_of_first_line (plain_of_digits length) others.plain same
      exact absurd length (others.not_length (Or.inl rfl))
    | bulk again =>
      simp only [List.cons_append, List.append_assoc] at same
      obtain ⟨-, rfl, bodies⟩ :=
        eq_of_first_line (plain_of_digits length) (plain_of_digits again) same
      -- Two contents of the same length are cut off at the same place.
      have lengths := Option.some.inj (length.symm.trans again)
      obtain ⟨rfl, ends⟩ := List.append_inj bodies lengths
      exact ⟨rfl, List.append_cancel_left ends⟩
    | array again each =>
      simp only [List.cons_append, List.append_assoc] at same
      obtain ⟨kinds, -⟩ := eq_of_first_line (plain_of_digits length) (plain_of_digits again) same
      exact absurd kinds (by decide)
  | array length each ih =>
    cases other with
    | simple others =>
      simp only [List.cons_append, List.append_assoc] at same
      obtain ⟨rfl, rfl, _⟩ := eq_of_first_line (plain_of_digits length) others.plain same
      exact absurd length (others.not_length (Or.inr rfl))
    | bulk again =>
      simp only [List.cons_append, List.append_assoc] at same
      obtain ⟨kinds, -⟩ := eq_of_first_line (plain_of_digits length) (plain_of_digits again) same
      exact absurd kinds (by decide)
    | array again others =>
      simp only [List.cons_append, List.append_assoc] at same
      obtain ⟨-, rfl, bodies⟩ :=
        eq_of_first_line (plain_of_digits length) (plain_of_digits again) same
      have lengths := Option.some.inj (length.symm.trans again)
      -- As many values follow on both sides, and by induction these agree one by one.
      obtain ⟨rfl, ends⟩ := eq_of_flatten_append lengths others ih bodies
      exact ⟨rfl, ends⟩

/-- A stream of values can be split into values in one way only. -/
theorem eq_of_flatten {values others : List Bytes} (wire : ∀ value ∈ values, Wire value)
    (wires : ∀ value ∈ others, Wire value) (same : values.flatten = others.flatten) :
    values = others := by
  -- By induction on the values, the first of which is cut off on both sides.
  induction values generalizing others with
  | nil =>
    cases others with
    | nil => rfl
    | cons other others =>
      -- A value has bytes, which the empty stream has not.
      have empty := List.append_eq_nil_iff.mp same.symm
      exact absurd empty.1 (wires other List.mem_cons_self).ne_nil
  | cons value values ih =>
    obtain ⟨first, later⟩ := List.forall_mem_cons.mp wire
    cases others with
    | nil => exact absurd (List.append_eq_nil_iff.mp same).1 first.ne_nil
    | cons other others =>
      obtain ⟨second, behind⟩ := List.forall_mem_cons.mp wires
      obtain ⟨rfl, ends⟩ := first.eq_of_append second same
      rw [ih later behind ends]

end Wire

namespace Reply

/-- The bytes of replies in turn are their bytes one after the other. -/
theorem encodeAll_eq (replies : List Reply) : encodeAll replies = (replies.map encode).flatten := by
  induction replies with
  | nil => rfl
  | cons reply rest ih => rw [encodeAll, ih, List.map_cons, List.flatten_cons]

/-- An array is its number of items and then the items. -/
theorem encode_array (items : List Reply) :
    (array items).encode = arrayHeader items.length ++ items.flatMap encode := by
  rw [encode, encodeAll_eq, List.flatMap_def]

/-- A word of success is one value if it is a line. -/
theorem wire_status {text : String} (line : (Text.bytes text).IsLine) : Wire (status text).encode :=
  .simple (.status line)

/-- The reason for a refusal is one value just if it is a line. -/
theorem wire_error_iff {text : String} :
    Wire (error text).encode ↔ (Text.bytes text).IsLine := by
  constructor
  · intro wire
    -- Only the form for refusals starts with their mark, and it holds the whole text.
    generalize whole : (error text).encode = value at wire
    cases wire with
    | @simple kind content simple =>
      obtain ⟨rfl, same⟩ := List.cons.inj whole
      obtain rfl := List.append_cancel_right same
      cases simple with
      | error line => exact line
    | bulk length => exact absurd (List.cons.inj whole).1 (by decide)
    | array length each => exact absurd (List.cons.inj whole).1 (by decide)
  · exact fun line => .simple (.error line)

/-- A whole number is one value. -/
theorem wire_integer (value : Int) : Wire (integer value).encode := by
  refine .simple (.integer ?_)
  -- Only what is below zero has a sign in front of its digits.
  cases value with
  | ofNat value =>
    exact ⟨Decimal.ofNat value, Or.inl rfl, Option.isSome_of_eq_some (Decimal.digits?_ofNat value)⟩
  | negSucc less =>
    exact ⟨Decimal.ofNat (less + 1), Or.inr rfl,
      Option.isSome_of_eq_some (Decimal.digits?_ofNat (less + 1))⟩

/-- A byte string is one value, whatever its bytes. -/
theorem wire_bulk (content : Bytes) : Wire (bulk content).encode := by
  have wire := Wire.bulk (Decimal.digits?_ofNat content.length)
  rwa [← List.append_assoc] at wire

/-- The byte string that is not there is one value. -/
theorem wire_missing : Wire missing.encode := by
  have wire := Wire.simple .missing
  rwa [show Wire.absence = Decimal.ofInt (-1) by decide +kernel] at wire

/-- The array that is not there is one value. -/
theorem wire_missingArray : Wire missingArray.encode := by
  have wire := Wire.simple .missingArray
  rwa [show Wire.absence = Decimal.ofInt (-1) by decide +kernel] at wire

/-- An array of replies that are one value each is one value. -/
theorem wire_array {items : List Reply} (each : ∀ reply ∈ items, Wire reply.encode) :
    Wire (array items).encode := by
  rw [encode, encodeAll_eq]
  -- The header counts the items, each of which is a value.
  refine Wire.array ?_ (List.forall_mem_map.mpr each)
  rw [Decimal.digits?_ofNat, List.length_map]

/-- A byte string or none is one value. -/
theorem wire_ofBytes? (content : Option Bytes) : Wire (ofBytes? content).encode := by
  cases content with
  | none => exact wire_missing
  | some content => exact wire_bulk content

/-- Byte strings in turn are one value. -/
theorem wire_ofList (items : List Bytes) : Wire (ofList items).encode :=
  wire_array (List.forall_mem_map.mpr fun item _ => wire_bulk item)

end Reply
end ScoreStore
