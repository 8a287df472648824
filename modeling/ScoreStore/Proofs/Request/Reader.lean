import ScoreStore.Proofs.Bytes
import ScoreStore.Request.Stream

/-! Readers as simpler readers in turn. -/

namespace ScoreStore

namespace Request

/-- Reads a byte string of a known length and the line end after it. -/
def readContent (length : Nat) (buffer : Bytes) : Except ReadError (Bytes × Bytes) :=
  match buffer.drop length with
  | first :: second :: rest =>
    if first = Ascii.carriageReturn ∧ second = Ascii.lineFeed then .ok (buffer.take length, rest)
    else .error .unterminated
  | _ => .error .incomplete

/-- A byte string is its length and then as many bytes. -/
theorem readBulk_dollar (buffer : Bytes) : readBulk (Ascii.dollar :: buffer) =
    readLength buffer >>= fun (length, rest) => readContent length rest := by
  simp only [readBulk, ne_eq, not_true_eq_false, if_false]
  cases readLength buffer <;> rfl

/-- Reads the byte strings behind the first one. -/
def readOthers (count : Nat) (item : Bytes) (buffer : Bytes) :
    Except ReadError (List Bytes × Bytes) :=
  (readBulks count buffer).map fun (items, rest) => (item :: items, rest)

/-- Byte strings in turn are the first one and then the others. -/
theorem readBulks_succ (count : Nat) (buffer : Bytes) : readBulks (count + 1) buffer =
    readBulk buffer >>= fun (item, rest) => readOthers count item rest := by
  rw [readBulks]
  cases readBulk buffer <;> rfl

/-- An array is its length and then as many byte strings. -/
theorem readArray_eq (buffer : Bytes) :
    readArray buffer = readLength buffer >>= fun (count, rest) => readBulks count rest := by
  unfold readArray
  cases readLength buffer <;> rfl

/-- Behind an asterisk the number of byte strings is read, and then those. -/
theorem readWords_asterisk (buffer : Bytes) : readWords (Ascii.asterisk :: buffer) =
    readLength buffer >>= fun (count, rest) => readBulks count rest := by
  rw [readWords, if_pos rfl, readArray_eq]

/-- Reads on after some words: they are a request, unless there are none. -/
def readAfter : List Bytes → Bytes → Except ReadError (Request × Bytes)
  | [], rest => readFirst rest
  | verb :: arguments, rest => .ok (⟨verb, arguments⟩, rest)

/-- The first request with words follows those without. -/
theorem readFirst_eq (buffer : Bytes) :
    readFirst buffer = readWords buffer >>= fun (words, rest) => readAfter words rest := by
  rw [readFirst]
  split <;> next found => rw [found]; rfl

/-- A buffer within the limit is refused only for what it holds. -/
theorem read_eq_readFirst {buffer : Bytes} (within : buffer.length ≤ maxLength) :
    read buffer = readFirst buffer := if_neg (Nat.not_lt.mpr within)

/-- Nothing is read of an empty buffer. -/
theorem read_nil : read [] = .error .incomplete := by
  rw [read_eq_readFirst (Nat.zero_le _), readFirst_eq]
  rfl

end Request
end ScoreStore
