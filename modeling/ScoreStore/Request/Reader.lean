import ScoreStore.Decimal
import ScoreStore.Request
import ScoreStore.Request.Words

/-! Reading requests from a buffer: arrays of byte strings with lengths, and lines of words. -/

namespace ScoreStore

/-- Why a buffer starts with no request. -/
inductive ReadError where
  /-- The first request has not arrived in full. -/
  | incomplete
  /-- The buffer or an announced length exceeds the limit. -/
  | tooBig
  /-- An announced length is no number. -/
  | badLength (token : Bytes)
  /-- A byte other than the marker of a byte string announces an item. -/
  | badMarker (found : UInt8)
  /-- A byte string is not followed by a line end. -/
  | unterminated
  /-- A line has no words. -/
  | badLine (reason : WordError)
deriving DecidableEq

/-- The words for the error. -/
def ReadError.message : ReadError → String
  | incomplete => "Parse error. Need more to data to complete operation"
  | tooBig => "Parse error. Input too big"
  | badLength token =>
    "Parse error. Protocol error. `invalid length `" ++ Text.ofBytes token ++ "``"
  | badMarker found =>
    "Parse error. Protocol error. `bulk string must start with '$'. Found " ++
      String.singleton (Char.ofNat found.toNat) ++ "`"
  | unterminated => "Parse error. Protocol error. `bulk string is not terminated with CRLF`"
  | badLine reason => "Parse error. " ++ reason.message

namespace Request

/-- The greatest accepted length, of a buffer as well as of an array or a byte string. -/
def maxLength : Nat := 512 * 1024 * 1024

/-- The greatest number of bytes of a written length. -/
def maxLengthDigits : Nat := 20

/-- Reads a length that ends its line, and gives the bytes after the line. -/
def readLength (buffer : Bytes) : Except ReadError (Nat × Bytes) :=
  -- A line that is already too long is refused before its end arrives.
  match Bytes.splitLine? buffer with
  | none => .error (if maxLengthDigits < buffer.length then .tooBig else .incomplete)
  | some (token, rest) =>
    if maxLengthDigits < token.length then .error .tooBig
    else match Decimal.unsigned? Decimal.maxUnsigned64 token with
      | none => .error (.badLength token)
      | some length => if maxLength < length then .error .tooBig else .ok (length, rest)

/-- Reads a byte string with its marker and length in front. -/
def readBulk : Bytes → Except ReadError (Bytes × Bytes)
  -- The byte string counts only once its line end has arrived.
  | [] => .error .incomplete
  | marker :: buffer =>
    if marker ≠ Ascii.dollar then .error (.badMarker marker)
    else match readLength buffer with
      | .error reason => .error reason
      | .ok (length, buffer) =>
        match buffer.drop length with
        | first :: second :: rest =>
          if first = Ascii.carriageReturn ∧ second = Ascii.lineFeed then
            .ok (buffer.take length, rest)
          else .error .unterminated
        | _ => .error .incomplete

/-- Reads a number of byte strings in turn. -/
def readBulks : Nat → Bytes → Except ReadError (List Bytes × Bytes)
  | 0, buffer => .ok ([], buffer)
  | count + 1, buffer =>
    match readBulk buffer with
    | .error reason => .error reason
    | .ok (item, buffer) => (readBulks count buffer).map fun (items, rest) => (item :: items, rest)

/-- Reads an array of byte strings, after its marker. -/
def readArray (buffer : Bytes) : Except ReadError (List Bytes × Bytes) :=
  match readLength buffer with
  | .error reason => .error reason
  | .ok (count, buffer) => readBulks count buffer

/-- Reads a line of words. -/
def readLine (buffer : Bytes) : Except ReadError (List Bytes × Bytes) :=
  match Bytes.splitLine? buffer with
  | none => .error .incomplete
  | some (line, rest) =>
    match splitWords line with
    | .error reason => .error (.badLine reason)
    | .ok words => .ok (words, rest)

/-- Reads the words of one request, of which there may be none. -/
def readWords : Bytes → Except ReadError (List Bytes × Bytes)
  -- The first byte tells the two forms apart.
  | [] => .error .incomplete
  | marker :: buffer =>
    if marker = Ascii.asterisk then readArray buffer else readLine (marker :: buffer)

/-- A length read from a buffer leaves fewer bytes. -/
theorem length_readLength {buffer rest : Bytes} {length : Nat}
    (read : readLength buffer = .ok (length, rest)) : rest.length < buffer.length := by
  -- A length takes up a line.
  unfold readLength at read
  split at read
  · simp at read
  · next token remaining split =>
    split at read
    · simp at read
    · split at read
      · simp at read
      · split at read
        · simp at read
        · simp only [Except.ok.injEq, Prod.mk.injEq] at read
          exact read.2 ▸ Bytes.length_splitLine? split

/-- A byte string read from a buffer leaves fewer bytes. -/
theorem length_readBulk {buffer item rest : Bytes}
    (read : readBulk buffer = .ok (item, rest)) : rest.length < buffer.length := by
  -- The marker and the length precede what is left.
  unfold readBulk at read
  split at read
  · simp at read
  · next marker buffer =>
    split at read
    · simp at read
    · split at read
      · simp at read
      · next length afterLength lengthRead =>
        have shorter := length_readLength lengthRead
        split at read
        · next first second remaining dropped =>
          split at read
          · simp only [Except.ok.injEq, Prod.mk.injEq] at read
            have counted := congrArg List.length dropped
            simp only [List.length_drop, List.length_cons] at counted
            rw [← read.2, List.length_cons]
            omega
          · simp at read
        · simp at read

/-- Byte strings read from a buffer leave no more bytes than there were. -/
theorem length_readBulks {count : Nat} {buffer rest : Bytes} {items : List Bytes}
    (read : readBulks count buffer = .ok (items, rest)) : rest.length ≤ buffer.length := by
  -- Each of them takes some bytes.
  induction count generalizing buffer items rest with
  | zero =>
    simp only [readBulks, Except.ok.injEq, Prod.mk.injEq] at read
    simp [read.2]
  | succ count ih =>
    simp only [readBulks] at read
    split at read
    · simp at read
    · next item remaining itemRead =>
      cases others : readBulks count remaining with
      | error reason => simp [others, Except.map] at read
      | ok result =>
        simp only [others, Except.map, Except.ok.injEq, Prod.mk.injEq] at read
        rw [← read.2]
        have fewer := ih others
        have fewerBefore := length_readBulk itemRead
        omega

/-- The words of a request leave fewer bytes. -/
theorem length_readWords {buffer rest : Bytes} {words : List Bytes}
    (read : readWords buffer = .ok (words, rest)) : rest.length < buffer.length := by
  -- Both forms take at least one line.
  unfold readWords at read
  split at read
  · simp at read
  · next marker buffer =>
    split at read
    · unfold readArray at read
      split at read
      · simp at read
      · next count afterCount countRead =>
        have shorter := length_readLength countRead
        have fewer := length_readBulks read
        simp only [List.length_cons]
        omega
    · unfold readLine at read
      split at read
      · simp at read
      · next line remaining split =>
        split at read
        · simp at read
        · simp only [Except.ok.injEq, Prod.mk.injEq] at read
          exact read.2 ▸ Bytes.length_splitLine? split

/-- Reads the first request that has words, passing over those without. -/
def readFirst (buffer : Bytes) : Except ReadError (Request × Bytes) :=
  match _read : readWords buffer with
  | .error reason => .error reason
  | .ok ([], rest) => readFirst rest
  | .ok (verb :: arguments, rest) => .ok (⟨verb, arguments⟩, rest)
termination_by buffer.length
decreasing_by exact length_readWords _read

/-- Reads the first request of a buffer, and gives the bytes after it. -/
def read (buffer : Bytes) : Except ReadError (Request × Bytes) :=
  if maxLength < buffer.length then .error .tooBig else readFirst buffer

end Request
end ScoreStore
