import ScoreStore.Proofs.Request.Grammar

/-!
Reading by positions in a buffer: no position is out of bounds, and it comes to the
same as reading from the front.
-/

namespace ScoreStore

/-- What comes of reading by positions. -/
inductive Located (α : Type) where
  /-- Bytes beyond the end of the buffer are asked for. -/
  | outside
  /-- A position is greater than a machine word. -/
  | overflow
  /-- The rounds are used up. -/
  | endless
  | refused (reason : ReadError)
  | found (value : α)

namespace Located

variable {α β : Type}

/-- Goes on with what was found. -/
def bind : Located α → (α → Located β) → Located β
  | outside, _ => outside
  | overflow, _ => overflow
  | endless, _ => endless
  | refused reason, _ => refused reason
  | found value, next => next value

instance : Monad Located where
  pure := found
  bind := bind

/-- A reading that has only the two proper ends. -/
def ofExcept : Except ReadError α → Located α
  | .error reason => refused reason
  | .ok value => found value

@[simp] theorem found_bind (value : α) (next : α → Located β) :
    (found value >>= next) = next value := rfl

/-- The bytes from one position to another, if both are inside and in order. -/
def slice (buffer : Bytes) (start stop : Nat) : Located Bytes :=
  -- A slice out of order or out of bounds would end the program, so that it is told apart.
  if start ≤ stop ∧ stop ≤ buffer.length then .found ((buffer.drop start).take (stop - start))
  else .outside

/-- The byte at a position, if it is inside. -/
def byteAt (buffer : Bytes) (position : Nat) : Located UInt8 :=
  match buffer[position]? with
  | none => .outside
  | some byte => .found byte

/-- The sum of two positions, if it fits a machine word. -/
def sum (first second : Nat) : Located Nat :=
  if first + second ≤ Decimal.maxUnsigned64 then .found (first + second) else .overflow

theorem slice_of_le {buffer : Bytes} {start stop : Nat} (order : start ≤ stop)
    (inside : stop ≤ buffer.length) :
    slice buffer start stop = .found ((buffer.drop start).take (stop - start)) :=
  if_pos ⟨order, inside⟩

theorem slice_end {buffer : Bytes} {start : Nat} (inside : start ≤ buffer.length) :
    slice buffer start buffer.length = .found (buffer.drop start) := by
  -- The last slice has all the bytes that are left.
  rw [slice_of_le inside (Nat.le_refl _), List.take_of_length_le (Nat.le_of_eq List.length_drop)]

theorem sum_of_le {first second : Nat} (fits : first + second ≤ 2 * Request.maxLength + 2) :
    sum first second = .found (first + second) :=
  -- Both limits together are far below the greatest machine word.
  if_pos (Nat.le_trans fits (by decide))

end Located

namespace Request

open Located

/-- Finds the length at the front of a buffer, and how many bytes it takes. -/
def lengthIn (buffer : Bytes) : Located (Nat × Nat) :=
  match Bytes.find? Bytes.lineEnd buffer with
  -- Without a line end the whole rest counts as the token.
  | none => .refused (if maxLengthDigits < buffer.length then .tooBig else .incomplete)
  | some position =>
    if maxLengthDigits < position then .refused .tooBig else do
      let token ← slice buffer 0 position
      match Decimal.unsigned? Decimal.maxUnsigned64 token with
      | none => .refused (.badLength token)
      | some length =>
        if maxLength < length then .refused .tooBig else do
          let used ← sum position 2
          return (length, used)

/-- Finds the content of a byte string at a position, and where its line end is over. -/
def contentAt (buffer : Bytes) (start length : Nat) : Located (Bytes × Nat) := do
  -- Two sums are checked before any byte of the content is looked at.
  let stop ← sum start length
  let next ← sum stop 2
  if buffer.length < next then .refused .incomplete else do
    let ending ← slice buffer stop next
    if ending ≠ Bytes.lineEnd then .refused .unterminated else do
      let content ← slice buffer start stop
      return (content, next)

/-- Finds the byte string at a position, and where it is over. -/
def bulkAt (buffer : Bytes) (position : Nat) : Located (Bytes × Nat) :=
  match buffer[position]? with
  | none => .refused .incomplete
  | some marker =>
    if marker ≠ Ascii.dollar then .refused (.badMarker marker) else do
      let afterMarker ← sum position 1
      let remainder ← slice buffer afterMarker buffer.length
      let (length, used) ← lengthIn remainder
      let start ← sum afterMarker used
      contentAt buffer start length

/-- Finds a number of byte strings from a position on, and where they are over. -/
def bulksAt (buffer : Bytes) : Nat → Nat → Located (List Bytes × Nat)
  | 0, position => return ([], position)
  | count + 1, position => do
    let (item, position) ← bulkAt buffer position
    let (items, position) ← bulksAt buffer count position
    return (item :: items, position)

/-- Finds the words at the front of a buffer, and how many bytes they take. -/
def wordsIn (buffer : Bytes) : Located (List Bytes × Nat) := do
  let marker ← byteAt buffer 0
  if marker = Ascii.asterisk then do
    let remainder ← slice buffer 1 buffer.length
    let (count, used) ← lengthIn remainder
    let position ← sum 1 used
    bulksAt buffer count position
  else
    match Bytes.find? Bytes.lineEnd buffer with
    | none => .refused .incomplete
    | some position => do
      let line ← slice buffer 0 position
      match splitWords line with
      | .error reason => .refused (.badLine reason)
      | .ok words => do
        let used ← sum position 2
        return (words, used)

/-- Finds the first request with words from an offset on, in a number of rounds at most. -/
def firstFrom (buffer : Bytes) : Nat → Nat → Located (Request × Nat)
  | 0, _ => .endless
  | rounds + 1, offset => do
    -- A request without words has taken bytes, so that the next round starts behind them.
    let remainder ← slice buffer offset buffer.length
    if remainder.isEmpty then .refused .incomplete else do
      let (words, used) ← wordsIn remainder
      let next ← sum offset used
      match ofWords? words with
      | none => firstFrom buffer rounds next
      | some request => return (request, next)

/-- Finds the first request of a buffer by positions, and where it is over. -/
def locate (buffer : Bytes) : Located (Request × Nat) :=
  if maxLength < buffer.length then .refused .tooBig
  else firstFrom buffer (buffer.length + 1) 0

/-- Reading by positions agrees with reading from the front: it refuses alike, or
stops where the rest begins. -/
def Tracks {α : Type} (buffer : Bytes) (located : Located (α × Nat))
    (read : Except ReadError (α × Bytes)) : Prop :=
  match read with
  | .error reason => located = .refused reason
  | .ok (value, rest) =>
    ∃ stop, stop ≤ buffer.length ∧ rest = buffer.drop stop ∧ located = .found (value, stop)

namespace Tracks

variable {α β : Type} {buffer front : Bytes}

theorem refused (reason : ReadError) :
    Tracks buffer (.refused reason : Located (α × Nat)) (.error reason) := rfl

/-- Readings in turn agree if each of them does. -/
theorem bind {located : Located (α × Nat)} {read : Except ReadError (α × Bytes)}
    {next : α × Nat → Located (β × Nat)} {others : α → Bytes → Except ReadError (β × Bytes)}
    (first : Tracks front located read)
    (second : ∀ value stop, stop ≤ front.length → read = .ok (value, front.drop stop) →
      Tracks buffer (next (value, stop)) (others value (front.drop stop))) :
    Tracks buffer (located >>= next) (read >>= fun (value, rest) => others value rest) := by
  cases read with
  -- A refusal of the first reading is one of both together.
  | error reason =>
    rw [show located = .refused reason from first]
    exact refused reason
  | ok result =>
    obtain ⟨value, rest⟩ := result
    obtain ⟨stop, inside, rfl, rfl⟩ := first
    -- The second reading starts from the position where the first one is over.
    exact second value stop inside rfl

/-- What is made of what was found does not matter. -/
theorem map {located : Located (α × Nat)} {read : Except ReadError (α × Bytes)}
    (tracks : Tracks buffer located read) (made : α → β) :
    Tracks buffer (located >>= fun (value, stop) => .found (made value, stop))
      (read.map fun (value, rest) => (made value, rest)) := by
  -- The position where the reading is over stays as it is.
  cases read with
  | error reason =>
    rw [show located = .refused reason from tracks]
    exact refused reason
  | ok result =>
    obtain ⟨value, rest⟩ := result
    obtain ⟨stop, inside, rfl, rfl⟩ := tracks
    exact ⟨stop, inside, rfl, rfl⟩

end Tracks

section Within

variable {buffer : Bytes} (within : buffer.length ≤ maxLength)
include within

/-- The line at the front of a buffer is inside, and so is its line end. -/
theorem slice_line {line rest : Bytes} (split : Bytes.splitLine? buffer = some (line, rest)) :
    slice buffer 0 line.length = .found line ∧ sum line.length 2 = .found (line.length + 2) ∧
      line.length + 2 ≤ buffer.length ∧ rest = buffer.drop (line.length + 2) := by
  -- The buffer is the line, its line end and the rest, which gives all four facts.
  obtain rfl := Bytes.eq_of_splitLine? split
  have length : (line ++ Bytes.lineEnd ++ rest).length = line.length + 2 + rest.length := by
    simp only [List.length_append, Bytes.lineEnd, List.length_cons, List.length_nil]
  refine ⟨?_, sum_of_le (by omega), by omega, ?_⟩
  · rw [slice_of_le (Nat.zero_le _) (by omega), List.drop_zero, Nat.sub_zero, List.append_assoc,
      List.take_left]
  · have front : line.length + 2 = (line ++ Bytes.lineEnd).length := by
      simp [Bytes.lineEnd]
    rw [front, List.drop_left]

theorem lengthIn_tracks : Tracks buffer (lengthIn buffer) (readLength buffer) := by
  rw [lengthIn, readLength, Bytes.find?_lineEnd]
  -- Both look for the end of the line first, and then make the same checks.
  cases split : Bytes.splitLine? buffer with
  -- Both refusals depend on the length of the buffer only.
  | none => exact .refused _
  | some found =>
    obtain ⟨token, rest⟩ := found
    obtain ⟨sliced, summed, inside, left⟩ := slice_line within split
    simp only [Option.map_some, sliced, summed, found_bind]
    by_cases long : maxLengthDigits < token.length
    · rw [if_pos long, if_pos long]
      exact .refused _
    · rw [if_neg long, if_neg long]
      cases Decimal.unsigned? Decimal.maxUnsigned64 token with
      | none => exact .refused _
      | some length =>
        by_cases large : maxLength < length
        · simp only [if_pos large]
          exact .refused _
        · simp only [if_neg large]
          exact ⟨token.length + 2, inside, left, rfl⟩

theorem contentAt_tracks {start length : Nat} (inside : start ≤ buffer.length)
    (small : length ≤ maxLength) :
    Tracks buffer (contentAt buffer start length) (readContent length (buffer.drop start)) := by
  -- Neither sum exceeds a machine word, since buffer and length are within their limit.
  rw [contentAt, sum_of_le (by omega), found_bind, sum_of_le (by omega), found_bind, readContent,
    List.drop_drop]
  have remains : (buffer.drop (start + length)).length = buffer.length - (start + length) :=
    List.length_drop
  rcases dropped : buffer.drop (start + length) with _ | ⟨first, _ | ⟨second, rest⟩⟩
  -- At most one byte follows the content in the first two cases.
  · have short : buffer.length < start + length + 2 := by
      simp only [dropped, List.length_nil] at remains
      omega
    rw [if_pos short]
    exact .refused _
  · have short : buffer.length < start + length + 2 := by
      simp only [dropped, List.length_cons, List.length_nil] at remains
      omega
    rw [if_pos short]
    exact .refused _
  · have long : start + length + 2 ≤ buffer.length := by
      simp only [dropped, List.length_cons] at remains
      omega
    -- Line end and content are both inside, so that each slice is what the reader takes.
    rw [if_neg (Nat.not_lt.mpr long), slice_of_le (Nat.le_add_right ..) long, found_bind,
      slice_of_le (Nat.le_add_right ..) (Nat.le_of_add_right_le long), Nat.add_sub_cancel_left,
      Nat.add_sub_cancel_left, dropped]
    by_cases ends : first = Ascii.carriageReturn ∧ second = Ascii.lineFeed
    · obtain ⟨rfl, rfl⟩ := ends
      refine ⟨start + length + 2, long, ?_, rfl⟩
      -- What follows the two bytes is what both leave.
      rw [← List.drop_drop, dropped]
      rfl
    · -- Two bytes that are no line end differ from it in one of them.
      have other : List.take 2 (first :: second :: rest) ≠ Bytes.lineEnd := by
        intro same
        obtain ⟨begins, others⟩ := List.cons.inj same
        exact ends ⟨begins, (List.cons.inj others).1⟩
      simp only [if_pos other, if_neg ends]
      exact .refused _

theorem bulkAt_tracks (position : Nat) :
    Tracks buffer (bulkAt buffer position) (readBulk (buffer.drop position)) := by
  rw [bulkAt]
  rcases Nat.lt_or_ge position buffer.length with before | atEnd
  · -- The byte at the position is the first one of the rest.
    rw [List.getElem?_eq_getElem before, List.drop_eq_getElem_cons before]
    by_cases marked : buffer[position] = Ascii.dollar
    · rw [marked, readBulk_dollar]
      have remains : (buffer.drop (position + 1)).length = buffer.length - (position + 1) :=
        List.length_drop
      have tracks : Tracks (buffer.drop (position + 1)) _ _ := lengthIn_tracks (by omega)
      simp only [ne_eq, not_true_eq_false, if_false]
      rw [sum_of_le (by omega), found_bind, slice_end (by omega), found_bind]
      refine tracks.bind fun length used short read => ?_
      -- The sums stay small because the length that was read is within its limit.
      have small : length ≤ maxLength := by
        obtain ⟨_, ⟨_, written, _⟩, _⟩ := (readLength_parses _ _ _).mp read
        exact written.within
      have inside : position + 1 + used ≤ buffer.length := by omega
      have content := contentAt_tracks within inside small
      rw [← List.drop_drop] at content
      show Tracks buffer (sum (position + 1) used >>= fun start => contentAt buffer start length) _
      rw [sum_of_le (by omega)]
      exact content
    · simp only [ne_eq, marked, not_false_eq_true, if_true, readBulk]
      exact .refused _
  · -- At the end of the buffer nothing is left to be read.
    rw [List.getElem?_eq_none atEnd, List.drop_of_length_le atEnd]
    exact .refused _

theorem bulksAt_tracks (count : Nat) {position : Nat} (inside : position ≤ buffer.length) :
    Tracks buffer (bulksAt buffer count position) (readBulks count (buffer.drop position)) := by
  -- The induction is on the number of byte strings that are still to come.
  induction count generalizing position with
  | zero => exact ⟨position, inside, rfl, rfl⟩
  | succ count ih =>
    rw [bulksAt, readBulks_succ]
    -- The others start where the first one is over.
    exact (bulkAt_tracks within position).bind fun item next inside _ => (ih inside).map (item :: ·)

theorem wordsIn_tracks (more : buffer ≠ []) :
    Tracks buffer (wordsIn buffer) (readWords buffer) := by
  -- The first byte is there and decides between the two forms.
  obtain ⟨marker, others, rfl⟩ := List.exists_cons_of_ne_nil more
  rw [wordsIn, show byteAt (marker :: others) 0 = .found marker from rfl, found_bind, readWords]
  by_cases marked : marker = Ascii.asterisk
  · rw [if_pos marked, if_pos marked, readArray_eq, slice_end (Nat.le_add_left ..), found_bind]
    -- The number of items is found behind the marker, and the items behind the number.
    have tracks : Tracks others _ _ :=
      lengthIn_tracks (Nat.le_trans (Nat.le_succ _) within)
    rw [List.drop_one, List.tail_cons]
    refine tracks.bind fun count used short _ => ?_
    have inside : 1 + used ≤ (marker :: others).length := by
      rw [List.length_cons]
      omega
    have bulks := bulksAt_tracks within count inside
    rw [Nat.add_comm, List.drop_succ_cons, Nat.add_comm] at bulks
    show Tracks _ (sum 1 used >>= bulksAt _ count) (readBulks count _)
    rw [sum_of_le (by omega)]
    exact bulks
  · rw [if_neg marked, if_neg marked, readLine, Bytes.find?_lineEnd]
    cases split : Bytes.splitLine? (marker :: others) with
    -- A line without its end is waited for by both.
    | none => exact .refused _
    | some found =>
      obtain ⟨line, rest⟩ := found
      obtain ⟨sliced, summed, inside, left⟩ := slice_line within split
      simp only [Option.map_some, sliced, summed, found_bind]
      cases splitWords line with
      | error reason => exact .refused _
      | ok words => exact ⟨line.length + 2, inside, left, rfl⟩

/-- The rounds last as long as there are bytes, since each request without words takes some. -/
theorem firstFrom_tracks {rounds offset : Nat} (inside : offset ≤ buffer.length)
    (enough : buffer.length - offset < rounds) :
    Tracks buffer (firstFrom buffer rounds offset) (readFirst (buffer.drop offset)) := by
  induction rounds generalizing offset with
  -- There are always more rounds than bytes.
  | zero => omega
  | succ rounds ih =>
    have remains : (buffer.drop offset).length = buffer.length - offset := List.length_drop
    rw [firstFrom, slice_end inside, found_bind, readFirst_eq]
    -- Without any bytes left both wait for more.
    cases empty : buffer.drop offset with
    | nil => exact .refused _
    | cons marker others =>
      rw [← empty]
      have more : buffer.drop offset ≠ [] := by
        rw [empty]
        exact List.cons_ne_nil _ _
      have tracks : Tracks (buffer.drop offset) _ _ := wordsIn_tracks (by omega) more
      rw [if_neg (by simpa using more)]
      refine tracks.bind fun words used short read => ?_
      -- The words took at least one byte, and at most those that there were.
      have fewer := length_readWords read
      have next : offset + used ≤ buffer.length := by omega
      have enough : buffer.length - (offset + used) < rounds := by
        rw [List.length_drop] at fewer
        omega
      show Tracks buffer (sum offset used >>= _) (readAfter words _)
      rw [sum_of_le (by omega), found_bind, List.drop_drop]
      cases words with
      -- A request without words is passed over, and the next round looks behind it.
      | nil => exact ih next enough
      | cons verb arguments => exact ⟨offset + used, next, rfl, rfl⟩

end Within

/-- Reading by positions comes to what reading from the front does: it never looks outside of
the buffer, and always ends. -/
theorem locate_eq (buffer : Bytes) : locate buffer = .ofExcept (readCounted buffer) := by
  unfold locate readCounted read
  by_cases long : maxLength < buffer.length
  · -- A buffer beyond the limit is refused by both at once.
    rw [if_pos long, if_pos long]
    rfl
  · have tracks := firstFrom_tracks (Nat.not_lt.mp long) (Nat.zero_le _) (Nat.lt_succ_self _)
    rw [List.drop_zero] at tracks
    rw [if_neg long, if_neg long]
    cases read : readFirst buffer with
    | error reason =>
      rw [read] at tracks
      exact tracks
    | ok result =>
      obtain ⟨request, rest⟩ := result
      rw [read] at tracks
      -- What is left has as many bytes as the buffer has behind the position.
      obtain ⟨stop, inside, rfl, located⟩ := tracks
      have length : buffer.length - (buffer.drop stop).length = stop := by
        rw [List.length_drop]
        omega
      show firstFrom buffer (buffer.length + 1) 0 = .found (request, buffer.length - _)
      rw [length]
      exact located

/-- A request that was counted is counted alike in every buffer that begins with its bytes. -/
theorem readCounted_of_prefix {buffer other : Bytes} {request : Request} {count : Nat}
    (within : buffer.length ≤ maxLength) (counted : readCounted buffer = .ok (request, count))
    (otherWithin : other.length ≤ maxLength) (begins : buffer.take count <+: other) :
    readCounted other = .ok (request, count) := by
  -- The count is that of the bytes of the request, which the other buffer begins with.
  obtain ⟨inside, first⟩ := (readCounted_eq_ok_iff within).mp counted
  obtain ⟨more, rfl⟩ := begins
  have length : (buffer.take count).length = count := List.length_take_of_le inside
  refine (readCounted_eq_ok_iff otherWithin).mpr ⟨?_, ?_⟩
  · rw [List.length_append]
    omega
  · rwa [List.take_left' length]

/-- Within the limit, just the requests of the grammar are read, each with the count of its bytes;
all positions looked at are inside, and what follows the request does not matter. -/
theorem readCounted_exact {buffer : Bytes} (within : buffer.length ≤ maxLength) :
    (∀ request count, readCounted buffer = .ok (request, count) ↔
      count ≤ buffer.length ∧ IsFirst (buffer.take count) request) ∧
    (∀ request rest, read buffer = .ok (request, rest) →
      rest = buffer.drop (buffer.length - rest.length)) ∧
    locate buffer = .ofExcept (readCounted buffer) ∧
    ∀ request count, readCounted buffer = .ok (request, count) →
      (∀ more, (buffer ++ more).length ≤ maxLength →
        readCounted (buffer ++ more) = .ok (request, count)) ∧
      ∀ other, other.length ≤ maxLength → buffer.take count <+: other →
        readCounted other = .ok (request, count) := by
  refine ⟨fun request count => readCounted_eq_ok_iff within, ?_, locate_eq buffer, ?_⟩
  · intro request rest found
    -- The rest is what follows the bytes of the request.
    obtain ⟨code, _, rfl⟩ := (read_eq_ok_iff within).mp found
    have length : (code ++ rest).length - rest.length = code.length := by
      rw [List.length_append]
      omega
    rw [length, List.drop_left]
  · intro request count counted
    constructor
    · intro more moreWithin
      -- A longer buffer begins with the bytes that were counted.
      have begins : buffer.take count <+: buffer ++ more :=
        (List.take_prefix count buffer).trans (List.prefix_append buffer more)
      exact readCounted_of_prefix within counted moreWithin begins
    · intro other otherWithin begins
      exact readCounted_of_prefix within counted otherWithin begins

/-- A blank line and an empty array are passed over, and a line end within a
byte string belongs to it. -/
theorem readCounted_exact_get :
    (Text.bytes "\r\n*0\r\n*2\r\n$3\r\nGET\r\n$+4\r\na\r\nb\r\nPI").length ≤ maxLength ∧
      IsFirst (Text.bytes "\r\n*0\r\n*2\r\n$3\r\nGET\r\n$+4\r\na\r\nb\r\n")
        ⟨Text.bytes "GET", [Text.bytes "a\r\nb"]⟩ ∧
      readCounted (Text.bytes "\r\n*0\r\n*2\r\n$3\r\nGET\r\n$+4\r\na\r\nb\r\nPI" ++
        Text.bytes "NG\r\n") = .ok (⟨Text.bytes "GET", [Text.bytes "a\r\nb"]⟩, 30) := by
  have within : (Text.bytes "\r\n*0\r\n*2\r\n$3\r\nGET\r\n$+4\r\na\r\nb\r\nPI").length ≤
      maxLength := by decide +kernel
  have counted : readCounted (Text.bytes "\r\n*0\r\n*2\r\n$3\r\nGET\r\n$+4\r\na\r\nb\r\nPI") =
      .ok (⟨Text.bytes "GET", [Text.bytes "a\r\nb"]⟩, 30) := by decide +kernel
  obtain ⟨accepts, _, _, lasts⟩ := readCounted_exact within
  have first := ((accepts _ _).mp counted).2
  have taken : (Text.bytes "\r\n*0\r\n*2\r\n$3\r\nGET\r\n$+4\r\na\r\nb\r\nPI").take 30 =
      Text.bytes "\r\n*0\r\n*2\r\n$3\r\nGET\r\n$+4\r\na\r\nb\r\n" := by decide +kernel
  rw [taken] at first
  exact ⟨within, first, (lasts _ _ counted).1 _ (by decide +kernel)⟩

end Request
end ScoreStore
