import ScoreStore.Proofs.Decimal
import ScoreStore.Proofs.Request.Reader

/-!
The grammar of requests: which bytes are read as which request, and that
nothing behind them is looked at.
-/

namespace ScoreStore

namespace Request

/-- A token that writes a length: few bytes, an optional plus sign and at least one digit. -/
structure WritesLength (token : Bytes) (length : Nat) : Prop where
  short : token.length ≤ maxLengthDigits
  digits : ∃ digits, (token = digits ∨ token = Ascii.plus :: digits) ∧ digits ≠ [] ∧
    (∀ byte ∈ digits, Ascii.zero ≤ byte ∧ byte ≤ Ascii.nine) ∧ Decimal.value digits = length
  within : length ≤ maxLength

/-- The bytes of a byte string: its length and its content, each with a line end. -/
inductive IsBulk : Bytes → Bytes → Prop where
  | intro {token content : Bytes} (written : WritesLength token content.length) :
    IsBulk (Ascii.dollar :: (token ++ Bytes.lineEnd) ++ (content ++ Bytes.lineEnd)) content

/-- The bytes of one request and its words, of which there may be none. -/
inductive IsWritten : Bytes → List Bytes → Prop where
  /-- An array of byte strings, with their number in front. -/
  | array {token : Bytes} {codes items : List Bytes} (written : WritesLength token items.length)
      (bulks : List.Forall₂ IsBulk codes items) :
    IsWritten (Ascii.asterisk :: (token ++ Bytes.lineEnd) ++ codes.flatten) items
  /-- A line of words, up to the first line end. -/
  | line {line : Bytes} {words : List Bytes} (noArray : line.head? ≠ some Ascii.asterisk)
      (first : ¬ Bytes.lineEnd <:+: line) (split : splitWords line = .ok words) :
    IsWritten (line ++ Bytes.lineEnd) words

/-- The bytes of a request, with any number of requests without words in front. -/
def IsFirst (code : Bytes) (request : Request) : Prop :=
  ∃ (skipped : List Bytes) (last : Bytes), code = skipped.flatten ++ last ∧
    (∀ empty ∈ skipped, IsWritten empty []) ∧ IsWritten last request.words

section Parses

variable {α β : Type}

/-- A reader finds a value just in the buffers that begin with bytes of a form, and
leaves what follows these. -/
def Parses (reader : Bytes → Except ReadError (α × Bytes)) (form : Bytes → α → Prop) : Prop :=
  ∀ buffer value rest, reader buffer = .ok (value, rest) ↔
    ∃ code, form code value ∧ buffer = code ++ rest

namespace Parses

variable {reader : Bytes → Except ReadError (α × Bytes)} {form : Bytes → α → Prop}

/-- Readers in turn parse forms in turn. -/
theorem bind {second : α → Bytes → Except ReadError (β × Bytes)} {later : α → Bytes → β → Prop}
    (first : Parses reader form) (others : ∀ value, Parses (second value) (later value)) :
    Parses (fun buffer => reader buffer >>= fun (value, rest) => second value rest)
      fun code result => ∃ value front back, form front value ∧ later value back result ∧
        code = front ++ back := by
  intro buffer result rest
  constructor
  · intro read
    -- Both readers succeed, the second one on what the first one leaves.
    cases early : reader buffer with
    | error reason =>
      simp only [early] at read
      cases read
    | ok found =>
      obtain ⟨value, remaining⟩ := found
      simp only [early] at read
      obtain ⟨front, formed, rfl⟩ := (first buffer value remaining).mp early
      obtain ⟨back, formedLater, rfl⟩ := (others value remaining result rest).mp read
      exact ⟨front ++ back, ⟨value, front, back, formed, formedLater, rfl⟩,
        (List.append_assoc ..).symm⟩
  · -- The two codes stand behind each other, so that the second reader finds its own.
    rintro ⟨_, ⟨value, front, back, formed, formedLater, rfl⟩, rfl⟩
    have early : reader (front ++ (back ++ rest)) = .ok (value, back ++ rest) :=
      (first _ _ _).mpr ⟨front, formed, rfl⟩
    have late : second value (back ++ rest) = .ok (result, rest) :=
      (others value _ _ _).mpr ⟨back, formedLater, rfl⟩
    show reader (front ++ back ++ rest) >>= _ = _
    rw [List.append_assoc, early]
    exact late

theorem map (parses : Parses reader form) (made : α → β) :
    Parses (fun buffer => (reader buffer).map fun (value, rest) => (made value, rest))
      fun code result => ∃ value, form code value ∧ made value = result := by
  intro buffer result rest
  constructor
  · intro read
    cases early : reader buffer with
    | error reason =>
      simp only [early] at read
      cases read
    -- The form is that of the value, of which only the result is kept.
    | ok found =>
      simp only [early] at read
      obtain ⟨rfl, rfl⟩ := Prod.mk.inj (Except.ok.inj read)
      obtain ⟨code, formed, whole⟩ := (parses buffer found.1 found.2).mp early
      exact ⟨code, ⟨found.1, formed, rfl⟩, whole⟩
  · rintro ⟨code, ⟨value, formed, rfl⟩, whole⟩
    have early := (parses buffer value rest).mpr ⟨code, formed, whole⟩
    show (reader buffer).map _ = _
    rw [early]
    rfl

end Parses

end Parses

/-- A length is parsed with the line end after it. -/
theorem readLength_parses : Parses readLength fun code length =>
    ∃ token, WritesLength token length ∧ code = token ++ Bytes.lineEnd := by
  intro buffer length rest
  constructor
  · intro read
    -- What passes all checks in turn is a token of the form.
    unfold readLength at read
    split at read
    · cases read
    · next token remaining split =>
      split at read
      · cases read
      · next short =>
        split at read
        · cases read
        · next number number? =>
          split at read
          · cases read
          · next within =>
            obtain ⟨rfl, rfl⟩ := Prod.mk.inj (Except.ok.inj read)
            obtain ⟨digits, sign, nonempty, allDigits, counted, _⟩ :=
              Decimal.unsigned?_eq_some_iff.mp number?
            simp only [Decimal.isDigit_iff] at allDigits
            exact ⟨token ++ Bytes.lineEnd, ⟨token, ⟨Nat.not_lt.mp short,
              ⟨digits, sign, nonempty, allDigits, counted⟩, Nat.not_lt.mp within⟩, rfl⟩,
              Bytes.eq_of_splitLine? split⟩
  · rintro ⟨_, ⟨token, ⟨short, ⟨digits, sign, nonempty, allDigits, counted⟩, within⟩, rfl⟩, rfl⟩
    simp only [← Decimal.isDigit_iff] at allDigits
    -- Neither a digit nor the sign is a carriage return, so that the token ends where it should.
    have plain : Ascii.carriageReturn ∉ token := by
      intro member
      have noDigit : ¬ Decimal.IsDigit Ascii.carriageReturn := by decide
      rcases sign with rfl | rfl
      · exact noDigit (allDigits _ member)
      · rcases List.mem_cons.mp member with same | member
        · exact absurd same (by decide)
        · exact noDigit (allDigits _ member)
    -- The limit on lengths is far below what a machine word holds.
    have bounded : length ≤ Decimal.maxUnsigned64 := Nat.le_trans within (by decide)
    have number? : Decimal.unsigned? Decimal.maxUnsigned64 token = some length :=
      Decimal.unsigned?_eq_some_iff.mpr ⟨digits, sign, nonempty, allDigits, counted, bounded⟩
    simp only [readLength, Bytes.splitLine?_line plain, if_neg (Nat.not_lt.mpr short), number?,
      if_neg (Nat.not_lt.mpr within)]

/-- The content of a byte string is parsed by its length, whatever bytes it has. -/
theorem readContent_parses (length : Nat) : Parses (readContent length) fun code content =>
    content.length = length ∧ code = content ++ Bytes.lineEnd := by
  intro buffer content rest
  constructor
  · intro read
    -- Both bytes behind the content are there, and they are the line end.
    unfold readContent at read
    split at read
    · next first second remaining dropped =>
      split at read
      · next ends =>
        obtain ⟨rfl, rfl⟩ := Prod.mk.inj (Except.ok.inj read)
        obtain ⟨rfl, rfl⟩ := ends
        -- Something is left after the content, so that it has all of its bytes.
        have counted := congrArg List.length dropped
        simp only [List.length_drop, List.length_cons] at counted
        refine ⟨_, ⟨List.length_take_of_le (by omega), rfl⟩, ?_⟩
        calc buffer = buffer.take length ++ buffer.drop length := (List.take_append_drop ..).symm
          _ = buffer.take length ++ Bytes.lineEnd ++ remaining := by
            rw [dropped, List.append_assoc]
            rfl
      · cases read
    · cases read
  · -- The content is cut off by its length, whatever bytes it has.
    rintro ⟨_, ⟨rfl, rfl⟩, rfl⟩
    rw [readContent, List.append_assoc, List.drop_left, List.take_left]
    rfl

/-- A byte string is parsed with its marker, its length and its line ends. -/
theorem readBulk_parses : Parses readBulk IsBulk := by
  intro buffer content rest
  -- After the marker the content is read by its length.
  have parses := readLength_parses.bind readContent_parses
  constructor
  · intro read
    cases buffer with
    | nil => cases read
    | cons marker buffer =>
      by_cases marked : marker = Ascii.dollar
      · subst marked
        rw [readBulk_dollar] at read
        obtain ⟨_, ⟨_, _, _, ⟨token, written, rfl⟩, ⟨rfl, rfl⟩, rfl⟩, rfl⟩ :=
          (parses buffer content rest).mp read
        exact ⟨_, .intro written, rfl⟩
      · -- Behind any other byte nothing is read.
        rw [readBulk, if_pos marked] at read
        cases read
  · rintro ⟨_, ⟨written⟩, rfl⟩
    simp only [List.cons_append, readBulk_dollar]
    exact (parses _ _ _).mpr ⟨_, ⟨_, _, _, ⟨_, written, rfl⟩, ⟨rfl, rfl⟩, rfl⟩, rfl⟩

/-- Byte strings are parsed one after the other. -/
theorem readBulks_parses (count : Nat) : Parses (readBulks count) fun code items =>
    items.length = count ∧ ∃ codes, List.Forall₂ IsBulk codes items ∧ code = codes.flatten := by
  -- By induction on the number of byte strings, which the reader recurs on as well.
  induction count with
  | zero =>
    intro buffer items rest
    constructor
    · intro read
      obtain ⟨rfl, rfl⟩ := Prod.mk.inj (Except.ok.inj read)
      exact ⟨[], ⟨rfl, [], .nil, rfl⟩, rfl⟩
    · rintro ⟨_, ⟨none, codes, bulks, rfl⟩, rfl⟩
      obtain rfl := List.length_eq_zero_iff.mp none
      cases bulks
      rfl
  | succ count ih =>
    -- The first byte string is followed by the others, which are parsed by induction.
    have parses := readBulk_parses.bind fun item => ih.map (item :: ·)
    intro buffer items rest
    rw [readBulks_succ]
    refine (parses buffer items rest).trans (exists_congr fun code => and_congr_left fun _ => ?_)
    constructor
    · rintro ⟨item, front, _, bulk, ⟨others, ⟨rfl, codes, bulks, rfl⟩, rfl⟩, rfl⟩
      exact ⟨rfl, front :: codes, .cons bulk bulks, rfl⟩
    · -- The codes are as many as the byte strings, so that the first has one of its own.
      rintro ⟨counted, codes, bulks, rfl⟩
      cases bulks with
      | nil => cases counted
      | cons bulk bulks =>
        exact ⟨_, _, _, bulk, ⟨_, ⟨Nat.succ.inj counted, _, bulks, rfl⟩, rfl⟩, rfl⟩

/-- A line of words is parsed up to the first line end. -/
theorem readLine_parses : Parses readLine fun code words =>
    ∃ line, ¬ Bytes.lineEnd <:+: line ∧ splitWords line = .ok words ∧
      code = line ++ Bytes.lineEnd := by
  intro buffer words rest
  constructor
  · intro read
    unfold readLine at read
    split at read
    · cases read
    · -- The line is the one that ends first, and it is split before anything is given back.
      next line remaining found =>
      split at read
      · cases read
      · next words split =>
        obtain ⟨rfl, rfl⟩ := Prod.mk.inj (Except.ok.inj read)
        obtain ⟨first, whole⟩ := Bytes.splitLine?_eq_some_iff.mp found
        exact ⟨_, ⟨line, first, split, rfl⟩, whole⟩
  · rintro ⟨_, ⟨line, first, split, rfl⟩, rfl⟩
    have found := Bytes.splitLine?_eq_some_iff.mpr ⟨first, Eq.refl (line ++ Bytes.lineEnd ++ rest)⟩
    simp only [readLine, found, split]

/-- The words of one request are parsed in either form. -/
theorem readWords_parses : Parses readWords IsWritten := by
  intro buffer words rest
  -- The first byte decides between the forms, whichever way it is looked at.
  have array := readLength_parses.bind readBulks_parses
  constructor
  · intro read
    cases buffer with
    | nil => cases read
    | cons marker buffer =>
      by_cases marked : marker = Ascii.asterisk
      · subst marked
        rw [readWords_asterisk] at read
        obtain ⟨_, ⟨_, _, _, ⟨token, written, rfl⟩, ⟨rfl, codes, bulks, rfl⟩, rfl⟩, rfl⟩ :=
          (array buffer words rest).mp read
        exact ⟨_, .array written bulks, rfl⟩
      · rw [readWords, if_neg marked] at read
        obtain ⟨_, ⟨line, first, split, rfl⟩, whole⟩ := (readLine_parses _ words rest).mp read
        refine ⟨_, .line ?_ first split, whole⟩
        -- The first byte of the line is that of the buffer, if the line has one.
        cases line with
        | nil => simp
        | cons byte others =>
          obtain ⟨rfl, _⟩ := List.cons.inj whole
          simpa using marked
  · rintro ⟨_, written, rfl⟩
    cases written with
    | array written bulks =>
      rw [List.cons_append, List.cons_append, readWords_asterisk]
      exact (array _ _ _).mpr ⟨_, ⟨_, _, _, ⟨_, written, rfl⟩, ⟨rfl, _, bulks, rfl⟩, rfl⟩, rfl⟩
    | @line line words noArray first split =>
      have read := (readLine_parses (line ++ Bytes.lineEnd ++ rest) words rest).mpr
        ⟨_, ⟨line, first, split, rfl⟩, rfl⟩
      -- An empty line is no array, and it has no words.
      cases line with
      | nil => exact read
      | cons byte others =>
        have marked : byte ≠ Ascii.asterisk := by simpa using noArray
        simp only [List.cons_append, readWords, if_neg marked]
        exact read

/-- The first request with words is parsed with those without words in front of it. -/
theorem readFirst_parses : Parses readFirst IsFirst := by
  intro buffer request rest
  -- Each request without words leaves fewer bytes to go on with.
  induction shorter : buffer.length using Nat.strongRecOn generalizing buffer with
  | ind length ih =>
    rw [readFirst_eq]
    constructor
    · intro read
      cases found : readWords buffer with
      | error reason =>
        rw [found] at read
        cases read
      | ok result =>
        obtain ⟨words, remaining⟩ := result
        rw [found] at read
        obtain ⟨code, written, rfl⟩ := (readWords_parses buffer words remaining).mp found
        cases words with
        | nil =>
          -- It is one more request to be skipped.
          have fewer := shorter ▸ length_readWords found
          obtain ⟨_, ⟨skipped, last, rfl, empty, ends⟩, rfl⟩ :=
            (ih remaining.length fewer remaining rfl).mp read
          refine ⟨code ++ (skipped.flatten ++ last), ⟨code :: skipped, last, ?_, ?_, ends⟩, ?_⟩
          · simp only [List.flatten_cons, List.append_assoc]
          · exact List.forall_mem_cons.mpr ⟨written, empty⟩
          · simp only [List.append_assoc]
        -- A request with words is the first one, with nothing skipped.
        | cons verb arguments =>
          obtain ⟨rfl, rfl⟩ := Prod.mk.inj (Except.ok.inj read)
          exact ⟨code, ⟨[], code, rfl, List.forall_mem_nil _, written⟩, rfl⟩
    · rintro ⟨_, ⟨skipped, last, rfl, empty, ends⟩, rfl⟩
      cases skipped with
      -- Nothing is left to be skipped.
      | nil =>
        have found := (readWords_parses (last ++ rest) request.words rest).mpr ⟨last, ends, rfl⟩
        show readWords (last ++ rest) >>= _ = _
        rw [found]
        rfl
      | cons code skipped =>
        -- The first request without words is read, and the others follow by induction.
        obtain ⟨written, empty⟩ := List.forall_mem_cons.mp empty
        simp only [List.flatten_cons, List.append_assoc] at shorter ⊢
        have found := (readWords_parses (code ++ (skipped.flatten ++ (last ++ rest))) [] _).mpr
          ⟨code, written, rfl⟩
        have fewer := shorter ▸ length_readWords found
        rw [found]
        refine (ih _ fewer _ rfl).mpr ⟨skipped.flatten ++ last, ?_, ?_⟩
        · exact ⟨skipped, last, rfl, empty, ends⟩
        · exact (List.append_assoc ..).symm

/-- Within the limit on buffers, a request is read just where the grammar has one. -/
theorem read_eq_ok_iff {buffer rest : Bytes} {request : Request}
    (within : buffer.length ≤ maxLength) : read buffer = .ok (request, rest) ↔
      ∃ code, IsFirst code request ∧ buffer = code ++ rest := by
  rw [read_eq_readFirst within]
  exact readFirst_parses buffer request rest

/-- Reads the first request of a buffer, and counts the bytes up to its end. -/
def readCounted (buffer : Bytes) : Except ReadError (Request × Nat) :=
  (read buffer).map fun (request, rest) => (request, buffer.length - rest.length)

/-- The bytes counted are those of the request, and the others are left. -/
theorem readCounted_eq_ok_iff {buffer : Bytes} {request : Request} {count : Nat}
    (within : buffer.length ≤ maxLength) : readCounted buffer = .ok (request, count) ↔
      count ≤ buffer.length ∧ IsFirst (buffer.take count) request := by
  constructor
  · intro counted
    cases found : read buffer with
    | error reason =>
      rw [readCounted, found] at counted
      cases counted
    | ok result =>
      obtain ⟨first, rest⟩ := result
      rw [readCounted, found] at counted
      obtain ⟨rfl, rfl⟩ := Prod.mk.inj (Except.ok.inj counted)
      obtain ⟨code, leads, rfl⟩ := (read_eq_ok_iff within).mp found
      -- What the reader has taken is what it does not leave.
      have length : (code ++ rest).length - rest.length = code.length := by
        rw [List.length_append]
        omega
      rw [length, List.take_left]
      exact ⟨List.length_append ▸ Nat.le_add_right .., leads⟩
  · rintro ⟨inside, first⟩
    -- The first bytes are the code of a request, and the others are left.
    have read := (read_eq_ok_iff within).mpr ⟨_, first, (List.take_append_drop count buffer).symm⟩
    have length : buffer.length - (buffer.drop count).length = count := by
      rw [List.length_drop]
      omega
    rw [readCounted, read]
    show Except.ok (request, buffer.length - (buffer.drop count).length) = _
    rw [length]

end Request
end ScoreStore
