import ScoreStore.Proofs.Text

/-!
Decoding and encoding: the bytes of a text are read as that text, and bytes that are read
without loss are those of the text.
-/

namespace ScoreStore.Text

/-- A byte that may follow the leading byte of a character. -/
def IsTrailing (byte : UInt8) : Prop := 0x80 ≤ byte.toNat ∧ byte.toNat ≤ 0xBF

/-- Bytes that complete an unfinished character, and the character that they make of it. -/
inductive Pending.Completes : Pending → Bytes → Char → Prop
  /-- No byte is missing after this one. -/
  | last {pending : Pending} {byte : UInt8} (done : pending.later = 0)
      (fits : pending.low ≤ byte.toNat ∧ byte.toNat ≤ pending.high) :
      Completes pending [byte] (Char.ofNat (pending.code * 64 + (byte.toNat - 0x80)))
  /-- After this byte the others may be any trailing ones. -/
  | more {pending : Pending} {later : Nat} {byte : UInt8} {tail : Bytes} {letter : Char}
      (missing : pending.later = later + 1)
      (fits : pending.low ≤ byte.toNat ∧ byte.toNat ≤ pending.high)
      (tails : Completes ⟨pending.code * 64 + (byte.toNat - 0x80), later, 0x80, 0xBF⟩ tail
        letter) :
      Completes pending (byte :: tail) letter

section Encoding

/-- A small character is encoded as the byte with its code. -/
theorem utf8EncodeChar_single {letter : Char} (small : letter.toNat < 0x80) :
    String.utf8EncodeChar letter = [UInt8.ofNat letter.toNat] := by
  -- The codes below 128 are the first of the four cases of the encoding.
  simp only [String.utf8EncodeChar, Char.toNat_val]
  rw [if_pos (by omega)]

variable {first second third fourth : UInt8} {code : Nat}

/-- Two bytes of a character without a shorter form are its encoding. -/
theorem utf8EncodeChar_two (leading : 0xC2 ≤ first.toNat ∧ first.toNat < 0xE0)
    (trailing : IsTrailing second)
    (value : code = (first.toNat - 0xC0) * 64 + (second.toNat - 0x80)) :
    String.utf8EncodeChar (Char.ofNat code) = [first, second] := by
  obtain ⟨low, high⟩ := trailing
  -- Two bytes hold no surrogate, so that any such code is that of a character.
  have same : (Char.ofNat code).toNat = code := toNat_ofNat_of_isValidChar (Or.inl (by omega))
  simp only [String.utf8EncodeChar, Char.toNat_val, same]
  rw [if_neg (by omega), if_pos (by omega)]
  -- What is left is arithmetic: each byte holds the bits that its place asks for.
  simp only [List.cons.injEq, and_true, ← UInt8.toNat_inj, UInt8.toNat_ofNat']
  omega

/-- Three bytes of a character without a shorter form are its encoding. -/
theorem utf8EncodeChar_three (leading : 0xE0 ≤ first.toNat ∧ first.toNat < 0xF0)
    (trailing : IsTrailing second ∧ IsTrailing third)
    (value : code = ((first.toNat - 0xE0) * 64 + (second.toNat - 0x80)) * 64 +
      (third.toNat - 0x80))
    (long : 0x7FF < code) (valid : code.isValidChar) :
    String.utf8EncodeChar (Char.ofNat code) = [first, second, third] := by
  obtain ⟨⟨low, high⟩, lower, higher⟩ := trailing
  have same : (Char.ofNat code).toNat = code := toNat_ofNat_of_isValidChar valid
  simp only [String.utf8EncodeChar, Char.toNat_val, same]
  rw [if_neg (by omega), if_neg (by omega), if_pos (by omega)]
  simp only [List.cons.injEq, and_true, ← UInt8.toNat_inj, UInt8.toNat_ofNat']
  omega

/-- Four bytes of a character without a shorter form are its encoding. -/
theorem utf8EncodeChar_four (leading : 0xF0 ≤ first.toNat ∧ first.toNat < 0xF5)
    (trailing : IsTrailing second ∧ IsTrailing third ∧ IsTrailing fourth)
    (value : code = (((first.toNat - 0xF0) * 64 + (second.toNat - 0x80)) * 64 +
      (third.toNat - 0x80)) * 64 + (fourth.toNat - 0x80))
    (long : 0xFFFF < code) (valid : code < 0x110000) :
    String.utf8EncodeChar (Char.ofNat code) = [first, second, third, fourth] := by
  obtain ⟨⟨low, high⟩, ⟨lower, higher⟩, lowest, highest⟩ := trailing
  -- Codes of four bytes are beyond the surrogates, and bounded by the last character.
  have same : (Char.ofNat code).toNat = code :=
    toNat_ofNat_of_isValidChar (Or.inr ⟨by omega, valid⟩)
  simp only [String.utf8EncodeChar, Char.toNat_val, same]
  rw [if_neg (by omega), if_neg (by omega), if_neg (by omega)]
  simp only [List.cons.injEq, and_true, ← UInt8.toNat_inj, UInt8.toNat_ofNat']
  omega

end Encoding

section Leading

variable {byte : Nat}

theorem start_single (small : byte < 0x80) :
    start byte = ([.character (Char.ofNat byte)], none) := by
  rw [start, if_pos small]

theorem start_two (leading : 0xC2 ≤ byte ∧ byte < 0xE0) :
    start byte = ([], some ⟨byte - 0xC0, 0, 0x80, 0xBF⟩) := by
  -- Nothing is asked of the one byte to come but that it is a trailing one.
  rw [start, if_neg (by omega), if_neg (by omega), if_pos leading.2]

theorem start_three (leading : 0xE0 ≤ byte ∧ byte < 0xF0) :
    start byte = ([], some ⟨byte - 0xE0, 1, if byte = 0xE0 then 0xA0 else 0x80,
      if byte = 0xED then 0x9F else 0xBF⟩) := by
  rw [start, if_neg (by omega), if_neg (by omega), if_neg (by omega)]
  -- The first and the fourteenth of these bytes have ranges of their own.
  by_cases first : byte = 0xE0
  · subst first
    rfl
  · by_cases surrogate : byte = 0xED
    · subst surrogate
      rfl
    · simp only [first, surrogate, leading.2, if_false, if_true]

theorem start_four (leading : 0xF0 ≤ byte ∧ byte < 0xF5) :
    start byte = ([], some ⟨byte - 0xF0, 2, if byte = 0xF0 then 0x90 else 0x80,
      if byte = 0xF4 then 0x8F else 0xBF⟩) := by
  rw [start, if_neg (by omega), if_neg (by omega), if_neg (by omega), if_neg (by omega),
    if_neg (by omega), if_neg (by omega)]
  -- The first and the last of these bytes have ranges of their own.
  by_cases first : byte = 0xF0
  · subst first
    rfl
  · by_cases last : byte = 0xF4
    · subst last
      rfl
    · have between : byte < 0xF4 := by omega
      simp only [first, last, between, if_false, if_true]

theorem start_broken (foreign : 0x80 ≤ byte ∧ byte < 0xC2 ∨ 0xF5 ≤ byte) :
    start byte = ([.broken], none) := by
  rw [start, if_neg (by omega)]
  rcases foreign with ⟨_, low⟩ | high
  · rw [if_pos low]
  · rw [if_neg (by omega), if_neg (by omega), if_neg (by omega), if_neg (by omega),
      if_neg (by omega), if_neg (by omega), if_neg (by omega), if_neg (by omega)]

/-- A byte stands for itself, begins a longer character, or is out of place. -/
theorem start_cases (byte : UInt8) : byte.toNat < 0x80 ∨
    (∃ pending, start byte.toNat = ([], some pending)) ∨
    start byte.toNat = ([.broken], none) := by
  by_cases single : byte.toNat < 0x80
  · exact Or.inl single
  · refine Or.inr ?_
    by_cases foreign : 0x80 ≤ byte.toNat ∧ byte.toNat < 0xC2 ∨ 0xF5 ≤ byte.toNat
    · exact Or.inr (start_broken foreign)
    · -- The other leading bytes differ in how many bytes they ask for.
      refine Or.inl ?_
      by_cases two : byte.toNat < 0xE0
      · exact ⟨_, start_two (by omega)⟩
      · by_cases three : byte.toNat < 0xF0
        · exact ⟨_, start_three (by omega)⟩
        · exact ⟨_, start_four (by omega)⟩

end Leading

variable {byte : UInt8} {pending : Pending} {letter : Char} {tail rest data : Bytes}

/-- One missing byte completes a character. -/
theorem Pending.Completes.exists_last (tails : pending.Completes tail letter)
    (done : pending.later = 0) : ∃ byte, tail = [byte] ∧
      (pending.low ≤ byte.toNat ∧ byte.toNat ≤ pending.high) ∧
      letter = Char.ofNat (pending.code * 64 + (byte.toNat - 0x80)) := by
  cases tails with
  | last _ fits => exact ⟨_, rfl, fits, rfl⟩
  | more missing => exact absurd (missing.symm.trans done) (Nat.succ_ne_zero _)

/-- Of several missing bytes the first one leaves the others to complete a character. -/
theorem Pending.Completes.exists_more {later : Nat} (tails : pending.Completes tail letter)
    (missing : pending.later = later + 1) : ∃ byte rest, tail = byte :: rest ∧
      (pending.low ≤ byte.toNat ∧ byte.toNat ≤ pending.high) ∧
      Completes ⟨pending.code * 64 + (byte.toNat - 0x80), later, 0x80, 0xBF⟩ rest letter := by
  cases tails with
  | last done => exact absurd (missing.symm.trans done) (Nat.succ_ne_zero _)
  -- Something is left to come, so that the character is not complete yet.
  | more known fits tails =>
    obtain rfl := Nat.succ.inj (known.symm.trans missing)
    exact ⟨_, _, rfl, fits, tails⟩

section Shapes

variable (tails : pending.Completes tail letter) (begun : start byte.toNat = ([], some pending))
include tails begun

/-- The byte that completes a leading byte of two is the other one of an encoding. -/
theorem Pending.Completes.encoding_two (leading : 0xC2 ≤ byte.toNat ∧ byte.toNat < 0xE0) :
    String.utf8EncodeChar letter = byte :: tail := by
  rw [start_two leading] at begun
  obtain rfl := Option.some.inj (Prod.mk.inj begun).2
  obtain ⟨second, rfl, fits, made⟩ := tails.exists_last rfl
  rw [made]
  exact utf8EncodeChar_two leading fits rfl

/-- The bytes that complete a leading byte of three are the others of an encoding. -/
theorem Pending.Completes.encoding_three (leading : 0xE0 ≤ byte.toNat ∧ byte.toNat < 0xF0) :
    String.utf8EncodeChar letter = byte :: tail := by
  rw [start_three leading] at begun
  obtain rfl := Option.some.inj (Prod.mk.inj begun).2
  obtain ⟨second, rest, rfl, ⟨low, high⟩, tails⟩ := tails.exists_more rfl
  obtain ⟨third, rfl, fits, made⟩ := tails.exists_last rfl
  dsimp only at low high fits made
  rw [made]
  -- The range of the second byte excludes what two bytes can encode, and surrogates.
  refine utf8EncodeChar_three leading ⟨⟨?_, ?_⟩, fits⟩ rfl ?_ ?_
  · split at low <;> omega
  · split at high <;> omega
  · split at low <;> omega
  · rw [Nat.isValidChar]
    split at high <;> omega

/-- The bytes that complete a leading byte of four are the others of an encoding. -/
theorem Pending.Completes.encoding_four (leading : 0xF0 ≤ byte.toNat ∧ byte.toNat < 0xF5) :
    String.utf8EncodeChar letter = byte :: tail := by
  rw [start_four leading] at begun
  obtain rfl := Option.some.inj (Prod.mk.inj begun).2
  obtain ⟨second, rest, rfl, ⟨low, high⟩, tails⟩ := tails.exists_more rfl
  obtain ⟨third, rest, rfl, inside, tails⟩ := tails.exists_more rfl
  obtain ⟨fourth, rfl, fits, made⟩ := tails.exists_last rfl
  dsimp only at low high inside fits made
  rw [made]
  -- The range of the second byte excludes what three bytes can encode, and codes past the last one.
  refine utf8EncodeChar_four leading ⟨⟨?_, ?_⟩, inside, fits⟩ rfl ?_ ?_
  · split at low <;> omega
  · split at high <;> omega
  · split at low <;> omega
  · split at high <;> omega

/-- A leading byte and the bytes that complete it are the encoding of the
character that they make. -/
theorem Pending.Completes.encoding : String.utf8EncodeChar letter = byte :: tail := by
  -- The leading byte tells how many bytes follow.
  have shapes : byte.toNat < 0x80 ∨ (0xC2 ≤ byte.toNat ∧ byte.toNat < 0xE0) ∨
      (0xE0 ≤ byte.toNat ∧ byte.toNat < 0xF0) ∨ (0xF0 ≤ byte.toNat ∧ byte.toNat < 0xF5) ∨
      (0x80 ≤ byte.toNat ∧ byte.toNat < 0xC2 ∨ 0xF5 ≤ byte.toNat) := by omega
  rcases shapes with single | two | three | four | foreign
  · -- A byte that stands alone leaves nothing pending.
    rw [start_single single] at begun
    cases begun
  · exact tails.encoding_two begun two
  · exact tails.encoding_three begun three
  · exact tails.encoding_four begun four
  · -- A byte that leads nothing is broken at once.
    rw [start_broken foreign] at begun
    cases begun

end Shapes

/-- The last byte completes the character whose code it makes up. -/
theorem Pending.Completes.last_eq (done : pending.later = 0)
    (fits : pending.low ≤ byte.toNat ∧ byte.toNat ≤ pending.high)
    (value : pending.code * 64 + (byte.toNat - 0x80) = letter.toNat) :
    pending.Completes [byte] letter := by
  have tails := Completes.last done fits
  rwa [value, Char.ofNat_toNat] at tails

/-- The encoding of the character is a leading byte and bytes that complete it. -/
def IsCompleted (letter : Char) : Prop := ∃ byte pending tail,
  String.utf8EncodeChar letter = byte :: tail ∧ start byte.toNat = ([], some pending) ∧
    pending.Completes tail letter

/-- Trailing bytes have six bits of the code each. -/
theorem toNat_ofNat_trailing (bits : Nat) :
    -- Six bits with the marker of a trailing byte fit into a byte.
    (UInt8.ofNat (bits % 64 + 128)).toNat = bits % 64 + 128 :=
  UInt8.toNat_ofNat_of_lt' (Nat.lt_of_lt_of_le (Nat.add_lt_add_right (Nat.mod_lt bits
    (by decide)) 128) (by decide))

/-- A character of two bytes is completed by the second one. -/
theorem isCompleted_two (range : 0x80 ≤ letter.toNat ∧ letter.toNat ≤ 0x7FF) :
    IsCompleted letter := by
  have first : (UInt8.ofNat (letter.toNat / 64 % 32 + 192)).toNat =
    letter.toNat / 64 % 32 + 192 := UInt8.toNat_ofNat_of_lt' (by rw [UInt8.size]; omega)
  have second := toNat_ofNat_trailing letter.toNat
  simp only [IsCompleted, String.utf8EncodeChar, Char.toNat_val]
  rw [if_neg (by omega), if_pos (by omega)]
  -- The bytes are put together to the code of the character again.
  refine ⟨_, _, _, rfl, start_two (by omega), .last_eq rfl ?_ ?_⟩
  · dsimp only; omega
  · dsimp only; omega

/-- A character of three bytes is completed by the second and the third one. -/
theorem isCompleted_three (range : 0x7FF < letter.toNat ∧ letter.toNat ≤ 0xFFFF) :
    IsCompleted letter := by
  have valid : letter.toNat.isValidChar := letter.valid
  -- A character is no surrogate, which the range of the second byte relies on.
  rw [Nat.isValidChar] at valid
  have first : (UInt8.ofNat (letter.toNat / 4096 % 16 + 224)).toNat =
    letter.toNat / 4096 % 16 + 224 := UInt8.toNat_ofNat_of_lt' (by rw [UInt8.size]; omega)
  have second := toNat_ofNat_trailing (letter.toNat / 64)
  have third := toNat_ofNat_trailing letter.toNat
  simp only [IsCompleted, String.utf8EncodeChar, Char.toNat_val]
  rw [if_neg (by omega), if_neg (by omega), if_pos (by omega)]
  refine ⟨_, _, _, rfl, start_three (by omega), .more rfl ?_ (.last_eq rfl ?_ ?_)⟩
  · -- No surrogate is a character.
    dsimp only
    constructor <;> split <;> omega
  · dsimp only; omega
  · dsimp only; omega

/-- A character of four bytes is completed by the bytes behind the first one. -/
theorem isCompleted_four (range : 0xFFFF < letter.toNat) : IsCompleted letter := by
  have valid : letter.toNat.isValidChar := letter.valid
  -- The last character bounds the bits of the leading byte.
  rw [Nat.isValidChar] at valid
  have first : (UInt8.ofNat (letter.toNat / 262144 % 8 + 240)).toNat =
    letter.toNat / 262144 % 8 + 240 := UInt8.toNat_ofNat_of_lt' (by rw [UInt8.size]; omega)
  have second := toNat_ofNat_trailing (letter.toNat / 4096)
  have third := toNat_ofNat_trailing (letter.toNat / 64)
  have fourth := toNat_ofNat_trailing letter.toNat
  simp only [IsCompleted, String.utf8EncodeChar, Char.toNat_val]
  rw [if_neg (by omega), if_neg (by omega), if_neg (by omega)]
  refine ⟨_, _, _, rfl, start_four (by omega),
    .more rfl ?_ (.more rfl ?_ (.last_eq rfl ?_ ?_))⟩
  · -- No code is past the last character.
    dsimp only
    constructor <;> split <;> omega
  · dsimp only; omega
  · dsimp only; omega
  · dsimp only; omega

/-- A character that is encoded in several bytes begins with one that the others complete. -/
theorem isCompleted (long : 0x80 ≤ letter.toNat) : IsCompleted letter := by
  -- The encoding has as many bytes as the code needs.
  by_cases two : letter.toNat ≤ 0x7FF
  · exact isCompleted_two ⟨long, two⟩
  · by_cases three : letter.toNat ≤ 0xFFFF
    · exact isCompleted_three ⟨Nat.not_le.mp two, three⟩
    · exact isCompleted_four (Nat.not_le.mp three)

/-- An unfinished character and the bytes that complete it are one piece. -/
theorem Pending.Completes.piecesFrom (tails : pending.Completes tail letter) (rest : Bytes) :
    piecesFrom (some pending) (tail ++ rest) = .character letter :: pieces rest := by
  -- By induction on the bytes that complete the character.
  induction tails with
  | last done fits =>
    rw [List.singleton_append, Text.piecesFrom, advance, if_pos fits, done]
    rfl
  | more missing fits tails ih =>
    rw [List.cons_append, Text.piecesFrom, advance, if_pos fits, missing]
    exact ih

/-- What is read without loss after an unfinished character begins with bytes that complete it. -/
theorem exists_completes_of_piecesFrom (whole : .broken ∉ piecesFrom (some pending) data) :
    ∃ tail letter rest, data = tail ++ rest ∧ pending.Completes tail letter := by
  -- By induction on the bytes, with the pending character that the ones so far have made.
  induction data generalizing pending with
  | nil => exact absurd List.mem_cons_self whole
  | cons byte rest ih =>
    rw [piecesFrom, advance] at whole
    split at whole
    · next fits =>
      split at whole
      · next done => exact ⟨[byte], _, rest, rfl, .last done fits⟩
      · next later missing =>
        obtain ⟨tail, letter, rest, rfl, tails⟩ := ih whole
        exact ⟨byte :: tail, letter, rest, rfl, .more missing fits tails⟩
    · -- A byte that does not fit breaks the character.
      exact absurd List.mem_cons_self whole

/-- An encoded character is read as one piece, whatever follows. -/
theorem pieces_utf8EncodeChar (letter : Char) (rest : Bytes) :
    pieces (String.utf8EncodeChar letter ++ rest) = .character letter :: pieces rest := by
  by_cases small : letter.toNat < 0x80
  · -- A small character is its own leading byte.
    have byte : (UInt8.ofNat letter.toNat).toNat = letter.toNat := by
      rw [UInt8.toNat_ofNat', Nat.mod_eq_of_lt (by omega)]
    rw [utf8EncodeChar_single small, List.singleton_append, pieces, piecesFrom, byte, advance,
      start_single small, Char.ofNat_toNat]
    rfl
  · -- Any other character has a leading byte and trailing ones.
    obtain ⟨byte, pending, tail, encoding, begun, tails⟩ := isCompleted (Nat.not_lt.mp small)
    rw [encoding, List.cons_append, pieces, piecesFrom, advance, begun]
    exact tails.piecesFrom rest

/-- The bytes of a text are read as its characters. -/
theorem pieces_bytes (text : String) : pieces (bytes text) = text.toList.map .character := by
  rw [bytes]
  -- By induction on the characters of the text, each read back from its own bytes.
  induction text.toList with
  | nil => rfl
  | cons letter letters ih =>
    rw [List.flatMap_cons, pieces_utf8EncodeChar, ih]
    rfl

/-- The text of the bytes of a text is that text. -/
theorem ofBytes_bytes (text : String) : ofBytes (bytes text) = text := by
  rw [ofBytes, pieces_bytes, List.map_map]
  exact (congrArg String.ofList (List.map_id _)).trans String.ofList_toList

/-- Bytes that are read without loss begin with an encoded character, if there are any. -/
theorem exists_letter_of_pieces (whole : .broken ∉ pieces (byte :: data)) :
    ∃ letter rest, byte :: data = String.utf8EncodeChar letter ++ rest := by
  rw [pieces, piecesFrom, advance] at whole
  -- Whether the leading byte stands alone, begins a character or is broken is up to it alone.
  rcases start_cases byte with small | ⟨pending, begun⟩ | foreign
  · have code : (Char.ofNat byte.toNat).toNat = byte.toNat :=
      toNat_ofNat_of_isValidChar (Or.inl (by omega))
    refine ⟨Char.ofNat byte.toNat, data, ?_⟩
    rw [utf8EncodeChar_single (by omega), code, UInt8.ofNat_toNat]
    rfl
  · rw [begun] at whole
    obtain ⟨tail, letter, rest, rfl, tails⟩ := exists_completes_of_piecesFrom whole
    refine ⟨letter, rest, ?_⟩
    rw [tails.encoding begun]
    rfl
  · rw [foreign] at whole
    exact absurd List.mem_cons_self whole

/-- Bytes that are read without loss are those of a text. -/
theorem exists_text_of_pieces (whole : .broken ∉ pieces data) : ∃ text, data = bytes text := by
  -- The first character is taken off, and what it leaves is shorter.
  induction size : data.length using Nat.strongRecOn generalizing data with
  | ind count ih =>
    cases data with
    | nil => exact ⟨"", rfl⟩
    | cons byte data =>
      obtain ⟨letter, rest, same⟩ := exists_letter_of_pieces whole
      rw [same, pieces_utf8EncodeChar] at whole
      have shorter : rest.length < count := by
        have some := letter.utf8Size_pos
        rw [← size, same, List.length_append, String.length_utf8EncodeChar]
        omega
      obtain ⟨text, rfl⟩ := ih _ shorter (fun lost => whole (List.mem_cons_of_mem _ lost)) rfl
      refine ⟨String.ofList (letter :: text.toList), ?_⟩
      rw [same, bytes, bytes, String.toList_ofList, List.flatMap_cons]

/-- Bytes have a text without replacement characters just if they are the bytes of that text. -/
theorem ofBytes_eq_iff {text : String} (whole : replacement ∉ text.toList) :
    ofBytes data = text ↔ data = bytes text := by
  constructor
  · -- A text without replacement characters has come from bytes without broken ones.
    rintro rfl
    have read : .broken ∉ pieces data := by
      intro lost
      refine whole ?_
      rw [ofBytes, String.toList_ofList]
      exact List.mem_map.mpr ⟨_, lost, rfl⟩
    obtain ⟨text, rfl⟩ := exists_text_of_pieces read
    rw [ofBytes_bytes]
  · rintro rfl
    exact ofBytes_bytes text

/-- What holds of the text of some bytes, and only of texts without replacement characters, holds of
a text with exactly these bytes. -/
theorem holds_ofBytes_iff (holds : String → Prop)
    (whole : ∀ text, holds text → replacement ∉ text.toList) :
    holds (ofBytes data) ↔ ∃ text, data = bytes text ∧ holds text := by
  constructor
  · intro held
    exact ⟨_, (ofBytes_eq_iff (whole _ held)).mp rfl, held⟩
  · rintro ⟨text, rfl, held⟩
    rwa [ofBytes_bytes]

end ScoreStore.Text
