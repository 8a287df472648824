import ScoreStore.Bytes

/-! Texts as bytes: encoding, exact decoding, and decoding that replaces what is not a character. -/

namespace ScoreStore.Text

/-- The UTF-8 bytes of a text. -/
def bytes (text : String) : Bytes := text.toList.flatMap String.utf8EncodeChar

/-- A character whose first bytes have been read. -/
structure Pending where
  /-- The bits read so far. -/
  code : Nat
  /-- How many bytes are still missing after the next one. -/
  later : Nat
  /-- The least next byte that continues the character. -/
  low : Nat
  /-- The greatest next byte that continues the character. -/
  high : Nat

/-- A piece of decoded input: a character, or a longest run of bytes that begins
one without completing it. -/
inductive Piece where
  | character (value : Char)
  | broken

/-- Starts a character with its leading byte. -/
def start (byte : Nat) : List Piece × Option Pending :=
  -- The tighter ranges exclude overlong forms, surrogates and values beyond the last character.
  if byte < 0x80 then ([.character (Char.ofNat byte)], none)
  else if byte < 0xC2 then ([.broken], none)
  else if byte < 0xE0 then ([], some ⟨byte - 0xC0, 0, 0x80, 0xBF⟩)
  else if byte = 0xE0 then ([], some ⟨0, 1, 0xA0, 0xBF⟩)
  else if byte = 0xED then ([], some ⟨0xD, 1, 0x80, 0x9F⟩)
  else if byte < 0xF0 then ([], some ⟨byte - 0xE0, 1, 0x80, 0xBF⟩)
  else if byte = 0xF0 then ([], some ⟨0, 2, 0x90, 0xBF⟩)
  else if byte < 0xF4 then ([], some ⟨byte - 0xF0, 2, 0x80, 0xBF⟩)
  else if byte = 0xF4 then ([], some ⟨4, 2, 0x80, 0x8F⟩)
  else ([.broken], none)

/-- Takes one more byte: the pieces it completes, and the character it leaves unfinished. -/
def advance : Option Pending → Nat → List Piece × Option Pending
  -- A byte that cannot continue the unfinished character breaks it and starts anew.
  | none, byte => start byte
  | some pending, byte =>
    if pending.low ≤ byte ∧ byte ≤ pending.high then
      let code := pending.code * 64 + (byte - 0x80)
      match pending.later with
      | 0 => ([.character (Char.ofNat code)], none)
      | later + 1 => ([], some ⟨code, later, 0x80, 0xBF⟩)
    else (.broken :: (start byte).1, (start byte).2)

/-- Cuts bytes into pieces, continuing an unfinished character. -/
def piecesFrom : Option Pending → Bytes → List Piece
  -- Input that ends inside a character leaves one broken piece.
  | none, [] => []
  | some _, [] => [.broken]
  | pending, byte :: rest =>
    (advance pending byte.toNat).1 ++ piecesFrom (advance pending byte.toNat).2 rest

/-- Cuts bytes into characters and broken pieces. -/
def pieces (data : Bytes) : List Piece := piecesFrom none data

/-- The character of a piece, if it is one. -/
def Piece.character? : Piece → Option Char
  | .character value => some value
  | .broken => none

/-- The character that stands for a broken piece. -/
def replacement : Char := Char.ofNat 0xFFFD

/-- The text of some bytes, with one replacement character for each broken piece. -/
def ofBytes (data : Bytes) : String :=
  String.ofList ((pieces data).map fun piece => piece.character?.getD replacement)

/-- The text of some bytes, provided that they encode one. -/
def ofExactBytes? (data : Bytes) : Option String :=
  ((pieces data).mapM Piece.character?).map String.ofList

end ScoreStore.Text
