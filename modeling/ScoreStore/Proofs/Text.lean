import ScoreStore.Bytes
import ScoreStore.Text.Lowercase
import ScoreStore.Text.Utf8

/-! Line ends in texts: decoding, lowercase forms and encoding bring none in. -/

namespace ScoreStore

/-- Neither byte of a line end occurs. -/
def Bytes.IsLine (content : Bytes) : Prop :=
  Ascii.carriageReturn ∉ content ∧ Ascii.lineFeed ∉ content

instance (content : Bytes) : Decidable content.IsLine :=
  inferInstanceAs (Decidable (Ascii.carriageReturn ∉ content ∧ Ascii.lineFeed ∉ content))

/-- Lines one after the other are one line. -/
theorem Bytes.IsLine.append {first second : Bytes} (one : first.IsLine) (other : second.IsLine) :
    Bytes.IsLine (first ++ second) := by
  simp only [IsLine, List.mem_append, not_or]
  exact ⟨⟨one.1, other.1⟩, one.2, other.2⟩

namespace Text

/-- A text is encoded in pieces. -/
theorem bytes_append (first second : String) :
    bytes (first ++ second) = bytes first ++ bytes second := by
  rw [bytes, String.toList_append, List.flatMap_append]
  rfl

/-- A small byte stands only for the character with its code. -/
theorem toNat_of_mem_utf8EncodeChar {byte : UInt8} {letter : Char} (small : byte.toNat < 128)
    (member : byte ∈ String.utf8EncodeChar letter) : letter.toNat = byte.toNat := by
  -- In longer forms every byte is a great one.
  simp only [String.utf8EncodeChar, Char.toNat_val] at member
  split at member
  · next short =>
    rw [List.mem_singleton.mp member, UInt8.toNat_ofNat']
    omega
  · exfalso
    split at member
    · simp only [List.mem_cons, List.not_mem_nil, or_false] at member
      -- Leading and trailing bytes are both 128 at least.
      rcases member with rfl | rfl <;> rw [UInt8.toNat_ofNat'] at small <;> omega
    · split at member
      · simp only [List.mem_cons, List.not_mem_nil, or_false] at member
        rcases member with rfl | rfl | rfl <;> rw [UInt8.toNat_ofNat'] at small <;> omega
      · simp only [List.mem_cons, List.not_mem_nil, or_false] at member
        rcases member with rfl | rfl | rfl | rfl <;> rw [UInt8.toNat_ofNat'] at small <;> omega

/-- A small byte of a text is the code of one of its characters. -/
theorem exists_letter_of_mem_bytes {text : String} {byte : UInt8} (small : byte.toNat < 128)
    (member : byte ∈ bytes text) : ∃ letter ∈ text.toList, letter.toNat = byte.toNat := by
  obtain ⟨letter, inside, encoded⟩ := List.mem_flatMap.mp member
  exact ⟨letter, inside, toNat_of_mem_utf8EncodeChar small encoded⟩

/-- However an unfinished character goes on, its code will not be a small one. -/
def Pending.IsLarge (pending : Pending) : Prop :=
  0x80 ≤ pending.low ∧
    0x80 ≤ (pending.code * 64 + (pending.low - 0x80)) * Nat.pow 64 pending.later

/-- A character with a valid code has that code. -/
theorem toNat_ofNat_of_isValidChar {code : Nat} (valid : code.isValidChar) :
    (Char.ofNat code).toNat = code := by
  have found : Char.ofNat code = Char.ofNatAux code valid := dif_pos valid
  rw [found]
  rfl

/-- The character with a code has that code, unless there is none and it has the code zero. -/
theorem toNat_ofNat {code : Nat} (nonzero : (Char.ofNat code).toNat ≠ 0) :
    (Char.ofNat code).toNat = code := by
  -- A code that is no character is read as zero.
  by_cases valid : code.isValidChar
  · exact toNat_ofNat_of_isValidChar valid
  · have none : Char.ofNat code = '\x00' := dif_neg valid
    exact absurd (congrArg Char.toNat none) nonzero

/-- Pieces and an unfinished character that some byte may lead to: small
codes are those of the byte. -/
def ComesFrom (byte : Nat) (next : List Piece × Option Pending) : Prop :=
  (∀ value : Char, .character value ∈ next.1 → value.toNat < 128 → value.toNat ≠ 0 →
    value.toNat = byte) ∧
    ∀ pending ∈ next.2, pending.IsLarge

/-- A leading byte gives no small code but its own. -/
theorem comesFrom_start (byte : Nat) : ComesFrom byte (start byte) := by
  unfold start ComesFrom
  -- A byte below 128 is a character, and every other one begins a longer form or breaks off.
  repeat' split
  · -- Only the first case gives a character.
    refine ⟨fun value member _ nonzero => ?_, fun pending none => nomatch none⟩
    obtain rfl : value = Char.ofNat byte := by simpa using member
    exact toNat_ofNat nonzero
  -- In the others what is begun is large by its leading byte.
  all_goals simp [Pending.IsLarge]
  all_goals omega

/-- A byte that goes on with a character gives no small code at all. -/
theorem comesFrom_advance {pending : Option Pending} (large : ∀ begun ∈ pending, begun.IsLarge)
    (byte : Nat) : ComesFrom byte (advance pending byte) := by
  cases pending with
  | none => exact comesFrom_start byte
  | some begun =>
    obtain ⟨high, large⟩ := large begun rfl
    simp only [advance]
    split
    · next within =>
      split
      · next last =>
        -- This is the last byte, so that the code is the one with the bound.
        rw [last, Nat.pow_eq, Nat.pow_zero, Nat.mul_one] at large
        refine ⟨fun value member small nonzero => ?_, by simp⟩
        have whole : value = Char.ofNat (begun.code * 64 + (byte - 0x80)) := by
          simpa only [List.mem_singleton, Piece.character.injEq] using member
        rw [whole] at small nonzero
        rw [toNat_ofNat nonzero] at small
        omega
      · next later more =>
        -- One more byte takes the place of one factor of the bound.
        rw [more, Nat.pow_eq, Nat.pow_succ', ← Nat.mul_assoc] at large
        refine ⟨by simp, fun pending found => ?_⟩
        obtain rfl := Option.some.inj found
        have grows : (begun.code * 64 + (begun.low - 0x80)) * 64 ≤
            (begun.code * 64 + (byte - 0x80)) * 64 + (0x80 - 0x80) := by omega
        exact ⟨Nat.le_refl _, Nat.le_trans large (Nat.mul_le_mul_right _ grows)⟩
    · -- The byte does not fit, and starts anew.
      have ⟨pieces, next⟩ := comesFrom_start byte
      exact ⟨fun value member => pieces value (by simpa using member), next⟩

/-- A small code in decoded bytes is one of the bytes. -/
theorem exists_byte_of_mem_pieces {pending : Option Pending}
    (large : ∀ begun ∈ pending, begun.IsLarge) {data : Bytes} {value : Char}
    (member : .character value ∈ piecesFrom pending data) (small : value.toNat < 128)
    (nonzero : value.toNat ≠ 0) : ∃ byte ∈ data, byte.toNat = value.toNat := by
  -- What is unfinished after each byte stays large, which carries the induction on.
  induction data generalizing pending with
  | nil => cases pending <;> simp [piecesFrom] at member
  | cons byte rest ih =>
    have ⟨pieces, next⟩ := comesFrom_advance large byte.toNat
    rw [piecesFrom] at member
    -- The character comes of this byte, or of a later one.
    rcases List.mem_append.mp member with now | later
    · exact ⟨byte, List.mem_cons_self, (pieces value now small nonzero).symm⟩
    · obtain ⟨found, inside, same⟩ := ih next later
      exact ⟨found, List.mem_cons_of_mem _ inside, same⟩

/-- A small character of the text of some bytes is one of the bytes. -/
theorem exists_byte_of_mem_ofBytes {data : Bytes} {letter : Char}
    (member : letter ∈ (ofBytes data).toList) (small : letter.toNat < 128)
    (nonzero : letter.toNat ≠ 0) : ∃ byte ∈ data, byte.toNat = letter.toNat := by
  rw [ofBytes, String.toList_ofList] at member
  obtain ⟨piece, inside, shown⟩ := List.mem_map.mp member
  cases piece with
  | broken =>
    -- The replacement for what is broken is far from small.
    obtain rfl : replacement = letter := shown
    exact absurd small (by decide)
  | character value =>
    obtain rfl : value = letter := shown
    exact exists_byte_of_mem_pieces (by simp) inside small nonzero

/-- Only the letters from A to Z are lowered, by the distance to the small letters. -/
theorem toLower_cases (letter : Char) :
    (letter.toLower = letter ∧ ¬ (65 ≤ letter.toNat ∧ letter.toNat ≤ 90)) ∨
      (65 ≤ letter.toNat ∧ letter.toNat ≤ 90) ∧ letter.toLower.toNat = letter.toNat + 32 := by
  have code : letter.val.toNat = letter.toNat := rfl
  -- The letters from A to Z are 32 apart from the small ones.
  by_cases capital : letter.val ≥ 'A'.val ∧ letter.val ≤ 'Z'.val
  · refine Or.inr ?_
    have least : 65 ≤ letter.val.toNat := UInt32.le_iff_toNat_le.mp capital.1
    have greatest : letter.val.toNat ≤ 90 := UInt32.le_iff_toNat_le.mp capital.2
    have shifted : letter.toLower.val = letter.val + ('a'.val - 'A'.val) :=
      congrArg Char.val (dif_pos capital)
    have distance : ('a'.val - 'A'.val).toNat = 32 := rfl
    have lowered : letter.toLower.toNat = letter.toLower.val.toNat := rfl
    rw [lowered, shifted, UInt32.toNat_add, distance]
    omega
  · refine Or.inl ⟨dif_neg capital, fun inside => capital ⟨?_, ?_⟩⟩
    · exact UInt32.le_iff_toNat_le.mpr inside.1
    · exact UInt32.le_iff_toNat_le.mpr inside.2

/-- Lowercase forms from the table are no control characters. -/
theorem capitalRuns_large : ∀ run ∈ capitalRuns, 32 ≤ (run.first : Int) + run.shift := by
  decide +kernel

/-- The lowercase form of a character is a control character only if the character is that one. -/
theorem eq_of_mem_lowerChar {letter lowered : Char} (member : lowered ∈ lowerChar letter)
    (control : lowered.toNat < 32) (nonzero : lowered.toNat ≠ 0) : lowered = letter := by
  unfold lowerChar at member
  -- The three ways to lower a character: by a distance, to two characters, and by the table.
  split at member
  · obtain rfl := List.mem_singleton.mp member
    -- Small letters are no control characters, so nothing was lowered.
    rcases toLower_cases letter with ⟨same, _⟩ | ⟨capital, code⟩
    · exact same
    · omega
  · split at member
    · simp only [List.mem_cons, List.not_mem_nil, or_false] at member
      -- Of the two characters, a letter and a mark above it, neither is a control character.
      rcases member with rfl | rfl <;> exact absurd control (by decide)
    · split at member
      · next run found =>
        obtain rfl := List.mem_singleton.mp member
        have large := capitalRuns_large run (List.mem_of_find?_eq_some found)
        -- A run of capitals is shifted to characters beyond the control characters.
        have held := List.find?_some found
        simp only [CapitalRun.holds, Bool.and_eq_true, decide_eq_true_eq] at held
        rw [toNat_ofNat nonzero] at control
        omega
      · exact List.mem_singleton.mp member

/-- The lowercase form of a text has no control characters but those of the text. -/
theorem mem_of_mem_lower {text : String} {letter : Char} (member : letter ∈ (lower text).toList)
    (control : letter.toNat < 32) (nonzero : letter.toNat ≠ 0) : letter ∈ text.toList := by
  rw [lower, String.toList_ofList] at member
  -- What was passed before a character matters to sigmas only.
  have general (letters passed : List Char) (member : letter ∈ lowerFrom passed letters) :
      letter ∈ letters := by
    -- By induction on the letters, with those that were passed.
    induction letters generalizing passed with
    | nil => exact member
    | cons head rest ih =>
      rw [lowerFrom] at member
      -- The letter for a sigma is large.
      split at member
      · rcases List.mem_cons.mp member with rfl | later
        · exact absurd control (by decide)
        · exact List.mem_cons_of_mem head (ih _ later)
      · rcases List.mem_append.mp member with now | later
        · rw [eq_of_mem_lowerChar now control nonzero]
          exact List.mem_cons_self
        · exact List.mem_cons_of_mem head (ih _ later)
  exact general _ _ member

/-- A text has a line end in its bytes only if one of its characters is part of one. -/
theorem isLine_bytes {text : String}
    (plain : ∀ letter ∈ text.toList, letter.toNat ≠ 13 ∧ letter.toNat ≠ 10) :
    (bytes text).IsLine := by
  -- The two bytes of a line end, one like the other.
  constructor <;> intro member
  · obtain ⟨letter, inside, same⟩ := exists_letter_of_mem_bytes (by decide) member
    exact (plain letter inside).1 same
  · obtain ⟨letter, inside, same⟩ := exists_letter_of_mem_bytes (by decide) member
    exact (plain letter inside).2 same

/-- Neither part of a line end is decoded from a line. -/
theorem not_lineEnd_of_mem_ofBytes {word : Bytes} (line : word.IsLine) {letter : Char}
    (member : letter ∈ (ofBytes word).toList) : letter.toNat ≠ 13 ∧ letter.toNat ≠ 10 := by
  constructor <;> intro same
  · obtain ⟨byte, inside, code⟩ := exists_byte_of_mem_ofBytes member (by omega) (by omega)
    have found : byte = Ascii.carriageReturn := UInt8.toNat_inj.mp (code.trans same)
    exact line.1 (found ▸ inside)
  · obtain ⟨byte, inside, code⟩ := exists_byte_of_mem_ofBytes member (by omega) (by omega)
    have found : byte = Ascii.lineFeed := UInt8.toNat_inj.mp (code.trans same)
    exact line.2 (found ▸ inside)

/-- A line that is decoded and lowered is still one. -/
theorem isLine_lower_ofBytes {word : Bytes} (line : word.IsLine) :
    (bytes (lower (ofBytes word))).IsLine := by
  refine isLine_bytes fun letter member => ?_
  constructor <;> intro same
  · exact (not_lineEnd_of_mem_ofBytes line
      (mem_of_mem_lower member (by omega) (by omega))).1 same
  · exact (not_lineEnd_of_mem_ofBytes line
      (mem_of_mem_lower member (by omega) (by omega))).2 same

end Text
end ScoreStore
