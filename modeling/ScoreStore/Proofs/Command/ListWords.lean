import ScoreStore.Proofs.Command.Reading
import ScoreStore.Proofs.Decimal

/-! What the words of a listing mean: ends of ranges, the scores in them, and the options. -/

namespace ScoreStore

/-- A letter from A to Z in lowercase, and any other byte as it is. -/
def Ascii.small (byte : UInt8) : UInt8 :=
  if capitalA ≤ byte ∧ byte ≤ capitalZ then byte + 32 else byte

namespace Score

/-- A sign in front of a magnitude, and whether it makes the number negative. -/
inductive IsSign : Bytes → Bool → Prop
  | absent : IsSign [] false
  | plus : IsSign (Text.bytes "+") false
  | minus : IsSign (Text.bytes "-") true

/-- A name of infinity, in any case of its letters. -/
def NamesInfinity (name : Bytes) : Prop :=
  name.map Ascii.small = Text.bytes "inf" ∨ name.map Ascii.small = Text.bytes "infinity"

/-- A token writes a number: a sign or none, and then infinity by name or a decimal number. -/
inductive IsWritten : Bytes → Score → Prop
  | infinity {sign name : Bytes} {negative : Bool} (signed : IsSign sign negative)
      (named : NamesInfinity name) :
      IsWritten (sign ++ name) ⟨negative, infiniteMagnitude, by decide⟩
  | decimal {sign digits : Bytes} {negative : Bool} {magnitude : Nat}
      (signed : IsSign sign negative) (reads : decimalMagnitude? digits = some magnitude) :
      IsWritten (sign ++ digits) (ofMagnitude negative magnitude)

variable {token : Bytes} {magnitude : Nat} {negative : Bool} {score : Score}

/-- What is read as a magnitude is a name of infinity, a name of no number, or decimal. -/
theorem magnitude?_cases (read : magnitude? token = some magnitude) :
    (NamesInfinity token ∧ magnitude = infiniteMagnitude) ∨ infiniteMagnitude < magnitude ∨
      decimalMagnitude? token = some magnitude := by
  -- The names are looked at first, so that a decimal number has none of them.
  unfold magnitude? at read
  cases named : namedMagnitude? token with
  | none =>
    rw [named, Option.none_or] at read
    exact Or.inr (Or.inr read)
  | some found =>
    rw [named, Option.some_or] at read
    obtain rfl := Option.some.inj read
    simp only [namedMagnitude?] at named
    split at named
    · next infinity => exact Or.inl ⟨infinity, (Option.some.inj named).symm⟩
    · split at named
      · -- The magnitude of no number is beyond infinity.
        obtain rfl := Option.some.inj named
        exact Or.inr (Or.inl (by decide))
      · cases named

/-- A signed magnitude that makes a number is written by its sign and the magnitude. -/
theorem IsWritten.of_signed {sign rest : Bytes} (signs : IsSign sign negative)
    (read : (magnitude? rest).map (signed negative) = some score)
    (number : score.isNaN = false) : IsWritten (sign ++ rest) score := by
  obtain ⟨magnitude, found, rfl⟩ := Option.map_eq_some_iff.mp read
  rcases magnitude?_cases found with ⟨named, rfl⟩ | beyond | decimal
  · exact .infinity signs named
  · -- No magnitude beyond infinity makes a number.
    rw [signed, if_pos beyond] at number
    cases number
  · -- A magnitude up to infinity is decimal here, since a name has been told already.
    unfold signed at number ⊢
    split at number
    · cases number
    · next within =>
      rw [if_neg within]
      exact .decimal signs decimal

/-- What is read as a number is written so. -/
theorem isWritten_of_readNumber? (read : readNumber? token = some score) :
    IsWritten token score := by
  obtain ⟨found, number⟩ := Option.filter_eq_some_iff.mp read
  have number : score.isNaN = false := by simpa using number
  -- The first byte is a sign, or else the magnitude begins with it.
  unfold read? at found
  split at found
  · exact .of_signed .minus found number
  · exact .of_signed .plus found number
  · exact .of_signed .absent found number

/-- A decimal number begins with a digit or with the point. -/
theorem head_of_decimalMagnitude? (reads : decimalMagnitude? token = some magnitude) :
    ∃ first rest, token = first :: rest ∧ (isDigit first = true ∨ first = Ascii.point) := by
  cases token with
  | nil => simp [decimalMagnitude?] at reads
  | cons first rest =>
    refine ⟨first, rest, rfl, ?_⟩
    by_cases digit : isDigit first = true
    · exact Or.inl digit
    · by_cases point : first = Ascii.point
      · exact Or.inr point
      · -- There are no digits before the point then, and none behind it.
        simp [decimalMagnitude?, digit, point] at reads

/-- The name of a magnitude that is no decimal number begins with a letter of its own. -/
theorem small_of_named {first : UInt8} {rest : Bytes} {text : String} {initial : UInt8}
    (named : (first :: rest).map Ascii.small = Text.bytes text)
    (begins : (Text.bytes text).head? = some initial) : Ascii.small first = initial := by
  -- The first letter of the name is the first byte in lowercase.
  rw [← named] at begins
  exact Option.some.inj begins

/-- Neither signs nor digits nor the point are made of letters. -/
theorem small_of_digit {first : UInt8} (digit : isDigit first = true ∨ first = Ascii.point) :
    Ascii.small first = first := by
  rcases digit with digit | rfl
  · obtain ⟨_, atMost⟩ := (Decimal.isDigit_iff first).mp digit
    refine if_neg fun capital => ?_
    -- All digits come before the first letter.
    have order : Ascii.nine < Ascii.capitalA := by decide
    exact absurd (UInt8.le_trans capital.1 atMost) (UInt8.not_le.mpr order)
  · decide

/-- What is decimal has no name. -/
theorem namedMagnitude?_of_decimal (reads : decimalMagnitude? token = some magnitude) :
    namedMagnitude? token = none := by
  obtain ⟨first, rest, rfl, begins⟩ := head_of_decimalMagnitude? reads
  have plain := small_of_digit begins
  have other (text : String) (initial : UInt8) (head : (Text.bytes text).head? = some initial)
      (letter : isDigit initial = false ∧ initial ≠ Ascii.point) :
      ¬ (first :: rest).map Ascii.small = Text.bytes text := by
    -- A letter would be in front, where there is a digit or the point.
    intro named
    obtain rfl := plain.symm.trans (small_of_named named head)
    rcases begins with digit | point
    · exact absurd digit (by rw [letter.1]; decide)
    · exact letter.2 point
  -- Both spellings of infinity begin with an i, and the name of no number with an n.
  have infinity : ¬ NamesInfinity (first :: rest) :=
    not_or.mpr ⟨other "inf" 0x69 (by decide) (by decide),
      other "infinity" 0x69 (by decide) (by decide)⟩
  have nothing : ¬ (first :: rest).map Ascii.small = Text.bytes "nan" :=
    other "nan" 0x6E (by decide) (by decide)
  exact (if_neg infinity).trans (if_neg nothing)

/-- Decimal numbers are rounded up to infinity at most. -/
theorem magnitudeOfDecimal_le (digits : Bytes) (exponent : Int) :
    magnitudeOfDecimal digits exponent ≤ infiniteMagnitude := by
  simp only [magnitudeOfDecimal]
  -- Nothing becomes zero, a great number infinity, and any other is rounded up to that at most.
  split
  · exact Nat.zero_le _
  · split
    · exact Nat.le_refl _
    · exact Nat.min_le_right _ _

/-- No magnitude that is read of a decimal number lies beyond infinity. -/
theorem le_of_decimalMagnitude? (reads : decimalMagnitude? token = some magnitude) :
    magnitude ≤ infiniteMagnitude := by
  simp only [decimalMagnitude?, Option.ite_none_left_eq_some, Option.map_eq_some_iff] at reads
  obtain ⟨_, exponent, _, rfl⟩ := reads
  exact magnitudeOfDecimal_le _ _

/-- A sign before a magnitude that has none of its own is read as such. -/
theorem read?_append {sign rest : Bytes} (signs : IsSign sign negative)
    (unsigned : rest.head? ≠ some Ascii.minus ∧ rest.head? ≠ some Ascii.plus) :
    read? (sign ++ rest) = (magnitude? rest).map (signed negative) := by
  -- After a sign the rest is taken as it is, even if it has a sign again.
  cases signs with
  | plus => rfl
  | minus => rfl
  | absent =>
    rw [List.nil_append]
    unfold read?
    split
    · exact absurd rfl unsigned.1
    · exact absurd rfl unsigned.2
    · rfl

/-- What is written as a number is read so. -/
theorem IsWritten.readNumber? (written : IsWritten token score) :
    Score.readNumber? token = some score := by
  cases written with
  | @infinity sign name negative signs named =>
    have found : magnitude? name = some infiniteMagnitude := by
      rw [magnitude?, show namedMagnitude? name = some infiniteMagnitude from if_pos named]
      rfl
    -- Both names begin with the same letter, which is no sign.
    have unsigned (sign : UInt8) (other : Ascii.small sign ≠ 0x69) : name.head? ≠ some sign := by
      intro begins
      obtain ⟨rest, rfl⟩ := List.head?_eq_some_iff.mp begins
      rcases named with short | long
      · exact other (small_of_named short (by decide))
      · exact other (small_of_named long (by decide))
    rw [Score.readNumber?,
      read?_append signs ⟨unsigned _ (by decide), unsigned _ (by decide)⟩, found]
    -- Infinity is a number, of either sign.
    cases negative <;> decide
  | @decimal sign digits negative magnitude signs reads =>
    have found : magnitude? digits = some magnitude := by
      rw [magnitude?, namedMagnitude?_of_decimal reads, Option.none_or, reads]
    obtain ⟨first, rest, rfl, begins⟩ := head_of_decimalMagnitude? reads
    -- A decimal number begins with no sign, since a digit or the point is in front.
    have unsigned (sign : UInt8) (other : isDigit sign = false ∧ sign ≠ Ascii.point) :
        (first :: rest).head? ≠ some sign := by
      intro same
      obtain rfl := Option.some.inj same
      rcases begins with digit | point
      · exact absurd digit (by rw [other.1]; decide)
      · exact other.2 point
    have within := le_of_decimalMagnitude? reads
    rw [Score.readNumber?,
      read?_append signs ⟨unsigned _ (by decide), unsigned _ (by decide)⟩, found,
      Option.map_some, signed, if_neg (Nat.not_lt.mpr within)]
    -- A magnitude up to infinity makes a number.
    have number : (ofMagnitude negative magnitude).isNaN = false :=
      decide_eq_false (Nat.not_lt.mpr (Nat.min_le_right _ _))
    rw [Option.filter_some, number]
    rfl

/-- What is read as a number is what is written so. -/
theorem readNumber?_eq_some_iff : readNumber? token = some score ↔ IsWritten token score :=
  ⟨isWritten_of_readNumber?, IsWritten.readNumber?⟩

end Score

/-- A token writes an end of a range of scores. -/
inductive ScoreBound.IsWritten : Bytes → ScoreBound → Prop
  /-- Nothing is written for no end. -/
  | unbounded : IsWritten [] .unbounded
  /-- A number alone belongs to the range. -/
  | inclusive {token : Bytes} {score : Score} (plain : ¬ Text.bytes "(" <+: token)
      (number : Score.IsWritten token score) : IsWritten token (.inclusive score)
  /-- A number after an opening parenthesis lies outside. -/
  | exclusive {token : Bytes} {score : Score} (number : Score.IsWritten token score) :
      IsWritten (Text.bytes "(" ++ token) (.exclusive score)

/-- What is read as an end of a range of scores is what is written so. -/
theorem ScoreBound.read?_eq_some_iff {token : Bytes} {bound : ScoreBound} :
    read? token = some bound ↔ IsWritten token bound := by
  constructor
  · intro read
    -- The token is empty, or a number with a parenthesis in front of it or none.
    unfold read? at read
    split at read
    · obtain rfl := Option.some.inj read
      exact .unbounded
    · obtain ⟨score, number, rfl⟩ := Option.map_eq_some_iff.mp read
      exact .exclusive (Score.readNumber?_eq_some_iff.mp number)
    · next plain =>
      obtain ⟨score, number, rfl⟩ := Option.map_eq_some_iff.mp read
      refine .inclusive ?_ (Score.readNumber?_eq_some_iff.mp number)
      rintro ⟨rest, rfl⟩
      exact plain rest rfl
  · intro written
    -- The forms tell by their first byte which of the cases reads them.
    cases written with
    | unbounded => rfl
    | inclusive plain number =>
      have found := Score.readNumber?_eq_some_iff.mpr number
      unfold read?
      split
      · -- Nothing is not a number.
        cases found
      · next rest => exact absurd ⟨rest, rfl⟩ plain
      · rw [found, Option.map_some]
    | exclusive number =>
      exact congrArg (Option.map exclusive) (Score.readNumber?_eq_some_iff.mpr number)

/-- A token writes an end of a range of members. -/
inductive LexBound.IsWritten : Bytes → LexBound → Prop
  /-- A lone minus is the end below every member. -/
  | bottom : IsWritten (Text.bytes "-") .bottom
  /-- A lone plus is the end above every member. -/
  | top : IsWritten (Text.bytes "+") .top
  /-- What follows an opening bracket belongs to the range. -/
  | inclusive (member : Bytes) : IsWritten (Text.bytes "[" ++ member) (.inclusive member)
  /-- What follows an opening parenthesis lies outside. -/
  | exclusive (member : Bytes) : IsWritten (Text.bytes "(" ++ member) (.exclusive member)

/-- What is read as an end of a range of members is what is written so. -/
theorem LexBound.read?_eq_some_iff {token : Bytes} {bound : LexBound} :
    read? token = some bound ↔ IsWritten token bound := by
  constructor
  · intro read
    -- The two signs stand alone, and any bytes are a member behind a bracket.
    unfold read? at read
    split at read
    · obtain rfl := Option.some.inj read
      exact .bottom
    · obtain rfl := Option.some.inj read
      exact .top
    · obtain rfl := Option.some.inj read
      exact .inclusive _
    · obtain rfl := Option.some.inj read
      exact .exclusive _
    · cases read
  · intro written
    -- Each form is read by the case that it was read off.
    cases written <;> rfl

namespace ListOptions

/-- Words write options: each option changes what the words before it write. -/
inductive AreWritten (scoresAllowed : Bool) : List Bytes → ListOptions → Prop
  /-- No words ask for all elements without their scores. -/
  | nothing : AreWritten scoresAllowed [] {}
  /-- Scores are asked for by one word, in any case, where they may be asked for. -/
  | withScores {words : List Bytes} {word : Bytes} {options : ListOptions}
      (before : AreWritten scoresAllowed words options) (allowed : scoresAllowed = true)
      (named : Request.lowered word = "withscores") :
      AreWritten scoresAllowed (words ++ [word]) { options with withScores := true }
  /-- A page is asked for by a word, in any case, and two integers, and replaces an earlier one. -/
  | limit {words : List Bytes} {word offset count : Bytes} {options : ListOptions}
      {skipped kept : Int} (before : AreWritten scoresAllowed words options)
      (named : Request.lowered word = "limit") (first : Decimal.signed64? offset = some skipped)
      (second : Decimal.signed64? count = some kept) :
      AreWritten scoresAllowed (words ++ [word, offset, count])
        { options with page := some ⟨skipped, kept⟩ }

variable {scoresAllowed : Bool} {options result : ListOptions} {words earlier : List Bytes}

/-- Options that are in order may be followed by others. -/
theorem read_append (read : ListOptions.read scoresAllowed options words = .ok result)
    (more : List Bytes) : ListOptions.read scoresAllowed options (words ++ more) =
      ListOptions.read scoresAllowed result more := by
  -- Whatever is read makes the options that the words after it are read with.
  fun_induction ListOptions.read scoresAllowed options words with
  | case1 options =>
    obtain rfl := Except.ok.inj read
    rfl
  -- The words of one option are taken, and the rest is read in the same way.
  | case2 options word rest scores ih =>
    exact (ListOptions.read.eq_def ..).trans ((if_pos scores).trans (ih read))
  | case3 options word other page offset count rest skipped kept counted counting ih =>
    rw [List.cons_append, List.cons_append, List.cons_append, ListOptions.read, if_neg other,
      if_pos page]
    simp only [counted, counting]
    exact ih read
  | case4 | case5 | case6 => cases read

/-- What is read after words that write options is written by all the words together. -/
theorem AreWritten.append (before : AreWritten scoresAllowed earlier options)
    (read : ListOptions.read scoresAllowed options words = .ok result) :
    AreWritten scoresAllowed (earlier ++ words) result := by
  -- Each option that is read joins the words before it.
  fun_induction ListOptions.read scoresAllowed options words generalizing earlier with
  | case1 options =>
    obtain rfl := Except.ok.inj read
    rwa [List.append_nil]
  | case2 options word rest scores ih =>
    have joined := ih (before.withScores scores.1 scores.2) read
    rwa [List.append_assoc] at joined
  | case3 options word other page offset count rest skipped kept counted counting ih =>
    have joined := ih (before.limit page counting counted) read
    rwa [List.append_assoc] at joined
  | case4 | case5 | case6 => cases read

/-- What is read as options is what is written so. -/
theorem read_eq_ok_iff :
    ListOptions.read scoresAllowed {} words = .ok options ↔
      AreWritten scoresAllowed words options := by
  constructor
  · -- With nothing written yet, each option that is read is written behind the others.
    exact AreWritten.nothing.append
  · intro written
    -- By induction on the options written, the last of which is read behind all others.
    induction written with
    | nothing => rfl
    | withScores before allowed named ih =>
      rw [read_append ih]
      exact (ListOptions.read.eq_def ..).trans (if_pos ⟨allowed, named⟩)
    | limit before named first second ih =>
      -- The word for pages is not the one for scores.
      have other : ¬ (scoresAllowed = true ∧ "limit" = "withscores") := fun scores =>
        absurd scores.2 (by decide)
      rw [read_append ih, ListOptions.read, named, if_neg other, if_pos rfl]
      simp only [first, second]
      rfl

end ListOptions
end ScoreStore
