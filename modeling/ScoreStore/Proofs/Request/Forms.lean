import ScoreStore.Proofs.Request.RoundTrip
import ScoreStore.Proofs.Request.Spelling

/-!
The two forms of a request: an array carries every word, and a line of quoted
words those that have bytes.
-/

namespace ScoreStore

namespace Request

/-- Words between double quotes, with a space between two of them. -/
def quotedWords (words : List Bytes) : Bytes :=
  [Ascii.space].intercalate (words.map (Style.quoted .double).write)

/-- The line that asks for the request, with every word between double quotes. -/
def quotedLine (request : Request) : Bytes := quotedWords request.words ++ Bytes.lineEnd

/-- Words between double quotes are spelled. -/
theorem spells_quotedWords {words : List Bytes} (several : words ≠ []) :
    Spells (quotedWords words) words := by
  -- A space separates the first word from the others, and none stands behind the last one.
  induction words with
  | nil => exact absurd rfl several
  | cons word others ih =>
    cases others with
    | nil =>
      -- The last word has nothing behind it.
      have spells : Spells ((Style.quoted .double).write word ++ []) [word] :=
        .last _ _ (List.forall_mem_nil _)
      rw [quotedWords, List.map_singleton, List.intercalate_singleton]
      rwa [List.append_nil] at spells
    | cons second others =>
      -- One space is a gap between two words, and the others are spelled by induction.
      have blank : IsGap [Ascii.space] := by decide
      have spells : Spells _ (word :: second :: others) :=
        .next (.quoted .double) word blank (List.cons_ne_nil _ _) (ih (List.cons_ne_nil _ _))
      rw [quotedWords, List.map_cons, List.map_cons, List.intercalate_cons_cons, ← List.map_cons,
        List.append_assoc]
      exact spells

section Forms

variable {request carried : Request} {rest : Bytes}

/-- The words with bytes are read from the line, and what follows it is left. -/
theorem readWords_quotedLine (request : Request) (rest : Bytes) :
    readWords (request.quotedLine ++ rest) = .ok (Words.full request.words, rest) :=
  -- Spelled words are read back whatever style they are in, and double quotes are one of the
  -- styles.
  readWords_spelled (List.forall_mem_nil _) (spells_quotedWords (List.cons_ne_nil _ _)) rest

/-- The array is read as the request. -/
theorem readCounted_bytes (within : (request.bytes ++ rest).length ≤ maxLength) :
    readCounted (request.bytes ++ rest) = .ok (request, request.bytes.length) := by
  have small : request.bytes.length ≤ maxLength := by
    rw [List.length_append] at within
    omega
  -- The bytes of a request are read back whatever follows.
  exact readCounted_of_readWords within ((readWords_reads small).whole rest)

/-- The line is read as the request of the words with bytes, if there are any. -/
theorem readCounted_quotedLine (within : (request.quotedLine ++ rest).length ≤ maxLength)
    (remain : ofWords? (Words.full request.words) = some carried) :
    readCounted (request.quotedLine ++ rest) = .ok (carried, request.quotedLine.length) := by
  have full : Words.full request.words = carried.words := by
    -- Without any words with bytes nothing would be carried.
    cases words : Words.full request.words with
    | nil =>
      rw [words] at remain
      cases remain
    | cons verb arguments =>
      rw [words] at remain
      cases remain
      rfl
  exact readCounted_of_readWords within (full ▸ readWords_quotedLine request rest)

/-- A line whose words have no bytes is passed over. -/
theorem readCounted_quotedLine_empty (within : (request.quotedLine ++ rest).length ≤ maxLength)
    (empty : ∀ word ∈ request.words, word = []) :
    readCounted (request.quotedLine ++ rest) =
      (readCounted rest).map (Prod.map id (request.quotedLine.length + ·)) := by
  -- All words are left out, so that the line is a request without words.
  have none : Words.full request.words = [] :=
    List.filter_eq_nil_iff.mpr fun word member => by simp [empty word member]
  have later : rest.length ≤ maxLength := by
    rw [List.length_append] at within
    omega
  -- Reading goes on behind the line.
  have skipped : readFirst (request.quotedLine ++ rest) = readFirst rest := by
    rw [readFirst_eq, readWords_quotedLine, none]
    rfl
  rw [readCounted, readCounted, read_eq_readFirst within, read_eq_readFirst later, skipped]
  cases found : readFirst rest with
  | error reason => rfl
  | ok result =>
    have fewer : result.2.length < rest.length := length_readFirst found
    -- Both count from their own beginning up to the same rest.
    have counted : (request.quotedLine ++ rest).length - result.2.length =
        request.quotedLine.length + (rest.length - result.2.length) := by
      rw [List.length_append]
      omega
    exact congrArg (fun count => Except.ok (result.1, count)) counted

/-- A request that is counted has bytes. -/
theorem readCounted_pos {buffer : Bytes} {count : Nat}
    (counted : readCounted buffer = .ok (request, count)) : 0 < count := by
  -- A request takes at least one byte from the buffer.
  cases found : read buffer with
  | error reason =>
    rw [readCounted, found] at counted
    cases counted
  | ok result =>
    have fewer : result.2.length < buffer.length := length_read found
    rw [readCounted, found] at counted
    obtain ⟨-, rfl⟩ := Prod.mk.inj (Except.ok.inj counted)
    exact Nat.sub_pos_of_lt fewer

/-- The line is read as the request itself just where no word is left out. -/
theorem readCounted_quotedLine_iff (within : (request.quotedLine ++ rest).length ≤ maxLength) :
    readCounted (request.quotedLine ++ rest) = .ok (request, request.quotedLine.length) ↔
      ∀ word ∈ request.words, word ≠ [] := by
  -- No word is left out just where the words with bytes are all of them.
  rw [← Words.full_eq_self]
  constructor
  · intro read
    cases words : Words.full request.words with
    | nil =>
      -- What is counted with a line that is passed over stands behind this line.
      have empty : ∀ word ∈ request.words, word = [] := by
        simpa [Words.full, List.filter_eq_nil_iff] using words
      rw [readCounted_quotedLine_empty within empty] at read
      cases later : readCounted rest with
      | error reason =>
        rw [later] at read
        cases read
      | ok result =>
        rw [later] at read
        have count := congrArg Prod.snd (Except.ok.inj read)
        have more : 0 < result.2 := readCounted_pos later
        simp only [Prod.map] at count
        omega
    | cons verb arguments =>
      -- There is one reading only.
      have carried := readCounted_quotedLine within (by rw [words]; rfl)
      obtain ⟨rfl, -⟩ := Prod.mk.inj (Except.ok.inj (carried.symm.trans read))
      rfl
  · intro same
    exact readCounted_quotedLine within (by rw [same]; rfl)

/-- The array is read as the request with all its words. The line is read as the request of those
words that have bytes, in order and each on its own, so that it stands for the same request just
where all words have bytes; where none has, it is passed over. -/
theorem readCounted_forms (arrayFits : (request.bytes ++ rest).length ≤ maxLength)
    (lineFits : (request.quotedLine ++ rest).length ≤ maxLength) :
    readCounted (request.bytes ++ rest) = .ok (request, request.bytes.length) ∧
    (readCounted (request.quotedLine ++ rest) = .ok (request, request.quotedLine.length) ↔
      ∀ word ∈ request.words, word ≠ []) ∧
    (∀ carried, ofWords? (Words.full request.words) = some carried →
      readCounted (request.quotedLine ++ rest) = .ok (carried, request.quotedLine.length)) ∧
    ((∀ word ∈ request.words, word = []) →
      readCounted (request.quotedLine ++ rest) =
        (readCounted rest).map (Prod.map id (request.quotedLine.length + ·))) :=
  ⟨readCounted_bytes arrayFits, readCounted_quotedLine_iff lineFits,
    fun _ => readCounted_quotedLine lineFits, readCounted_quotedLine_empty lineFits⟩

/-- Words with blanks, quotes, backslashes and line ends in them go in either form. -/
theorem readCounted_forms_echo :
    readCounted (Text.bytes "*3\r\n$4\r\nECHO\r\n$6\r\na \"b\r\n\r\n$2\r\n\\'\r\n") =
      .ok (⟨Text.bytes "ECHO", [Text.bytes "a \"b\r\n", Text.bytes "\\'"]⟩, 34) ∧
    readCounted (Text.bytes "\"ECHO\" \"a \\\"b\\r\\n\" \"\\\\'\"\r\n") =
      .ok (⟨Text.bytes "ECHO", [Text.bytes "a \"b\r\n", Text.bytes "\\'"]⟩, 26) := by
  -- Both forms of one request are shown, with a byte of each kind that is quoted.
  have forms := @readCounted_forms
    ⟨Text.bytes "ECHO", [Text.bytes "a \"b\r\n", Text.bytes "\\'"]⟩ [] (by decide +kernel)
    (by decide +kernel)
  have array : readCounted _ = .ok (_, 34) := forms.1
  have line : readCounted _ = .ok (_, 26) := forms.2.1.mpr (by decide +kernel)
  exact ⟨array, line⟩

/-- An empty word between quotes is lost: the array has three words, and the line two. -/
theorem not_readCounted_forms_agree : ¬ ∀ request : Request,
    request.bytes.length ≤ maxLength → request.quotedLine.length ≤ maxLength →
      (readCounted request.bytes).map Prod.fst = (readCounted request.quotedLine).map Prod.fst := by
  intro agree
  -- The last word of three is empty.
  have same := agree ⟨Text.bytes "SET", [Text.bytes "k", []]⟩ (by decide +kernel)
    (by decide +kernel)
  exact absurd same (by decide +kernel)

end Forms

end Request

end ScoreStore
