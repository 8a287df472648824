import ScoreStore.Proofs.Request.Grammar

/-!
Words written on a line, bare or within quotes and with blanks between them: they are read back as
they are, and nothing behind the line is touched.
-/

namespace ScoreStore

/-- How a word is written on a line. -/
inductive Style where
  /-- On its own. -/
  | bare
  /-- Between two quotes. -/
  | quoted (quote : Quote)
deriving DecidableEq

namespace Style

/-- The quote that the bytes of a word are inside of. -/
def quote? : Style → Option Quote
  | bare => none
  | quoted quote => some quote

/-- Whether a byte is written with a backslash in front of it. -/
def isMarked (style : Style) (byte : UInt8) : Bool :=
  match style with
  | bare => byte = Ascii.space ∨ byte = Ascii.doubleQuote ∨ byte = Ascii.singleQuote ∨
      byte = Ascii.backslash ∨ byte = Ascii.asterisk
  | quoted quote => byte = quote.mark ∨ byte = Ascii.backslash

/-- The letter that is written behind a backslash in place of a byte. -/
def letter? (style : Style) (byte : UInt8) : Option UInt8 :=
  -- A tab does not end a word within quotes, so that it stands there as it is.
  if byte = Ascii.carriageReturn then some Ascii.smallR
  else if byte = Ascii.lineFeed then some Ascii.smallN
  else if byte = Ascii.tab ∧ style = bare then some Ascii.smallT
  else none

/-- The bytes that are written for one byte of a word. -/
def escape (style : Style) (byte : UInt8) : Bytes :=
  if style.isMarked byte then [Ascii.backslash, byte]
  else match style.letter? byte with
    | some letter => [Ascii.backslash, letter]
    | none => [byte]

/-- The bytes that are written for a word. -/
def write (style : Style) (word : Bytes) : Bytes :=
  match style with
  | bare => word.flatMap bare.escape
  | quoted quote => quote.mark :: (word.flatMap (quoted quote).escape ++ [quote.mark])

/-- A byte is written by a letter that stands for it, behind a backslash, or as it is. -/
theorem escape_cases (style : Style) (byte : UInt8) :
    (∃ letter, style.escape byte = [Ascii.backslash, letter] ∧ Words.unescape letter = byte ∧
      letter ≠ Ascii.carriageReturn) ∨
    (style.escape byte = [byte] ∧ style.isMarked byte = false ∧ style.letter? byte = none) := by
  unfold escape
  split
  · next marked =>
    -- None of the marked bytes is one of the three letters that stand for another byte.
    refine Or.inl ⟨byte, rfl, ?_⟩
    cases style with
    | bare => rcases of_decide_eq_true marked with rfl | rfl | rfl | rfl | rfl <;> decide
    | quoted quote => cases quote <;> rcases of_decide_eq_true marked with rfl | rfl <;> decide
  · next plain =>
    -- A letter is written for one of three bytes only.
    split
    · next letter written =>
      refine Or.inl ⟨letter, rfl, ?_⟩
      unfold letter? at written
      split_ifs at written with isReturn isFeed isTab
      · obtain rfl := Option.some.inj written
        exact ⟨isReturn.symm, by decide⟩
      · obtain rfl := Option.some.inj written
        exact ⟨isFeed.symm, by decide⟩
      · obtain rfl := Option.some.inj written
        exact ⟨isTab.1.symm, by decide⟩
    · next unwritten => exact Or.inr ⟨rfl, eq_false_of_ne_true plain, unwritten⟩

/-- No carriage return is written for a word. -/
theorem carriageReturn_notMem_write (style : Style) (word : Bytes) :
    Ascii.carriageReturn ∉ style.write word := by
  -- Within quotes or without, each byte is written in one of the two ways.
  have inside (style : Style) : Ascii.carriageReturn ∉ word.flatMap style.escape := by
    intro member
    obtain ⟨byte, _, written⟩ := List.mem_flatMap.mp member
    rcases style.escape_cases byte with ⟨letter, code, _, other⟩ | ⟨code, _, unwritten⟩
    · rw [code, List.mem_pair] at written
      exact written.elim (by decide) fun same => other same.symm
    · -- The carriage return itself is written by a letter.
      rw [code, List.mem_singleton] at written
      subst written
      cases unwritten
  cases style with
  -- The quotes themselves are others.
  | bare => exact inside .bare
  | quoted quote =>
    have other : Ascii.carriageReturn ≠ quote.mark := by cases quote <;> decide
    simpa [write, other] using inside (.quoted quote)

/-- What is written for a word does not begin like an array. -/
theorem head?_write_ne (style : Style) (word : Bytes) :
    (style.write word).head? ≠ some Ascii.asterisk := by
  cases style with
  | bare =>
    -- A word without bytes writes nothing, and anything else begins by its first byte.
    cases word with
    | nil => simp [write]
    | cons byte others =>
      rw [write, List.flatMap_cons]
      rcases bare.escape_cases byte with ⟨letter, code, _, _⟩ | ⟨code, plain, _⟩
      · simp [code, Ascii.backslash, Ascii.asterisk]
      · -- The marker of an array has a backslash in front of it.
        have other : byte ≠ Ascii.asterisk := by
          rintro rfl
          cases plain
        simpa [code] using other
  -- A quoted word begins with its quote.
  | quoted quote =>
    have other : quote.mark ≠ Ascii.asterisk := by cases quote <;> decide
    simpa [write] using other

end Style

/-- Bytes that separate words and nothing else. -/
def IsGap (gap : Bytes) : Prop := ∀ byte ∈ gap, Words.isBlank byte = true

instance (gap : Bytes) : Decidable (IsGap gap) :=
  List.decidableBAll (Words.isBlank · = true) gap

/-- A byte that separates no words is not among those that do. -/
theorem IsGap.notMem {gap : Bytes} {byte : UInt8} (blank : IsGap gap)
    (other : Words.isBlank byte = false) : byte ∉ gap := fun member =>
  Bool.false_ne_true (other.symm.trans (blank byte member))

/-- What is written on a line for words in turn, each in a style of its own: at least one blank
stands between two of them, and any number behind the last one. -/
inductive Spells : Bytes → List Bytes → Prop where
  /-- The last word. -/
  | last (style : Style) (word : Bytes) {gap : Bytes} (blank : IsGap gap) :
    Spells (style.write word ++ gap) [word]
  /-- A word in front of others. -/
  | next (style : Style) (word : Bytes) {gap line : Bytes} {words : List Bytes}
    (blank : IsGap gap) (apart : gap ≠ []) (later : Spells line words) :
    Spells (style.write word ++ (gap ++ line)) (word :: words)

namespace Words

/-- The words that have bytes. -/
def full (words : List Bytes) : List Bytes := words.filter fun word => !word.isEmpty

/-- Words that all have bytes are left as they are. -/
theorem full_eq_self {words : List Bytes} : full words = words ↔ ∀ word ∈ words, word ≠ [] := by
  simp [full, List.filter_eq_self]

/-- The remainder before the bytes of a word. -/
def Remainder.prepend (front : Bytes) : Remainder → Remainder
  | (word, words) => (front ++ word, words)

section Scanning

variable {quote : Quote} {byte : UInt8} {rest : Bytes}

/-- A backslash takes the next byte into the word. -/
theorem scan_backslash (quote : Option Quote) (escaped : UInt8) (rest : Bytes) :
    scan quote (Ascii.backslash :: escaped :: rest) =
      (scan quote rest).map (Remainder.extend (unescape escaped)) := by
  cases quote <;> rw [scan, if_pos rfl]

/-- The quote that was opened ends its word. -/
theorem scan_close (quote : Quote) (rest : Bytes) :
    scan (some quote) (quote.mark :: rest) = (scan none rest).map Remainder.separate := by
  have other : quote.mark ≠ Ascii.backslash := by cases quote <;> decide
  cases rest <;> simp only [scan, if_neg other, if_true]

/-- Every other byte within quotes belongs to the word. -/
theorem scan_inside (plain : (Style.quoted quote).isMarked byte = false) :
    scan (some quote) (byte :: rest) =
      (scan (some quote) rest).map (Remainder.extend byte) := by
  obtain ⟨inside, other⟩ := not_or.mp (of_decide_eq_false plain)
  cases rest <;> simp only [scan, if_neg other, if_neg inside]

/-- A blank ends the word in front of it. -/
theorem scan_blank (blank : isBlank byte = true) :
    scan none (byte :: rest) = (scan none rest).map Remainder.separate := by
  have other : byte ≠ Ascii.backslash := by
    rintro rfl
    cases blank
  cases rest <;> simp only [scan, if_neg other, if_pos blank]

/-- A quote ends the word in front of it. -/
theorem scan_open (quote : Quote) (rest : Bytes) :
    scan none (quote.mark :: rest) = (scan (some quote) rest).map Remainder.separate := by
  have other : quote.mark ≠ Ascii.backslash := by cases quote <;> decide
  have noBlank : ¬ isBlank quote.mark = true := by cases quote <;> decide
  have opens : opens? quote.mark = some quote := by cases quote <;> rfl
  cases rest <;> simp only [scan, if_neg other, if_neg noBlank, opens]

/-- Every other byte outside of quotes belongs to the word. -/
theorem scan_outside (plain : Style.bare.isMarked byte = false) (noTab : byte ≠ Ascii.tab) :
    scan none (byte :: rest) = (scan none rest).map (Remainder.extend byte) := by
  -- An unmarked byte neither ends a word nor opens a quote nor escapes.
  have unmarked := of_decide_eq_false plain
  simp only [not_or] at unmarked
  -- Of the bytes that do something outside of quotes, only a tab is written without a mark.
  obtain ⟨noSpace, noDouble, noSingle, other, _⟩ := unmarked
  have noBlank : ¬ isBlank byte = true := by simp [isBlank, noSpace, noTab]
  have opens : opens? byte = none := by simp [opens?, Quote.mark, noDouble, noSingle]
  cases rest <;> simp only [scan, if_neg other, if_neg noBlank, opens]

/-- What is written for a byte is scanned as that byte. -/
theorem scan_escape (style : Style) (byte : UInt8) (rest : Bytes) :
    scan style.quote? (style.escape byte ++ rest) =
      (scan style.quote? rest).map (Remainder.extend byte) := by
  rcases style.escape_cases byte with ⟨letter, code, meant, _⟩ | ⟨code, plain, unwritten⟩
  · -- What stands behind the backslash is read as the byte that was written.
    rw [code, List.cons_append, List.cons_append, List.nil_append, scan_backslash, meant]
  · rw [code, List.cons_append, List.nil_append]
    cases style with
    | bare =>
      -- A tab on its own is written by a letter.
      refine scan_outside plain ?_
      rintro rfl
      cases unwritten
    | quoted quote => exact scan_inside plain

/-- What is written for the bytes of a word is scanned as these bytes. -/
theorem scan_escapes (style : Style) (word rest : Bytes) :
    scan style.quote? (word.flatMap style.escape ++ rest) =
      (scan style.quote? rest).map (Remainder.prepend word) := by
  -- None of what is written opens or closes a quote, so that all bytes are scanned alike.
  induction word with
  | nil =>
    rw [List.flatMap_nil, List.nil_append]
    cases scan style.quote? rest <;> rfl
  | cons byte others ih =>
    rw [List.flatMap_cons, List.append_assoc, scan_escape, ih]
    cases scan style.quote? rest <;> rfl

/-- Blanks hold no word, whatever words come behind them. -/
theorem scan_gap {gap : Bytes} {remainder : Remainder} (blank : IsGap gap) (apart : gap ≠ [])
    (behind : scan none rest = .ok remainder) :
    scan none (gap ++ rest) = .ok ([], remainder.words) := by
  -- By induction on the blanks, the first of which ends the word.
  induction gap with
  | nil => exact absurd rfl apart
  | cons byte others ih =>
    obtain ⟨first, blank⟩ := List.forall_mem_cons.mp blank
    rw [List.cons_append, scan_blank first]
    cases others with
    | nil =>
      rw [List.nil_append, behind]
      rfl
    | cons second others =>
      -- A further blank ends a word without bytes, which is none.
      rw [ih blank (List.cons_ne_nil _ _)]
      rfl

/-- Blanks at the end of a line hold no word. -/
theorem scan_gap_end {gap : Bytes} (blank : IsGap gap) : scan none gap = .ok ([], []) := by
  cases gap with
  | nil => rfl
  | cons byte others =>
    have nothing : scan none [] = .ok ([], []) := rfl
    have scanned := scan_gap blank (List.cons_ne_nil _ _) nothing
    rwa [List.append_nil] at scanned

/-- A word in front of the end of a word is scanned as one word more, unless it has no bytes. -/
theorem scan_write (style : Style) (word : Bytes) {words : List Bytes}
    (behind : scan none rest = .ok ([], words)) :
    ∃ remainder, scan none (style.write word ++ rest) = .ok remainder ∧
      remainder.words = Remainder.words (word, words) := by
  cases style with
  | bare =>
    -- The bytes of the word are scanned one by one, and what is behind it comes after them.
    have scanned := scan_escapes .bare word rest
    simp only [Style.quote?, behind] at scanned
    refine ⟨(word ++ [], words), scanned, ?_⟩
    rw [List.append_nil]
  | quoted quote =>
    -- The second quote ends the word, and the first one what stands in front of it.
    have scanned := scan_escapes (.quoted quote) word (quote.mark :: rest)
    simp only [Style.quote?, scan_close, behind] at scanned
    have line : (Style.quoted quote).write word ++ rest =
        quote.mark :: (word.flatMap (Style.quoted quote).escape ++ quote.mark :: rest) := by
      simp [Style.write]
    refine ⟨([], Remainder.words (word ++ [], words)), ?_, ?_⟩
    · rw [line, scan_open, scanned]
      rfl
    · rw [List.append_nil]
      rfl

end Scanning
end Words

namespace Spells

variable {line : Bytes} {words : List Bytes}

/-- The words that a line spells are scanned in turn, apart from those without bytes. -/
theorem scan (spells : Spells line words) : ∃ remainder, Words.scan none line = .ok remainder ∧
    remainder.words = Words.full words := by
  -- In front of the blanks behind it, each word is one more than those that come later.
  induction spells with
  | last style word blank =>
    obtain ⟨remainder, scanned, read⟩ := Words.scan_write style word (Words.scan_gap_end blank)
    refine ⟨remainder, scanned, read.trans ?_⟩
    -- A word without bytes is dropped, and any other is kept.
    cases word <;> rfl
  | next style word blank apart later ih =>
    obtain ⟨others, behind, rest⟩ := ih
    obtain ⟨remainder, scanned, read⟩ :=
      Words.scan_write style word (Words.scan_gap blank apart behind)
    refine ⟨remainder, scanned, read.trans ?_⟩
    rw [rest]
    cases word <;> rfl

/-- The words that a line spells are its words, apart from those without bytes,
with any blanks in front. -/
theorem splitWords {gap : Bytes} (blank : IsGap gap) (spells : Spells line words) :
    splitWords (gap ++ line) = .ok (Words.full words) := by
  obtain ⟨remainder, scanned, read⟩ := spells.scan
  cases gap with
  | nil => rw [List.nil_append, ScoreStore.splitWords, scanned, Except.map, read]
  | cons byte others =>
    -- The blanks end a word without bytes, which is none.
    rw [ScoreStore.splitWords, Words.scan_gap blank (List.cons_ne_nil _ _) scanned, ← read]
    rfl

/-- Neither the line nor blanks in front of it have a carriage return. -/
theorem carriageReturn_notMem {gap : Bytes} (blank : IsGap gap) (spells : Spells line words) :
    Ascii.carriageReturn ∉ gap ++ line := by
  -- The blanks behind a word stand in front of the words that come later.
  induction spells generalizing gap with
  | last style word blankLast =>
    simp only [List.mem_append, not_or]
    exact ⟨blank.notMem rfl, style.carriageReturn_notMem_write word, blankLast.notMem rfl⟩
  | next style word between apart later ih =>
    rw [List.mem_append, List.mem_append, not_or, not_or]
    exact ⟨blank.notMem rfl, style.carriageReturn_notMem_write word, ih between⟩

/-- Neither the line nor blanks in front of it begin like an array. -/
theorem head?_ne {gap : Bytes} (blank : IsGap gap) (spells : Spells line words) :
    (gap ++ line).head? ≠ some Ascii.asterisk := by
  -- The first byte is a blank or belongs to what is written for the first word.
  have unlike {front back : Bytes} (first : front.head? ≠ some Ascii.asterisk)
      (second : back.head? ≠ some Ascii.asterisk) :
      (front ++ back).head? ≠ some Ascii.asterisk := by
    cases front with
    | nil => exact second
    | cons byte others => exact first
  have blankHead {gap : Bytes} (blank : IsGap gap) : gap.head? ≠ some Ascii.asterisk :=
    fun begins => blank.notMem rfl (List.mem_of_head? begins)
  -- By induction on the words, of which only the first can begin the line.
  induction spells generalizing gap with
  | last style word blankLast =>
    exact unlike (blankHead blank) (unlike (style.head?_write_ne word) (blankHead blankLast))
  | next style word between apart later ih =>
    exact unlike (blankHead blank) (unlike (style.head?_write_ne word) (ih between))

end Spells

namespace Request

section Spelled

variable {gap line : Bytes} {words : List Bytes}

/-- A line that spells words is read as these words, apart from those without bytes, and
what follows its end is left. -/
theorem readWords_spelled (blank : IsGap gap) (spells : Spells line words) (rest : Bytes) :
    readWords (gap ++ line ++ Bytes.lineEnd ++ rest) =
      .ok (Words.full words, rest) := by
  have written : IsWritten (gap ++ line ++ Bytes.lineEnd) (Words.full words) := by
    refine .line (spells.head?_ne blank) ?_ (spells.splitWords blank)
    -- A line end would have a carriage return.
    exact fun early => spells.carriageReturn_notMem blank (early.subset (List.mem_cons_self ..))
  exact (readWords_parses _ _ rest).mpr ⟨_, written, rfl⟩

/-- The words at the front of a buffer are a request, which is counted
with the bytes of that front. -/
theorem readCounted_of_readWords {front rest : Bytes} {request : Request}
    (within : (front ++ rest).length ≤ maxLength)
    (found : readWords (front ++ rest) = .ok (request.words, rest)) :
    readCounted (front ++ rest) = .ok (request, front.length) := by
  -- What is left is subtracted from all bytes.
  have counted : (front ++ rest).length - rest.length = front.length := by
    rw [List.length_append, Nat.add_sub_cancel]
  rw [readCounted, read_eq_readFirst within, readFirst_eq, found, ← counted]
  rfl

/-- A request whose words all have bytes is read back from a line that spells them, with the count
of the bytes of this line, whatever follows; only a buffer above the limit is refused, as always. -/
theorem readCounted_spelled {request : Request} (blank : IsGap gap)
    (spells : Spells line request.words) (full : ∀ word ∈ request.words, word ≠ [])
    (rest : Bytes) :
    readCounted (gap ++ line ++ Bytes.lineEnd ++ rest) =
      if (gap ++ line ++ Bytes.lineEnd ++ rest).length ≤ maxLength then
        .ok (request, (gap ++ line ++ Bytes.lineEnd).length)
      else .error .tooBig := by
  have found := readWords_spelled blank spells rest
  rw [Words.full_eq_self.mpr full] at found
  split
  · next within => exact readCounted_of_readWords within found
  · -- Too long a buffer is refused before it is looked at.
    next beyond =>
    rw [readCounted, read, if_pos (Nat.lt_of_not_le beyond)]
    rfl

/-- Words in all three styles, with a line end in one of them, between blanks of either kind. -/
theorem readCounted_spelled_mixed :
    readCounted (Text.bytes "\t\\*1\\t \"a \\\"\\r\\n\\\\\"\t '\\'\tb' \r\nPING\r\n") =
      .ok (⟨Text.bytes "*1\t", [Text.bytes "a \"\r\n\\", Text.bytes "'\tb"]⟩, 30) := by
  have code : Text.bytes "\t\\*1\\t \"a \\\"\\r\\n\\\\\"\t '\\'\tb' \r\nPING\r\n" =
      Text.bytes "\t" ++ (Style.bare.write (Text.bytes "*1\t") ++ (Text.bytes " " ++
        ((Style.quoted .double).write (Text.bytes "a \"\r\n\\") ++ (Text.bytes "\t " ++
          ((Style.quoted .single).write (Text.bytes "'\tb") ++ Text.bytes " "))))) ++
      Bytes.lineEnd ++ Text.bytes "PING\r\n" := by decide +kernel
  -- Three words in three styles, with blanks of both kinds around them.
  rw [code, @readCounted_spelled _ _ ⟨Text.bytes "*1\t", _⟩ (by decide +kernel)
    (.next _ _ (by decide +kernel) (by decide +kernel) (.next _ _ (by decide +kernel)
      (by decide +kernel) (.last _ _ (by decide +kernel)))) (by decide +kernel)]
  decide +kernel

end Spelled

end Request

end ScoreStore
