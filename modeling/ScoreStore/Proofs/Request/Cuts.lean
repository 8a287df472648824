import ScoreStore.Proofs.Request.Grammar

/-!
Streams that are cut: a refusal stays a refusal when more bytes arrive, but for one place.

A length is refused before its line end arrives once more bytes than a length may have are there,
the carriage return counted with them. So a longest length whose line end is cut in the middle is
refused.
-/

namespace ScoreStore

namespace Request

/-- The beginning of an array up to where the next length stands. -/
inductive OpensLength : Bytes → Prop where
  /-- The number of items comes after the marker of the array. -/
  | array : OpensLength [Ascii.asterisk]
  /-- The length of a byte string comes after its marker, behind the
  items that are there already. -/
  | bulk {token : Bytes} {count : Nat} {codes items : List Bytes}
      (written : WritesLength token count) (bulks : List.Forall₂ IsBulk codes items)
      (more : items.length < count) :
    OpensLength (Ascii.asterisk :: (token ++ Bytes.lineEnd) ++ (codes.flatten ++ [Ascii.dollar]))

/-- The bytes of whole requests, with or without words. -/
def AreWhole (code : Bytes) : Prop :=
  ∃ codes : List Bytes, code = codes.flatten ∧ ∀ one ∈ codes, ∃ words, IsWritten one words

/-- The bytes of a stream in front of a length: whole requests, and an array up to there. -/
def AwaitsLength (earlier : Bytes) : Prop :=
  ∃ before opening, AreWhole before ∧ OpensLength opening ∧ earlier = before ++ opening

/-- A cut between the two bytes of the line end after a longest length, where a length is read.

The line end is the first one behind the length, and the length alone is not too big. -/
def SplitsLengthAfter (awaits : Bytes → Prop) (front back : Bytes) : Prop :=
  ∃ earlier token later, awaits earlier ∧
    front = earlier ++ (token ++ [Ascii.carriageReturn]) ∧ back = Ascii.lineFeed :: later ∧
    token.length = maxLengthDigits ∧ ¬ Bytes.lineEnd <:+: token ∧
    readLength (token ++ Bytes.lineEnd) ≠ .error .tooBig

/-- A cut of a stream between the two bytes of the line end after a longest length. -/
def SplitsLength : Bytes → Bytes → Prop := SplitsLengthAfter AwaitsLength

/-- Bytes in front move a cut back, if they lead to where a length is read. -/
theorem SplitsLengthAfter.behind {awaits later : Bytes → Prop} {front back : Bytes}
    (cut : SplitsLengthAfter later front back) (code : Bytes)
    (leads : ∀ earlier, later earlier → awaits (code ++ earlier)) :
    SplitsLengthAfter awaits (code ++ front) back := by
  obtain ⟨earlier, token, last, waits, rfl, behind, long, plain, small⟩ := cut
  exact ⟨code ++ earlier, token, last, leads earlier waits, (List.append_assoc ..).symm, behind,
    long, plain, small⟩

/-- More places where a length is read leave a cut a cut. -/
theorem SplitsLengthAfter.mono {awaits later : Bytes → Prop} {front back : Bytes}
    (cut : SplitsLengthAfter later front back) (leads : ∀ earlier, later earlier → awaits earlier) :
    SplitsLengthAfter awaits front back :=
  cut.behind [] leads

namespace AreWhole

/-- No bytes are no requests. -/
theorem nil : AreWhole [] := ⟨[], rfl, List.forall_mem_nil _⟩

/-- One more request in front. -/
theorem cons {code rest : Bytes} {words : List Bytes} (written : IsWritten code words)
    (whole : AreWhole rest) : AreWhole (code ++ rest) := by
  obtain ⟨codes, rfl, each⟩ := whole
  exact ⟨code :: codes, List.flatten_cons.symm, List.forall_mem_cons.mpr ⟨⟨words, written⟩, each⟩⟩

/-- Whole requests before and after a place are whole requests. -/
theorem append {front back : Bytes} (first : AreWhole front) (second : AreWhole back) :
    AreWhole (front ++ back) := by
  obtain ⟨codes, rfl, each⟩ := first
  obtain ⟨others, rfl, eachOther⟩ := second
  exact ⟨codes ++ others, List.flatten_append.symm, List.forall_mem_append.mpr ⟨each, eachOther⟩⟩

/-- A request with those without words in front of it is whole requests. -/
theorem of_isFirst {code : Bytes} {request : Request} (first : IsFirst code request) :
    AreWhole code := by
  -- The requests without words that are skipped are whole, and so is the one that is read.
  obtain ⟨skipped, last, rfl, empty, written⟩ := first
  have skips : AreWhole skipped.flatten := ⟨skipped, rfl, fun one member => ⟨[], empty one member⟩⟩
  exact skips.append ⟨[last], by simp, by simpa using ⟨_, written⟩⟩

end AreWhole

/-- Whole requests in front of a cut length leave it a cut length. -/
theorem SplitsLength.after {before front back : Bytes} (whole : AreWhole before)
    (cut : SplitsLength front back) : SplitsLength (before ++ front) back := by
  refine SplitsLengthAfter.behind cut before ?_
  -- Whole requests before whole requests are whole requests, and the open one stays the last.
  rintro _ ⟨others, opening, wholeToo, opens, rfl⟩
  exact ⟨before ++ others, opening, whole.append wholeToo, opens, (List.append_assoc ..).symm⟩

/-- A refusal remains when bytes follow, unless they are waited for or a longest length is cut. -/
def Persists {α : Type} (reader : Bytes → Except ReadError (α × Bytes)) (awaits : Bytes → Prop) :
    Prop :=
  ∀ front back reason, reader front = .error reason →
    reason = .incomplete ∨ reader (front ++ back) = .error reason ∨
      reason = .tooBig ∧ SplitsLengthAfter awaits front back

namespace Persists

variable {α β : Type} {reader : Bytes → Except ReadError (α × Bytes)} {awaits : Bytes → Prop}

/-- Further places where a length is read do no harm. -/
theorem mono {others : Bytes → Prop} (persists : Persists reader awaits)
    (some : ∀ earlier, awaits earlier → others earlier) : Persists reader others := by
  intro front back reason refused
  exact (persists front back reason refused).imp_right
    (Or.imp_right (And.imp_right fun cut => cut.mono some))

/-- A marker in front moves the places where a length is read back by a byte. -/
theorem marked {outer : Bytes → Except ReadError (α × Bytes)} {later : Bytes → Prop}
    {marker : UInt8} (persists : Persists reader later)
    (same : ∀ buffer, outer (marker :: buffer) = reader buffer)
    (leads : ∀ earlier, later earlier → awaits (marker :: earlier)) (front back : Bytes)
    (reason : ReadError) (refused : outer (marker :: front) = .error reason) :
    reason = .incomplete ∨ outer (marker :: front ++ back) = .error reason ∨
      reason = .tooBig ∧ SplitsLengthAfter awaits (marker :: front) back := by
  rw [same] at refused
  rw [List.cons_append, same]
  -- The refusal is that of the bytes behind the marker.
  exact (persists front back reason refused).imp_right
    (Or.imp_right (And.imp_right fun cut => cut.behind [marker] leads))

/-- What is made of what was read does not matter. -/
theorem map (persists : Persists reader awaits) (made : α → β) :
    Persists (fun buffer => (reader buffer).map fun (value, rest) => (made value, rest))
      awaits := by
  intro front back reason refused
  -- Only what is made of the value differs, which a refusal does not get to.
  cases early : reader front with
  | ok found =>
    simp only [early] at refused
    cases refused
  | error same =>
    simp only [early] at refused
    obtain rfl := Except.error.inj refused
    -- The refusal is that of the reader itself.
    refine (persists front back same early).imp_right (Or.imp_left fun late => ?_)
    simp only [late]
    rfl

/-- In readers in turn a length is read by the first one, or by the second one behind
what the first one reads. -/
theorem bind {form : Bytes → α → Prop} {second : α → Bytes → Except ReadError (β × Bytes)}
    {later : α → Bytes → Prop} (parses : Parses reader form) (first : Persists reader awaits)
    (others : ∀ value, Persists (second value) (later value)) :
    Persists (fun buffer => reader buffer >>= fun (value, rest) => second value rest)
      fun earlier => awaits earlier ∨
        ∃ value code rest, form code value ∧ later value rest ∧ earlier = code ++ rest := by
  intro front back reason refused
  -- Either the first reader refuses, or it has read a value and the second one does.
  cases early : reader front with
  | error same =>
    simp only [early] at refused
    obtain rfl := Except.error.inj refused
    rcases first front back same early with incomplete | late | ⟨tooBig, cut⟩
    · exact Or.inl incomplete
    · refine Or.inr (Or.inl ?_)
      simp only [late]
      rfl
    · exact Or.inr (Or.inr ⟨tooBig, cut.mono fun earlier => Or.inl⟩)
  | ok found =>
    -- What the first one reads stays read, so that the second one decides.
    obtain ⟨value, remaining⟩ := found
    simp only [early] at refused
    obtain ⟨code, formed, rfl⟩ := (parses front value remaining).mp early
    rcases others value remaining back reason refused with incomplete | late | ⟨tooBig, cut⟩
    · exact Or.inl incomplete
    · have again : reader (code ++ remaining ++ back) = .ok (value, remaining ++ back) :=
        (parses _ _ _).mpr ⟨code, formed, List.append_assoc ..⟩
      -- The value is found again in front of more bytes, by the form it has.
      refine Or.inr (Or.inl ?_)
      simp only [again]
      exact late
    · -- The cut is further back by the bytes of the value.
      exact Or.inr (Or.inr ⟨tooBig, cut.behind code fun earlier waits =>
        Or.inr ⟨value, code, earlier, formed, waits, rfl⟩⟩)

end Persists

/-- What follows its line is left by a length, and does not matter for whether it is read. -/
theorem readLength_line {token : Bytes} (plain : ¬ Bytes.lineEnd <:+: token) (rest : Bytes) :
    readLength (token ++ Bytes.lineEnd ++ rest) =
      (readLength (token ++ Bytes.lineEnd)).map fun (length, _) => (length, rest) := by
  have first : Bytes.splitLine? (token ++ Bytes.lineEnd ++ rest) = some (token, rest) :=
    Bytes.splitLine?_eq_some_iff.mpr ⟨plain, rfl⟩
  have alone : Bytes.splitLine? (token ++ Bytes.lineEnd) = some (token, []) :=
    Bytes.splitLine?_eq_some_iff.mpr ⟨plain, (List.append_nil _).symm⟩
  -- The checks look at the token only.
  simp only [readLength, first, alone]
  split
  · rfl
  · split
    · rfl
    · split <;> rfl

/-- A length is read at the front only. -/
theorem readLength_persists : Persists readLength (· = []) := by
  intro front back reason refused
  -- A refusal is either of a line that has come in full or of bytes without a line end.
  cases split : Bytes.splitLine? front with
  | some found =>
    -- The same line is looked at again.
    obtain ⟨token, rest⟩ := found
    obtain ⟨plain, rfl⟩ := Bytes.splitLine?_eq_some_iff.mp split
    refine Or.inr (Or.inl ?_)
    rw [readLength_line plain] at refused
    rw [List.append_assoc, readLength_line plain]
    cases alone : readLength (token ++ Bytes.lineEnd) with
    | error same =>
      rw [alone] at refused
      obtain rfl := Except.error.inj refused
      rfl
    | ok result =>
      rw [alone] at refused
      cases refused
  | none =>
    have early : readLength front =
        .error (if maxLengthDigits < front.length then .tooBig else .incomplete) := by
      simp only [readLength, split]
    obtain rfl := Except.error.inj (early.symm.trans refused)
    -- Bytes without a line end are refused as soon as they are more than a length has.
    by_cases long : maxLengthDigits < front.length
    · rw [if_pos long]
      by_cases same : readLength (front ++ back) = .error .tooBig
      · exact Or.inr (Or.inl same)
      · -- More bytes without a line end would be refused again, so that the line end is there now.
        obtain ⟨token, rest, later⟩ : ∃ token rest,
            Bytes.splitLine? (front ++ back) = some (token, rest) := by
          cases later : Bytes.splitLine? (front ++ back) with
          | some found => exact ⟨found.1, found.2, rfl⟩
          -- Bytes that are too many stay too many.
          | none =>
            have longer : maxLengthDigits < (front ++ back).length := by
              rw [List.length_append]
              omega
            exact absurd (by simp only [readLength, later, if_pos longer]) same
        have short : ¬ maxLengthDigits < token.length :=
          fun exceeds => same (by simp only [readLength, later, if_pos exceeds])
        obtain ⟨plain, behind⟩ := Bytes.splitLine?_eq_some_iff.mp later
        -- A token within the limit ends where the first bytes do, but for the carriage return.
        rcases Bytes.splitLine?_append_of_none split later with longer | ⟨whole, cut⟩
        · omega
        · have counted : front.length = token.length + 1 := by simp [whole]
          refine Or.inr (Or.inr ⟨rfl, [], token, rest, rfl, whole, cut, by omega, plain, ?_⟩)
          intro tooBig
          rw [behind, readLength_line plain, tooBig] at same
          exact same rfl
    · rw [if_neg long]
      exact Or.inl rfl

/-- The bytes of a byte string have no length among them. -/
theorem readContent_persists (length : Nat) : Persists (readContent length) fun _ => False := by
  intro front back reason refused
  -- Two bytes behind the content are looked at, and fewer of them are no refusal.
  unfold readContent at refused ⊢
  split at refused
  · next first second rest dropped =>
    -- All bytes of the content are there, and bytes behind them change nothing.
    have within : length ≤ front.length := by
      have := congrArg List.length dropped
      simp only [List.length_drop, List.length_cons] at this
      omega
    rw [List.drop_append_of_le_length within, dropped]
    simp only [List.cons_append]
    split at refused
    · cases refused
    · next open' => exact Or.inr (Or.inl (by rw [if_neg open', refused]))
  · -- Too few bytes are an incomplete content, never a wrong one.
    exact Or.inl (Except.error.inj refused).symm

/-- The length of a byte string is read behind its marker. -/
theorem readBulk_persists : Persists readBulk (· = [Ascii.dollar]) := by
  intro front back reason refused
  cases front with
  | nil => exact Or.inl (Except.error.inj refused).symm
  | cons marker buffer =>
    by_cases marked : marker = Ascii.dollar
    · subst marked
      -- Behind the marker stands a length and, read after it, the content.
      have inner := readLength_persists.bind readLength_parses readContent_persists
      refine inner.marked readBulk_dollar ?_ buffer back reason refused
      -- The content has no length, so that the one of the byte string is meant.
      rintro _ (rfl | ⟨_, _, _, _, none, _⟩)
      · rfl
      · exact none.elim
    · -- A wrong marker is wrong whatever follows.
      simp only [List.cons_append, readBulk, ne_eq, marked, not_false_eq_true, if_true] at refused ⊢
      exact Or.inr (Or.inl refused)

/-- In byte strings in turn a length is read behind the marker of each. -/
theorem readBulks_persists (count : Nat) : Persists (readBulks count) fun earlier =>
    ∃ codes items, List.Forall₂ IsBulk codes items ∧ items.length < count ∧
      earlier = codes.flatten ++ [Ascii.dollar] := by
  -- By induction on the number of byte strings: the next one is cut, or a later one is.
  induction count with
  | zero =>
    intro front back reason refused
    cases refused
  | succ count ih =>
    have inner := readBulk_persists.bind readBulk_parses fun item => ih.map (item :: ·)
    intro front back reason refused
    rw [readBulks_succ] at refused ⊢
    refine inner.mono ?_ front back reason refused
    rintro _ (rfl | ⟨item, code, _, bulk, ⟨codes, items, bulks, fewer, rfl⟩, rfl⟩)
    · -- The length of the next one is read, with nothing but its marker in front of it.
      exact ⟨[], [], .nil, Nat.succ_pos count, rfl⟩
    · -- Or it is one more of those in front of a later one.
      exact ⟨code :: codes, item :: items, .cons bulk bulks, Nat.succ_lt_succ fewer,
        by rw [List.flatten_cons, List.append_assoc]⟩

/-- A line of words has no lengths. -/
theorem readLine_persists : Persists readLine fun _ => False := by
  intro front back reason refused
  unfold readLine at refused ⊢
  -- An inline request is not refused before its line end has come, however long it is.
  cases split : Bytes.splitLine? front with
  | none =>
    simp only [split] at refused
    exact Or.inl (Except.error.inj refused).symm
  | some found =>
    simp only [split] at refused
    simp only [Bytes.splitLine?_append split back]
    refine Or.inr (Or.inl ?_)
    split at refused
    · exact refused
    · cases refused

/-- In one request a length is read where an array has one. -/
theorem readWords_persists : Persists readWords OpensLength := by
  intro front back reason refused
  cases front with
  | nil => exact Or.inl (Except.error.inj refused).symm
  | cons marker buffer =>
    -- The first byte tells the two forms apart, and it has arrived.
    by_cases marked : marker = Ascii.asterisk
    · subst marked
      -- Behind the asterisk stand the number of byte strings and those themselves.
      have inner := readLength_persists.bind readLength_parses readBulks_persists
      refine inner.marked readWords_asterisk ?_ buffer back reason refused
      rintro _ (rfl | ⟨count, _, _, ⟨token, written, rfl⟩, ⟨codes, items, bulks, more, rfl⟩, rfl⟩)
      · -- Either the number is cut or the length of one of the byte strings.
        exact .array
      · exact .bulk written bulks more
    · simp only [List.cons_append, readWords, if_neg marked] at refused ⊢
      exact readLine_persists.mono (fun _ => False.elim) (marker :: buffer) back reason refused

/-- Up to the first request with words a length is read where an array has
one, behind whole requests. -/
theorem readFirst_persists : Persists readFirst AwaitsLength := by
  intro front back reason refused
  -- Each request without words leaves fewer bytes.
  induction shorter : front.length using Nat.strongRecOn generalizing front with
  | ind length ih =>
    rw [readFirst_eq] at refused ⊢
    cases early : readWords front with
    | error same =>
      rw [early] at refused
      obtain rfl := Except.error.inj refused
      rcases readWords_persists front back same early with incomplete | late | ⟨tooBig, cut⟩
      · exact Or.inl incomplete
      · rw [late]
        exact Or.inr (Or.inl rfl)
      · -- Nothing whole stands in front of the open request.
        exact Or.inr (Or.inr ⟨tooBig, cut.mono fun opening opens =>
          ⟨[], opening, .nil, opens, rfl⟩⟩)
    | ok found =>
      obtain ⟨words, rest⟩ := found
      rw [early] at refused
      cases words with
      -- A request with words is read, not refused.
      | cons verb arguments => cases refused
      -- A request without words is skipped, so that the refusal is one of the bytes behind it.
      | nil =>
        have fewer := shorter ▸ length_readWords early
        obtain ⟨code, written, rfl⟩ := (readWords_parses front [] rest).mp early
        have again := (readWords_parses (code ++ rest ++ back) [] (rest ++ back)).mpr
          ⟨code, written, List.append_assoc ..⟩
        rw [again]
        rcases ih rest.length fewer rest refused rfl with incomplete | late | ⟨tooBig, cut⟩
        · exact Or.inl incomplete
        · exact Or.inr (Or.inl late)
        · have whole : AreWhole code := by simpa using AreWhole.nil.cons written
          exact Or.inr (Or.inr ⟨tooBig, SplitsLength.after whole cut⟩)

/-- Within the limit on buffers, a request is refused for good unless a longest length is cut. -/
theorem read_persists {front back : Bytes} {reason : ReadError}
    (within : (front ++ back).length ≤ maxLength) (refused : read front = .error reason) :
    reason = .incomplete ∨ read (front ++ back) = .error reason ∨
      reason = .tooBig ∧ SplitsLength front back := by
  have early : front.length ≤ maxLength := by
    rw [List.length_append] at within
    omega
  -- Up to the greatest length of a request, `read` is the reader of the first request.
  rw [read_eq_readFirst early] at refused
  rw [read_eq_readFirst within]
  exact readFirst_persists front back reason refused

/-- Within the limit on buffers, what is read at the front of a stream
stays read when bytes follow. -/
theorem read_append {front rest : Bytes} {request : Request} (back : Bytes)
    (within : (front ++ back).length ≤ maxLength) (found : read front = .ok (request, rest)) :
    read (front ++ back) = .ok (request, rest ++ back) := by
  have early : front.length ≤ maxLength := by
    rw [List.length_append] at within
    omega
  obtain ⟨code, first, rfl⟩ := (read_eq_ok_iff early).mp found
  exact (read_eq_ok_iff within).mpr ⟨code, first, List.append_assoc ..⟩

section Opening

variable {token opening : Bytes}

/-- A longest length with one half of its line end behind it is refused as too big. -/
theorem readLength_half (long : token.length = maxLengthDigits)
    (plain : ¬ Bytes.lineEnd <:+: token) :
    readLength (token ++ [Ascii.carriageReturn]) = .error .tooBig := by
  have unsplit : Bytes.splitLine? (token ++ [Ascii.carriageReturn]) = none := by
    -- Were there a line end, it would end before the last byte or with it.
    cases split : Bytes.splitLine? (token ++ [Ascii.carriageReturn]) with
    | none => rfl
    | some found =>
      obtain ⟨line, rest⟩ := found
      have whole := Bytes.eq_of_splitLine? split
      -- The last byte is no line feed, so that the line end would be one of the token.
      rcases List.eq_nil_or_concat rest with rfl | ⟨others, last, rfl⟩
      · rw [List.append_nil] at whole
        have ends : [Ascii.carriageReturn] = [Ascii.lineFeed] :=
          (List.append_inj' (whole.trans (List.append_assoc line [Ascii.carriageReturn]
            [Ascii.lineFeed]).symm) rfl).2
        cases ends
      · rw [List.concat_eq_append, ← List.append_assoc] at whole
        have inside := (List.append_inj' whole rfl).1
        exact absurd ⟨line, others, inside.symm⟩ plain
  have exceeds : maxLengthDigits < (token ++ [Ascii.carriageReturn]).length := by
    rw [List.length_append, long]
    exact Nat.lt_succ_self _
  simp only [readLength, unsplit, if_pos exceeds]

/-- Byte strings at the front are read first. -/
theorem readBulks_append {codes items : List Bytes} (bulks : List.Forall₂ IsBulk codes items)
    (count : Nat) (rest : Bytes) : readBulks (items.length + count) (codes.flatten ++ rest) =
      (readBulks count rest).map fun (others, left) => (items ++ others, left) := by
  induction bulks with
  | nil =>
    rw [List.length_nil, Nat.zero_add]
    -- With no byte string in front, nothing is added to the others.
    show readBulks count rest = (readBulks count rest).map id
    cases readBulks count rest <;> rfl
  | @cons code item codes items bulk bulks ih =>
    have found : readBulk ((code :: codes).flatten ++ rest) = .ok (item, codes.flatten ++ rest) :=
      (readBulk_parses _ _ _).mpr ⟨code, bulk, by rw [List.flatten_cons, List.append_assoc]⟩
    rw [List.length_cons, Nat.succ_add, readBulks_succ, found]
    show readOthers (items.length + count) item (codes.flatten ++ rest) = _
    rw [readOthers, ih]
    cases readBulks count rest <;> rfl

/-- Behind an opening a length is read, and if nothing follows it the array is
waited for or has no items. -/
theorem OpensLength.readWords_append (opens : OpensLength opening) :
    ∃ next : Nat → Bytes → Except ReadError (List Bytes × Bytes),
      (∀ rest, readWords (opening ++ rest) =
        readLength rest >>= fun (length, left) => next length left) ∧
      ∀ length, next length [] = .error .incomplete ∨ next length [] = .ok ([], []) := by
  cases opens with
  -- Behind the number come the byte strings, of which there is none yet.
  | array =>
    refine ⟨readBulks, fun rest => ?_, fun count => ?_⟩
    · rw [List.cons_append, List.nil_append, readWords_asterisk]
    · cases count with
      | zero => exact Or.inr rfl
      | succ count => exact Or.inl rfl
  | @bulk token count codes items written bulks more =>
    obtain ⟨missing, rfl⟩ := Nat.exists_eq_add_of_lt more
    -- The items that are there come first, and the one behind the marker comes next.
    refine ⟨fun length left => (readContent length left >>= fun found =>
      readOthers missing found.1 found.2).map fun found => (items ++ found.1, found.2),
      fun rest => ?_, fun length => Or.inl ?_⟩
    · -- The number and the byte strings in front are read whatever follows.
      have counted := (readLength_parses (token ++ Bytes.lineEnd ++ (codes.flatten ++
        ([Ascii.dollar] ++ rest))) _ _).mpr ⟨_, ⟨token, written, rfl⟩, rfl⟩
      simp only [List.cons_append, List.append_assoc, readWords_asterisk] at counted ⊢
      rw [counted]
      show readBulks (items.length + missing + 1) (codes.flatten ++ _) = _
      rw [Nat.add_assoc, readBulks_append bulks, readBulks_succ]
      show (readBulk (Ascii.dollar :: rest) >>= _).map _ = _
      rw [readBulk_dollar]
      cases readLength rest <;> rfl
    · -- A content ends with a line end, so that even an empty one is not there yet.
      have none : readContent length [] = .error .incomplete := by
        rw [readContent, List.drop_nil]
      show (readContent length [] >>= _).map _ = _
      rw [none]
      rfl

end Opening

end Request
end ScoreStore
