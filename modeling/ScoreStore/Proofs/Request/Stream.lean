import ScoreStore.Proofs.Request.Cuts

/-!
Streams in chunks: where they are cut does not matter, unless the line end after a longest length is
cut, and there it does matter.
-/

namespace ScoreStore

namespace Arrival

/-- One arrival after another, which counts only while more bytes are waited for. -/
def andThen (earlier later : Arrival) : Arrival :=
  if earlier.isOpen then { later with requests := earlier.requests ++ later.requests } else earlier

/-- What arrivals come to together, starting with an empty buffer. -/
def joined (arrivals : List Arrival) : Arrival := arrivals.foldl andThen ⟨[], .incomplete, []⟩

/-- The same requests, and the same end: the same refusal, or the same bytes left to go on with. -/
structure Agrees (first second : Arrival) : Prop where
  /-- The requests are the same. -/
  requests : first.requests = second.requests
  /-- Reading stops for the same reason. -/
  stop : first.stop = second.stop
  /-- If reading goes on, it goes on with the same bytes. -/
  left : first.isOpen = true → first.left = second.left

namespace Agrees

variable {first second third : Arrival}

theorem refl (arrival : Arrival) : Agrees arrival arrival := ⟨rfl, rfl, fun _ => rfl⟩

theorem isOpen_eq (agrees : Agrees first second) : first.isOpen = second.isOpen := by
  rw [isOpen, isOpen, agrees.stop]

theorem symm (agrees : Agrees first second) : Agrees second first :=
  ⟨agrees.requests.symm, agrees.stop.symm,
    fun goesOn => (agrees.left (agrees.isOpen_eq.trans goesOn)).symm⟩

theorem trans (early : Agrees first second) (late : Agrees second third) : Agrees first third :=
  ⟨early.requests.trans late.requests, early.stop.trans late.stop,
    -- What is left has to agree for open arrivals only, and all three are open or none is.
    fun goesOn => (early.left goesOn).trans (late.left (early.isOpen_eq.symm.trans goesOn))⟩

/-- A request more in front of both makes no difference. -/
theorem after (agrees : Agrees first second) (request : Request) :
    Agrees (first.after request) (second.after request) :=
  ⟨congrArg (request :: ·) agrees.requests, agrees.stop, agrees.left⟩

/-- What comes before both makes no difference. -/
theorem andThen (agrees : Agrees second third) (first : Arrival) :
    Agrees (first.andThen second) (first.andThen third) := by
  -- A later arrival counts only if the earlier one is open.
  unfold Arrival.andThen
  split
  · exact ⟨congrArg (first.requests ++ ·) agrees.requests, agrees.stop, agrees.left⟩
  · exact refl first

end Agrees

/-- A request in front stays in front of what follows. -/
theorem andThen_after (request : Request) (earlier later : Arrival) :
    (earlier.after request).andThen later = (earlier.andThen later).after request := by
  show (if earlier.isOpen then _ else _) = _
  unfold andThen
  split <;> rfl

/-- Arrivals follow each other in any grouping. -/
theorem andThen_assoc (first second third : Arrival) :
    (first.andThen second).andThen third = first.andThen (second.andThen third) := by
  cases opened : first.isOpen with
  -- Nothing is put behind an arrival that is closed.
  | false => simp only [andThen, opened, Bool.false_eq_true, if_false]
  | true =>
    -- Whether the two together are open depends on the second one.
    have together : (first.andThen second).isOpen = second.isOpen := by
      rw [andThen, if_pos opened]
      rfl
    cases goesOn : second.isOpen with
    | false =>
      simp only [andThen, opened, goesOn, if_true, Bool.false_eq_true, if_false]
      rw [andThen, if_pos opened] at together
      rw [if_neg (by rw [together, goesOn]; exact Bool.false_ne_true)]
    | true =>
      rw [andThen, if_pos (together.trans goesOn)]
      simp only [andThen, opened, goesOn, if_true, List.append_assoc]

/-- A buffer without a request is left as it is. -/
theorem ofBuffer_of_error {buffer : Bytes} {reason : ReadError}
    (refused : Request.read buffer = .error reason) : ofBuffer buffer = ⟨[], reason, buffer⟩ := by
  rw [ofBuffer]
  -- The recursion carries the proof of what was read, so that only `split` gets at the cases.
  split
  · next found =>
    obtain rfl := Except.error.inj (refused.symm.trans found)
    rfl
  · next found => cases refused.symm.trans found

/-- A request in a buffer comes before those in the rest. -/
theorem ofBuffer_of_ok {buffer rest : Bytes} {request : Request}
    (found : Request.read buffer = .ok (request, rest)) :
    ofBuffer buffer = (ofBuffer rest).after request := by
  rw [ofBuffer]
  split
  · next refused => cases found.symm.trans refused
  · next again =>
    obtain ⟨rfl, rfl⟩ := Prod.mk.inj (Except.ok.inj (found.symm.trans again))
    rfl

/-- The bytes that are left hold no request, and reading them stops for the same reason. -/
theorem read_left (buffer : Bytes) :
    Request.read (ofBuffer buffer).left = .error (ofBuffer buffer).stop := by
  -- Reading goes on until a refusal, and what is left is what was refused.
  fun_induction ofBuffer buffer with
  | case1 buffer reason refused => exact refused
  | case2 buffer request rest found ih => exact ih

/-- The bytes that are left come behind whole requests. -/
theorem left_behind (buffer : Bytes) (within : buffer.length ≤ Request.maxLength) :
    ∃ before, Request.AreWhole before ∧ buffer = before ++ (ofBuffer buffer).left := by
  -- Each request takes its bytes from the front.
  fun_induction ofBuffer buffer with
  | case1 buffer reason refused => exact ⟨[], .nil, rfl⟩
  | case2 buffer request rest found ih =>
    have shorter := Request.length_read found
    obtain ⟨code, first, rfl⟩ := (Request.read_eq_ok_iff within).mp found
    obtain ⟨before, whole, left⟩ := ih (by omega)
    refine ⟨code ++ before, (Request.AreWhole.of_isFirst first).append whole, ?_⟩
    rw [List.append_assoc]
    exact congrArg (code ++ ·) left

/-- Reading all bytes at once is reading the first ones, and then what they left with the others. -/
theorem ofBuffer_append {front back : Bytes} (within : (front ++ back).length ≤ Request.maxLength)
    (spared : ¬ Request.SplitsLength front back) :
    Agrees (ofBuffer (front ++ back))
      ((ofBuffer front).andThen (ofBuffer ((ofBuffer front).left ++ back))) := by
  -- The requests of the first bytes are read again, one after the other.
  -- Not by the recursion of `ofBuffer`, which with more bytes runs over other buffers.
  induction shorter : front.length using Nat.strongRecOn generalizing front with
  | ind length ih =>
    have early : front.length ≤ Request.maxLength := by
      rw [List.length_append] at within
      omega
    cases found : Request.read front with
    | ok result =>
      obtain ⟨request, rest⟩ := result
      have late := Request.read_append back within found
      have fewer := shorter ▸ Request.length_read found
      have restWithin := Nat.le_trans (Nat.le_of_lt (Request.length_read late)) within
      obtain ⟨code, first, rfl⟩ := (Request.read_eq_ok_iff early).mp found
      -- What this request leaves can be read in the same two ways.
      have others := ih rest.length fewer restWithin
        (fun cut => spared (.after (.of_isFirst first) cut)) rfl
      rw [ofBuffer_of_ok late, ofBuffer_of_ok found, andThen_after]
      exact others.after request
    | error reason =>
      rw [ofBuffer_of_error found]
      rcases Request.read_persists within found with rfl | late | ⟨_, cut⟩
      · -- Nothing was read, so that all bytes are still there.
        exact Agrees.refl _
      · by_cases incomplete : reason = .incomplete
        · subst incomplete
          exact Agrees.refl _
        · -- A refusal is final.
          have closed : isOpen ⟨[], reason, front⟩ = false := by simp [isOpen, incomplete]
          rw [ofBuffer_of_error late, andThen, closed]
          exact ⟨rfl, rfl, fun goesOn => absurd goesOn (by simp [isOpen, incomplete])⟩
      · exact absurd cut spared

/-- Whole requests in front do not change why reading stops. -/
theorem stop_behind {before rest : Bytes} (whole : Request.AreWhole before)
    (within : (before ++ rest).length ≤ Request.maxLength) :
    (ofBuffer (before ++ rest)).stop = (ofBuffer rest).stop := by
  obtain ⟨codes, rfl, each⟩ := whole
  -- By induction on the whole requests, of which one is read or passed over at a time.
  induction codes with
  | nil => rfl
  | cons code codes ih =>
    obtain ⟨⟨words, written⟩, each⟩ := List.forall_mem_cons.mp each
    rw [List.flatten_cons, List.append_assoc] at within ⊢
    have fewer : (codes.flatten ++ rest).length ≤ Request.maxLength := by
      rw [List.length_append] at within
      omega
    rw [← ih each fewer]
    have found := (Request.readWords_parses (code ++ (codes.flatten ++ rest)) words _).mpr
      ⟨code, written, rfl⟩
    have step : Request.read (code ++ (codes.flatten ++ rest)) =
        Request.readAfter words (codes.flatten ++ rest) := by
      rw [Request.read_eq_readFirst within, Request.readFirst_eq, found]
      rfl
    cases words with
    | cons verb arguments =>
      rw [ofBuffer_of_ok step]
      rfl
    | nil =>
      -- A request without words is passed over on the way to the next one.
      have same : Request.read (code ++ (codes.flatten ++ rest)) =
          Request.read (codes.flatten ++ rest) :=
        step.trans (Request.read_eq_readFirst fewer).symm
      cases next : Request.read (codes.flatten ++ rest) with
      | error reason => rw [ofBuffer_of_error next, ofBuffer_of_error (same.trans next)]
      | ok result => rw [ofBuffer_of_ok next, ofBuffer_of_ok (same.trans next)]

/-- Behind an opening a refused length stops the reading. -/
theorem stop_of_refused {opening rest : Bytes} {reason : ReadError}
    (opens : Request.OpensLength opening) (within : (opening ++ rest).length ≤ Request.maxLength)
    (refused : Request.readLength rest = .error reason) :
    (ofBuffer (opening ++ rest)).stop = reason := by
  -- Up to the next length, the bytes are read alike whatever follows.
  obtain ⟨next, goes, _⟩ := opens.readWords_append
  have failed : Request.read (opening ++ rest) = .error reason := by
    rw [Request.read_eq_readFirst within, Request.readFirst_eq, goes, refused]
    rfl
  rw [ofBuffer_of_error failed]

/-- Behind an opening a length that nothing follows leaves the reading open. -/
theorem stop_of_length {opening rest : Bytes} {length : Nat}
    (opens : Request.OpensLength opening) (within : (opening ++ rest).length ≤ Request.maxLength)
    (found : Request.readLength rest = .ok (length, [])) :
    (ofBuffer (opening ++ rest)).stop = .incomplete := by
  obtain ⟨next, goes, ends⟩ := opens.readWords_append
  have waits : Request.read (opening ++ rest) = .error .incomplete := by
    rw [Request.read_eq_readFirst within, Request.readFirst_eq, goes, found]
    show (next length [] >>= _) = _
    -- The next reader has no bytes: it waits for some or has nothing to read.
    rcases ends length with waits | none
    · rw [waits]
      rfl
    · rw [none]
      exact (Request.read_eq_readFirst (Nat.zero_le _)).symm.trans Request.read_nil
  rw [ofBuffer_of_error waits]

/-- The bytes in front of a cut through a longest length are refused as too big. -/
theorem stop_of_splitsLength {front back : Bytes} (within : front.length ≤ Request.maxLength)
    (cut : Request.SplitsLength front back) : (ofBuffer front).stop = .tooBig := by
  -- The whole requests in front do not matter, nor does what the length is one of.
  obtain ⟨_, token, _, ⟨before, opening, whole, opens, rfl⟩, rfl, _, long, plain, _⟩ := cut
  rw [List.append_assoc] at within ⊢
  rw [stop_behind whole within]
  refine stop_of_refused opens ?_ (Request.readLength_half long plain)
  rw [List.length_append] at within
  omega

/-- With the other half of its line end a longest length is not too big. -/
theorem stop_ne_of_splitsLength {front : Bytes} (within : front.length < Request.maxLength)
    (cut : Request.SplitsLength front [Ascii.lineFeed]) :
    (ofBuffer (front ++ [Ascii.lineFeed])).stop ≠ .tooBig := by
  obtain ⟨_, token, _, ⟨before, opening, whole, opens, rfl⟩, rfl, _, long, plain, small⟩ := cut
  have parts : before ++ opening ++ (token ++ [Ascii.carriageReturn]) ++ [Ascii.lineFeed] =
      before ++ (opening ++ (token ++ Bytes.lineEnd)) := by
    simp [Bytes.lineEnd]
  have all : (before ++ (opening ++ (token ++ Bytes.lineEnd))).length ≤ Request.maxLength := by
    rw [← parts, List.length_append]
    exact within
  have inner : (opening ++ (token ++ Bytes.lineEnd)).length ≤ Request.maxLength := by
    rw [List.length_append] at all
    omega
  rw [parts, stop_behind whole all]
  -- The line is complete now: its token is refused for another reason, or it is a length.
  cases found : Request.readLength (token ++ Bytes.lineEnd) with
  | error reason =>
    rw [stop_of_refused opens inner found]
    exact fun tooBig => small (tooBig ▸ found)
  | ok result =>
    -- The line of the length is all there is.
    obtain ⟨length, rest⟩ := result
    have alone := Request.readLength_line plain []
    rw [List.append_nil, found] at alone
    obtain rfl := (Prod.mk.inj (Except.ok.inj alone)).2
    rw [stop_of_length opens inner found]
    exact ReadError.noConfusion

end Arrival

/-- No cut between chunks splits the line end after a longest length. -/
def Request.SparesLengths (left : Bytes) (chunks : List Bytes) : Prop :=
  ∀ earlier later, chunks = earlier ++ later →
    ¬ SplitsLength (left ++ earlier.flatten) later.flatten

/-- The cuts behind the first chunk are cuts of what its whole requests leave as well. -/
theorem Request.SparesLengths.tail {left before rest chunk : Bytes} {later : List Bytes}
    (spared : SparesLengths left (chunk :: later)) (whole : AreWhole before)
    (parts : left ++ chunk = before ++ rest) : SparesLengths rest later := by
  rintro earlier last rfl cut
  -- A cut further on is a cut of the whole stream, behind the requests that are read by then.
  refine spared (chunk :: earlier) last rfl ?_
  rw [List.flatten_cons, ← List.append_assoc, parts, List.append_assoc]
  exact cut.after whole

/-- One chunk has no cut between two of its bytes. -/
theorem Request.SparesLengths.single (chunk : Bytes) : SparesLengths [] [chunk] := by
  -- Before or behind the only chunk there are no bytes, but a cut has some on both sides.
  rintro earlier later parts ⟨before, token, after, _, front, behind, _⟩
  rcases List.singleton_eq_append_iff.mp parts with ⟨rfl, rfl⟩ | ⟨rfl, rfl⟩
  · simp at front
  · simp at behind

/-- A cut into two chunks is the only one to be looked at. -/
theorem Request.SparesLengths.pair {front back : Bytes} (spared : ¬ SplitsLength front back) :
    SparesLengths [] [front, back] := by
  rintro earlier later parts cut
  -- Of the three places around the chunks, only the one in the middle has bytes on both sides.
  rcases List.cons_eq_append_iff.mp parts with ⟨rfl, rfl⟩ | ⟨earlier, rfl, rest⟩
  · obtain ⟨before, token, after, _, front, _⟩ := cut
    simp at front
  · rcases List.singleton_eq_append_iff.mp rest with ⟨rfl, rfl⟩ | ⟨rfl, rfl⟩
    · simp only [List.nil_append, List.flatten_cons, List.flatten_nil, List.append_nil] at cut
      exact spared cut
    · obtain ⟨before, token, after, _, _, behind, _⟩ := cut
      simp at behind

namespace Arrival

/-- Once reading has stopped for good, nothing follows. -/
theorem andThen_of_closed {arrival : Arrival} (closed : arrival.isOpen = false) (later : Arrival) :
    arrival.andThen later = arrival := by
  rw [andThen, closed]
  rfl

/-- Chunks that go on from an open arrival come to what their bytes come to at once. -/
theorem foldl_ofChunks {sofar : Arrival} (chunks : List Bytes) (opened : sofar.isOpen = true)
    (waits : Request.read sofar.left = .error .incomplete)
    (within : (sofar.left ++ chunks.flatten).length ≤ Request.maxLength)
    (spared : Request.SparesLengths sofar.left chunks) :
    Agrees ((ofChunks sofar.left chunks).foldl andThen sofar)
      (sofar.andThen (ofBuffer (sofar.left ++ chunks.flatten))) := by
  -- By induction on the chunks, from what the ones so far have left.
  induction chunks generalizing sofar with
  | nil =>
    -- What is left holds no request yet.
    have stopped : sofar.stop = .incomplete := by simpa [isOpen] using opened
    simp only [ofChunks, List.foldl_nil, List.flatten_nil, List.append_nil,
      ofBuffer_of_error waits, andThen, if_pos opened]
    exact ⟨rfl, stopped, fun _ => rfl⟩
  | cons chunk later ih =>
    have parts : sofar.left ++ (chunk :: later).flatten =
        sofar.left ++ chunk ++ later.flatten := by simp
    rw [parts] at within ⊢
    have cut : ¬ Request.SplitsLength (sofar.left ++ chunk) later.flatten := by
      simpa using spared [chunk] later rfl
    -- The two ways agree for this chunk, so that it is enough to follow what it leaves.
    have whole := (ofBuffer_append within cut).andThen sofar
    have early : (sofar.left ++ chunk).length ≤ Request.maxLength := by
      rw [List.length_append] at within
      omega
    obtain ⟨before, complete, behind⟩ := left_behind _ early
    have stopped := read_left (sofar.left ++ chunk)
    rw [ofChunks]
    generalize ofBuffer (sofar.left ++ chunk) = arrival at whole behind stopped ⊢
    refine Agrees.trans ?_ whole.symm
    cases goesOn : arrival.isOpen with
    | false =>
      -- The other chunks are not looked at.
      simp only [Bool.false_eq_true, if_false, List.foldl_cons, List.foldl_nil]
      rw [andThen_of_closed goesOn]
      exact Agrees.refl _
    | true =>
      -- The other chunks go on from what the first one leaves.
      have reason : arrival.stop = .incomplete := by simpa [isOpen] using goesOn
      have left : (sofar.andThen arrival).left = arrival.left := by
        rw [andThen, if_pos opened]
      have open' : (sofar.andThen arrival).isOpen = true := by
        rw [andThen, if_pos opened]
        exact goesOn
      have shorter : arrival.left.length ≤ (sofar.left ++ chunk).length := by
        rw [behind, List.length_append]
        exact Nat.le_add_left ..
      have others := ih open' (by rw [left, stopped, reason])
        (by rw [left]; rw [List.length_append] at within ⊢; omega)
        (by rw [left]; exact spared.tail complete behind)
      rw [left, andThen_assoc] at others
      exact others

/-- Chunks come to what their bytes come to at once. -/
theorem joined_ofChunks {chunks : List Bytes}
    (within : chunks.flatten.length ≤ Request.maxLength)
    (spared : Request.SparesLengths [] chunks) :
    Agrees (joined (ofChunks [] chunks)) (ofBuffer chunks.flatten) :=
  -- The start is an open arrival that has read nothing and left nothing.
  @foldl_ofChunks ⟨[], .incomplete, []⟩ chunks rfl Request.read_nil within spared

/-- In front of a last byte a cut does harm just where it splits the line
end after a longest length. -/
theorem agrees_iff_spared {front : Bytes} (within : front.length < Request.maxLength) :
    Agrees (joined (ofChunks [] [front, [Ascii.lineFeed]]))
        (joined (ofChunks [] [front ++ [Ascii.lineFeed]])) ↔
      ¬ Request.SplitsLength front [Ascii.lineFeed] := by
  have whole : [front, [Ascii.lineFeed]].flatten = front ++ [Ascii.lineFeed] := by simp
  have fits : (front ++ [Ascii.lineFeed]).length ≤ Request.maxLength := by
    rw [List.length_append]
    exact within
  have together : Agrees (joined (ofChunks [] [front ++ [Ascii.lineFeed]]))
      (ofBuffer (front ++ [Ascii.lineFeed])) := by
    have alone : [front ++ [Ascii.lineFeed]].flatten = front ++ [Ascii.lineFeed] := by simp
    have agrees := joined_ofChunks (alone.symm ▸ fits) (.single (front ++ [Ascii.lineFeed]))
    rwa [alone] at agrees
  constructor
  · -- One byte earlier reading has stopped for good, for another reason than at the end.
    intro agrees cut
    have early := stop_of_splitsLength (Nat.le_of_lt within) cut
    have closed : (ofBuffer front).isOpen = false := by
      rw [isOpen, early]
      rfl
    have stopped : (joined (ofChunks [] [front, [Ascii.lineFeed]])).stop = .tooBig := by
      rw [ofChunks, List.nil_append, if_neg (by rw [closed]; exact Bool.false_ne_true)]
      exact early
    refine stop_ne_of_splitsLength within cut ?_
    rw [← together.stop, ← agrees.stop, stopped]
  · -- Without such a cut both ways agree with reading all bytes at once.
    intro spared
    have apart := joined_ofChunks (whole ▸ fits) (.pair spared)
    rw [whole] at apart
    exact apart.trans together.symm

/-- A stream comes to the same however it is cut, and its beginnings are waited with, unless a cut
splits the line end after a longest length. In front of the last byte of a stream just these cuts do
harm. -/
theorem joined_agrees {chunks others : List Bytes} (same : chunks.flatten = others.flatten)
    (within : chunks.flatten.length ≤ Request.maxLength)
    (spared : Request.SparesLengths [] chunks) (othersSpared : Request.SparesLengths [] others) :
    Agrees (joined (ofChunks [] chunks)) (joined (ofChunks [] others)) ∧
      (∀ front back request rest reason, chunks.flatten = front ++ back →
        Request.read (front ++ back) = .ok (request, rest) → Request.read front = .error reason →
        (reason = .incomplete ↔ ¬ Request.SplitsLength front back)) ∧
      ∀ front : Bytes, front.length < Request.maxLength →
        (Agrees (joined (ofChunks [] [front, [Ascii.lineFeed]]))
            (joined (ofChunks [] [front ++ [Ascii.lineFeed]])) ↔
          ¬ Request.SplitsLength front [Ascii.lineFeed]) := by
  refine ⟨?_, ?_, fun front => agrees_iff_spared⟩
  · -- Both ways come to what all bytes come to at once.
    have first := joined_ofChunks within spared
    have second := joined_ofChunks (same ▸ within) othersSpared
    rw [same] at first
    exact first.trans second.symm
  · intro front back request rest reason whole found refused
    rw [whole] at within
    constructor
    · rintro rfl cut
      -- Such a cut has been refused already.
      have early : front.length ≤ Request.maxLength := by
        rw [List.length_append] at within
        omega
      have stopped := stop_of_splitsLength early cut
      rw [ofBuffer_of_error refused] at stopped
      cases stopped
    · intro uncut
      -- A refusal for good would be one of the whole stream as well.
      rcases Request.read_persists within refused with incomplete | late | ⟨_, cut⟩
      · exact incomplete
      · cases found.symm.trans late
      · exact absurd cut uncut

/-- An echo may be cut within its last line end, since no length is read there. -/
theorem joined_agrees_echo :
    Agrees (joined (ofChunks [] [Text.bytes "*2\r\n$4\r\nECHO\r\n$3\r\nfoo\r", [Ascii.lineFeed]]))
        (joined (ofChunks [] [Text.bytes "*2\r\n$4\r\nECHO\r\n$3\r\nfoo\r\n"])) ∧
      ∀ reason, Request.read (Text.bytes "*2\r\n$4\r\nECHO\r\n$3\r\nfoo\r") = .error reason →
        reason = .incomplete := by
  have same : [Text.bytes "*2\r\n$4\r\nECHO\r\n$3\r\nfoo\r", [Ascii.lineFeed]].flatten =
      [Text.bytes "*2\r\n$4\r\nECHO\r\n$3\r\nfoo\r\n"].flatten := by decide +kernel
  -- The two ways come to the same, so that this is no cut through a longest length.
  have uncut : ¬ Request.SplitsLength (Text.bytes "*2\r\n$4\r\nECHO\r\n$3\r\nfoo\r")
      [Ascii.lineFeed] :=
    (agrees_iff_spared (by decide +kernel)).mp
      ⟨by decide +kernel, by decide +kernel, fun _ => by decide +kernel⟩
  have agrees := joined_agrees same (by decide +kernel) (.pair uncut) (.single _)
  have whole : Request.read (Text.bytes "*2\r\n$4\r\nECHO\r\n$3\r\nfoo\r" ++ [Ascii.lineFeed]) =
      .ok (⟨Text.bytes "ECHO", [Text.bytes "foo"]⟩, []) := by decide +kernel
  exact ⟨agrees.1, fun reason refused =>
    (agrees.2.1 _ _ _ _ reason (by simp) whole refused).mpr uncut⟩

/-- The line end after a longest length must not be cut: then the ping is
refused instead of waited for. -/
theorem joined_not_agrees : ¬ ∀ chunks others : List Bytes, chunks.flatten = others.flatten →
    chunks.flatten.length ≤ Request.maxLength →
    Agrees (joined (ofChunks [] chunks)) (joined (ofChunks [] others)) := by
  intro agrees
  have same := (agrees [Text.bytes "*00000000000000000001\r", Text.bytes "\n$4\r\nPING\r\n"]
    [Text.bytes "*00000000000000000001\r\n$4\r\nPING\r\n"] (by decide +kernel)
    (by decide +kernel)).requests
  revert same
  decide +kernel

end Arrival
end ScoreStore
