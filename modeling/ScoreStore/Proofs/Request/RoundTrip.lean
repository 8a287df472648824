import ScoreStore.Proofs.Decimal
import ScoreStore.Proofs.Request.Stream
import ScoreStore.Reply

/-!
Requests on the wire: written one after the other, they are read back one by
one as their last bytes arrive.
-/

namespace ScoreStore

namespace Request

section Reads

variable {α β : Type}

/-- A reader takes exactly these bytes for the value, whatever follows, and waits while
some of them are missing. -/
structure Reads (reader : Bytes → Except ReadError (α × Bytes)) (code : Bytes) (value : α) :
    Prop where
  /-- The bytes are read as the value, and what follows is left. -/
  whole (rest : Bytes) : reader (code ++ rest) = .ok (value, rest)
  /-- A proper beginning of the bytes is no value yet, and no failure either. -/
  part (front missing : Bytes) : front ++ missing = code → missing ≠ [] →
    reader front = .error .incomplete

namespace Reads

/-- Nothing at all is read of no bytes. -/
theorem nothing (value : α) : Reads (fun buffer => .ok (value, buffer)) [] value where
  whole _ := rfl
  -- Of no bytes none can be missing.
  part _ _ together missed := absurd (List.append_eq_nil_iff.mp together).2 missed

/-- Values in turn are read from their bytes in turn. -/
theorem bind {first : Bytes → Except ReadError (α × Bytes)} {code later : Bytes} {value : α}
    {next : β} (head : Reads first code value)
    (second : α → Bytes → Except ReadError (β × Bytes)) (tail : Reads (second value) later next) :
    Reads (fun buffer => first buffer >>= fun (value, rest) => second value rest)
      (code ++ later) next where
  whole rest := by
    simp only [List.append_assoc, head.whole]
    exact tail.whole rest
  part front missing together missed := by
    -- The bytes break off either in the first value or in the second one.
    rcases List.append_eq_append_iff.mp together with ⟨between, whole, _⟩ | ⟨begun, whole, others⟩
    · -- Without a missing byte of the first value, the second one has not begun.
      by_cases ended : between = []
      · subst ended
        have waits := tail.part [] missing (by simp_all) missed
        simp only [List.append_nil] at whole
        have read := head.whole []
        rw [List.append_nil, whole] at read
        show first front >>= _ = _
        rw [read]
        exact waits
      · show first front >>= _ = _
        rw [head.part front between whole.symm ended]
        rfl
    · show first front >>= _ = _
      rw [whole, head.whole]
      exact tail.part begun missing others.symm missed

/-- What is made of a value is read from the bytes of the value. -/
theorem map {reader : Bytes → Except ReadError (α × Bytes)} {code : Bytes} {value : α}
    (reads : Reads reader code value) (made : α → β) :
    Reads (fun buffer => (reader buffer).map fun (value, rest) => (made value, rest)) code
      (made value) where
  whole rest := by
    show (reader (code ++ rest)).map _ = _
    rw [reads.whole]
    rfl
  part front missing together missed := by
    show (reader front).map _ = _
    rw [reads.part front missing together missed]
    rfl

/-- A marker in front of a value is read with it. -/
theorem marked {reader inner : Bytes → Except ReadError (α × Bytes)} {marker : UInt8} {code : Bytes}
    {value : α} (empty : reader [] = .error .incomplete)
    (opens : ∀ buffer, reader (marker :: buffer) = inner buffer) (reads : Reads inner code value) :
    Reads reader (marker :: code) value where
  whole rest := (opens (code ++ rest)).trans (reads.whole rest)
  part front missing together missed := by
    -- Without the marker nothing has arrived at all.
    cases front with
    | nil => exact empty
    | cons first begun =>
      obtain ⟨rfl, others⟩ := List.cons.inj together
      exact (opens begun).trans (reads.part begun missing others missed)

end Reads

end Reads

/-- A written length is read back. -/
theorem readLength_reads {length : Nat} (within : length ≤ maxLength) :
    Reads readLength (Decimal.ofNat length ++ Bytes.lineEnd) length := by
  -- Lengths within the limit are written with far fewer digits than are accepted.
  have short : (Decimal.ofNat length).length ≤ 9 :=
    Decimal.length_ofNat_le (by decide) (Nat.lt_of_le_of_lt within (by decide))
  have plain : Ascii.carriageReturn ∉ Decimal.ofNat length := fun member =>
    absurd (Decimal.isDigit_ofNat length _ member) (by decide)
  have bounded : length ≤ Decimal.maxUnsigned64 := Nat.le_trans within (by decide)
  have short' : ¬ maxLengthDigits < (Decimal.ofNat length).length := by
    simp only [maxLengthDigits]
    omega
  constructor
  · intro rest
    rw [readLength, Bytes.splitLine?_line plain]
    simp only [if_neg short', Decimal.unsigned?_ofNat bounded, if_neg (Nat.not_lt.mpr within)]
  · intro front missing together missed
    have total := congrArg List.length together
    -- Fewer bytes than those of the line cannot be too many for a length.
    have more := List.length_pos_iff.mpr missed
    simp only [List.length_append, Bytes.lineEnd, List.length_cons, List.length_nil] at total
    have waits : Bytes.splitLine? front = none := by
      -- A line that had ended would end before the missing bytes.
      refine Option.eq_none_iff_forall_ne_some.mpr fun found early => missed ?_
      obtain ⟨line, rest⟩ := found
      have late := Bytes.splitLine?_append early missing
      rw [together, ← List.append_nil (_ ++ Bytes.lineEnd), Bytes.splitLine?_line plain] at late
      have left := (Prod.mk.inj (Option.some.inj late)).2
      exact (List.append_eq_nil_iff.mp left.symm).2
    have few : ¬ maxLengthDigits < front.length := by
      simp only [maxLengthDigits]
      omega
    rw [readLength, waits]
    simp only [if_neg few]

/-- The bytes of a byte string of known length are read back with the line end after them. -/
theorem readContent_reads (content : Bytes) :
    Reads (readContent content.length) (content ++ Bytes.lineEnd) content := by
  constructor
  · intro rest
    rw [readContent, List.append_assoc, List.drop_left, List.take_left]
    rfl
  · intro front missing together missed
    have total := congrArg List.length together
    have more := List.length_pos_iff.mpr missed
    simp only [List.length_append, Bytes.lineEnd, List.length_cons, List.length_nil] at total
    -- At most one byte of the line end has arrived.
    have few : (front.drop content.length).length < 2 := by
      rw [List.length_drop]
      omega
    unfold readContent
    split
    · -- Two bytes behind the content would be more than have come.
      next first second rest dropped =>
      rw [dropped] at few
      simp only [List.length_cons] at few
      omega
    · rfl

/-- A written byte string is read back. -/
theorem readBulk_reads {content : Bytes} (within : content.length ≤ maxLength) :
    Reads readBulk (Reply.encodeBulk content) content := by
  have together := (readLength_reads within).bind readContent (readContent_reads content)
  have marked := together.marked rfl readBulk_dollar
  simpa [Reply.encodeBulk, Reply.line] using marked

/-- Written byte strings are read back in turn. -/
theorem readBulks_reads {items : List Bytes} (within : ∀ item ∈ items, item.length ≤ maxLength) :
    Reads (readBulks items.length) (items.flatMap Reply.encodeBulk) items := by
  -- By induction on the byte strings, which are read one behind the other.
  induction items with
  | nil => exact .nothing []
  | cons item others ih =>
    obtain ⟨small, within⟩ := List.forall_mem_cons.mp within
    rw [List.flatMap_cons, List.length_cons, funext (readBulks_succ others.length)]
    exact (readBulk_reads small).bind (readOthers others.length) ((ih within).map (item :: ·))

/-- The bytes that ask for the request: an array with its words as byte strings. -/
def bytes (request : Request) : Bytes :=
  Reply.arrayHeader request.words.length ++ request.words.flatMap Reply.encodeBulk

/-- Fewer words are written than bytes, and each of them with more bytes than it has. -/
theorem length_le_length_flatMap (items : List Bytes) :
    items.length ≤ (items.flatMap Reply.encodeBulk).length ∧
      ∀ item ∈ items, item.length ≤ (items.flatMap Reply.encodeBulk).length := by
  -- Each byte string is longer than its content, so that it adds at least one byte.
  induction items with
  | nil => exact ⟨Nat.le_refl _, fun item member => absurd member List.not_mem_nil⟩
  | cons item others ih =>
    have longer : item.length < (Reply.encodeBulk item).length := by
      simp only [Reply.encodeBulk, Reply.line, Bytes.lineEnd, List.length_append, List.length_cons]
      omega
    simp only [List.flatMap_cons, List.length_append, List.length_cons]
    refine ⟨by omega, fun other member => ?_⟩
    rcases List.mem_cons.mp member with rfl | later
    · omega
    · have := ih.2 other later
      omega

/-- The words of a request are read back from its bytes. -/
theorem readWords_reads {request : Request} (within : request.bytes.length ≤ maxLength) :
    Reads readWords request.bytes request.words := by
  -- The number of words and the length of each are within the limit, since all their bytes are.
  have few := length_le_length_flatMap request.words
  have whole : request.bytes.length = (Reply.arrayHeader request.words.length).length +
      (request.words.flatMap Reply.encodeBulk).length := List.length_append
  -- The number of words is read like the length of a byte string.
  have reads := (readLength_reads (show request.words.length ≤ maxLength by omega)).bind readBulks
    (readBulks_reads fun item member => Nat.le_trans (few.2 item member) (by omega))
  have marked : Reads readWords _ request.words := reads.marked rfl readWords_asterisk
  simpa [bytes, Reply.arrayHeader, Reply.line] using marked

/-- A request is read back from its bytes. -/
theorem readFirst_reads {request : Request} (within : request.bytes.length ≤ maxLength) :
    Reads readFirst request.bytes request := by
  -- A request has a name, so that its words are never passed over.
  rw [funext readFirst_eq, ← List.append_nil request.bytes]
  exact (readWords_reads within).bind readAfter (.nothing request)

/-- The bytes that ask for requests in turn. -/
def stream (requests : List Request) : Bytes := requests.flatMap bytes

/-- The stream of one request more starts with its bytes. -/
theorem stream_cons (request : Request) (others : List Request) :
    stream (request :: others) = request.bytes ++ stream others := List.flatMap_cons

/-- Requests that follow others follow them in the stream. -/
theorem stream_append (earlier later : List Request) :
    stream (earlier ++ later) = stream earlier ++ stream later := List.flatMap_append

/-- Bytes that are not yet the first one of the requests: nothing, or a
proper beginning of its bytes. -/
def Unfinished : List Request → Bytes → Prop
  | [], left => left = []
  | next :: _, left => ∃ missing, missing ≠ [] ∧ left ++ missing = next.bytes

/-- The beginning of a stream holds some requests in full, and at most a part of the next one. -/
theorem exists_unfinished {requests : List Request} {front : Bytes}
    (begins : front <+: stream requests) :
    ∃ done pending left, requests = done ++ pending ∧ front = stream done ++ left ∧
      Unfinished pending left := by
  -- By induction on the requests, from the front on.
  induction requests generalizing front with
  | nil => exact ⟨[], [], [], rfl, List.prefix_nil.mp begins, rfl⟩
  | cons request others ih =>
    obtain ⟨missing, together⟩ := begins
    rw [stream_cons] at together
    -- The beginning ends either within the first request or behind it.
    rcases List.append_eq_append_iff.mp together with ⟨between, whole, _⟩ | ⟨behind, rfl, rest⟩
    · by_cases ended : between = []
      · -- The first request is there in full, and nothing of the others.
        subst ended
        obtain ⟨done, pending, left, rfl, empty, unfinished⟩ := ih (List.nil_prefix)
        refine ⟨request :: done, pending, left, rfl, ?_, unfinished⟩
        rw [stream_cons, List.append_assoc, ← empty, whole, List.append_nil, List.append_nil]
      · exact ⟨[], request :: others, front, rfl, rfl, between, ended, whole.symm⟩
    · obtain ⟨done, pending, left, rfl, rfl, unfinished⟩ := ih ⟨missing, rest.symm⟩
      refine ⟨request :: done, pending, left, rfl, ?_, unfinished⟩
      rw [stream_cons, List.append_assoc]

/-- A part of the next request is waited with. -/
theorem readFirst_unfinished {pending : List Request} {left : Bytes}
    (unfinished : Unfinished pending left) (within : (stream pending).length ≤ maxLength) :
    readFirst left = .error .incomplete := by
  cases pending with
  | nil =>
    -- No bytes are an unfinished request.
    obtain rfl : left = [] := unfinished
    rw [readFirst_eq]
    rfl
  | cons next others =>
    obtain ⟨missing, missed, whole⟩ := unfinished
    have small : next.bytes.length ≤ maxLength := by
      rw [stream_cons, List.length_append] at within
      omega
    exact (readFirst_reads small).part left missing whole missed

end Request

namespace Arrival

/-- Requests in full are read one after the other, up to bytes that are none yet. -/
theorem ofBuffer_stream {requests : List Request} {left : Bytes}
    (waits : Request.readFirst left = .error .incomplete)
    (within : (Request.stream requests ++ left).length ≤ Request.maxLength) :
    ofBuffer (Request.stream requests ++ left) = ⟨requests, .incomplete, left⟩ := by
  -- The requests are taken from the front, and the bytes left stay the last ones.
  induction requests with
  | nil =>
    refine ofBuffer_of_error ?_
    -- Behind the last request only what is left stands to be read.
    rw [Request.read_eq_readFirst within]
    exact waits
  | cons request others ih =>
    have parts : Request.stream (request :: others) ++ left =
        request.bytes ++ (Request.stream others ++ left) := by
      rw [Request.stream_cons, List.append_assoc]
    rw [parts] at within ⊢
    have small : request.bytes.length ≤ Request.maxLength := by
      rw [List.length_append] at within
      omega
    have found : Request.read (request.bytes ++ (Request.stream others ++ left)) =
        .ok (request, Request.stream others ++ left) := by
      rw [Request.read_eq_readFirst within]
      exact (Request.readFirst_reads small).whole _
    rw [ofBuffer_of_ok found, ih (by rw [List.length_append] at within; omega)]
    rfl

/-- What the beginning of a stream of requests has come to: the requests that have arrived,
and a part of the next one. -/
structure Received (requests : List Request) (front : Bytes) (arrival : Arrival) : Prop where
  /-- Reading goes on. -/
  waits : arrival.stop = .incomplete
  /-- Every byte belongs to a request that was read, or is left. -/
  whole : front = Request.stream arrival.requests ++ arrival.left
  /-- Of the requests not read, the first one has not arrived in full. -/
  pending : ∃ pending, requests = arrival.requests ++ pending ∧
    Request.Unfinished pending arrival.left

namespace Received

variable {requests : List Request} {front chunk : Bytes} {sofar : Arrival}

/-- One more chunk of the stream is received after what was left. -/
theorem step (received : Received requests front sofar)
    (begins : front ++ chunk <+: Request.stream requests)
    (within : (Request.stream requests).length ≤ Request.maxLength) :
    Received requests (front ++ chunk) (sofar.andThen (ofBuffer (sofar.left ++ chunk))) := by
  obtain ⟨waits, rfl, pending, rfl, -⟩ := received
  rw [Request.stream_append] at begins within
  rw [List.append_assoc, List.prefix_append_right_inj] at begins
  -- The chunk completes some of the pending requests and begins the next one.
  obtain ⟨done, later, left, rfl, together, unfinished⟩ := Request.exists_unfinished begins
  have small := begins.length_le
  simp only [Request.stream_append, List.length_append] at within small
  have waiting := Request.readFirst_unfinished unfinished (by omega)
  have read : ofBuffer (sofar.left ++ chunk) = ⟨done, .incomplete, left⟩ := by
    rw [together]
    refine ofBuffer_stream waiting ?_
    rw [← together]
    simp only [List.length_append]
    omega
  have opened : sofar.isOpen = true := by simp [isOpen, waits]
  rw [read, andThen, if_pos opened]
  -- Nothing is lost: what was left and the chunk are the requests read and what is left now.
  refine ⟨rfl, ?_, later, (List.append_assoc ..).symm, unfinished⟩
  rw [Request.stream_append, List.append_assoc, List.append_assoc, together]

/-- Chunks of the stream are received one after the other. -/
theorem run {chunks : List Bytes} (received : Received requests front sofar)
    (begins : front ++ chunks.flatten <+: Request.stream requests)
    (within : (Request.stream requests).length ≤ Request.maxLength) :
    Received requests (front ++ chunks.flatten)
      ((ofChunks sofar.left chunks).foldl andThen sofar) := by
  -- The bytes received so far grow by a chunk in each step.
  induction chunks generalizing front sofar with
  | nil => simpa [ofChunks] using received
  | cons chunk later ih =>
    rw [List.flatten_cons, ← List.append_assoc] at begins ⊢
    have next := received.step ((List.prefix_append _ _).trans begins) within
    have opened : sofar.isOpen = true := by simp [isOpen, received.waits]
    have same : (sofar.andThen (ofBuffer (sofar.left ++ chunk))).left =
        (ofBuffer (sofar.left ++ chunk)).left := by
      rw [andThen, if_pos opened]
    -- The chunk leaves the stream open, so that the later ones are looked at.
    have goesOn : (ofBuffer (sofar.left ++ chunk)).isOpen = true := by
      have waits := next.waits
      rw [andThen, if_pos opened] at waits
      simpa [isOpen] using waits
    have rest := ih next begins
    rw [same] at rest
    simpa only [ofChunks, if_pos goesOn, List.foldl_cons] using rest

/-- What was received are requests of the stream, in order. -/
theorem prefix_requests (received : Received requests front sofar) :
    sofar.requests <+: requests := by
  obtain ⟨pending, rfl, -⟩ := received.pending
  exact List.prefix_append _ _

/-- The first requests have been read as soon as their bytes have arrived. -/
theorem prefix_iff (received : Received requests front sofar) {earlier : List Request}
    (begins : earlier <+: requests) :
    earlier <+: sofar.requests ↔ Request.stream earlier <+: front := by
  obtain ⟨-, rfl, pending, rfl, unfinished⟩ := received
  constructor
  · -- What has been read has arrived.
    rintro ⟨others, read⟩
    rw [← read, Request.stream_append, List.append_assoc]
    exact List.prefix_append _ _
  · intro came
    rcases List.prefix_or_prefix_of_prefix begins (List.prefix_append _ pending) with
      read | ⟨more, rfl⟩
    · exact read
    · -- Further requests would have to fit into what is left, which not even the next one does.
      rw [Request.stream_append, List.prefix_append_right_inj] at came
      rw [List.prefix_append_right_inj] at begins
      cases more with
      | nil => simp
      | cons request rest =>
        obtain ⟨last, rfl⟩ := begins
        obtain ⟨missing, missed, whole⟩ := unfinished
        have fits := came.length_le
        have total := congrArg List.length whole
        have some := List.length_pos_iff.mpr missed
        rw [Request.stream_cons] at fits
        simp only [List.length_append] at fits total
        omega

end Received

/-- The first chunks come to the first arrivals. -/
theorem take_ofChunks (left : Bytes) (chunks : List Bytes) (count : Nat) :
    (ofChunks left chunks).take count = ofChunks left (chunks.take count) := by
  -- The chunks are followed as long as the stream stays open, and the list as long as it counts.
  induction chunks generalizing left count with
  | nil => simp [ofChunks]
  | cons chunk later ih =>
    cases count with
    | zero => simp [ofChunks]
    | succ count =>
      simp only [ofChunks, List.take_succ_cons]
      split
      · rw [List.take_succ_cons, ih]
      · rw [List.take_succ_cons, List.take_nil]

/-- Written requests are read back one by one as their last bytes arrive, and
in the end nothing is left. -/
theorem joined_stream {requests : List Request} {chunks : List Bytes}
    (whole : chunks.flatten = Request.stream requests)
    (within : (Request.stream requests).length ≤ Request.maxLength) :
    joined (ofChunks [] chunks) = ⟨requests, .incomplete, []⟩ ∧
      ∀ count, let sofar := joined ((ofChunks [] chunks).take count)
        let front := (chunks.take count).flatten
        sofar.stop = .incomplete ∧ sofar.requests <+: requests ∧
          front = Request.stream sofar.requests ++ sofar.left ∧
          ∀ earlier, earlier <+: requests →
            (earlier <+: sofar.requests ↔ Request.stream earlier <+: front) := by
  have start : Received requests [] ⟨[], .incomplete, []⟩ := by
    -- Before the first chunk all requests are pending, and of the first one no byte has arrived.
    refine ⟨rfl, rfl, requests, rfl, ?_⟩
    cases requests with
    | nil => rfl
    | cons next others =>
      exact ⟨next.bytes, by simp [Request.bytes, Reply.arrayHeader, Reply.line], rfl⟩
  have received (chunks : List Bytes) (begins : chunks.flatten <+: Request.stream requests) :
      Received requests chunks.flatten (joined (ofChunks [] chunks)) := start.run begins within
  constructor
  · -- All bytes have arrived, and so have all requests.
    have last := received chunks (whole ▸ List.prefix_rfl)
    -- The requests read are a beginning of all, and all have arrived.
    have all := last.prefix_requests.eq_of_length_le
      ((last.prefix_iff List.prefix_rfl).mpr (whole ▸ List.prefix_rfl)).length_le
    have left : (joined (ofChunks [] chunks)).left = [] := by
      have bytes := last.whole
      rw [all, whole] at bytes
      simpa using bytes
    have waits := last.waits
    generalize joined (ofChunks [] chunks) = arrival at all left waits
    cases arrival
    simp_all
  · -- The first chunks hold a beginning of the stream.
    intro count
    have begins : (chunks.take count).flatten <+: Request.stream requests := by
      rw [← whole]
      conv_rhs => rw [← List.take_append_drop count chunks, List.flatten_append]
      exact List.prefix_append _ _
    have sofar := received (chunks.take count) begins
    rw [← take_ofChunks] at sofar
    exact ⟨sofar.waits, sofar.prefix_requests, sofar.whole, fun earlier => sofar.prefix_iff⟩

/-- Two requests in three chunks, of which the first one holds none and the last one
a word that is a line end. -/
theorem joined_stream_line_end :
    joined (ofChunks [] [Text.bytes "*1\r", Text.bytes "\n$4\r\nPING\r\n*2\r\n$3\r\nDEL",
        Text.bytes "\r\n$2\r\n\r\n\r\n"]) =
      ⟨[⟨Text.bytes "PING", []⟩, ⟨Text.bytes "DEL", [Bytes.lineEnd]⟩], .incomplete, []⟩ :=
  (joined_stream (by decide +kernel) (by decide +kernel)).1

end Arrival
end ScoreStore
