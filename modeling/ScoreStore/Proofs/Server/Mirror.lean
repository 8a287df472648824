import ScoreStore.Proofs.Range.Mirror
import ScoreStore.Proofs.Server.Removal
import ScoreStore.Proofs.Server.Selected

/-!
Listings in either direction: a listing downwards shows in reverse what the listing upwards with
mirrored ends shows, and is refused where that one is.
-/

namespace ScoreStore

/-- The listing of the same elements from the other end. -/
def SortedSetAction.mirrored : SortedSetAction → SortedSetAction
  | list selection reverse page withScores => list selection.mirrored (!reverse) page withScores
  | action => action

namespace Criterion

/-- The command that lists the selected elements upwards or downwards. -/
def listing (criterion : Criterion) (reverse : Bool) : CommandName :=
  match criterion with
  | byScore => .listsByScore reverse
  | byLex => .listsByLex reverse
  | byRank => .listsByRank reverse

/-- Reads two words as the ends of a listing upwards or downwards, unless they are none. -/
def ends? (criterion : Criterion) (reverse : Bool) (first second : Bytes) : Option Selection :=
  match criterion with
  | byScore => (ScoreRange.read? reverse first second).map .byScore
  | byLex => (LexRange.read? reverse first second).map .byLex
  | byRank => byRank.read? first second

/-- The refusal of words that are no ends. -/
def refusal : Criterion → Refusal
  | byScore => .boundNotAFloat
  | byLex => .boundNotAMember
  | byRank => .notAnInteger

/-- Reads the words behind the ends of a listing. -/
def options (criterion : Criterion) (words : List Bytes) : Except Refusal ListOptions :=
  match criterion with
  | byScore => ListOptions.read true {} words
  | byLex => ListOptions.read false {} words
  | byRank => (SortedSetAction.readWithScores words).map fun withScores => { withScores }

/-- Reads a listing from its ends and the words behind them. -/
def readListing (criterion : Criterion) (reverse : Bool) (first second : Bytes)
    (words : List Bytes) : Except Obstacle SortedSetAction := do
  let selection ← Request.orRefuse criterion.refusal (criterion.ends? reverse first second)
  let options ← SortedSetAction.refusable (criterion.options words)
  return .list selection reverse options.page options.withScores

/-- The ends of a listing downwards mirror those of one upwards: ends of ranges are exchanged, and
positions are counted from the other end too. -/
def Mirrors (criterion : Criterion) (first second top bottom : Bytes) : Prop :=
  match criterion with
  | byScore | byLex => top = second ∧ bottom = first
  | byRank => Decimal.signed64? first = (Decimal.signed64? bottom).map (-1 - ·) ∧
      Decimal.signed64? second = (Decimal.signed64? top).map (-1 - ·)

variable {criterion : Criterion} {request : Request} {key first second top bottom : Bytes}
  {words : List Bytes}

/-- A window is read from its ends, or refused where one of them is no integer. -/
theorem readByRank_orRefuse (arguments : request.arguments = key :: first :: second :: words) :
    SortedSetAction.readByRank request =
      Request.orRefuse .notAnInteger (byRank.read? first second) := by
  have start : request.needInteger 1 =
      Request.orRefuse .notAnInteger (Decimal.signed64? first) := by
    rw [Request.needInteger, Request.need, arguments]
    rfl
  have stop : request.needInteger 2 =
      Request.orRefuse .notAnInteger (Decimal.signed64? second) := by
    rw [Request.needInteger, Request.need, arguments]
    rfl
  rw [SortedSetAction.readByRank, start, stop, read?]
  -- The first end is looked at before the second one, as it is when both are read at once.
  cases Decimal.signed64? first with
  | none => rfl
  | some start => cases Decimal.signed64? second <;> rfl

/-- A listing is read from its ends first, and then from the words behind them. -/
theorem ofName?_listing (reverse : Bool)
    (arguments : request.arguments = key :: first :: second :: words) :
    SortedSetAction.ofName? request (criterion.listing reverse) =
      some (criterion.readListing reverse first second words) := by
  -- The commands differ in how they read their ends and the words behind them, and in nothing else.
  have behind : request.arguments.drop 3 = words := by rw [arguments]; rfl
  have needed : request.need 1 = .ok first ∧ request.need 2 = .ok second := by
    simp only [Request.need, arguments]
    exact ⟨rfl, rfl⟩
  cases criterion with
  | byScore =>
    refine SortedSetAction.ofName?_listsByScore.trans (congrArg some ?_)
    simp only [SortedSetAction.readListByRange, SortedSetAction.readByScore, needed, behind]
    rfl
  | byLex =>
    refine SortedSetAction.ofName?_listsByLex.trans (congrArg some ?_)
    simp only [SortedSetAction.readListByRange, SortedSetAction.readByLex, needed, behind]
    rfl
  | byRank =>
    refine (SortedSetAction.ofName?_readListByRank reverse).trans (congrArg some ?_)
    rw [SortedSetAction.readListByRank, readByRank_orRefuse arguments, behind, readListing,
      options]
    -- No word behind the ends asks for a page.
    cases SortedSetAction.readWithScores words <;> rfl

/-- Mirrored ends are read as the mirrored selection, and as none where the others are none. -/
theorem Mirrors.ends? (mirrors : criterion.Mirrors first second top bottom) :
    criterion.ends? true top bottom =
      (criterion.ends? false first second).map Selection.mirrored := by
  cases criterion with
  | byScore =>
    -- The end that comes first is the upper one, so that the range is the same.
    obtain ⟨rfl, rfl⟩ := mirrors
    simp only [Criterion.ends?, ScoreRange.read?]
    cases ScoreBound.read? bottom <;> cases ScoreBound.read? top <;> rfl
  | byLex =>
    -- The two ends of a name range are swapped in the same way.
    obtain ⟨rfl, rfl⟩ := mirrors
    simp only [Criterion.ends?, LexRange.read?]
    cases LexBound.read? bottom <;> cases LexBound.read? top <;> rfl
  | byRank =>
    -- Counting from the other end twice gives the first window again.
    obtain ⟨start, stop⟩ := mirrors
    simp only [Criterion.ends?, read?, start, stop]
    cases Decimal.signed64? top with
    | none => cases Decimal.signed64? bottom <;> rfl
    | some start =>
      cases Decimal.signed64? bottom with
      | none => rfl
      | some stop =>
        exact congrArg (fun window => some (Selection.byRank window))
          (Window.mirrored_mirrored ⟨start, stop⟩).symm

/-- A listing with mirrored ends is read as the mirrored listing, and
refused as the other one is. -/
theorem Mirrors.readListing (mirrors : criterion.Mirrors first second top bottom)
    (words : List Bytes) : criterion.readListing true top bottom words =
      (criterion.readListing false first second words).map SortedSetAction.mirrored := by
  -- The words behind the ends are looked at only where there are ends,
  -- which is for both or neither.
  rw [Criterion.readListing, Criterion.readListing, mirrors.ends?]
  cases criterion.ends? false first second with
  | none => rfl
  | some selection => cases criterion.options words <;> rfl

end Criterion

namespace Request

variable {criterion : Criterion} {request : Request} {key first second : Bytes}
  {words : List Bytes}

/-- A listing is the action under the key that its words are read as. -/
theorem instruction_listing {reverse : Bool}
    (named : request.name = (criterion.listing reverse).text)
    (arguments : request.arguments = key :: first :: second :: words) (site : Site) :
    request.instruction site = (criterion.readListing reverse first second words).map
      fun action => .act (.sortedSet key action) := by
  -- All six names are of the sorted set commands and want four words at least.
  have group : (criterion.listing reverse).group = .sortedSets := by
    cases criterion <;> cases reverse <;> rfl
  have arity : (criterion.listing reverse).entry.arity = -4 := by
    cases criterion <;> cases reverse <;> rfl
  exact instruction_reading group named (accepts_listing arity arguments) (by rw [arguments]; rfl)
    (Criterion.ofName?_listing reverse arguments) site

end Request

namespace Server

/-- A listing downwards mirrors the one upwards with mirrored ends,
whatever is stored under the key. -/
structure Mirrored (server : Server) (number : Nat) (name : KeyName) (criterion : Criterion)
    (first second top bottom : Bytes) : Prop where
  /-- Both are refused for the same words, and for the same reason. -/
  refused : ∀ (words : List Bytes) (up down : Request),
    up.name = (criterion.listing false).text → up.arguments = name.2 :: first :: second :: words →
    down.name = (criterion.listing true).text → down.arguments = name.2 :: top :: bottom :: words →
    ∀ obstacle, up.instruction server.site = .error obstacle ↔
      down.instruction server.site = .error obstacle
  /-- Where the ends are none, both are told so. -/
  noEnds : criterion.ends? false first second = none → ∀ words,
    server.Tells number (criterion.listing false) (name.2 :: first :: second :: words)
      criterion.refusal.reply ∧
    server.Tells number (criterion.listing true) (name.2 :: top :: bottom :: words)
      criterion.refusal.reply
  /-- Where a string is stored, both are told so. -/
  wrongType : ∀ content selection words options,
    valueAt server.databases name = some (.string content) →
    criterion.ends? false first second = some selection → criterion.options words = .ok options →
    server.Tells number (criterion.listing false) (name.2 :: first :: second :: words)
      Refusal.wrongType.reply ∧
    server.Tells number (criterion.listing true) (name.2 :: top :: bottom :: words)
      Refusal.wrongType.reply
  /-- Otherwise the elements that one of them shows are shown by the other in reverse, each with its
  score if scores are asked for. -/
  listed : ∀ set selection words withScores, server.Finds number name set →
    criterion.ends? false first second = some selection →
    criterion.options words = .ok { withScores } →
    (criterion = .byRank → (set.size : Int) ≤ Decimal.maxSigned64) →
    server.Tells number (criterion.listing false) (name.2 :: first :: second :: words)
      (.ofElements withScores (selection.select false set)) ∧
    server.Tells number (criterion.listing true) (name.2 :: top :: bottom :: words)
      (.ofElements withScores (selection.select false set).reverse)

section Listings

variable {server : Server} {number : Nat} {name : KeyName} {criterion : Criterion}
  {first second top bottom : Bytes} {words : List Bytes} {reverse : Bool}

/-- A listing is told why its words are refused. -/
theorem tells_refusal {refusal : Refusal}
    (read : criterion.readListing reverse first second words = .error (.refusal refusal)) :
    server.Tells number (criterion.listing reverse) (name.2 :: first :: second :: words)
      refusal.reply := by
  intro request named arguments
  -- The refusal is that of the words, so that no key is looked at.
  have refused := Request.instruction_listing named arguments server.site
  rw [read] at refused
  rw [handle_of_refusal refused]

/-- A listing is told what its action tells of the set that is found. -/
theorem Finds.tells_listing {set : SortedSet} {action : SortedSetAction}
    (finds : server.Finds number name set)
    (read : criterion.readListing reverse first second words = .ok action) :
    server.Tells number (criterion.listing reverse) (name.2 :: first :: second :: words)
      (action.effect set).1 := by
  intro request named arguments
  have accepted := Request.instruction_listing named arguments server.site
  rw [read] at accepted
  exact finds.answer accepted

/-- A listing of a string is told that it is none of its kind. -/
theorem IsReached.tells_wrongType (reached : server.IsReached)
    (outside : server.isQueueing number = false)
    (selected : (server.scope number).connection.selected = name.1) {content : Bytes}
    {action : SortedSetAction} (stored : valueAt server.databases name = some (.string content))
    (read : criterion.readListing reverse first second words = .ok action) :
    server.Tells number (criterion.listing reverse) (name.2 :: first :: second :: words)
      Refusal.wrongType.reply := by
  intro request named arguments
  have accepted := Request.instruction_listing named arguments server.site
  rw [read] at accepted
  -- All words are in order, so that only the type of the value is left to be looked at.
  have known : CommandName.ofLowercase? request.name = some (criterion.listing reverse) :=
    named ▸ CommandName.ofLowercase?_text _
  have single : (criterion.listing reverse).namesOneKey = true := by
    cases criterion <;> cases reverse <;> rfl
  have typed : (criterion.listing reverse).isTyped = true := by
    cases criterion <;> cases reverse <;> decide
  have wanted : (criterion.listing reverse).suits (.string content) = false := by
    cases criterion <;> cases reverse <;> rfl
  have asks : server.AsksAbout number request name :=
    ⟨outside, selected, ⟨_, known, single⟩, by rw [arguments]; rfl⟩
  exact (handle_checksType reached asks named typed accepted).refused.mpr ⟨_, stored, wanted⟩

/-- The ends of a listing by position are 64-bit integers, as mirroring needs it. -/
theorem counts_of_ends? {selection : Selection} {set : SortedSet} (sound : set.Sound)
    (ends : criterion.ends? false first second = some selection)
    (short : criterion = .byRank → (set.size : Int) ≤ Decimal.maxSigned64) :
    selection.Counts set := by
  -- Only a selection by rank counts elements.
  rintro window rfl
  cases criterion with
  | byScore =>
    obtain ⟨range, _, other⟩ := Option.map_eq_some_iff.mp ends
    cases other
  | byLex =>
    obtain ⟨range, _, other⟩ := Option.map_eq_some_iff.mp ends
    cases other
  | byRank =>
    -- A window is read from two words within the limits of 64 bits.
    obtain ⟨start, first, ends⟩ := Option.bind_eq_some_iff.mp ends
    obtain ⟨stop, second, ends⟩ := Option.bind_eq_some_iff.mp ends
    obtain rfl := Selection.byRank.inj (Option.some.inj ends)
    exact ⟨⟨Decimal.signed64?_within first, Decimal.signed64?_within second⟩,
      sound.size_eq ▸ short rfl⟩

/-- In every run listings with mirrored ends mirror each other. -/
theorem IsReached.mirrored (reached : server.IsReached)
    (outside : server.isQueueing number = false)
    (selected : (server.scope number).connection.selected = name.1)
    (mirrors : criterion.Mirrors first second top bottom) :
    server.Mirrored number name criterion first second top bottom := by
  -- What is told is settled by how the words are read, and both are read alike up to mirroring.
  have readDown (words : List Bytes) {reading : Except Obstacle SortedSetAction}
      (read : criterion.readListing false first second words = reading) :
      criterion.readListing true top bottom words = reading.map .mirrored :=
    read ▸ mirrors.readListing words
  have readUp {words : List Bytes} {selection : Selection} {options : ListOptions}
      (ends : criterion.ends? false first second = some selection)
      (behind : criterion.options words = .ok options) :
      criterion.readListing false first second words =
        .ok (.list selection false options.page options.withScores) := by
    rw [Criterion.readListing, ends, behind]
    rfl
  refine ⟨?_, ?_, ?_, ?_⟩
  · -- A refusal has nothing to mirror.
    intro words up down upNamed upArguments downNamed downArguments obstacle
    rw [Request.instruction_listing upNamed upArguments,
      Request.instruction_listing downNamed downArguments, mirrors.readListing]
    cases criterion.readListing false first second words with
    | error reason => exact Iff.rfl
    | ok action => constructor <;> intro refused <;> cases refused
  · -- Nothing behind the ends is looked at without them.
    intro none words
    have read : criterion.readListing false first second words =
        .error (.refusal criterion.refusal) := by
      rw [Criterion.readListing, none]
      rfl
    exact ⟨tells_refusal read, tells_refusal (readDown words read)⟩
  · -- With all words in order, the command gets as far as the value.
    intro content selection words options stored ends behind
    have read := readUp ends behind
    exact ⟨reached.tells_wrongType outside selected stored read,
      reached.tells_wrongType outside selected stored (readDown words read)⟩
  · intro set selection words withScores finds ends behind short
    have read := readUp ends behind
    -- The mirrored selection shows the same elements from the other end.
    have mirrored := Selection.select_mirrored (counts_of_ends? finds.sound ends short)
    refine ⟨finds.tells_listing read, ?_⟩
    rw [← mirrored]
    exact finds.tells_listing (readDown words read)

end Listings

/-- The ends of every window of signed 64-bit integers can be mirrored, and in every run listings
with mirrored ends mirror each other: by position, by score and by member. -/
theorem listings_mirrored :
    (∀ start stop : Int64, Criterion.byRank.Mirrors (Decimal.ofInt (-1 - stop.toInt))
      (Decimal.ofInt (-1 - start.toInt)) (Decimal.ofInt start.toInt)
      (Decimal.ofInt stop.toInt)) ∧
    ∀ (server : Server) (number : Nat) (name : KeyName) (criterion : Criterion)
      (first second top bottom : Bytes),
      server.IsReached → server.isQueueing number = false →
      (server.scope number).connection.selected = name.1 →
      criterion.Mirrors first second top bottom →
      server.Mirrored number name criterion first second top bottom := by
  refine ⟨?_, fun server number name criterion first second top bottom => IsReached.mirrored⟩
  intro start stop
  have least : Decimal.minSigned64 = -2 ^ 63 := rfl
  have greatest : Decimal.maxSigned64 = 2 ^ 63 - 1 := rfl
  -- What a word stands for is read back, and so is its mirror image.
  have read (word : Int64) : Decimal.signed64? (Decimal.ofInt word.toInt) = some word.toInt ∧
      Decimal.signed64? (Decimal.ofInt (-1 - word.toInt)) = some (-1 - word.toInt) := by
    have atLeast := word.le_toInt
    have atMost := word.toInt_lt
    exact ⟨Decimal.signed64?_ofInt (by omega) (by omega),
      Decimal.signed64?_ofInt (by omega) (by omega)⟩
  constructor
  · -- The start of one window is the stop of the other, counted from the other end.
    rw [(read stop).1, (read stop).2]
    rfl
  · rw [(read start).1, (read start).2]
    rfl

/-- The last two elements with their scores are the first two backwards, and an
excluded end stays excluded. -/
theorem listings_mirrored_three :
    let server := (start 1 ⟨"localhost", 6379⟩).run [.connect 1, .request 1 ⟨Text.bytes "ZADD",
      [Text.bytes "z", Text.bytes "3", Text.bytes "a", Text.bytes "3", Text.bytes "b",
        Text.bytes "4", Text.bytes "c"]⟩]
    server.Tells 1 .zrange
      [Text.bytes "z", Text.bytes "-2", Text.bytes "9223372036854775807", Text.bytes "WithScores"]
      (.ofList [Text.bytes "b", Text.bytes "3", Text.bytes "c", Text.bytes "4"]) ∧
    server.Tells 1 .zrevrange
      [Text.bytes "z", Text.bytes "-9223372036854775808", Text.bytes "1", Text.bytes "WithScores"]
      (.ofList [Text.bytes "c", Text.bytes "4", Text.bytes "b", Text.bytes "3"]) ∧
    server.Tells 1 .zrangebyscore [Text.bytes "z", Text.bytes "3", Text.bytes "(4"]
      (.ofList [Text.bytes "a", Text.bytes "b"]) ∧
    server.Tells 1 .zrevrangebyscore [Text.bytes "z", Text.bytes "(4", Text.bytes "3"]
      (.ofList [Text.bytes "b", Text.bytes "a"]) ∧
    server.Tells 1 .zrevrangebylex [Text.bytes "z", Text.bytes "[b", Text.bytes "a"]
      Refusal.boundNotAMember.reply := by
  intro server
  have content : server.contentAt (0, Text.bytes "z") = some (.sortedSet
      [⟨Text.bytes "a", ⟨false, 4613937818241073152, by decide⟩⟩,
        ⟨Text.bytes "b", ⟨false, 4613937818241073152, by decide⟩⟩,
        ⟨Text.bytes "c", ⟨false, 4616189618054758400, by decide⟩⟩]) := by decide +kernel
  have reached : server.IsReached := ⟨1, _, _, rfl⟩
  have outside : server.isQueueing 1 = false := by decide +kernel
  have selected : (server.scope 1).connection.selected = 0 := by decide +kernel
  obtain ⟨set, finds, elements⟩ := reached.finds_of_contentAt 1 outside selected content
  have size : set.size = 3 := by
    rw [finds.sound.size_eq, elements]
    rfl
  have mirrored (criterion : Criterion) (first second top bottom : Bytes)
      (mirrors : criterion.Mirrors first second top bottom) :
      server.Mirrored 1 (0, Text.bytes "z") criterion first second top bottom :=
    listings_mirrored.2 server 1 _ criterion first second top bottom reached outside selected
      mirrors
  -- What is shown depends on the elements alone.
  obtain ⟨positions, atRanks, lastTwo⟩ : ∃ selection,
      Criterion.byRank.ends? false (Text.bytes "-2") (Text.bytes "9223372036854775807") =
        some selection ∧ selection.select false set =
      [⟨Text.bytes "b", ⟨false, 4613937818241073152, by decide⟩⟩,
        ⟨Text.bytes "c", ⟨false, 4616189618054758400, by decide⟩⟩] := by
    refine ⟨.byRank ⟨-2, 9223372036854775807⟩, by decide +kernel, ?_⟩
    rw [Selection.select, elements]
    decide +kernel
  obtain ⟨scores, atScores, firstTwo⟩ : ∃ selection,
      Criterion.byScore.ends? false (Text.bytes "3") (Text.bytes "(4") = some selection ∧
        selection.select false set =
      [⟨Text.bytes "a", ⟨false, 4613937818241073152, by decide⟩⟩,
        ⟨Text.bytes "b", ⟨false, 4613937818241073152, by decide⟩⟩] := by
    refine ⟨.byScore ⟨.inclusive ⟨false, 4613937818241073152, by decide⟩,
      .exclusive ⟨false, 4616189618054758400, by decide⟩⟩, by decide +kernel, ?_⟩
    rw [Selection.select, elements]
    decide +kernel
  -- The bounds of both directions are those of the general theorem, at these tokens.
  have ranked := (mirrored .byRank _ _ (Text.bytes "-9223372036854775808") (Text.bytes "1")
    (And.intro (by decide +kernel) (by decide +kernel))).listed set positions
      [Text.bytes "WithScores"] true finds atRanks (by decide +kernel) fun _ => by
        rw [size]
        decide
  have scored := (mirrored .byScore _ _ _ _ (And.intro rfl rfl)).listed set scores [] false finds
    atScores rfl fun other => by cases other
  have named := (mirrored .byLex (Text.bytes "a") (Text.bytes "[b") _ _
    (And.intro rfl rfl)).noEnds (by decide +kernel) []
  rw [lastTwo] at ranked
  rw [firstTwo] at scored
  -- The replies have the scores as they are written.
  have three : Score.write ⟨false, 4613937818241073152, by decide⟩ = Text.bytes "3" := by
    decide +kernel
  have four : Score.write ⟨false, 4616189618054758400, by decide⟩ = Text.bytes "4" := by
    decide +kernel
  refine ⟨?_, ?_, scored.1, scored.2, named.2⟩
  · rw [← three, ← four]
    exact ranked.1
  · rw [← three, ← four]
    exact ranked.2

end Server
end ScoreStore
