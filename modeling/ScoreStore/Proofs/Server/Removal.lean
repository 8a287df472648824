import ScoreStore.Proofs.Command.Removal
import ScoreStore.Proofs.Server.Positions

/-!
Counting, listing and removing agree: what is counted and listed for two words is what is
removed for them, and nothing else.
-/

namespace ScoreStore

/-- What two words say about the elements that they select. -/
inductive Criterion where
  /-- Between which scores they lie. -/
  | byScore
  /-- Between which members they lie. -/
  | byLex
  /-- Between which positions they lie. -/
  | byRank
deriving DecidableEq

namespace Criterion

/-- The command that lists the selected elements. -/
def lists : Criterion → CommandName
  | byScore => .zrangebyscore
  | byLex => .zrangebylex
  | byRank => .zrange

/-- The command that counts the selected elements, where there is one. -/
def counts? : Criterion → Option CommandName
  | byScore => some .zcount
  | byLex => some .zlexcount
  | byRank => none

/-- The command that removes the selected elements. -/
def removes : Criterion → CommandName
  | byScore => .zremrangebyscore
  | byLex => .zremrangebylex
  | byRank => .zremrangebyrank

/-- Reads two words, unless they are no ends. -/
def read? (criterion : Criterion) (first second : Bytes) : Option Selection :=
  match criterion with
  | byScore => (ScoreRange.read? false first second).map .byScore
  | byLex => (LexRange.read? false first second).map .byLex
  | byRank => do
    let start ← Decimal.signed64? first
    let stop ← Decimal.signed64? second
    return .byRank ⟨start, stop⟩

/-- How the commands read the two words after the key. -/
def reading (criterion : Criterion) (request : Request) : Except Obstacle Selection :=
  match criterion with
  | byScore => SortedSetAction.readByScore false request
  | byLex => SortedSetAction.readByLex false request
  | byRank => SortedSetAction.readByRank request

variable {criterion : Criterion} {request : Request} {key first second : Bytes}
  {words : List Bytes} {selection : Selection}

/-- The commands read the same two words in the same way. -/
theorem reading_eq (arguments : request.arguments = key :: first :: second :: words)
    (read : criterion.read? first second = some selection) :
    criterion.reading request = .ok selection := by
  -- Each criterion has its own reader of two words, and the commands share it.
  cases criterion with
  | byScore =>
    obtain ⟨range, ends, rfl⟩ := Option.map_eq_some_iff.mp read
    exact SortedSetAction.readByScore_eq arguments ends
  | byLex =>
    obtain ⟨range, ends, rfl⟩ := Option.map_eq_some_iff.mp read
    exact SortedSetAction.readByLex_eq arguments ends
  | byRank =>
    obtain ⟨start, first, read⟩ := Option.bind_eq_some_iff.mp read
    obtain ⟨stop, second, read⟩ := Option.bind_eq_some_iff.mp read
    obtain rfl := Option.some.inj read
    exact SortedSetAction.readByRank_eq arguments first second

/-- A listing is read from its ends and what it asks for, which is no scores
where only members are listed. -/
theorem ofName?_lists {withScores : Bool}
    (arguments : request.arguments = key :: first :: second :: words)
    (read : criterion.read? first second = some selection) (asks : AsksScores words withScores)
    (allowed : withScores = true → criterion ≠ .byLex) :
    SortedSetAction.ofName? request criterion.lists =
      some (.ok (.list selection false none withScores)) := by
  have range := reading_eq arguments read
  -- Three words come before these.
  have behind : request.arguments.drop 3 = words := by rw [arguments]; rfl
  -- The listings of ranges take more words than these, but read these ones alike.
  have asked (scoresAllowed : Bool) (free : withScores = true → scoresAllowed = true) :
      ListOptions.read scoresAllowed {} (request.arguments.drop 3) = .ok ⟨withScores, none⟩ := by
    rw [behind]
    cases asks with
    | plain => rfl
    | scores named => simp [ListOptions.read, named, free rfl]
  cases criterion with
  | byScore =>
    exact congrArg some (SortedSetAction.readListByRange_eq range (asked true fun _ => rfl))
  | byLex =>
    refine congrArg some (SortedSetAction.readListByRange_eq range (asked false fun scores => ?_))
    exact absurd rfl (allowed scores)
  | byRank =>
    obtain ⟨start, first, read⟩ := Option.bind_eq_some_iff.mp read
    obtain ⟨stop, second, read⟩ := Option.bind_eq_some_iff.mp read
    obtain rfl := Option.some.inj read
    exact SortedSetAction.ofName?_listsByRank false arguments first second asks

end Criterion

namespace Request

variable {request : Request} {key : Bytes}

/-- The command that removes what two words select is read as that. -/
theorem instruction_removes {criterion : Criterion} {first second : Bytes} {selection : Selection}
    (read : criterion.read? first second = some selection)
    (named : request.name = criterion.removes.text)
    (arguments : request.arguments = [key, first, second]) (site : Site) :
    request.instruction site = .ok (.act (.sortedSet key (.removeSelected selection))) := by
  -- The three removals belong to one group and take as many words.
  have group : criterion.removes.group = .sortedSets := by cases criterion <;> rfl
  have taken : criterion.removes.entry.accepts request.words.length = true := by
    rw [words, arguments]
    cases criterion <;> rfl
  have action : SortedSetAction.ofName? request criterion.removes =
      some ((criterion.reading request).map .removeSelected) := by
    cases criterion <;> rfl
  rw [Criterion.reading_eq arguments read] at action
  exact instruction_sortedSet group named taken (by rw [arguments]; rfl) action site

/-- The command that removes listed members is read as that, if it lists any. -/
theorem instruction_zrem {members : List Bytes} (several : members ≠ [])
    (named : request.name = CommandName.zrem.text) (arguments : request.arguments = key :: members)
    (site : Site) :
    request.instruction site = .ok (.act (.sortedSet key (.remove members))) := by
  -- The key and one member at least are there.
  have taken : CommandName.zrem.entry.accepts request.words.length = true := by
    have positive := List.length_pos_iff.mpr several
    rw [words, arguments]
    show decide (3 ≤ members.length + 2) = true
    exact decide_eq_true (by omega)
  have action : SortedSetAction.ofName? request .zrem = some (.ok (.remove members)) := by
    rw [SortedSetAction.ofName?, arguments]
    rfl
  exact instruction_sortedSet rfl named taken (by rw [arguments]; rfl) action site

end Request

namespace Server

/-- A request removes some elements of a set, tells how many, and leaves all others. -/
structure Removes (server : Server) (number : Nat) (name : KeyName) (set : SortedSet)
    (request : Request) (gone : List Element) (left : SortedSet) : Prop where
  /-- The number of removed elements is told. -/
  told : (server.handle number request).2 = .ok { reply := .count gone.length }
  /-- Only elements of the set are removed. -/
  inside : ∀ element ∈ gone, element ∈ set.elements
  /-- None of them is counted twice. -/
  once : gone.Nodup
  /-- What is left is found under the key afterwards. -/
  finds : (server.handle number request).1.Finds number name left
  /-- All other elements are left, with their scores and in their order. -/
  kept : left.elements = set.elements.filter fun element => element ∉ gone
  /-- The number of elements that is told before is greater by as many
  than the one told afterwards. -/
  sizes : ∃ size, server.Tells number .zcard [name.2] (.count (size + gone.length)) ∧
    (server.handle number request).1.Tells number .zcard [name.2] (.count size)
  /-- The key exists afterwards exactly if an element is left. -/
  remains : (valueAt (server.handle number request).1.databases name).isSome = true ↔
    left.elements ≠ []
  /-- All other keys are kept. -/
  others : KeepsAllBut name server.databases (server.handle number request).1.databases

variable {server : Server} {number : Nat} {name : KeyName} {set : SortedSet} {request : Request}

namespace Finds

/-- An action that takes elements out of a set and tells their number removes them. -/
theorem removes {action : SortedSetAction} {gone : List Element} {count : Nat}
    (finds : server.Finds number name set)
    (accepted : request.instruction server.site = .ok (.act (.sortedSet name.2 action)))
    (told : (action.effect set).1 = .count count)
    (inside : ∀ element ∈ gone, element ∈ set.elements)
    (once : gone.Nodup) (removal : set.Removal gone count (action.effect set).2) :
    server.Removes number name set request gone (action.effect set).2 := by
  -- What is left is found under the key afterwards, and all else is told of that.
  obtain ⟨before, after, acts⟩ := finds.acts accepted
  have sizes := finds.tells_zcard
  rw [removal.size] at sizes
  refine ⟨?_, inside, once, acts.finds, removal.elements,
    ⟨_, sizes, acts.finds.tells_zcard⟩, acts.finds.exists_iff, acts.others⟩
  rw [acts.told, told, removal.counted]

/-- The command that counts what two words select tells its number. -/
theorem tells_counts {criterion : Criterion} {first second : Bytes} {selection : Selection}
    {verb : CommandName} (finds : server.Finds number name set)
    (read : criterion.read? first second = some selection)
    (counts : criterion.counts? = some verb) :
    server.Tells number verb [name.2, first, second]
      (.count (selection.select false set).length) := by
  -- Only ranges by score and by member can be counted.
  refine finds.tells verb [first, second] (.count selection) ?_ ?_ fun request arguments => ?_
  · cases criterion <;> cases counts <;> rfl
  · cases criterion <;> cases counts <;> rfl
  · have named : SortedSetAction.ofName? request verb =
        some ((criterion.reading request).map .count) := by
      cases criterion <;> cases counts <;> rfl
    rw [named, Criterion.reading_eq arguments read]
    rfl

/-- The command that lists what two words select shows all of it. -/
theorem tells_lists {criterion : Criterion} {first second : Bytes} {selection : Selection}
    {words : List Bytes} {withScores : Bool} (finds : server.Finds number name set)
    (read : criterion.read? first second = some selection) (asks : AsksScores words withScores)
    (allowed : withScores = true → criterion ≠ .byLex) :
    server.Tells number criterion.lists (name.2 :: first :: second :: words)
      (.ofElements withScores (selection.select false set)) := by
  -- The listings take at least a key and two ends.
  refine finds.tells criterion.lists (first :: second :: words)
    (.list selection false none withScores) ?_ ?_ fun request arguments => ?_
  · cases criterion <;> rfl
  · have least : criterion.lists.entry.arity = -4 := by cases criterion <;> rfl
    simp [CommandEntry.accepts, least]
  · exact Criterion.ofName?_lists arguments read asks allowed

end Finds

end Server
end ScoreStore
