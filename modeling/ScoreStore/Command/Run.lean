import ScoreStore.Command.Refusal
import ScoreStore.Connection
import ScoreStore.Keyspace.Typed
import ScoreStore.Score.Printer

/-! Running actions: their effect on the databases and the connection, and their replies. -/

namespace ScoreStore

/-- What giving scores to several members came to. -/
structure AddTally where
  /-- How many members were added. -/
  added : Nat := 0
  /-- How many scores changed. -/
  updated : Nat := 0
  /-- The score after the last attempt, unless a condition prevented it. -/
  last : Option Score := none
deriving DecidableEq

/-- Counts one more outcome, or none when the score would be no number. -/
def AddTally.record? (tally : AddTally) : AddOutcome → Option AddTally
  | .added score => some { tally with added := tally.added + 1, last := some score }
  | .updated score => some { tally with updated := tally.updated + 1, last := some score }
  | .unchanged score => some { tally with last := some score }
  | .skipped => some { tally with last := none }
  | .notANumber => none

namespace Database

/-- Gives scores to members in turn, and stops where a score would be no number. -/
def addMembers (key : Bytes) (rule : AddRule) (database : Database) (tally : AddTally) :
    List Element → Except WrongType (Option AddTally) × Database
  | [] => (.ok (some tally), database)
  | element :: rest =>
    match database.addMember key rule element.member element.score with
    | .error wrong => (.error wrong, database)
    | .ok (outcome, database) =>
      match tally.record? outcome with
      -- The elements in front of the one that is refused stay added.
      | none => (.ok none, database)
      | some tally => addMembers key rule database tally rest

end Database

/-- The reply for giving scores to members. -/
def AddTally.reply (rule : AddRule) (countChanges : Bool) : Option AddTally → Reply
  -- An increment tells the resulting score, and otherwise members are counted.
  | none => Refusal.sumNotANumber.reply
  | some tally =>
    if rule.increment then .ofBytes? (tally.last.map Score.write)
    else .count (if countChanges then tally.added + tally.updated else tally.added)

/-- The reply that lists elements, each score after its member if scores are asked for. -/
def Reply.ofElements (withScores : Bool) (elements : List Element) : Reply :=
  .ofList (elements.flatMap fun element =>
    if withScores then [element.member, element.score.write] else [element.member])

/-- Does something with the sorted set under a key. Whatever was written before an access of the
wrong type stays written. -/
def SortedSetAction.run (key : Bytes) (database : Database) :
    SortedSetAction → Except WrongType Reply × Database
  | add rule countChanges elements =>
    let (tally, database) := database.addMembers key rule {} elements
    (tally.map (AddTally.reply rule countChanges), database)
  | size => ((database.sortedSet key).map fun set => .count set.size, database)
  | score member => ((database.sortedSet key).map fun set =>
    .ofBytes? ((set.score? member).map Score.write), database)
  | rank reverse member => ((database.sortedSet key).map fun set =>
    match if reverse then set.reverseRank? member else set.rank? member with
    | some position => .count position
    | none => .missing, database)
  | count selection => ((database.sortedSet key).map fun set =>
    .count (selection.select false set).length, database)
  | list selection reverse page withScores => ((database.sortedSet key).map fun set =>
    let selected := selection.select reverse set
    let shown := match page with
      | none => selected
      | some page => page.cut selected
    .ofElements withScores shown, database)
  | remove members =>
    let (removed, database) := database.removeEach key members
    (removed.map .count, database)
  | removeSelected selection =>
    match database.sortedSet key with
    | .error wrong => (.error wrong, database)
    | .ok set =>
      let (removed, database) :=
        database.removeEach key ((selection.select false set).map Element.member)
      (removed.map .count, database)

namespace Database

/-- Removes keys in turn, and counts those that existed. -/
def deleteAll (database : Database) : List Bytes → Nat × Database
  | [] => (0, database)
  | key :: rest =>
    let (existed, database) := database.delete key
    -- A key that is named twice is gone the second time.
    let (count, database) := database.deleteAll rest
    (if existed then count + 1 else count, database)

end Database

/-- The reply for what came of a transaction, which tells of an access of the wrong type. -/
def Reply.ofResult : Except WrongType Reply → Reply
  | .ok reply => reply
  | .error _ => Refusal.wrongType.reply

namespace Scope

/-- Runs something on the selected database, where an access of the wrong type is refused. -/
def onDatabase (scope : Scope) (body : Database → Except WrongType Reply × Database) :
    Except Fault (Reply × Scope) :=
  match scope.database? with
  -- A connection selects only databases that exist, unless it is put on another one from outside.
  | none => .error .noSuchDatabase
  | some database =>
    -- There is no way back: a refused body leaves the database as it had it by then.
    let (result, database) := body database
    .ok (.ofResult result, scope.withDatabase database)

end Scope

/-- Runs an action. -/
def Action.run (scope : Scope) : Action → Except Fault (Reply × Scope)
  | answer reply => .ok (reply, scope)
  | report =>
    .ok (.bulk (Text.bytes (scope.counters.report (scope.databases.map Database.size))), scope)
  | select index =>
    .ok (.ok, { scope with connection := { scope.connection with selected := index } })
  | flush => scope.onDatabase fun database => (.ok .ok, database.flush)
  | flushAll => .ok (.ok, { scope with databases := scope.databases.map Database.flush })
  | delete keys => scope.onDatabase fun database =>
    let (count, database) := database.deleteAll keys
    (.ok (.count count), database)
  | countExisting keys => scope.onDatabase fun database =>
    (.ok (.count (keys.countP database.contains)), database)
  | typeOf key => scope.onDatabase fun database =>
    (.ok (.status (((database.get? key).map Value.typeName).getD "none")), database)
  | set key content => scope.onDatabase fun database =>
    (.ok .ok, database.put key (.string content))
  | get key => scope.onDatabase fun database =>
    ((database.string? key).map .ofBytes?, database)
  | sortedSet key action => scope.onDatabase fun database => action.run key database
  | unwatch => .ok (.ok, scope.unwatchAll)

end ScoreStore
