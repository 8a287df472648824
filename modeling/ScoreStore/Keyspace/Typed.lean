import ScoreStore.Keyspace.Database

/-! Access to keys as strings or as sorted sets, which fails on a value of the other type. -/

namespace ScoreStore

/-- The failure of an access to a key that holds a value of another type. -/
structure WrongType where
deriving DecidableEq

/-- The words for the failure. -/
def WrongType.message : WrongType → String
  | _ => "Wrong type"

/-- What became of an attempt to remove a member. -/
inductive Removal where
  /-- The member was removed. -/
  | removed
  /-- The set has no such member. -/
  | noMember
  /-- The key holds nothing. -/
  | noSet
deriving DecidableEq

namespace Database

/-- The string under a key. -/
def string? (database : Database) (key : Bytes) : Except WrongType (Option Bytes) :=
  match database.get? key with
  | none => .ok none
  | some (.string content) => .ok (some content)
  | some (.sortedSet _) => .error {}

/-- The sorted set under a key. -/
def sortedSet? (database : Database) (key : Bytes) : Except WrongType (Option SortedSet) :=
  match database.get? key with
  | none => .ok none
  | some (.sortedSet set) => .ok (some set)
  | some (.string _) => .error {}

/-- The sorted set under a key, empty when the key holds nothing. -/
def sortedSet (database : Database) (key : Bytes) : Except WrongType SortedSet :=
  (database.sortedSet? key).map fun set => set.getD .empty

/-- Stores what became of a sorted set after an attempt to give a score to a member. -/
def storeAdded (database : Database) (key : Bytes) : AddOutcome × SortedSet → Database
  -- A set that stays the same keeps its version.
  | (.added _, set) => database.put key (.sortedSet set)
  | (.updated _, set) => database.put key (.sortedSet set)
  | _ => database

/-- Gives a member of the sorted set under a key a score as far as a rule allows it. -/
def addMember (database : Database) (key : Bytes) (rule : AddRule) (member : Bytes)
    (score : Score) : Except WrongType (AddOutcome × Database) :=
  (database.sortedSet key).map fun set =>
    let result := set.add rule member score
    (result.1, database.storeAdded key result)

/-- Stores what is left of a sorted set after a removal. -/
def storeRemaining (database : Database) (key : Bytes) (set : SortedSet) : Database :=
  -- The key goes with the last member of its set.
  if set.isEmpty then (database.delete key).2 else database.put key (.sortedSet set)

/-- Removes a member from the sorted set under a key. -/
def removeMember (database : Database) (key : Bytes) (member : Bytes) :
    Except WrongType (Removal × Database) :=
  (database.sortedSet? key).map fun found =>
    match found with
    | none => (.noSet, database)
    | some set =>
      match set.remove member with
      | (false, _) => (.noMember, database)
      | (true, remaining) => (.removed, database.storeRemaining key remaining)

/-- Removes members from the sorted set under a key in turn, and counts those that were present.
The database is the one at which the removal ended, however it ended. -/
def removeEach (database : Database) (key : Bytes) : List Bytes → Except WrongType Nat × Database
  -- Nothing is left to do once the key itself is gone.
  | [] => (.ok 0, database)
  | member :: rest =>
    match database.removeMember key member with
    | .error wrong => (.error wrong, database)
    | .ok (.noSet, database) => (.ok 0, database)
    | .ok (.noMember, database) => database.removeEach key rest
    | .ok (.removed, database) =>
      let (count, database) := database.removeEach key rest
      (count.map (· + 1), database)

/-- Removes members from the sorted set under a key, and counts those that were present. -/
def removeMembers (database : Database) (key : Bytes) (members : List Bytes) :
    Except WrongType (Nat × Database) :=
  let (count, database) := database.removeEach key members
  count.map fun count => (count, database)

end Database
end ScoreStore
