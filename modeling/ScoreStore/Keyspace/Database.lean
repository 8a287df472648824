import ScoreStore.SortedSet

/-!
Databases: values under keys, a version for every key that was written, and counts of watchers.
-/

namespace ScoreStore

/-- A value stored under a key. -/
inductive Value where
  /-- A byte string. -/
  | string (content : Bytes)
  /-- A sorted set. -/
  | sortedSet (set : SortedSet)

/-- The name of a value's type, as clients see it. -/
def Value.typeName : Value → String
  | .string _ => "string"
  | .sortedSet _ => "zset"

/-- One database. -/
structure Database where
  /-- The values. -/
  values : Table Bytes Value := .empty
  /-- The version of each key that was written and is still kept track of. -/
  versions : Table Bytes Nat := .empty
  /-- How many connections watch each key. -/
  watchers : Table Bytes Nat := .empty
  /-- The version given out last. -/
  lastVersion : Nat := 0

namespace Database

/-- The database without keys. -/
def empty : Database := {}

/-- The value under a key. -/
def get? (database : Database) (key : Bytes) : Option Value := database.values.get? key

/-- Whether a key has a value. -/
def contains (database : Database) (key : Bytes) : Bool := database.values.contains key

/-- The number of keys with values. -/
def size (database : Database) : Nat := database.values.size

/-- The version of a key, zero when none is kept. -/
def version (database : Database) (key : Bytes) : Nat := (database.versions.get? key).getD 0

/-- The greatest version, which is given out again once it is reached. -/
def maxVersion : Nat := 18446744073709551615

/-- Gives a key a new version. -/
def touch (database : Database) (key : Bytes) : Database :=
  -- Versions do not wrap around but stop at the greatest one.
  let version := min (database.lastVersion + 1) maxVersion
  { database with
    lastVersion := version
    versions := database.versions.set key version }

/-- Replaces a value without a new version. -/
def revise (database : Database) (key : Bytes) (value : Value) : Database :=
  { database with values := database.values.set key value }

/-- Stores a value under a key, whatever was there. -/
def put (database : Database) (key : Bytes) (value : Value) : Database :=
  (database.revise key value).touch key

/-- Settles the version of a key that lost its value: a new one while the
key is watched, else none. -/
def forget (database : Database) (key : Bytes) : Database :=
  if database.watchers.contains key then database.touch key
  else { database with versions := database.versions.erase key }

/-- Removes a key, and tells whether it had a value. -/
def delete (database : Database) (key : Bytes) : Bool × Database :=
  if database.contains key then
    (true, forget { database with values := database.values.erase key } key)
  -- A key without a value is not written by being removed.
  else (false, database)

/-- Removes all keys. -/
def flush (database : Database) : Database :=
  -- The values are gone by the time that the versions are settled.
  database.values.keys.foldl forget { database with values := .empty }

/-- Adds a watcher to a key, and gives the key's version. -/
def watch (database : Database) (key : Bytes) : Nat × Database :=
  (database.version key,
    { database with
      watchers := database.watchers.set key ((database.watchers.get? key).getD 0 + 1) })

/-- Takes a watcher from a key. -/
def unwatch (database : Database) (key : Bytes) : Database :=
  -- The version of a key without a value is dropped with the last watcher.
  match database.watchers.get? key with
  | none => database
  | some count =>
    if 1 < count then { database with watchers := database.watchers.set key (count - 1) }
    else { database with
      watchers := database.watchers.erase key
      versions := if database.contains key then database.versions
        else database.versions.erase key }

end Database
end ScoreStore
