import ScoreStore.Range.Page
import ScoreStore.Range.Selection
import ScoreStore.Reply

/-! Actions: commands whose words have been read and checked, ready to run now or later. -/

namespace ScoreStore

/-- What a command does with the sorted set under its key. -/
inductive SortedSetAction where
  /-- Gives members scores, and tells how many were added, or also how many changed. -/
  | add (rule : AddRule) (countChanges : Bool) (elements : List Element)
  /-- Tells the number of members. -/
  | size
  /-- Tells the score of a member. -/
  | score (member : Bytes)
  /-- Tells the position of a member, from either end. -/
  | rank (reverse : Bool) (member : Bytes)
  /-- Tells the number of selected elements. -/
  | count (selection : Selection)
  /-- Lists a page of the selected elements, in either direction, with or without scores. -/
  | list (selection : Selection) (reverse : Bool) (page : Option Page) (withScores : Bool)
  /-- Removes members, and tells how many were present. -/
  | remove (members : List Bytes)
  /-- Removes the selected elements, and tells their number. -/
  | removeSelected (selection : Selection)
deriving DecidableEq

/-- What a command does. -/
inductive Action where
  /-- Gives a reply that is already known. -/
  | answer (reply : Reply)
  /-- Reports the counters. -/
  | report
  /-- Selects another database. -/
  | select (index : Nat)
  /-- Removes all keys of the selected database. -/
  | flush
  /-- Removes all keys of all databases. -/
  | flushAll
  /-- Removes keys, and tells how many existed. -/
  | delete (keys : List Bytes)
  /-- Tells how many of the keys exist. -/
  | countExisting (keys : List Bytes)
  /-- Tells the type of the value under a key. -/
  | typeOf (key : Bytes)
  /-- Stores a string under a key. -/
  | set (key content : Bytes)
  /-- Tells the string under a key. -/
  | get (key : Bytes)
  /-- Does something with the sorted set under a key. -/
  | sortedSet (key : Bytes) (action : SortedSetAction)
  /-- Releases all watched keys of the connection. -/
  | unwatch

end ScoreStore
