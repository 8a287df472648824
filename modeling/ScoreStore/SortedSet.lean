import ScoreStore.Score
import ScoreStore.Table
import ScoreStore.Bytes

/-! Sorted sets: members with scores, ordered by score and then by the bytes of the member. -/

namespace ScoreStore

/-- A member of a sorted set with its score. -/
structure Element where
  /-- The member. -/
  member : Bytes
  /-- The score of the member. -/
  score : Score
deriving DecidableEq

/-- Whether one element comes before another: by score, and by member where scores agree. -/
def Element.before (left right : Element) : Bool :=
  left.score.place < right.score.place ||
    (left.score.place == right.score.place && Bytes.before left.member right.member)

/-- Whether two elements have one place in the order: the same member with the same score. -/
def Element.ties (left right : Element) : Bool :=
  left.score.place == right.score.place && left.member == right.member

/-- Puts an element into an ascending list, unless its place is taken. -/
def Element.insert (element : Element) (ordered : List Element) : List Element :=
  -- A place that is taken keeps the element that has it.
  if ordered.any element.ties then ordered else insertSorted Element.before element ordered

/-- Takes the element at a place out of an ascending list. -/
def Element.erase (element : Element) (ordered : List Element) : List Element :=
  ordered.filter fun other => !element.ties other

/-- The conditions under which a score is given to a member. -/
structure AddRule where
  /-- Members already present are left alone. -/
  onlyAbsent : Bool := false
  /-- Members not yet present are left out. -/
  onlyPresent : Bool := false
  /-- A present score is replaced only by a greater one. -/
  onlyGreater : Bool := false
  /-- A present score is replaced only by a lesser one. -/
  onlyLess : Bool := false
  /-- The given score is added to the present one. -/
  increment : Bool := false
deriving DecidableEq

/-- What became of an attempt to give a score to a member. -/
inductive AddOutcome where
  /-- The member is new and has this score. -/
  | added (score : Score)
  /-- The member was present and has this score now. -/
  | updated (score : Score)
  /-- The member was present and keeps this score, the same as the new one. -/
  | unchanged (score : Score)
  /-- A condition of the rule does not hold. -/
  | skipped
  /-- The resulting score would be no number. -/
  | notANumber
deriving DecidableEq

/-- Members with scores, kept both by member and in order. -/
structure SortedSet where
  /-- The score of each member. -/
  scores : Table Bytes Score := .empty
  /-- The same pairs in ascending order. -/
  ordered : List Element := []

namespace SortedSet

/-- The set without members. -/
def empty : SortedSet := {}

/-- The number of members. -/
def size (set : SortedSet) : Nat := set.scores.size

/-- Whether the set has no members. -/
def isEmpty (set : SortedSet) : Bool := set.size == 0

/-- The score of a member. -/
def score? (set : SortedSet) (member : Bytes) : Option Score := set.scores.get? member

/-- The elements in ascending order. -/
def elements (set : SortedSet) : List Element := set.ordered

/-- The members in the order of their elements. -/
def members (set : SortedSet) : List Bytes := set.ordered.map Element.member

/-- Enters a member with its score, whose earlier element has left the order. -/
def enter (set : SortedSet) (member : Bytes) (score : Score) : SortedSet where
  scores := set.scores.set member score
  ordered := Element.insert ⟨member, score⟩ set.ordered

/-- Takes the element of a member out of the order, found by the score that the member has. -/
def withdraw (set : SortedSet) (member : Bytes) (score : Score) : SortedSet :=
  { set with ordered := Element.erase ⟨member, score⟩ set.ordered }

/-- Gives a member a score as far as a rule allows it. -/
def add (set : SortedSet) (rule : AddRule) (member : Bytes) (score : Score) :
    AddOutcome × SortedSet :=
  -- Presence is checked first, then the number itself, then the direction, then equality.
  match set.score? member with
  | none =>
    if rule.onlyPresent then (.skipped, set)
    else if score.isNaN then (.notANumber, set)
    else (.added score, set.enter member score)
  | some old =>
    let new := if rule.increment then old.add score else score
    if rule.onlyAbsent then (.skipped, set)
    else if new.isNaN then (.notANumber, set)
    else if rule.onlyGreater && new.atMost old || rule.onlyLess && old.atMost new then
      (.skipped, set)
    else if new.same old then (.unchanged old, set)
    -- The earlier element leaves the order first, since it is found there by the old score.
    else (.updated new, (set.withdraw member old).enter member new)

/-- Removes a member, and tells whether it was present. -/
def remove (set : SortedSet) (member : Bytes) : Bool × SortedSet :=
  match set.score? member with
  | none => (false, set)
  | some score =>
    -- The order is left by the score that the member still has.
    (true, { set.withdraw member score with scores := set.scores.erase member })

/-- How many elements come before a member. -/
def rank? (set : SortedSet) (member : Bytes) : Option Nat :=
  (set.score? member).map fun score =>
    -- The element does not come before itself, so that only others are counted.
    set.ordered.countP fun element => element.before ⟨member, score⟩

/-- How many elements come after a member. -/
def reverseRank? (set : SortedSet) (member : Bytes) : Option Nat :=
  (set.rank? member).map fun rank => set.size - 1 - rank

/-- Whether two sets have the same members with the same scores. -/
def same (left right : SortedSet) : Bool :=
  left.ordered.length == right.ordered.length &&
    (left.ordered.zip right.ordered).all fun (first, second) =>
      first.member == second.member && first.score.same second.score

end SortedSet
end ScoreStore
