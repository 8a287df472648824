import ScoreStore.SortedSet

/-!
Ranges of members in bytewise order: reading their bounds, and cutting
them out of an ascending list.
-/

namespace ScoreStore

/-- One end of a range of members. -/
inductive LexBound where
  /-- The end below every member. -/
  | bottom
  /-- The end above every member. -/
  | top
  /-- The member at the end belongs to the range. -/
  | inclusive (member : Bytes)
  /-- The member at the end lies outside. -/
  | exclusive (member : Bytes)
deriving DecidableEq

namespace LexBound

/-- Reads a bound: a lone sign for either extreme, else a bracket or
parenthesis before the member. -/
def read? : Bytes → Option LexBound
  | [Ascii.minus] => some bottom
  | [Ascii.plus] => some top
  | Ascii.bracket :: member => some (inclusive member)
  | Ascii.parenthesis :: member => some (exclusive member)
  | _ => none

/-- Whether a member lies on the upper side of the bound. -/
def liesAbove (bound : LexBound) (member : Bytes) : Bool :=
  match bound with
  | bottom => true
  | top => false
  | inclusive least => Bytes.atMost least member
  | exclusive least => Bytes.before least member

/-- Whether a member lies on the lower side of the bound. -/
def liesBelow (bound : LexBound) (member : Bytes) : Bool :=
  match bound with
  | bottom => false
  | top => true
  | inclusive greatest => Bytes.atMost member greatest
  | exclusive greatest => Bytes.before member greatest

end LexBound

/-- The members between two bounds. -/
structure LexRange where
  /-- The lower end. -/
  lower : LexBound
  /-- The upper end. -/
  upper : LexBound
deriving DecidableEq

namespace LexRange

/-- Reads a range from its two tokens, the upper end first when it is given in reverse. -/
def read? (reverse : Bool) (first second : Bytes) : Option LexRange := do
  let first ← LexBound.read? first
  let second ← LexBound.read? second
  return if reverse then ⟨second, first⟩ else ⟨first, second⟩

/-- Whether the range ends below every member or starts above every member. -/
def isEmpty (range : LexRange) : Bool := range.upper == .bottom || range.lower == .top

/-- Cuts the range out of items whose members are in ascending order. -/
def cut {α : Type} (member : α → Bytes) (range : LexRange) (items : List α) : List α :=
  -- What lies below the range is skipped, and the first item beyond it ends the cut.
  if range.isEmpty then []
  else (items.dropWhile fun item => !range.lower.liesAbove (member item)).takeWhile
    fun item => range.upper.liesBelow (member item)

end LexRange
end ScoreStore
