import ScoreStore.Score.Reader
import ScoreStore.SortedSet

/-! Ranges of scores: reading their bounds, and cutting them out of an ascending list. -/

namespace ScoreStore

/-- One end of a range of scores. -/
inductive ScoreBound where
  /-- Every score lies within. -/
  | unbounded
  /-- The score at the end belongs to the range. -/
  | inclusive (score : Score)
  /-- The score at the end lies outside. -/
  | exclusive (score : Score)
deriving DecidableEq

namespace ScoreBound

/-- Reads a bound: nothing for none, an opening parenthesis before an excluded
score, else an included one. -/
def read? : Bytes → Option ScoreBound
  | [] => some unbounded
  | Ascii.parenthesis :: token => (Score.readNumber? token).map exclusive
  | token => (Score.readNumber? token).map inclusive

/-- Whether a score lies on the upper side of the bound. -/
def liesAbove (bound : ScoreBound) (score : Score) : Bool :=
  match bound with
  | unbounded => true
  | inclusive least => least.atMost score
  | exclusive least => least.less score

/-- Whether a score lies on the lower side of the bound. -/
def liesBelow (bound : ScoreBound) (score : Score) : Bool :=
  match bound with
  | unbounded => true
  | inclusive greatest => score.atMost greatest
  | exclusive greatest => score.less greatest

end ScoreBound

/-- The scores between two bounds. -/
structure ScoreRange where
  /-- The lower end. -/
  lower : ScoreBound
  /-- The upper end. -/
  upper : ScoreBound
deriving DecidableEq

namespace ScoreRange

/-- Reads a range from its two tokens, the upper end first when it is given in reverse. -/
def read? (reverse : Bool) (first second : Bytes) : Option ScoreRange := do
  let first ← ScoreBound.read? first
  let second ← ScoreBound.read? second
  return if reverse then ⟨second, first⟩ else ⟨first, second⟩

/-- Cuts the range out of elements in ascending order of their scores. -/
def cut (range : ScoreRange) (elements : List Element) : List Element :=
  -- What lies below the range is skipped, and the first element beyond it ends the cut.
  (elements.dropWhile fun element => !range.lower.liesAbove element.score).takeWhile
    fun element => range.upper.liesBelow element.score

end ScoreRange
end ScoreStore
