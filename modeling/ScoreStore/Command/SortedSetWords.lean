import ScoreStore.Command.Action
import ScoreStore.Command.Name
import ScoreStore.Command.Obstacle
import ScoreStore.Score.Reader

/-! Reading the words of the commands on sorted sets. -/

namespace ScoreStore

/-- The options in front of the scores and members to add. -/
structure AddOptions where
  /-- The conditions for giving scores. -/
  rule : AddRule := {}
  /-- Whether changed scores are counted too. -/
  countChanges : Bool := false
deriving DecidableEq

namespace AddOptions

/-- The options with one more word taken into account, unless the word is no option. -/
def take? (options : AddOptions) (word : String) : Option AddOptions :=
  match word with
  | "nx" => some { options with rule := { options.rule with onlyAbsent := true } }
  | "xx" => some { options with rule := { options.rule with onlyPresent := true } }
  | "gt" => some { options with rule := { options.rule with onlyGreater := true } }
  | "lt" => some { options with rule := { options.rule with onlyLess := true } }
  | "ch" => some { options with countChanges := true }
  | "incr" => some { options with rule := { options.rule with increment := true } }
  | _ => none

/-- Reads options up to the first word that is none, and gives the words from there on. -/
def read (options : AddOptions) : List Bytes → AddOptions × List Bytes
  | [] => (options, [])
  | word :: rest =>
    match options.take? (Request.lowered word) with
    | some options => read options rest
    | none => (options, word :: rest)

/-- Why the options cannot be combined, given the number of words for scores and members. -/
def conflict? (options : AddOptions) (count : Nat) : Option Refusal :=
  -- The first conflict in this order is the one reported.
  let rule := options.rule
  if count = 0 ∨ count % 2 ≠ 0 then some .badSyntax
  else if rule.increment ∧ 2 < count then some .severalIncrements
  else if rule.onlyAbsent ∧ rule.onlyPresent then some .absentAndPresent
  else if (rule.onlyLess ∧ rule.onlyGreater) ∨
      (rule.onlyAbsent ∧ (rule.onlyLess ∨ rule.onlyGreater)) then some .conflictingDirections
  else none

end AddOptions

/-- The options after the ends of a range. -/
structure ListOptions where
  /-- Whether scores are listed too. -/
  withScores : Bool := false
  /-- The page to list, everything if none. -/
  page : Option Page := none
deriving DecidableEq

/-- Reads the options after the ends of a range; scores may be listed
only where they are allowed. -/
def ListOptions.read (scoresAllowed : Bool) (options : ListOptions) :
    List Bytes → Except Refusal ListOptions
  | [] => .ok options
  | word :: rest =>
    if scoresAllowed ∧ Request.lowered word = "withscores" then
      -- Options may come in any order, and one that is given twice counts as the last one says.
      read scoresAllowed { options with withScores := true } rest
    else if Request.lowered word = "limit" then
      match rest with
      | offset :: count :: rest =>
        match Decimal.signed64? offset, Decimal.signed64? count with
        | some offset, some count =>
          read scoresAllowed { options with page := some ⟨offset, count⟩ } rest
        | _, _ => .error .notAnInteger
      | _ => .error .badSyntax
    else .error .badSyntax

namespace SortedSetAction

/-- Reads pairs of a score and a member. -/
def readPairs : List Bytes → Except Refusal (List Element)
  | [] => .ok []
  | [_] => .error .badSyntax
  | token :: member :: rest =>
    match Score.readNumber? token with
    | none => .error .notAFloat
    | some value => (readPairs rest).map (⟨member, value⟩ :: ·)

/-- Reads what to add, from the words after the key. -/
def readAdd (words : List Bytes) : Except Refusal SortedSetAction :=
  let (options, pairs) := AddOptions.read {} words
  match options.conflict? pairs.length with
  | some refusal => .error refusal
  | none => (readPairs pairs).map (add options.rule options.countChanges)

/-- Reads a range of scores. -/
def readByScore (reverse : Bool) (request : Request) : Except Obstacle Selection := do
  let first ← request.need 1
  let second ← request.need 2
  Request.orRefuse .boundNotAFloat ((ScoreRange.read? reverse first second).map .byScore)

/-- Reads a range of members. -/
def readByLex (reverse : Bool) (request : Request) : Except Obstacle Selection := do
  let first ← request.need 1
  let second ← request.need 2
  Request.orRefuse .boundNotAMember ((LexRange.read? reverse first second).map .byLex)

/-- Reads a window of positions. -/
def readByRank (request : Request) : Except Obstacle Selection := do
  -- The first end is checked before the second is looked for.
  let start ← request.needInteger 1
  let stop ← request.needInteger 2
  return .byRank ⟨start, stop⟩

/-- Whether the words after a window ask for scores. -/
def readWithScores : List Bytes → Except Refusal Bool
  -- A listing by position has no pages, so that there is one word at most.
  | [] => .ok false
  | [word] => if Request.lowered word = "withscores" then .ok true else .error .badSyntax
  | _ => .error .badSyntax

/-- A reading that may be refused. -/
def refusable {α : Type} : Except Refusal α → Except Obstacle α
  | .ok value => .ok value
  | .error refusal => .error (.refusal refusal)

/-- Reads a listing by position. -/
def readListByRank (reverse : Bool) (request : Request) : Except Obstacle SortedSetAction := do
  let selection ← readByRank request
  let withScores ← refusable (readWithScores (request.arguments.drop 3))
  return list selection reverse none withScores

/-- Reads a listing of a range, given how its ends are read and whether scores may be listed. -/
def readListByRange (scoresAllowed reverse : Bool)
    (readRange : Bool → Request → Except Obstacle Selection) (request : Request) :
    Except Obstacle SortedSetAction := do
  let selection ← readRange reverse request
  let options ← refusable (ListOptions.read scoresAllowed {} (request.arguments.drop 3))
  return list selection reverse options.page options.withScores

/-- Reads an increment of a single member. -/
def readIncrement (request : Request) : Except Obstacle SortedSetAction := do
  -- The amount is checked before the member is looked for.
  let word ← request.need 1
  let amount ← Request.orRefuse .notAFloat (Score.readNumber? word)
  let member ← request.need 2
  return add { increment := true } false [⟨member, amount⟩]

/-- Reads the words after the key of a command on sorted sets, if the command is one. -/
def ofName? (request : Request) : CommandName → Option (Except Obstacle SortedSetAction)
  | .zadd => some (refusable (readAdd (request.arguments.drop 1)))
  | .zincrby => some (readIncrement request)
  | .zcard => some (.ok size)
  | .zscore => some ((request.need 1).map score)
  | .zrank => some ((request.need 1).map (rank false))
  | .zrevrank => some ((request.need 1).map (rank true))
  | .zcount => some ((readByScore false request).map count)
  | .zlexcount => some ((readByLex false request).map count)
  | .zrange => some (readListByRank false request)
  | .zrevrange => some (readListByRank true request)
  | .zrangebyscore => some (readListByRange true false readByScore request)
  | .zrevrangebyscore => some (readListByRange true true readByScore request)
  | .zrangebylex => some (readListByRange false false readByLex request)
  | .zrevrangebylex => some (readListByRange false true readByLex request)
  | .zrem => some (.ok (remove (request.arguments.drop 1)))
  | .zremrangebyscore => some ((readByScore false request).map removeSelected)
  | .zremrangebylex => some ((readByLex false request).map removeSelected)
  | .zremrangebyrank => some ((readByRank request).map removeSelected)
  | _ => none

end SortedSetAction

/-- Reads a command on the sorted set under the key that is its first argument. -/
def Request.sortedSetAction (request : Request) (name : CommandName) : Except Obstacle Action := do
  match SortedSetAction.ofName? request name with
  | none => .error (.fault (.foreignCommand .sortedSets request.name))
  | some reading =>
    -- A missing key is told before anything that is wrong behind it.
    let key ← request.need 0
    let action ← reading
    return .sortedSet key action

end ScoreStore
