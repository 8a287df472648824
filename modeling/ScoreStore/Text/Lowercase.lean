import ScoreStore.Text.CaseTables

/-! The lowercase form of a text, for all letters and with the final form of sigma. -/

namespace ScoreStore.Text

/-- Whether a run of capitals holds a code point. -/
def CapitalRun.holds (run : CapitalRun) (code : Nat) : Bool :=
  run.first ≤ code && code ≤ run.last && (code - run.first) % run.stride == 0

/-- Whether one of the inclusive ranges holds a character. -/
def inRanges (ranges : List (Nat × Nat)) (letter : Char) : Bool :=
  ranges.any fun (first, last) => first ≤ letter.toNat && letter.toNat ≤ last

/-- Whether a character is a letter or letter-like sign that has a case. -/
def isCased (letter : Char) : Bool := inRanges casedRanges letter

/-- Whether case rules skip a character when they look at its neighbours. -/
def isCaseIgnorable (letter : Char) : Bool := inRanges caseIgnorableRanges letter

/-- The capital I with a dot, whose lowercase form is two characters. -/
def dottedCapitalI : Char := Char.ofNat 0x130

/-- The capital sigma, whose lowercase form depends on its neighbours. -/
def capitalSigma : Char := Char.ofNat 0x3A3

/-- The lowercase sigma at the end of a word. -/
def finalSigma : Char := Char.ofNat 0x3C2

/-- The lowercase form of a character outside any word. -/
def lowerChar (letter : Char) : List Char :=
  -- Small code points need no table, and the dotted I keeps its dot as a mark of its own.
  if letter.toNat < 128 then [letter.toLower]
  else if letter = dottedCapitalI then ['i', Char.ofNat 0x307]
  else match capitalRuns.find? (·.holds letter.toNat) with
    | some run => [Char.ofNat ((letter.toNat : Int) + run.shift).toNat]
    | none => [letter]

/-- Whether the nearest neighbour that case rules look at is a letter. -/
def nextIsCased (neighbours : List Char) : Bool :=
  match neighbours.dropWhile isCaseIgnorable with
  | [] => false
  | letter :: _ => isCased letter

/-- Lowers a text, given the characters already passed with the nearest first. -/
def lowerFrom (passed : List Char) : List Char → List Char
  -- A sigma that follows a letter and precedes none ends its word.
  | [] => []
  | letter :: rest =>
    if letter = capitalSigma && nextIsCased passed && !nextIsCased rest then
      finalSigma :: lowerFrom (letter :: passed) rest
    else lowerChar letter ++ lowerFrom (letter :: passed) rest

/-- The lowercase form of a text. -/
def lower (text : String) : String := String.ofList (lowerFrom [] text.toList)

end ScoreStore.Text
