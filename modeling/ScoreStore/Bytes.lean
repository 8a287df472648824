import ScoreStore.Ascii

/-! Byte strings: their order, sorting, searching and the first line of a buffer. -/

namespace ScoreStore

/-- A finite sequence of raw bytes. -/
abbrev Bytes := List UInt8

namespace Bytes

/-- The two bytes that end a line. -/
def lineEnd : Bytes := [Ascii.carriageReturn, Ascii.lineFeed]

/-- Whether the first byte string comes strictly before the second, byte by byte. -/
def before : Bytes → Bytes → Bool
  -- A proper beginning comes first, and otherwise the first difference decides.
  | _, [] => false
  | [], _ :: _ => true
  | left :: lefts, right :: rights =>
    if left.toNat < right.toNat then true
    else if right.toNat < left.toNat then false
    else before lefts rights

/-- Whether the first byte string comes before the second or equals it. -/
def atMost (left right : Bytes) : Bool := !before right left

/-- The position where a pattern first occurs in the data. -/
def find? (pattern : Bytes) : Bytes → Option Nat
  -- Each start position is tried in turn, and an empty remainder holds no pattern.
  | [] => none
  | byte :: rest =>
    if pattern.isPrefixOf (byte :: rest) then some 0 else (find? pattern rest).map (· + 1)

/-- The bytes before the first line end, and the bytes after it. -/
def splitLine? : Bytes → Option (Bytes × Bytes)
  -- A carriage return without its line feed belongs to the line.
  | [] => none
  | [_] => none
  | first :: second :: rest =>
    if first = Ascii.carriageReturn ∧ second = Ascii.lineFeed then some ([], rest)
    else (splitLine? (second :: rest)).map fun (line, remaining) => (first :: line, remaining)

/-- The bytes after the first line are fewer than the buffer. -/
theorem length_splitLine? {buffer line rest : Bytes}
    (split : splitLine? buffer = some (line, rest)) : rest.length < buffer.length := by
  -- The two bytes of the line end are gone at least.
  fun_induction splitLine? buffer generalizing line rest with
  | case1 => simp at split
  | case2 => simp at split
  | case3 first second remaining ends =>
    simp only [Option.some.injEq, Prod.mk.injEq] at split
    simp only [← split.2, List.length_cons]
    omega
  | case4 first second remaining ends ih =>
    obtain ⟨⟨shorterLine, left⟩, split, same⟩ := Option.map_eq_some_iff.mp split
    simp only [Prod.mk.injEq] at same
    have shorter := ih split
    simp only [List.length_cons] at shorter ⊢
    rw [← same.2]
    omega

end Bytes

/-- Puts an item into a sorted list, before the first item that does not precede it. -/
def insertSorted {α : Type} (precedes : α → α → Bool) (item : α) : List α → List α
  | [] => [item]
  | head :: rest =>
    if precedes head item then head :: insertSorted precedes item rest else item :: head :: rest

/-- Sorts a list by repeated insertion. -/
def sortBy {α : Type} (precedes : α → α → Bool) (items : List α) : List α :=
  -- Building from the end makes an already sorted list cost one comparison an item.
  items.foldr (insertSorted precedes) []

end ScoreStore
