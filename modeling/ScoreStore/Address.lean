import ScoreStore.Decimal
import ScoreStore.Hexadecimal
import ScoreStore.Text.Utf8

/-! Network addresses: hosts by name or number, and reading and writing the numbers. -/

namespace ScoreStore

/-- An address that clients connect to. -/
structure Endpoint where
  /-- The name or number of the host. -/
  host : String
  /-- The port. -/
  port : Nat
deriving DecidableEq

/-- The number of a host. -/
inductive IpAddress where
  /-- Four bytes. -/
  | v4 (bytes : Vector UInt8 4)
  /-- Eight groups of sixteen bits. -/
  | v6 (groups : Vector UInt16 8)
deriving DecidableEq

namespace IpAddress

/-- The address of these bytes, if there are four of them. -/
def ofBytes? (bytes : List UInt8) : Option IpAddress :=
  if four : bytes.length = 4 then some (.v4 ⟨bytes.toArray, by simpa using four⟩) else none

/-- The address of these groups, if there are eight of them. -/
def ofGroups? (groups : List UInt16) : Option IpAddress :=
  if eight : groups.length = 8 then some (.v6 ⟨groups.toArray, by simpa using eight⟩) else none

/-- Reads a number in decimal digits, up to a limit. -/
def number? (limit : Nat) (letters : List Char) : Option Nat :=
  Decimal.digitsUpTo? limit (Text.bytes (String.ofList letters))

/-- Reads a byte in decimal digits without leading zeros. -/
def byte? (letters : List Char) : Option UInt8 :=
  if letters.head? = some '0' ∧ letters ≠ ['0'] then none
  else (number? 255 letters).map UInt8.ofNat

/-- Reads four bytes with points between them. -/
def fourBytes? (letters : List Char) : Option (List UInt8) :=
  ((letters.splitOn '.').mapM byte?).filter (·.length = 4)

/-- Reads a group of up to four hexadecimal digits. -/
def group? (letters : List Char) : Option UInt16 :=
  if letters.isEmpty ∨ 4 < letters.length then none
  else (Hexadecimal.value? letters).map UInt16.ofNat

/-- The groups that pairs of bytes make, the high byte first. -/
def groupsOfBytes : List UInt8 → List UInt16
  | high :: low :: rest => (high.toUInt16 <<< 8 ||| low.toUInt16) :: groupsOfBytes rest
  | _ => []

/-- The two bytes of a group, the high byte first. -/
def bytesOfGroup (group : UInt16) : List UInt8 := [(group >>> 8).toUInt8, group.toUInt8]

/-- Reads the pieces of an address; the last one may be four bytes, which are two groups. -/
def groups? : List (List Char) → Option (List UInt16)
  | [] => some []
  | [last] => ((fourBytes? last).map groupsOfBytes).or ((group? last).map fun group => [group])
  | piece :: rest => do return (← group? piece) :: (← groups? rest)

/-- The pieces of a text between colons; an empty text has none. -/
def pieces (letters : List Char) : List (List Char) :=
  if letters.isEmpty then [] else letters.splitOn ':'

/-- The texts before and after the first two colons in a row. -/
def splitGap? : List Char → Option (List Char × List Char)
  | [] => none
  | ':' :: ':' :: after => some ([], after)
  | letter :: rest => (splitGap? rest).map fun (before, after) => (letter :: before, after)

/-- Reads an address of four bytes. -/
def readV4? (letters : List Char) : Option IpAddress := (fourBytes? letters).bind ofBytes?

/-- Reads an address of eight groups, some of which two colons in a row may stand for. -/
def readV6? (letters : List Char) : Option IpAddress :=
  -- Two colons in a row are groups of zero, at least one, and no bytes may come before them.
  match splitGap? letters with
  | none => (groups? (pieces letters)).bind ofGroups?
  | some (before, after) => do
    let first ← (pieces before).mapM group?
    let last ← groups? (pieces after)
    let missing := 8 - (first.length + last.length)
    if missing = 0 then none else ofGroups? (first ++ List.replicate missing 0 ++ last)

/-- Writes bytes with points between them. -/
def dotted (bytes : List UInt8) : List Char :=
  ['.'].intercalate (bytes.map fun byte => Nat.toDigits 10 byte.toNat)

/-- Writes groups with colons between them. -/
def coloned (groups : List UInt16) : List Char :=
  [':'].intercalate (groups.map fun group => Hexadecimal.ofNat group.toNat)

/-- Where the longest run of zeros starts and how long it is, the first run of several. -/
def longestZeros (groups : List UInt16) : Nat × Nat :=
  -- A run counts from its first zero, since it is shorter from any later one.
  let run (start : Nat) : Nat := ((groups.drop start).takeWhile (· == 0)).length
  (List.range groups.length).foldl
    (fun best start => if best.2 < run start then (start, run start) else best) (0, 0)

/-- Writes groups with two colons for the longest run of zeros, unless that is a single one. -/
def shortened (groups : List UInt16) : List Char :=
  let (start, length) := longestZeros groups
  if length < 2 then coloned groups
  else coloned (groups.take start) ++ [':', ':'] ++ coloned (groups.drop (start + length))

/-- The groups before an address of four bytes that is written as one of eight groups. -/
def v4Lead : List UInt16 := [0, 0, 0, 0, 0, 0xFFFF]

/-- The text of an address. -/
def text (address : IpAddress) : String :=
  -- What stands for an address of four bytes shows them.
  String.ofList <| match address with
  | v4 bytes => dotted bytes.toList
  | v6 groups =>
    let groups := groups.toList
    if groups.take 6 = v4Lead then
      shortened v4Lead ++ [':'] ++ dotted ((groups.drop 6).flatMap bytesOfGroup)
    else shortened groups

end IpAddress

/-- A port of a host by number. -/
structure SocketAddress where
  /-- The host. -/
  host : IpAddress
  /-- The port. -/
  port : UInt16
deriving DecidableEq

namespace SocketAddress

/-- Reads a port. -/
def port? (letters : List Char) : Option UInt16 :=
  (IpAddress.number? Decimal.maxUnsigned16 letters).map UInt16.ofNat

/-- Reads what stands in brackets: a host, and after a percent sign a network, passed over. -/
def bracketed? (letters : List Char) : Option IpAddress :=
  let host := IpAddress.readV6? (letters.takeWhile (· ≠ '%'))
  match letters.dropWhile (· ≠ '%') with
  | [] => host
  | _ :: network => (IpAddress.number? Decimal.maxUnsigned32 network).bind fun _ => host

/-- Reads an address: a host, in brackets when it has colons itself, then a colon and a port. -/
def read? (text : String) : Option SocketAddress :=
  match text.toList with
  | '[' :: letters =>
    match letters.dropWhile (· ≠ ']') with
    | ']' :: ':' :: port => do
      return ⟨← bracketed? (letters.takeWhile (· ≠ ']')), ← port? port⟩
    | _ => none
  | letters =>
    match letters.dropWhile (· ≠ ':') with
    | ':' :: port => do
      return ⟨← IpAddress.readV4? (letters.takeWhile (· ≠ ':')), ← port? port⟩
    | _ => none

/-- The address as clients are told it. -/
def endpoint (address : SocketAddress) : Endpoint := ⟨address.host.text, address.port.toNat⟩

end SocketAddress
end ScoreStore
