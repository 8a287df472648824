import ScoreStore.Hexadecimal
import ScoreStore.Text.Blank

/-! Settings files: named sections of properties, read character by character. -/

namespace ScoreStore

/-- A section of a settings file. -/
structure Section where
  /-- The name. -/
  name : String
  /-- The properties, last one first. -/
  properties : List (String × String) := []
deriving DecidableEq

/-- A settings file that has no sections because it is not well formed. -/
structure MalformedFile where
deriving DecidableEq

namespace Sections

/-- What is being read. -/
inductive Mode where
  /-- The blanks between items. -/
  | between
  /-- A comment. -/
  | comment
  /-- The name of a section. -/
  | name
  /-- The key of a property. -/
  | key
  /-- The blanks before a value. -/
  | gap
  /-- The part of a value between two marks. -/
  | quoted (mark : Char)
  /-- The part of a value up to the end of the line. -/
  | plain
deriving DecidableEq

/-- How much of an escape has been read. -/
inductive Escape where
  /-- No escape has begun. -/
  | absent
  /-- The backslash. -/
  | begun
  /-- The backslash, the letter of a code and some of its digits, last one first. -/
  | code (digits : List Char)
deriving DecidableEq

/-- The state of reading a settings file. -/
structure Progress where
  /-- What is being read. -/
  mode : Mode := .between
  /-- The characters of the current item, last one first. -/
  text : List Char := []
  /-- The current escape. -/
  escape : Escape := .absent
  /-- Whether the next character starts a line. -/
  atLineStart : Bool := true
  /-- The key that waits for its value, empty when there is none. -/
  pendingKey : String := ""
  /-- The sections so far, last one first. -/
  sections : List Section := []

/-- Whether a character ends a line. -/
def isLineEnd (letter : Char) : Bool := letter == '\n' || letter == '\r'

/-- Whether a character begins and ends the quoted part of a value. -/
def isMark (letter : Char) : Bool := letter == '"' || letter == '\''

namespace Progress

/-- Waits for the next item. -/
def rest (progress : Progress) : Progress := { progress with mode := .between, text := [] }

/-- Takes the current item as the name of a section. -/
def endName (progress : Progress) : Progress :=
  let name := String.ofList (Text.trim progress.text.reverse)
  { progress.rest with sections := { name } :: progress.sections }

/-- Takes the current item as a key. -/
def endKey (progress : Progress) : Progress :=
  { progress.rest with pendingKey := String.ofList (Text.trim progress.text.reverse) }

/-- Takes the current item as a value; properties before the first section are dropped. -/
def endValue (progress : Progress) : Progress :=
  -- Blanks at either end are no part of a value, not even between marks.
  let value := String.ofList (Text.trim progress.text.reverse)
  let sections := match progress.sections with
    | [] => []
    | current :: earlier =>
      { current with properties := (progress.pendingKey, value) :: current.properties } :: earlier
  { progress.rest with sections, pendingKey := "" }

/-- Adds a character to the current item. -/
def push (progress : Progress) (letter : Char) : Progress :=
  { progress with text := letter :: progress.text, escape := .absent }

/-- Whether a character ends the current item. -/
def ends (mode : Mode) (letter : Char) : Bool :=
  match mode with
  | .name => letter == ']'
  | .key => letter == '=' || letter == ':'
  | .quoted mark => letter == mark
  | .plain => isLineEnd letter
  | _ => false

/-- Ends the current item, unless it is a key. -/
def finish (progress : Progress) : Progress :=
  -- After the quoted part of a value, the rest of the line belongs to the value as it stands.
  match progress.mode with
  | .name => progress.endName
  | .quoted _ => { progress with mode := .plain }
  | .plain => progress.endValue
  | _ => progress

/-- The character of a code of four hexadecimal digits, the first of which may be a plus sign. -/
def codeChar? (code : List Char) : Option Char := do
  let value ← Hexadecimal.value? (if code.head? = some '+' then code.tail else code)
  if value.isValidChar then some (Char.ofNat value) else none

/-- Takes the character after a backslash. -/
def takeEscaped (progress : Progress) (letter : Char) : Progress :=
  -- A line end is dropped, some letters stand for control characters, and all else for itself.
  match letter with
  | '0' => progress.push (Char.ofNat 0)
  | 'a' => progress.push (Char.ofNat 7)
  | 'b' => progress.push (Char.ofNat 8)
  | 't' => progress.push '\t'
  | 'r' => progress.push '\r'
  | 'n' => progress.push '\n'
  | '\n' => { progress with escape := .absent }
  | 'x' => { progress with escape := .code [] }
  | other => progress.push other

/-- Takes a character between items. -/
def takeBetween (progress : Progress) (letter : Char) : Except MalformedFile Progress :=
  -- Comments have lines of their own, and a value needs a key.
  if Text.isBlank letter then .ok progress
  else if letter = ';' ∨ letter = '#' then
    if progress.atLineStart then .ok { progress with mode := .comment } else .error {}
  else if letter = '[' then .ok { progress with mode := .name }
  else if letter = '=' ∨ letter = ':' then
    if progress.pendingKey.isEmpty then .error {} else .ok { progress with mode := .gap }
  else if letter = '\\' then .ok { progress with mode := .key, escape := .begun }
  else .ok ({ progress with mode := .key }.push letter)

/-- Takes a character before a value. -/
def takeGap (progress : Progress) (letter : Char) : Progress :=
  -- Blanks are skipped, but a value that is not there by the end of the line is empty.
  if isLineEnd letter then progress.endValue
  else if Text.isBlank letter then progress
  else if isMark letter then { progress with mode := .quoted letter }
  else if letter = '\\' then { progress with mode := .plain, escape := .begun }
  else { progress with mode := .plain }.push letter

/-- Takes a character of the current item. -/
def takeInside (progress : Progress) (letter : Char) : Except MalformedFile Progress :=
  match progress.escape with
  | .begun => .ok (progress.takeEscaped letter)
  | .code digits =>
    if digits.length < 3 then .ok { progress with escape := .code (letter :: digits) }
    else match codeChar? (letter :: digits).reverse with
      | some coded => .ok (progress.push coded)
      | none => .error {}
  | .absent =>
    -- What ends a key also announces its value.
    if ends progress.mode letter then
      if progress.mode = .key then progress.endKey.takeBetween letter else .ok progress.finish
    else if letter = '\\' then .ok { progress with escape := .begun }
    else .ok (progress.push letter)

/-- Takes a character. -/
def take (progress : Progress) (letter : Char) : Except MalformedFile Progress :=
  match progress.mode with
  | .between => progress.takeBetween letter
  | .comment => .ok (if letter = '\n' then progress.rest else progress)
  | .gap => .ok (progress.takeGap letter)
  | _ => progress.takeInside letter

/-- Takes the characters of a file in turn. -/
def takeAll (progress : Progress) : List Char → Except MalformedFile Progress
  | [] => .ok progress
  | letter :: rest =>
    match progress.take letter with
    | .error malformed => .error malformed
    | .ok progress => takeAll { progress with atLineStart := letter = '\n' } rest

/-- Ends the file, which must not break off inside a name, a key, a quoted part or an escape. -/
def close (progress : Progress) : Except MalformedFile Progress :=
  match progress.mode with
  | .between | .comment => .ok progress
  | .gap => .ok progress.endValue
  | .plain => if progress.escape = .absent then .ok progress.endValue else .error {}
  | _ => .error {}

end Progress

/-- The sections of a settings file, first one first. -/
def read (text : String) : Except MalformedFile (List Section) :=
  match Progress.takeAll {} text.toList with
  | .error malformed => .error malformed
  | .ok progress => progress.close.map fun progress => progress.sections.reverse

/-- The value of a property: the first one of this key in the first section of this name. -/
def property? (sections : List Section) (name key : String) : Option String := do
  let found ← sections.find? fun candidate => candidate.name == name
  (found.properties.reverse.find? fun property => property.1 == key).map Prod.snd

end Sections
end ScoreStore
