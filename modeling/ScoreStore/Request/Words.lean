import ScoreStore.Bytes

/-!
The words of a line: blanks separate them, quotes group blanks into them,
and a backslash escapes a byte.
-/

namespace ScoreStore

/-- The two marks that group the bytes between them. -/
inductive Quote where
  | double
  | single
deriving DecidableEq

/-- The byte of a quote. -/
def Quote.mark : Quote → UInt8
  | double => Ascii.doubleQuote
  | single => Ascii.singleQuote

/-- Why a line has no words. -/
inductive WordError where
  /-- The line ends with a backslash that escapes nothing. -/
  | trailingEscape
  /-- The line ends inside a quote. -/
  | unclosed (quote : Quote)
deriving DecidableEq

/-- The words for the error. -/
def WordError.message : WordError → String
  | trailingEscape => "Invalid input. trailing escape character"
  | unclosed .double => "Invalid input. unclosed double quotes"
  | unclosed .single => "Invalid input. unclosed single quotes"

namespace Words

/-- Whether a byte separates words. -/
def isBlank (byte : UInt8) : Bool := byte == Ascii.space || byte == Ascii.tab

/-- The byte that an escaped byte stands for. -/
def unescape (byte : UInt8) : UInt8 :=
  -- Three letters stand for control bytes, and every other byte for itself.
  match byte with
  | Ascii.smallN => Ascii.lineFeed
  | Ascii.smallR => Ascii.carriageReturn
  | Ascii.smallT => Ascii.tab
  | other => other

/-- The quote that a byte opens. -/
def opens? (byte : UInt8) : Option Quote :=
  if byte = Quote.double.mark then some .double
  else if byte = Quote.single.mark then some .single
  else none

/-- The rest of a line as seen from inside a word: the rest of that word, and the words after it. -/
abbrev Remainder := Bytes × List Bytes

/-- The words of a remainder, where a word without bytes is none. -/
def Remainder.words : Remainder → List Bytes
  | (word, words) => if word.isEmpty then words else word :: words

/-- The remainder before a byte of the current word. -/
def Remainder.extend (byte : UInt8) : Remainder → Remainder
  | (word, words) => (byte :: word, words)

/-- The remainder before a byte that ends the current word. -/
def Remainder.separate (remainder : Remainder) : Remainder := ([], remainder.words)

/-- Reads the rest of a line, inside a quote or outside of both. -/
def scan : Option Quote → Bytes → Except WordError Remainder
  -- A quote ends the word before it as well as the word that it encloses.
  | none, [] => .ok ([], [])
  | some quote, [] => .error (.unclosed quote)
  | quote, byte :: rest =>
    -- A backslash escapes inside quotes as well as outside.
    if byte = Ascii.backslash then
      match rest with
      | [] => .error .trailingEscape
      | escaped :: rest => (scan quote rest).map (Remainder.extend (unescape escaped))
    else match quote with
      | some quote =>
        if byte = quote.mark then (scan none rest).map Remainder.separate
        else (scan (some quote) rest).map (Remainder.extend byte)
      | none =>
        if isBlank byte then (scan none rest).map Remainder.separate
        else match opens? byte with
          | some quote => (scan (some quote) rest).map Remainder.separate
          | none => (scan none rest).map (Remainder.extend byte)

end Words

/-- The words of a line. -/
def splitWords (line : Bytes) : Except WordError (List Bytes) :=
  (Words.scan none line).map Words.Remainder.words

end ScoreStore
