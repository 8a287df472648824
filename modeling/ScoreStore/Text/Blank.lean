/-! White space in texts, and removing it from their ends. -/

namespace ScoreStore.Text

/-- Whether a character is white space. -/
def isBlank (letter : Char) : Bool :=
  -- The control blanks, the space, and the spaces and separators of general punctuation.
  let code := letter.toNat
  (9 ≤ code && code ≤ 13) || code == 0x20 || code == 0x85 || code == 0xA0 || code == 0x1680 ||
    (0x2000 ≤ code && code ≤ 0x200A) || code == 0x2028 || code == 0x2029 || code == 0x202F ||
    code == 0x205F || code == 0x3000

/-- Removes white space from the start. -/
def trimStart (letters : List Char) : List Char := letters.dropWhile isBlank

/-- Removes white space from the end. -/
def trimEnd (letters : List Char) : List Char := (letters.reverse.dropWhile isBlank).reverse

/-- Removes white space from both ends. -/
def trim (letters : List Char) : List Char := trimEnd (trimStart letters)

end ScoreStore.Text
