/-! The bytes that have a meaning of their own in requests, replies, numbers and bounds. -/

namespace ScoreStore.Ascii

/-- A blank between words. -/
@[match_pattern] abbrev tab : UInt8 := 0x09

/-- The byte that completes a line end. -/
@[match_pattern] abbrev lineFeed : UInt8 := 0x0A

/-- The byte that starts a line end. -/
@[match_pattern] abbrev carriageReturn : UInt8 := 0x0D

/-- A blank between words. -/
@[match_pattern] abbrev space : UInt8 := 0x20

/-- One of the two marks that group words. -/
@[match_pattern] abbrev doubleQuote : UInt8 := 0x22

/-- The marker before the length of a byte string. -/
@[match_pattern] abbrev dollar : UInt8 := 0x24

/-- The other of the two marks that group words. -/
@[match_pattern] abbrev singleQuote : UInt8 := 0x27

/-- The marker of an exclusive bound. -/
@[match_pattern] abbrev parenthesis : UInt8 := 0x28

/-- The marker before the length of an array. -/
@[match_pattern] abbrev asterisk : UInt8 := 0x2A

/-- The sign of a positive number. -/
@[match_pattern] abbrev plus : UInt8 := 0x2B

/-- The sign of a negative number. -/
@[match_pattern] abbrev minus : UInt8 := 0x2D

/-- The mark between the whole part of a number and its fraction. -/
@[match_pattern] abbrev point : UInt8 := 0x2E

/-- The first of the ten consecutive digits. -/
@[match_pattern] abbrev zero : UInt8 := 0x30

/-- The last of the ten consecutive digits. -/
@[match_pattern] abbrev nine : UInt8 := 0x39

/-- The marker before an integer. -/
@[match_pattern] abbrev colon : UInt8 := 0x3A

/-- The first of the capital letters. -/
@[match_pattern] abbrev capitalA : UInt8 := 0x41

/-- A mark before an exponent. -/
@[match_pattern] abbrev capitalE : UInt8 := 0x45

/-- The last of the capital letters. -/
@[match_pattern] abbrev capitalZ : UInt8 := 0x5A

/-- The marker of an inclusive bound on members. -/
@[match_pattern] abbrev bracket : UInt8 := 0x5B

/-- The mark that escapes the next byte. -/
@[match_pattern] abbrev backslash : UInt8 := 0x5C

/-- A mark before an exponent. -/
@[match_pattern] abbrev smallE : UInt8 := 0x65

/-- The letter that stands for a line feed when it is escaped. -/
@[match_pattern] abbrev smallN : UInt8 := 0x6E

/-- The letter that stands for a carriage return when it is escaped. -/
@[match_pattern] abbrev smallR : UInt8 := 0x72

/-- The letter that stands for a tab when it is escaped. -/
@[match_pattern] abbrev smallT : UInt8 := 0x74

end ScoreStore.Ascii
