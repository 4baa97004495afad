/-!
# Blank characters

The characters with the Unicode property `White_Space`, and removing them from the ends of a text.
-/

namespace QueryScope.Text

/-- The code points with the property `White_Space`. -/
def blankCodes : List Nat :=
  [0x9, 0xA, 0xB, 0xC, 0xD, 0x20, 0x85, 0xA0, 0x1680, 0x2000, 0x2001, 0x2002, 0x2003, 0x2004,
   0x2005, 0x2006, 0x2007, 0x2008, 0x2009, 0x200A, 0x2028, 0x2029, 0x202F, 0x205F, 0x3000]

/-- Whether a character has the property `White_Space`. -/
def isBlank (c : Char) : Bool :=
  blankCodes.contains c.toNat

/-- Remove blanks from the front. -/
def trimStart (text : List Char) : List Char :=
  text.dropWhile isBlank

/-- Remove blanks from the back. -/
def trimEnd (text : List Char) : List Char :=
  (text.reverse.dropWhile isBlank).reverse

/-- Remove blanks from both ends. -/
def trim (text : List Char) : List Char :=
  trimEnd (trimStart text)

end QueryScope.Text
