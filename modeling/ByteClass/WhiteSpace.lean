import ByteClass.CodeRange

/-!
# White space at the ends of a text

White space is the `White_Space` property of Unicode: the ASCII blanks and
line breaks, the next-line character, and the spaces and separators beyond
Latin.
-/

namespace ByteClass

/-- The first and last code point of each range of white space. -/
def whiteSpaceRanges : List (Nat × Nat) :=
  [(0x09, 0x0d), (0x20, 0x20), (0x85, 0x85), (0xa0, 0xa0), (0x1680, 0x1680),
    (0x2000, 0x200a), (0x2028, 0x2029), (0x202f, 0x202f), (0x205f, 0x205f),
    (0x3000, 0x3000)]

def isWhiteSpace (char : Char) : Bool :=
  inRanges whiteSpaceRanges char.toNat

/-- The text without white space at its ends. -/
def strip (text : List Char) : List Char :=
  ((text.dropWhile isWhiteSpace).reverse.dropWhile isWhiteSpace).reverse

end ByteClass
