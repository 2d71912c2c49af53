/-!
# White space

The white space characters of all scripts, and the removal of white space at the ends of a text.
-/

namespace Changelog.Text

def spaceCodes : List Nat :=
  [0x9, 0xA, 0xB, 0xC, 0xD, 0x1C, 0x1D, 0x1E, 0x1F, 0x20, 0x85, 0xA0, 0x1680, 0x2000, 0x2001,
   0x2002, 0x2003, 0x2004, 0x2005, 0x2006, 0x2007, 0x2008, 0x2009, 0x200A, 0x2028, 0x2029, 0x202F,
   0x205F, 0x3000]

/-- A white space character. -/
def isSpace (c : Char) : Bool :=
  spaceCodes.contains c.toNat

/-- The text without leading white space. -/
def trimStart (cs : List Char) : List Char :=
  cs.dropWhile isSpace

/-- The text without the trailing characters of a class. -/
def dropEndWhile (p : Char → Bool) (cs : List Char) : List Char :=
  (cs.reverse.dropWhile p).reverse

/-- The text without trailing white space. -/
def trimEnd (cs : List Char) : List Char :=
  dropEndWhile isSpace cs

/-- The text without white space at its ends. -/
def trim (cs : List Char) : List Char :=
  trimEnd (trimStart cs)

/-- Whether a text holds white space only. -/
def isBlank (cs : List Char) : Bool :=
  cs.all isSpace

end Changelog.Text
