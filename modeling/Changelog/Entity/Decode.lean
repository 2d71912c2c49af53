import Changelog.Entity.Names
import Changelog.Text.Number

/-!
# Character references

A reference begins with an ampersand and names a character by name or by number.  The closing
semicolon of a number may be missing, and that of an older name as well; among older names the
longest counts.  References are read once, from the left.
-/

namespace Changelog.Entity

/-- The characters that the numbers from 128 to 159 stand for. -/
def windowsCodes : List (Nat × Nat) :=
  [(0x80, 0x20AC), (0x82, 0x201A), (0x83, 0x0192), (0x84, 0x201E), (0x85, 0x2026), (0x86, 0x2020),
   (0x87, 0x2021), (0x88, 0x02C6), (0x89, 0x2030), (0x8A, 0x0160), (0x8B, 0x2039), (0x8C, 0x0152),
   (0x8E, 0x017D), (0x91, 0x2018), (0x92, 0x2019), (0x93, 0x201C), (0x94, 0x201D), (0x95, 0x2022),
   (0x96, 0x2013), (0x97, 0x2014), (0x98, 0x02DC), (0x99, 0x2122), (0x9A, 0x0161), (0x9B, 0x203A),
   (0x9C, 0x0153), (0x9E, 0x017E), (0x9F, 0x0178)]

/-- A number for which nothing is written: most controls, and the noncharacters. -/
def isDropped (n : Nat) : Bool :=
  (decide (1 ≤ n) && decide (n ≤ 8)) || n == 0xB || (decide (0xE ≤ n) && decide (n ≤ 0x1F)) ||
    n == 0x7F || (decide (0xFDD0 ≤ n) && decide (n ≤ 0xFDEF)) || decide (0xFFFE ≤ n % 0x10000)

/-- What a numeric reference stands for. -/
def numberValue (n : Nat) : Text :=
  if n = 0 then ['\ufffd']
  else if 0x80 ≤ n ∧ n ≤ 0x9F then
    match windowsCodes.find? fun e => e.1 == n with
    | some e => [Char.ofNat e.2]
    | none => [Char.ofNat n]
  else if (0xD800 ≤ n ∧ n ≤ 0xDFFF) ∨ 0x10FFFF < n then ['\ufffd']
  else if isDropped n then []
  else [Char.ofNat n]

/-- A text without its leading semicolon, if there is one. -/
def skipSemicolon : Text → Text
  | ';' :: rest => rest
  | cs => cs

def isNameChar (c : Char) : Bool :=
  !(c == '\t' || c == '\n' || c == '\x0c' || c == ' ' || c == '<' || c == '&' || c == '#' ||
    c == ';')

/-- The longest older name of at most `width` characters, and at least two, at the front of a
name: its value and the rest of the name. -/
def longestLegacy (name : Text) : Nat → Option (Text × Text)
  | 0 => none
  | width + 1 =>
    if width = 0 then none
    else match legacyValue? (name.take (width + 1)) with
      | some value => some (value, name.drop (width + 1))
      | none => longestLegacy name width

/-- What a name stands for; `closed` says that a semicolon follows it. -/
def nameValue (name : Text) (closed : Bool) : Text :=
  let rest : Text := if closed then [';'] else []
  match if closed then value? name else legacyValue? name with
  | some value => value
  | none =>
    match longestLegacy name (if closed then name.length else name.length - 1) with
    | some (value, left) => value ++ left ++ rest
    | none => '&' :: (name ++ rest)

/-- Reads a reference: what it stands for, and what follows it. -/
def readReference? : Text → Option (Except NumberError Text × Text)
  | '&' :: '#' :: cs =>
    match Text.spanWhile Text.isAsciiDigit cs with
    | (d :: ds, rest) =>
      some ((Text.readDecimal (d :: ds)).map numberValue, skipSemicolon rest)
    | ([], 'x' :: hs) | ([], 'X' :: hs) =>
      match Text.spanWhile Text.isHexDigit hs with
      | (h :: ds, rest) =>
        some (.ok (numberValue (Text.hexDigitsValue (h :: ds))), skipSemicolon rest)
      | ([], _) => none
    | _ => none
  | '&' :: cs =>
    let name := (Text.spanWhile isNameChar cs).1.take 32
    let rest := cs.drop name.length
    if name.isEmpty then none
    else match rest with
      | ';' :: left => some (.ok (nameValue name true), left)
      | left => some (.ok (nameValue name false), left)
  | _ => none

/-- The text with its character references replaced by what they stand for. -/
def decode (cs : Text) : Except NumberError Text :=
  Text.replaceAll? readReference? cs

end Changelog.Entity
