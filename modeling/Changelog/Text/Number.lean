import Changelog.Text.Digit
import Changelog.Text.Scan

/-!
# Numbers written in texts

Decimal numbers have a limit on their length.  A number names a character when it is a code
point.
-/

namespace Changelog

/-- Why a written number has no value, or no character. -/
inductive NumberError
  /-- More decimal digits than can be read. -/
  | tooManyDigits (count : Nat)
  /-- The number does not fit 32 bits with sign. -/
  | tooLarge
  /-- The number lies beyond the last code point. -/
  | notCodePoint
  deriving DecidableEq, Repr

namespace Text

/-- The most digits that a decimal number may have. -/
def digitLimit : Nat := 4300

/-- The number that decimal digits of any script write. -/
def readDecimal (digits : Text) : Except NumberError Nat :=
  if digits.length ≤ digitLimit then .ok (digitsValue digits)
  else .error (.tooManyDigits digits.length)

/-- The character of a code point; a surrogate, which is no character, reads as the replacement
character. -/
def charOf (n : Nat) : Except NumberError Char :=
  if 2147483647 < n then .error .tooLarge
  else if 0x10FFFF < n then .error .notCodePoint
  else if 0xD800 ≤ n ∧ n ≤ 0xDFFF then .ok '\ufffd'
  else .ok (Char.ofNat n)

def decimal (n : Nat) : Text :=
  Nat.toDigits 10 n

/-- The decimal digits of a number, with zeros in front up to `width` digits. -/
def decimalPadded (width n : Nat) : Text :=
  List.replicate (width - (decimal n).length) '0' ++ decimal n

end Text

def NumberError.message : NumberError → Text
  | .tooManyDigits count =>
    "Exceeds the limit (4300 digits) for integer string conversion: value has ".toList ++
      Text.decimal count ++ " digits; use sys.set_int_max_str_digits() to increase the limit".toList
  | .tooLarge => "Python int too large to convert to C int".toList
  | .notCodePoint => "chr() arg not in range(0x110000)".toList

end Changelog
