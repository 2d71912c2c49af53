import Changelog.Text.Printable
import Changelog.Text.Scan

/-!
# Quoted texts

A quoted text stands between single quotes, or between double quotes when it holds a single quote
and no double quote.  Line ends, tabs and characters that are not printable are escaped.
-/

namespace Changelog.Text

/-- The hexadecimal digits of a number, with zeros in front up to `width` digits. -/
def hexPadded (width n : Nat) : Text :=
  List.replicate (width - (Nat.toDigits 16 n).length) '0' ++ Nat.toDigits 16 n

/-- A character as it is written between the given quotes. -/
def quoteChar (mark c : Char) : Text :=
  if c = mark || c = '\\' then ['\\', c]
  else if c = '\n' then ['\\', 'n']
  else if c = '\r' then ['\\', 'r']
  else if c = '\t' then ['\\', 't']
  else if isPrintable c then [c]
  else if c.toNat < 0x100 then '\\' :: 'x' :: hexPadded 2 c.toNat
  else if c.toNat < 0x10000 then '\\' :: 'u' :: hexPadded 4 c.toNat
  else '\\' :: 'U' :: hexPadded 8 c.toNat

def quoteMark (cs : Text) : Char :=
  if cs.contains '\x27' && !cs.contains '"' then '"' else '\x27'

def quoted (cs : Text) : Text :=
  let mark := quoteMark cs
  mark :: (cs.flatMap (quoteChar mark) ++ [mark])

end Changelog.Text
