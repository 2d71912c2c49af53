import Changelog.Text.Number

/-!
# Marks in texts

While a document is being built, a part that is settled elsewhere is held by a mark: a start
character, some letters and digits, and an end character.  The two characters are removed from
every source text, so that no source can write a mark.
-/

namespace Changelog.Mark

/-- The character that begins a mark. -/
def opening : Char := '\x02'

/-- The character that ends a mark. -/
def closing : Char := '\x03'

/-- The letters of a mark for a piece of stored markup. -/
def rawWord : Text := "wzxhzdk:".toList

/-- The letters of a mark for an element of running text. -/
def spanWord : Text := "klzzwxh:".toList

/-- The mark of an escaped character, by its code point. -/
def escaped (n : Nat) : Text :=
  opening :: (Text.decimal n ++ [closing])

/-- The mark of a piece of stored markup. -/
def raw (index : Nat) : Text :=
  opening :: (rawWord ++ Text.decimal index ++ [closing])

/-- The name under which an element of running text is stored. -/
def spanName (index : Nat) : Text :=
  Text.decimalPadded 4 index

/-- The mark of an element of running text. -/
def span (index : Nat) : Text :=
  opening :: (spanWord ++ spanName index ++ [closing])

/-- The mark of an ampersand that is written as it stands. -/
def ampersand : Text :=
  opening :: ("amp".toList ++ [closing])

/-- Reads the digits of a class, at least one, and the end of a mark. -/
def readDigits? (isDigit : Char → Bool) (cs : Text) : Option (Text × Text) :=
  match Text.spanWhile isDigit cs with
  | ([], _) => none
  | (d :: ds, e :: rest) => if e = closing then some (d :: ds, rest) else none
  | (_, []) => none

/-- Reads the mark of an escaped character: its digits and what follows. -/
def readEscaped? : Text → Option (Text × Text)
  | c :: cs => if c = opening then readDigits? Text.isDigit cs else none
  | [] => none

/-- Reads a mark with the given letters: its digits and what follows. -/
def readWord? (word : Text) : Text → Option (Text × Text)
  | c :: cs =>
    if c = opening then (Text.after? word cs).bind (readDigits? Text.isAsciiDigit) else none
  | [] => none

def readRaw? : Text → Option (Text × Text) :=
  readWord? rawWord

def readSpan? : Text → Option (Text × Text) :=
  readWord? spanWord

def escapedChar (digits : Text) : Except NumberError Char :=
  (Text.readDecimal digits).bind Text.charOf

/-- The text with its escape marks replaced by their characters. -/
def unescape (cs : Text) : Except NumberError Text :=
  Text.replaceAll? (fun t => (readEscaped? t).map fun r => ((escapedChar r.1).map ([·]), r.2)) cs

end Changelog.Mark
