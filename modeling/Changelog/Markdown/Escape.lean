import Changelog.Text.Digit
import Changelog.Text.Scan

/-!
# Writing characters in markup

The ampersand and the angle brackets are written as references.  Outside code an ampersand that
begins a closed reference already stays as it is.
-/

namespace Changelog.Escape

def codeChar (c : Char) : Text :=
  if c = '&' then "&amp;".toList
  else if c = '<' then "&lt;".toList
  else if c = '>' then "&gt;".toList
  else [c]

/-- Code, written so that it shows as it stands. -/
def code (cs : Text) : Text :=
  cs.flatMap codeChar

/-- A letter or a digit of a name.  Case is ignored, so that four letters beyond ASCII count whose
other case is an ASCII letter: the capital I with a dot, the small i without one, the long s and the
sign of the kelvin. -/
def isNameLetter (c : Char) : Bool :=
  c.isAlphanum || c == '\u0130' || c == '\u0131' || c == '\u017f' || c == '\u212a'

theorem isNameLetter_of_isAlphanum {c : Char} (h : c.isAlphanum = true) : isNameLetter c = true := by
  simp only [isNameLetter, h, Bool.true_or]

/-- Whether the text after an ampersand closes a reference by name or by number. -/
def closesReference (cs : Text) : Bool :=
  let closed : Text × Text → Bool := fun r => !r.1.isEmpty && r.2.head? == some ';'
  match cs with
  | '#' :: ds =>
    closed (Text.spanWhile Text.isAsciiDigit ds) ||
      match ds with
      | x :: hs => (x == 'x' || x == 'X') && closed (Text.spanWhile Text.isHexDigit hs)
      | [] => false
  | _ => closed (Text.spanWhile isNameLetter cs)

/-- Characters of a document: text, or an attribute value when `inValue`. -/
def characters (inValue : Bool) : Text → Text
  | [] => []
  | c :: cs =>
    let image : Text :=
      if c = '&' then if closesReference cs then ['&'] else "&amp;".toList
      else if c = '<' then "&lt;".toList
      else if c = '>' then "&gt;".toList
      else if c = '"' ∧ inValue = true then "&quot;".toList
      else [c]
    image ++ characters inValue cs

/-- Text of a document. -/
def text (cs : Text) : Text :=
  characters false cs

def value (cs : Text) : Text :=
  characters true cs

end Changelog.Escape
