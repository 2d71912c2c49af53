import Changelog.Text.Lower
import Changelog.Text.Scan
import Changelog.Text.Space

/-!
# Tags of markup

A tag is a name and attributes between angle brackets.  Names, and values without quotes, hold no
backtick, so that a tag does not begin in one span of code and end in another.
-/

namespace Changelog.Raw

/-- A place in a text: the character before it, how many characters were read, and the rest. -/
structure Cursor where
  last : Char
  taken : Nat
  rest : Text

namespace Cursor

/-- The cursor after the characters of a class at its place. -/
def skipFrom (p : Char → Bool) (last : Char) (taken : Nat) : Text → Cursor
  | [] => ⟨last, taken, []⟩
  | c :: cs => if p c then skipFrom p c (taken + 1) cs else ⟨last, taken, c :: cs⟩

/-- The cursor after the characters of a class. -/
def skip (p : Char → Bool) (at' : Cursor) : Cursor :=
  skipFrom p at'.last at'.taken at'.rest

/-- The cursor after the next character, when it is of a class. -/
def pass? (p : Char → Bool) (at' : Cursor) : Option Cursor :=
  match at'.rest with
  | c :: cs => if p c then some ⟨c, at'.taken + 1, cs⟩ else none
  | [] => none

def next? (at' : Cursor) : Option Char :=
  at'.rest.head?

/-- The cursor after white space, and after slashes that no closing bracket follows. -/
def skipGapFrom (last : Char) (taken : Nat) : Text → Cursor
  | [] => ⟨last, taken, []⟩
  | c :: cs =>
    if Text.isSpace c || (c == '/' && cs.head? != some '>') then skipGapFrom c (taken + 1) cs
    else ⟨last, taken, c :: cs⟩

/-- The cursor after a gap between attributes. -/
def skipGap (at' : Cursor) : Cursor :=
  skipGapFrom at'.last at'.taken at'.rest

end Cursor

/-- How freely tags are read: whether backticks may stand in names and values, and whether commas
may follow values. -/
structure Manner where
  ticks : Bool
  commas : Bool

/-- The manner in which the end of a tag is found. -/
def Manner.strict : Manner := ⟨false, true⟩

/-- The manner in which the attributes of a tag are told apart. -/
def Manner.loose : Manner := ⟨true, false⟩

/-- A backtick where the manner has none. -/
def Manner.stops (manner : Manner) (c : Char) : Bool :=
  !manner.ticks && c == '\x60'

def isTagChar (manner : Manner) (c : Char) : Bool :=
  !(c == '\t' || c == '\n' || c == '\r' || c == '\x0c' || c == ' ' || c == '/' || c == '>' ||
    c == '\x00' || manner.stops c)

/-- A character of a value without quotes. -/
def isBareChar (manner : Manner) (c : Char) : Bool :=
  !(c == '>' || Text.isSpace c || manner.stops c)

/-- The cursor after a value between quotes. -/
def quotedValue? (mark : Char) (at' : Cursor) : Option Cursor :=
  (at'.pass? (· == mark)).bind fun inside =>
    (inside.skip (· != mark)).pass? (· == mark)

def isQuote (c : Char) : Bool :=
  c == '"' || c == '\''

/-- The cursor after commas that follow a value. -/
def skipCommas : Nat → Cursor → Cursor
  | 0, at' => at'
  | steps + 1, at' =>
    match (at'.skip Text.isSpace).pass? (· == ',') with
    | some after => skipCommas steps after
    | none => at'

/-- The cursor after the value that follows equals signs.  A quote that is not closed begins no
value: then the value is empty and ends before the space in front of the quote, or begins with the
last of several equals signs. -/
def value? (manner : Manner) (at' : Cursor) : Option Cursor :=
  let signs := at'.skip (· == '=')
  let spaced := signs.skip Text.isSpace
  match (quotedValue? '\'' spaced).or (quotedValue? '"' spaced) with
  | some after => some after
  | none =>
    if spaced.next?.any isQuote then
      if signs.taken < spaced.taken then
        some ⟨'=', spaced.taken - 1, spaced.last :: spaced.rest⟩
      else if at'.taken + 1 < signs.taken then
        some ((Cursor.mk '=' (signs.taken - 1) ('=' :: signs.rest)).skip (isBareChar manner))
      else none
    else some (spaced.skip (isBareChar manner))

/-- The cursor after the equals sign and the value of an attribute, or the same cursor when there
is none. -/
def passValue (manner : Manner) (steps : Nat) (at' : Cursor) : Cursor :=
  let spaced := at'.skip Text.isSpace
  if spaced.next? = some '=' then
    match value? manner spaced with
    | some after => if manner.commas then skipCommas steps after else after
    | none => at'
  else at'

/-- The cursor after an attribute and the gap after it. -/
def attribute? (manner : Manner) (steps : Nat) (at' : Cursor) : Option Cursor :=
  if isQuote at'.last || Text.isSpace at'.last || at'.last == '/' then
    (at'.pass? fun c => !(Text.isSpace c || c == '/' || c == '>' || manner.stops c)).map
      fun named =>
        (passValue manner steps
          (named.skip fun c => !(Text.isSpace c || c == '/' || c == '=' || c == '>'))).skipGap
  else none

/-- The cursor after attributes, which end before `limit` at the latest; `steps` bounds how many. -/
def skipAttributes (manner : Manner) (limit : Nat) : Nat → Cursor → Cursor
  | 0, at' => at'
  | steps + 1, at' =>
    if at'.taken < limit then
      match attribute? manner steps at' with
      | some after => skipAttributes manner limit steps after
      | none => at'
    else at'

/-- How many characters a tag takes that begins with the bracket at the front of the text.  There
is none when the text ends within it, or an attribute goes on after its value. -/
def tagLength? (steps : Nat) (cs : Text) : Option Nat :=
  let bracket : Cursor := ⟨'<', 1, cs.drop 1⟩
  let named := bracket.skip (isTagChar .strict)
  let spaced := named.skip fun c => Text.isSpace c || c == '/'
  let final := (skipAttributes .strict (spaced.taken + steps + 1) steps spaced).skip Text.isSpace
  match final.rest with
  | [] => none
  | '>' :: _ => some (final.taken + 1)
  | '/' :: '>' :: _ => some (final.taken + 2)
  | c :: _ => if c == '/' || c == '=' || c.isAlpha then none else some final.taken

/-- How a tag ends. -/
inductive TagEnd
  /-- It opens an element. -/
  | opens
  /-- It is an element of its own. -/
  | closes
  /-- It is no tag after all. -/
  | broken
  deriving DecidableEq

/-- The name of the tag of the given length, in lower case, and how the tag ends. -/
def readTag (steps length : Nat) (cs : Text) : String × TagEnd :=
  let bracket : Cursor := ⟨'<', 1, cs.drop 1⟩
  let named := bracket.skip (isTagChar .loose)
  let name := (cs.drop 1).take (named.taken - 1)
  let final := skipAttributes .loose length steps named.skipGap
  let left := Text.trim (final.rest.take (length - final.taken))
  (String.ofList (Text.lower name),
    if left = ['>'] then .opens else if left = ['/', '>'] then .closes else .broken)

end Changelog.Raw
