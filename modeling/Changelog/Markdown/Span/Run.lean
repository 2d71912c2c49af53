import Changelog.Text.Scan
import Changelog.Text.Space
import Changelog.Text.Word

/-!
# Runs of marks

A run is a longest row of equal asterisks or low lines.  Its neighbours decide whether it may open
emphasis or close it: a run that opens has no white space behind it, a run that closes has none
before it, and low lines count at the edge of a word only.
-/

namespace Changelog

open Text

/-- A row of equal marks. -/
structure Run where
  mark : Char
  count : Nat
  /-- Whether emphasis may begin here. -/
  opens : Bool
  /-- Whether emphasis may end here. -/
  closes : Bool
  deriving DecidableEq, Inhabited

/-- A part of running text: a run, or characters that are no marks. -/
inductive Segment
  | plain (chars : Text)
  | run (r : Run)
  deriving DecidableEq, Inhabited

namespace Run

/-- Whether a character is a mark of emphasis. -/
def isMark (c : Char) : Bool :=
  c == '*' || c == '_'

/-- Whether a place has white space on this side; the end of the text counts as such. -/
def isBare (neighbour : Option Char) : Bool :=
  match neighbour with
  | some c => isSpace c
  | none => true

/-- Whether a place has a word on this side. -/
def isInWord (neighbour : Option Char) : Bool :=
  match neighbour with
  | some c => isWord c
  | none => false

/-- The run of `count` marks between two neighbours. -/
def between (before : Option Char) (mark : Char) (count : Nat) (after : Option Char) : Run :=
  let low := mark == '_'
  ⟨mark, count, !isBare after && !(low && isInWord before),
    !isBare before && !(low && isInWord after)⟩

/-- Whether emphasis may begin here and may end here as well. -/
def isEither (r : Run) : Bool :=
  r.opens && r.closes

end Run

namespace Segment

/-- Whether a segment is a run at which emphasis may begin or end. -/
def isActive : Segment → Bool
  | .plain _ => false
  | .run r => r.opens || r.closes

/-- The segments of a text behind the character `before` (`fuel` bounds their number). -/
def ofTextWithin : Nat → Option Char → Text → List Segment
  | 0, _, _ => []
  | _ + 1, _, [] => []
  | fuel + 1, before, c :: cs =>
    if Run.isMark c then
      let read := spanWhile (· == c) cs
      .run (Run.between before c (read.1.length + 1) read.2.head?) ::
        ofTextWithin fuel (some c) read.2
    else
      let read := spanWhile (fun d => !Run.isMark d) cs
      .plain (c :: read.1) :: ofTextWithin fuel (last? (c :: read.1)) read.2

def ofText (cs : Text) : List Segment :=
  ofTextWithin cs.length none cs

def dropFirst : List Segment → List Segment
  | [] => []
  | .plain cs :: rest => .plain cs.tail :: rest
  | .run r :: rest => .run { r with count := r.count - 1 } :: rest

end Segment

end Changelog
