import Changelog.Markdown.Span.Run
import Changelog.Markdown.Span.Shelf

/-!
# Emphasis

Text between asterisks or low lines is emphasised, between two of them strongly.  Runs of marks are
read from the left: a run that closes looks for a run before it that is still open, the innermost
first, and uses up marks of both.  What no run closes stays as text.
-/

namespace Changelog

/-- What was read of a text: characters and elements in their order. -/
inductive Part
  | plain (chars : Text)
  | element (d : Draft)

/-- A run that is open, and what was read since. -/
structure Opening where
  mark : Char
  /-- The marks that are left. -/
  count : Nat
  /-- The length that decides which runs close this one. -/
  length : Nat
  /-- Whether the run might have closed another one. -/
  either : Bool
  parts : List Part

/-- What was read of a text before the first open run, and the open runs, the innermost first. -/
structure Emphasis where
  parts : List Part
  openings : List Opening

/-- How a run closes another one: the number of open runs inside the one that it closes, and the
marks that each of the two gives. -/
structure Closing where
  depth : Nat
  marks : Nat
  deriving DecidableEq

namespace Opening

/-- What an open run amounts to when nothing closes it. -/
def unclosed (o : Opening) : List Part :=
  .plain (List.replicate o.count o.mark) :: o.parts

/-- An open run with more read behind it. -/
def add (o : Opening) (parts : List Part) : Opening :=
  { o with parts := o.parts ++ parts }

end Opening

namespace Closing

/-- The marks that two runs of `opened` and `closed` marks give: two, but one where one of them has
no more, and one inside two where the shorter has three. -/
def marksOf (opened closed : Nat) : Nat :=
  if min opened closed = 1 ∨ min opened closed = 3 then 1 else 2

/-- Whether an open run has the length for a run of `count` marks that might open as well: the same
length, or three, or less than a count above two when no run around it is longer than the count. -/
def suitsEither (o : Opening) (around : List Opening) (count : Nat) : Bool :=
  o.length == count || o.length == 3 ||
    (decide (o.length < count) && decide (2 < count) &&
      around.all fun a => decide (a.length ≤ count))

/-- Whether an open run that might have closed has the length for a run of `count` marks. -/
def suits (o : Opening) (count : Nat) : Bool :=
  decide (o.length ≤ count) || o.length == 3

/-- What a run of `count` marks closes.  `either` says whether it might open as well, and `last`
whether no run follows it: the last run closes the innermost open run, whatever the lengths. -/
def find? (openings : List Opening) (mark : Char) (count : Nat) (either last : Bool) :
    Option Closing :=
  let candidates := openings.zipIdx.filter fun r => r.1.mark == mark
  match candidates with
  | [] => none
  | (nearest, depth) :: others =>
    let regular : Closing := ⟨depth, marksOf nearest.count count⟩
    let forced : Option Closing := if last && depth == 0 then some regular else none
    if !either && !nearest.either then some regular
    else if either then
      if suitsEither nearest (others.map (·.1)) count then some regular
      else if others.any fun r => r.1.length == count then
        some ⟨depth, min nearest.count 2⟩
      else forced
    else if suits nearest count then some regular
    else match others.find? fun r => !r.1.either with
      | some (o, deeper) => some ⟨deeper, marksOf o.count count⟩
      | none => forced

end Closing

namespace Part

/-- The leading text of parts, and their elements with the text after each as its tail. -/
def gather : List Part → Text × List Draft
  | [] => ([], [])
  | .plain cs :: rest => (cs ++ (gather rest).1, (gather rest).2)
  | .element d :: rest =>
    let tail := (gather rest).1
    ([], { d with tail := if tail.isEmpty then none else some (.running tail) } :: (gather rest).2)

/-- The element with the given parts. -/
def wrap (tag : String) (parts : List Part) : Draft :=
  let inside := gather parts
  ⟨tag, [], if inside.1.isEmpty then none else some (.running inside.1), none, inside.2⟩

end Part

namespace Emphasis

/-- Parts put behind what was read. -/
def add (e : Emphasis) (parts : List Part) : Emphasis :=
  match e.openings with
  | [] => { e with parts := e.parts ++ parts }
  | o :: others => { e with openings := o.add parts :: others }

/-- The innermost open run given up. -/
def giveUp (e : Emphasis) : Emphasis :=
  match e.openings with
  | [] => e
  | o :: others => add { e with openings := others } o.unclosed

/-- The `depth` innermost open runs given up. -/
def giveUpAll (e : Emphasis) : Nat → Emphasis
  | 0 => e
  | depth + 1 => giveUpAll e.giveUp depth

def close (e : Emphasis) (c : Closing) : Emphasis :=
  let inner := e.giveUpAll c.depth
  match inner.openings with
  | [] => inner
  | o :: others =>
    let d := Part.wrap (if c.marks = 1 then "em" else "strong") o.parts
    let left := o.count - c.marks
    if left = 0 then add { inner with openings := others } [.element d]
    else { inner with
      openings := { o with count := left, length := left, parts := [.element d] } :: others }

/-- Open runs closed by a run with `count` marks, one after the other, with the marks left and the
number of marks that were used beyond those it has (`fuel` bounds the number of closings). -/
def closeWithin (r : Run) (last : Bool) : Nat → Nat → Emphasis → Emphasis × Nat × Nat
  | 0, count, e => (e, count, 0)
  | fuel + 1, count, e =>
    if count = 0 then (e, 0, 0)
    else match Closing.find? e.openings r.mark count r.isEither last with
      | none => (e, count, 0)
      | some c =>
        let next := closeWithin r last fuel (count - c.marks) (e.close c)
        (next.1, next.2.1, next.2.2 + (c.marks - count))

/-- A run read: it closes what it can, and opens with the marks that are left; the number tells how
many marks it used beyond those it has. -/
def readRun (e : Emphasis) (r : Run) (last : Bool) : Emphasis × Nat :=
  let closed := if r.closes then closeWithin r last r.count r.count e else (e, r.count, 0)
  let left := closed.2.1
  if left = 0 then (closed.1, closed.2.2)
  else if r.opens then
    ({ closed.1 with
        openings := ⟨r.mark, left, r.count, r.isEither, []⟩ :: closed.1.openings }, closed.2.2)
  else (closed.1.add [.plain (List.replicate left r.mark)], closed.2.2)

/-- Segments read behind what was read before (`fuel` bounds their number). -/
def readWithin : Nat → Emphasis → List Segment → Emphasis
  | 0, e, _ => e
  | _ + 1, e, [] => e
  | fuel + 1, e, .plain cs :: rest => readWithin fuel (e.add [.plain cs]) rest
  | fuel + 1, e, .run r :: rest =>
    let read := e.readRun r !(rest.any Segment.isActive)
    readWithin fuel read.1 (if read.2 = 0 then rest else Segment.dropFirst rest)

def partsOf (cs : Text) : List Part :=
  let segments := Segment.ofText cs
  let read := readWithin segments.length ⟨[], []⟩ segments
  (read.giveUpAll read.openings.length).parts

/-- Parts as text, with the elements put on the shelf and their marks in their places. -/
def shelve : List Part → Shelf → Text × Shelf
  | [], shelf => ([], shelf)
  | .plain cs :: rest, shelf =>
    let others := shelve rest shelf
    (cs ++ others.1, others.2)
  | .element d :: rest, shelf =>
    let mark := shelf.put (.element d)
    let others := shelve rest mark.2
    (mark.1 ++ others.1, others.2)

/-- A text with its emphasised parts on the shelf. -/
def read (cs : Text) (shelf : Shelf) : Text × Shelf :=
  shelve (partsOf cs) shelf

end Emphasis

end Changelog
