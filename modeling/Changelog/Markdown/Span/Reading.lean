import Changelog.Markdown.Span.Address
import Changelog.Markdown.Span.Code
import Changelog.Markdown.Span.Emphasis
import Changelog.Markdown.Span.Link
import Changelog.Markdown.Span.Markup

/-!
# Reading running text

The readers take turns: each replaces what it finds in the whole text, before the next one looks.
Spans go to the shelf, and their own text is read by the readers that come after.  When all are
done, marks are resolved into elements.
-/

namespace Changelog.Span

/-- The readers in the order of their turns. -/
def readers (references : References) (shelf : Shelf) : List Reader :=
  [readCode,
   readEscape,
   readReference references false,
   readLink shelf,
   readImage shelf,
   readImageReference references shelf false,
   readReference references true,
   readImageReference references shelf true,
   readWebAddress shelf,
   readMailAddress shelf,
   readBreak,
   readMarkup shelf,
   readCharacterReference shelf,
   readLoneMarks]

/-- A text read in part: `turn` is the number of the first reader that may still look at it. -/
abbrev ReadText := Nat → Text → Shelf → Text × Shelf

/-- An optional text read; text that is verbatim, absent or empty stays as it is. -/
def readPiece (read : Text → Shelf → Text × Shelf) (piece : Option Piece) (shelf : Shelf) :
    Option Piece × Shelf :=
  match piece with
  | none => (none, shelf)
  | some p =>
    if p.verbatim || p.chars.isEmpty then (some p, shelf)
    else
      let r := read p.chars shelf
      (some (.running r.1), r.2)

/-- The children of a span with their texts and tails read. -/
def readChildren (read : ReadText) (turn : Nat) :
    List Draft → Shelf → List Draft × Shelf
  | [], shelf => ([], shelf)
  | d :: ds, shelf =>
    let text := readPiece (read (turn + 1)) d.text shelf
    let tail := readPiece (read turn) d.tail text.2
    let others := readChildren read turn ds tail.2
    ({ d with text := text.1, tail := tail.1 } :: others.1, others.2)

/-- The texts of a span read, unless its own text is verbatim. -/
def readSpan (read : ReadText) (turn : Nat) (d : Draft) (shelf : Shelf) : Draft × Shelf :=
  match d.text with
  | some ⟨_, true⟩ => (d, shelf)
  | _ =>
    let text := readPiece (read (turn + 1)) d.text shelf
    let children := readChildren read turn d.children text.2
    ({ d with text := text.1, children := children.1 }, children.2)

/-- A value put on the shelf; the result is the mark that stands in its place. -/
def shelve (read : ReadText) (turn : Nat) (value : Value) (shelf : Shelf) : Text × Shelf :=
  match value with
  | .element d =>
    let r := readSpan read turn d shelf
    r.2.put (.element r.1)
  | .text chars => shelf.put (.text chars)
  | .markup chars =>
    let stored := shelf.stash.store chars
    Shelf.put { shelf with stash := stored.2 } (.text stored.1)

/-- A text read by all readers from `turn` on (`fuel` bounds the turns, the replacements and their
nesting). -/
def readWithin (references : References) : Nat → ReadText
  | 0, _, cs, shelf => (cs, shelf)
  | fuel + 1, turn, cs, shelf =>
    match (readers references shelf)[turn]? with
    | none => Emphasis.read cs shelf
    | some reader =>
      match search reader cs with
      | none => readWithin references fuel (turn + 1) cs shelf
      | some hit =>
        let mark := shelve (readWithin references fuel) turn hit.value shelf
        readWithin references fuel turn (hit.before.reverse ++ mark.1 ++ hit.rest) mark.2

/-- Steps that suffice to read a text. -/
def readBound (length : Nat) : Nat :=
  20 * (length + 2) * (length + 2)

def readText (references : References) (cs : Text) (shelf : Shelf) : Text × Shelf :=
  readWithin references (readBound cs.length) 0 cs shelf

/-! ### Marks resolved into elements -/

/-- A text and the elements after it, each with the text that follows it as its tail. -/
structure Resolved where
  lead : Option Piece
  elements : List Draft

/-- Text put behind an optional text; two texts that are joined are not verbatim. -/
def joinPiece (old : Option Piece) (new : Piece) : Option Piece :=
  if new.chars.isEmpty then old
  else match old with
    | some p => if p.chars.isEmpty then some new else some (.running (p.chars ++ new.chars))
    | none => some new

/-- Text put at the end of what is resolved so far. -/
def Resolved.addText (r : Resolved) (new : Piece) : Resolved :=
  match r.elements.reverse with
  | [] => { r with lead := joinPiece r.lead new }
  | last :: others =>
    { r with elements := ({ last with tail := joinPiece last.tail new } :: others).reverse }

/-- An element put at the end of what is resolved so far. -/
def Resolved.addElement (r : Resolved) (d : Draft) : Resolved :=
  { r with elements := r.elements ++ [d] }

/-- Whether an optional text holds anything but white space. -/
def isFilled (piece : Option Piece) : Bool :=
  !Text.isBlank (Draft.charsOf piece)

/-- The element with the marks in its own text and in the texts and tails of its children resolved;
what a text resolves to is put in its place. -/
def resolveElement (resolve : Piece → Resolved) (d : Draft) : Draft :=
  let resolveOwn (e : Draft) : Draft :=
    match e.text with
    | some p =>
      if isFilled e.text then
        let r := resolve p
        { e with text := r.lead, children := r.elements ++ e.children }
      else e
    | none => e
  let resolveTail (e : Draft) : List Draft :=
    match e.tail with
    | some p =>
      if isFilled e.tail then
        let r := resolve p
        { e with tail := r.lead } :: r.elements
      else [e]
    | none => [e]
  let children := d.children.flatMap fun child => resolveTail (resolveOwn child)
  resolveOwn { d with children }

/-- The text `cs` resolved behind what is resolved so far (`fuel` bounds the number of marks and the
nesting of spans). -/
def resolveWithin (shelf : Shelf) : Nat → Bool → Resolved → Text → Resolved
  | 0, _, r, cs => r.addText (.running cs)
  | fuel + 1, verbatim, r, cs =>
    match Text.splitFirst? (Mark.opening :: Mark.spanWord) cs with
    | none => r.addText ⟨cs, verbatim⟩
    | some (before, after) =>
      match (Mark.readDigits? Text.isAsciiDigit after).bind
          fun m => (shelf.find? m.1).map fun span => (span, m.2) with
      | some (.element d, rest) =>
        let inner (p : Piece) : Resolved := resolveWithin shelf fuel p.verbatim ⟨none, []⟩ p.chars
        let d := resolveElement inner d
        resolveWithin shelf fuel verbatim ((r.addText (.running before)).addElement d) rest
      | some (.text chars, rest) =>
        resolveWithin shelf fuel verbatim
          ((r.addText (.running before)).addText (.running chars)) rest
      | none =>
        let kept := before ++ Mark.opening :: Mark.spanWord
        resolveWithin shelf fuel verbatim (r.addText (.running kept)) after

/-- A text with its marks resolved. -/
def resolvePiece (shelf : Shelf) (piece : Piece) : Resolved :=
  resolveWithin shelf (piece.chars.length + shelf.spans.size + 2) piece.verbatim ⟨none, []⟩
    piece.chars

/-! ### Reading a whole document -/

/-- A child whose text and tail were read. -/
structure Scanned where
  /-- The child, without the elements found in its text. -/
  element : Draft
  /-- The elements found in its text. -/
  found : List Draft
  /-- Whether the child is to be visited once more. -/
  again : Bool

/-- The texts and tails of children read; elements found in a tail follow its child, and are read in
their turn (`fuel` bounds the number of children). -/
def scanChildren (references : References) :
    Nat → List (Draft × Bool) → Shelf → List Scanned × Shelf
  | 0, ds, shelf => (ds.map fun (d, again) => ⟨d, [], again⟩, shelf)
  | _ + 1, [], shelf => ([], shelf)
  | fuel + 1, (d, again) :: ds, shelf =>
    let (child, found, shelf) : Draft × List Draft × Shelf :=
      match d.text with
      | some p =>
        if p.verbatim || p.chars.isEmpty then (d, [], shelf)
        else
          let read := readText references p.chars shelf
          let r := resolvePiece read.2 (.running read.1)
          ({ d with text := r.lead }, r.elements, read.2)
      | none => (d, [], shelf)
    let (child, later, shelf) : Draft × List Draft × Shelf :=
      match child.tail with
      | some p =>
        if p.chars.isEmpty then (child, [], shelf)
        else
          let read := readPiece (readText references) (some p) shelf
          let r := resolvePiece read.2 (read.1.getD p)
          ({ child with tail := r.lead }, r.elements, read.2)
      | none => (child, [], shelf)
    let others := scanChildren references fuel (later.map (fun e => (e, false)) ++ ds) shelf
    (⟨child, found, again⟩ :: others.1, others.2)

/-- Visits the elements of a list from the last to the first. -/
def visitReverse {α β : Type} (visit : α → Shelf → β × Shelf) :
    List α → Shelf → List β × Shelf
  | [], shelf => ([], shelf)
  | a :: as, shelf =>
    let others := visitReverse visit as shelf
    let first := visit a others.2
    (first.1 :: others.1, first.2)

/-- The children of an element read to the bottom; those with a sign are read once more when all are
done (`fuel` bounds the depth). -/
def visitChildren (references : References) :
    Nat → List (Draft × Bool) → Shelf → List Draft × Shelf
  | 0, ds, shelf => (ds.map (·.1), shelf)
  | fuel + 1, ds, shelf =>
    let visit (d : Draft) (shelf : Shelf) : Draft × Shelf :=
      let r := visitChildren references fuel (d.children.map fun e => (e, false)) shelf
      ({ d with children := r.1 }, r.2)
    let visitScanned (s : Scanned) (shelf : Shelf) : (Draft × Bool) × Shelf :=
      if s.element.children.isEmpty then
        let r := visitReverse visit s.found shelf
        (({ s.element with children := r.1 }, s.again), r.2)
      else
        let marked := s.found.map (fun e => (e, true)) ++
          s.element.children.map fun e => (e, false)
        let r := visitChildren references fuel marked shelf
        (({ s.element with children := r.1 }, s.again), r.2)
    let visitAgain (d : Draft × Bool) (shelf : Shelf) : Draft × Shelf :=
      if d.2 then visit d.1 shelf else (d.1, shelf)
    let bound := ds.length + (ds.map fun d => (Draft.charsOf d.1.tail).length).sum + 1
    let scanned := scanChildren references (bound * bound) ds shelf
    let visited := visitReverse visitScanned scanned.1 scanned.2
    visitReverse visitAgain visited.1 visited.2

mutual

/-- The number of characters and elements of a draft. -/
def weight : Draft → Nat
  | ⟨_, _, lead, tail, children⟩ =>
    (Draft.charsOf lead).length + (Draft.charsOf tail).length + weightAll children + 1

def weightAll : List Draft → Nat
  | [] => 0
  | d :: ds => weight d + weightAll ds

end

/-- The running text of a document read. -/
def readDocument (references : References) (document : Draft) (stash : Stash) : Draft × Stash :=
  let r := visitChildren references (weight document) (document.children.map fun d => (d, false))
    ⟨#[], stash⟩
  ({ document with children := r.1 }, r.2.stash)

end Changelog.Span
