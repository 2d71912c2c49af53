import Changelog.Markdown.Raw.Tag
import Changelog.Markdown.Stash
import Changelog.Text.Digit
import Changelog.Tree.Layout

/-!
# Blocks of markup

Markup that begins a line goes to the page as it stands: an element up to its closing tag, a
comment, an instruction or a declaration.  Such blocks are stored before the blocks of the document
are read, and a paragraph of its own holds the place of each.

The source is scanned from left to right, and a construct that is not closed is text.  After a number
sign that no number follows the scan stops once, and begins anew on what is left.
-/

namespace Changelog.Raw

/-- Where in the source a scan is, what it has put out, and what it holds back.  The line that was
looked up last is kept with the scan: what begins there, its number and its place. -/
structure Scan where
  /-- What is left of the source. -/
  rest : Text
  line : Nat
  /-- How many characters of the line were read. -/
  column : Nat
  /-- The number of the line that was looked up last. -/
  knownLine : Nat
  /-- How many characters stand before that line. -/
  knownStart : Nat
  /-- What begins with that line. -/
  knownRest : Text
  inBlock : Bool
  /-- Whether a block ended in this line. -/
  inTail : Bool
  /-- The elements that are open in the block, the innermost first. -/
  opened : List String
  /-- The elements that are open in a paragraph, the innermost first. -/
  inline : List String
  /-- The block so far. -/
  held : Text
  /-- The document so far, the last piece first. -/
  pieces : List Text
  /-- The element whose content is no markup. -/
  verbatim : Option String
  /-- The markup stored so far. -/
  stash : Stash

namespace Scan

def start (stash : Stash) (source : Text) : Scan :=
  ⟨source, 1, 0, 1, 0, source, false, false, [], [], [], [], none, stash⟩

/-- The scan after so many characters. -/
def advance (s : Scan) : Nat → Scan
  | 0 => s
  | n + 1 =>
    match s.rest with
    | [] => s
    | c :: cs =>
      if c = '\n' then advance { s with rest := cs, line := s.line + 1, column := 0 } n
      else advance { s with rest := cs, column := s.column + 1 } n

/-- What begins with the line so many lines further on, and where; behind the last line end stands
nothing. -/
def nextLines : Nat → Nat → Text → Nat × Text
  | 0, start, cs => (start, cs)
  | n + 1, start, cs =>
    let (before, after) := Text.spanWhile (· != '\n') cs
    nextLines n (start + before.length + 1) (after.drop 1)

/-- The scan once its line was looked up. -/
def lookUp (s : Scan) : Scan :=
  let (start, rest) := nextLines (s.line - s.knownLine) s.knownStart s.knownRest
  { s with knownLine := s.line, knownStart := start, knownRest := rest }

/-- What stands so many characters further on, by the line that was looked up. -/
def ahead (s : Scan) (n : Nat) : Text :=
  s.knownRest.drop (s.column + n)

/-- Whether only up to three spaces stand before in the line. -/
def atLineStart (s : Scan) : Bool × Scan :=
  if s.column = 0 then (true, s)
  else if 3 < s.column then (false, s)
  else
    let s := s.lookUp
    (Text.isBlank (s.knownRest.take s.column), s)

def put (s : Scan) (piece : Text) : Scan :=
  { s with pieces := piece :: s.pieces }

def hold (s : Scan) (cs : Text) : Scan :=
  { s with held := s.held ++ cs }

/-- Text read: it goes to the block when one is open.  Elements of a paragraph end with it. -/
def readData (s : Scan) (data : Text) : Scan :=
  let s : Scan := if data.contains '\n' then { s with inTail := false } else s
  if s.inBlock then s.hold data
  else if Text.occursIn ['\n', '\n'] data then { s.put data with inline := [] }
  else s.put data

/-- Whether two empty lines begin a text. -/
def beginsBlank (cs : Text) : Bool :=
  match cs.dropWhile (· == ' ') with
  | '\n' :: more => (more.dropWhile (· == ' ')).head? == some '\n'
  | _ => false

/-- Markup stored, and a paragraph that holds its place. -/
def storeBlock (s : Scan) (markup : Text) : Scan :=
  let (mark, stash) := s.stash.store markup
  { s with stash := stash, pieces := ['\n', '\n'] :: mark :: s.pieces }

/-- Whether the last piece ends with exactly one line end. -/
def endsWithOneBreak (s : Scan) : Bool :=
  match s.pieces with
  | piece :: _ => Text.endsWith piece ['\n'] && !Text.endsWith piece ['\n', '\n']
  | [] => false

/-- Markup without content read: it is a block when it may be one and begins a line. -/
def readEmpty (s : Scan) (data : Text) (mayBlock : Bool) : Scan :=
  if s.inBlock || s.inTail then s.hold data
  else
    let (starts, s) := s.atLineStart
    if starts && mayBlock then
      let s := s.lookUp
      let (data, s) : Text × Scan :=
        if beginsBlank (s.ahead data.length) then (data ++ ['\n'], s)
        else (data, { s with inTail := true })
      let s := if s.endsWithOneBreak then s.put ['\n'] else s
      s.storeBlock data
    else s.put data

/-- The elements whose content is no markup. -/
def verbatimTags : List String := ["script", "style"]

/-- The elements without content that may be blocks. -/
def emptyTags : List String := ["hr"]

/-- The elements without content. -/
def voidTags : List String :=
  ["area", "base", "br", "col", "embed", "hr", "img", "input", "link", "meta", "param", "source",
   "track", "wbr"]

def readOpening (s : Scan) (tag : String) (text : Text) : Scan :=
  let (starts, s) : Bool × Scan :=
    if isBlockTag tag.toList then if s.inTail then (true, s) else s.atLineStart else (false, s)
  let s := if starts then ({ s with inBlock := true } : Scan).put ['\n'] else s
  if s.inBlock then { s.hold text with opened := tag :: s.opened }
  else
    let inline := if voidTags.contains tag then s.inline else tag :: s.inline
    { s.put text with verbatim := none, inline := inline }

/-- The open elements once one is closed, with those inside it. -/
def close (tag : String) (opened : List String) : List String :=
  if opened.contains tag then (opened.dropWhile (· != tag)).drop 1 else opened

/-- The text of the closing tag at the scan, by the line that was looked up. -/
def closingText (s : Scan) (tag : String) : Text :=
  match Text.spanWhile (· != '>') (s.ahead 0) with
  | (inside, _ :: _) => inside ++ ['>']
  | (_, []) => "</".toList ++ tag.toList ++ ['>']

def readClosing (s : Scan) (tag : String) : Scan :=
  let s := s.lookUp
  let text := s.closingText tag
  if s.inBlock then
    let s : Scan := { s.hold text with opened := close tag s.opened }
    if s.opened = [] then
      let s : Scan :=
        if beginsBlank (s.ahead text.length) then s.hold ['\n'] else { s with inTail := true }
      { s.storeBlock s.held with inBlock := false, held := [] }
    else s
  else { s.put text with inline := close tag s.inline }

/-- The scan of a construct that has not moved on yet, and how many characters it takes. -/
abbrev Turn := Scan × Nat

/-- A construct that is not closed: its bracket is text. -/
def readUnclosed (s : Scan) : Turn :=
  (s.readData ['<'], 1)

/-- A tag read. -/
def readTagTurn (steps : Nat) (s : Scan) : Turn :=
  if Text.startsWith s.rest "</>".toList then (s.readData "</>".toList, 3)
  else
    match tagLength? steps s.rest with
    | none => s.readUnclosed
    | some length =>
      let text := s.rest.take length
      match readTag steps length s.rest with
      | (_, .broken) => (s.readData text, length)
      | (tag, .closes) => (s.readEmpty text (isBlockTag tag.toList), length)
      | (tag, .opens) =>
        let s := if verbatimTags.contains tag then { s with verbatim := some tag } else s
        if emptyTags.contains tag then (s.readEmpty text (isBlockTag tag.toList), length)
        else (s.readOpening tag text, length)

def isClosingChar (c : Char) : Bool :=
  Text.isAsciiDigit c || c.isAlpha || c == '-' || c == '.' || c == ':' || c == '_'

/-- A closing tag read; it begins with a letter, and goes on to the next closing bracket. -/
def readClosingTurn (s : Scan) : Turn :=
  match s.rest with
  | '<' :: '/' :: c :: more =>
    if !c.isAlpha then (s.readData ['<', '/'], 2)
    else
      match Text.spanWhile (· != '>') (c :: more) with
      | (_, []) => s.readUnclosed
      | (inside, _ :: _) =>
        let count := inside.length + 3
        let name := Text.spanWhile isClosingChar inside
        let whole := name.2.all Text.isSpace
        let tag := if whole then String.ofList (Text.lower name.1)
          else String.ofList (Text.lower (Text.spanWhile (isTagChar .loose) inside).1)
        match s.verbatim with
        | some element =>
          if whole ∧ tag = element then ({ s.readClosing tag with verbatim := none }, count)
          else (s.readData (s.rest.take count), count)
        | none => (s.readClosing tag, count)
  | _ => (s.readData ['<', '/'], 2)

/-- The length of the body of a comment, and of what closes it. -/
def commentEnd? : Nat → Text → Option (Nat × Nat)
  | n, cs =>
    let closing : Option (Nat × Nat) :=
      if Text.startsWith cs "-->".toList then some (n, 3)
      else if Text.startsWith cs "--!>".toList then some (n, 4)
      else none
    match closing with
    | some found => some found
    | none =>
      match cs with
      | [] => none
      | _ :: more => commentEnd? (n + 1) more

/-- A comment that is closed as soon as it is opened. -/
def abruptEnd? (cs : Text) : Option (Nat × Nat) :=
  match cs with
  | '>' :: _ => some (0, 1)
  | '-' :: '>' :: _ => some (0, 2)
  | _ => none

/-- A comment read.  One that is not closed by dashes and a bracket is text. -/
def readCommentTurn (s : Scan) : Turn :=
  let inside := s.rest.drop 4
  match (commentEnd? 0 inside).or (abruptEnd? inside) with
  | none => s.readUnclosed
  | some (length, closing) =>
    let s := s.lookUp
    let data := inside.take length
    if Text.startsWith (s.ahead (length + 4)) "-->".toList then
      (s.readEmpty ("<!--".toList ++ data ++ "-->".toList) (s.inline == []), length + 4 + closing)
    else s.readUnclosed

def readInstructionTurn (s : Scan) : Turn :=
  let (starts, s) : Bool × Scan := if s.inTail then (true, s) else s.atLineStart
  if starts then
    match Text.splitFirst? "?>".toList (s.rest.drop 2) with
    | none => s.readUnclosed
    | some (inside, _) =>
      (s.readEmpty ("<?".toList ++ inside ++ "?>".toList) true, inside.length + 4)
  else (s.readData "<?".toList, 2)

/-- The body before the end of a section, and how long the end is. -/
def sectionEnd? : Text → Option (Text × Nat)
  | [] => none
  | c :: cs =>
    let closing : Option Nat :=
      if c = ']' then
        match cs.dropWhile Text.isSpace with
        | ']' :: more =>
          match more.dropWhile Text.isSpace with
          | '>' :: after => some ((c :: cs).length - after.length)
          | _ => none
        | _ => none
      else none
    match closing with
    | some length => some ([], length)
    | none => (sectionEnd? cs).map fun r => (c :: r.1, r.2)

/-- A declaration of no known kind read: it is text up to the next closing bracket. -/
def readBogus (s : Scan) : Turn :=
  match Text.spanWhile (· != '>') (s.rest.drop 2) with
  | (_, []) => s.readUnclosed
  | (inside, _ :: _) =>
    (s.readEmpty (s.rest.take (inside.length + 3)) false, inside.length + 3)

/-- A declaration or a section read. -/
def readDeclarationTurn (s : Scan) : Turn :=
  let (starts, s) : Bool × Scan := if s.inTail then (true, s) else s.atLineStart
  if !starts then (s.readData "<!".toList, 2)
  else if Text.startsWith s.rest "<![CDATA[".toList then
    match sectionEnd? (s.rest.drop 3) with
    | none => s.readUnclosed
    | some (inside, closing) =>
      (s.readEmpty ("<![".toList ++ inside ++ "]]>".toList) true, inside.length + 3 + closing)
  else if Text.startsWith s.rest "<![".toList then s.readBogus
  else if Text.lowerAscii (s.rest.take 9) = "<!doctype".toList then
    match Text.spanWhile (· != '>') (s.rest.drop 9) with
    | (_, []) => s.readUnclosed
    | (inside, _ :: _) =>
      (s.readEmpty (s.rest.take (inside.length + 10)) true, inside.length + 10)
  else s.readBogus

/-- Whether a tag begins at the front, or the empty tag that is taken as text. -/
def beginsTag (cs : Text) : Bool :=
  match cs with
  | '<' :: '/' :: '>' :: _ => true
  | '<' :: c :: _ => c.isAlpha
  | _ => false

/-- The construct at a bracket read. -/
def readBracket (steps : Nat) (s : Scan) : Turn :=
  if beginsTag s.rest then readTagTurn steps s
  else if Text.startsWith s.rest "</".toList then readClosingTurn s
  else if Text.startsWith s.rest "<!--".toList then readCommentTurn s
  else if Text.startsWith s.rest "<?".toList then readInstructionTurn s
  else if Text.startsWith s.rest "<!".toList then readDeclarationTurn s
  else (s.readData ['<'], 1)

/-- Reads a number reference after its sign; it ends before a character that is no digit of any
number.  The result is its body and how many characters it takes. -/
def readNumber? (cs : Text) : Option (Text × Nat) :=
  let close : Text × Text → Option (Text × Nat) := fun r =>
    match r with
    | (_ :: _, c :: _) =>
      if Text.isHexDigit c then none
      else some (r.1, r.1.length + if c = ';' then 1 else 0)
    | _ => none
  match cs with
  | x :: hs =>
    if x = 'x' ∨ x = 'X' then
      (close (Text.spanWhile Text.isHexDigit hs)).map fun r => (x :: r.1, r.2 + 1)
    else close (Text.spanWhile Text.isAsciiDigit cs)
  | [] => none

def readName? (cs : Text) : Option Text :=
  match cs with
  | c :: _ =>
    if c.isAlpha then
      match Text.spanWhile (fun c => c.isAlphanum || c == '-' || c == '.') cs with
      | (name, ';' :: _) => some name
      | _ => none
    else none
  | [] => none

/-- The reference at an ampersand read.  After a number sign that no number follows the scan
stops: then there is no turn, and the sign was read if a semicolon comes later. -/
def readReference (s : Scan) : Except Scan Turn :=
  match s.rest with
  | '&' :: '#' :: more =>
    match readNumber? more with
    | some (body, count) =>
      .ok (s.readEmpty ("&#".toList ++ body ++ [';']) false, count + 2)
    | none => .error (if more.contains ';' then (s.readData "&#".toList).advance 2 else s)
  | '&' :: more =>
    match readName? more with
    | some name => .ok (s.readEmpty ('&' :: name ++ [';']) false, name.length + 2)
    | none => if more = [] then .error s else .ok (s.readData ['&'], 1)
  | _ => .error s

/-- The text before the closing tag of an element whose content is no markup. -/
def verbatimText? (tag : String) : Text → Option Text
  | [] => none
  | c :: cs =>
    let closes : Bool :=
      match Text.after? "</".toList (c :: cs) with
      | some inside =>
        match Text.after? tag.toList (Text.lowerAscii (inside.take tag.length)) with
        | some _ => ((inside.drop tag.length).dropWhile Text.isSpace).head? == some '>'
        | none => false
      | none => false
    if closes then some [] else (verbatimText? tag cs).map (c :: ·)

/-- The text before the next construct. -/
def plainText? (s : Scan) : Option Text :=
  match s.verbatim with
  | some tag => verbatimText? tag s.rest
  | none => some (Text.spanWhile (fun c => c != '&' && c != '<') s.rest).1

/-- Text and constructs read until the source ends or the scan stops; `steps` bounds how many. -/
def run : Nat → Scan → Scan
  | 0, s => s
  | steps + 1, s =>
    if s.rest = [] then s
    else match s.plainText? with
      | none => s
      | some text =>
        let s := if text = [] then s else (s.readData text).advance text.length
        match s.rest with
        | [] => s
        | '<' :: more =>
          if more = [] then s
          else
            let turn := readBracket steps s
            run steps (turn.1.advance turn.2)
        | _ =>
          match readReference s with
          | .ok turn => run steps (turn.1.advance turn.2)
          | .error s => s

/-- The scan of what is left of a source.  The place of the known line is taken over as it is. -/
def renew (s : Scan) : Scan :=
  { s with knownRest := s.rest.drop s.knownStart }

/-- How many steps are enough for a source. -/
def stepsFor (source : Text) : Nat :=
  source.length + 1

/-- What is left after the last scan read as text, and a block that is still open stored. -/
def finish (s : Scan) : Scan :=
  let s := if s.rest = [] then s else (s.readData s.rest).advance s.rest.length
  if s.held = [] then s
  else
    let (mark, stash) := s.stash.store s.held
    { s with stash := stash, held := [], pieces := mark :: s.pieces }

end Scan

/-- A source with its blocks of markup stored. -/
def store (stash : Stash) (source : Text) : Text × Stash :=
  let steps := Scan.stepsFor source
  let first := (Scan.start stash source).run steps
  let final := (first.renew.run steps).finish
  (final.pieces.reverse.flatten, final.stash)

end Changelog.Raw
