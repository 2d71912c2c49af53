import Changelog.Markdown.Draft
import Changelog.Text.Lower
import Changelog.Text.Mark
import Changelog.Text.Space

/-!
# Lines that open blocks

Recognisers for the lines by which a block is told from a paragraph: headings, rules, list items,
quotes, link targets, and lines that are indented.
-/

namespace Changelog.Line

open Text

/-- The text without its first spaces, at most `limit` of them. -/
def skipSpaces : Nat → Text → Text
  | limit + 1, ' ' :: cs => skipSpaces limit cs
  | _, cs => cs

def skipAllSpaces (cs : Text) : Text :=
  cs.dropWhile (· == ' ')

def trimSpaces (cs : Text) : Text :=
  dropEndWhile (· == ' ') (skipAllSpaces cs)

def isSpaces (cs : Text) : Bool :=
  cs.all (· == ' ')

/-- The text without `width` spaces in front, when it begins with that many. -/
def dedent? (width : Nat) (cs : Text) : Option Text :=
  after? (List.replicate width ' ') cs

/-- Whether the text is indented by a full step. -/
def isIndented (cs : Text) : Bool :=
  (dedent? 4 cs).isSome

/-- The indented and blank lines at the front without their indent, and the other lines. -/
def splitIndented : List Text → List Text × List Text
  | [] => ([], [])
  | line :: rest =>
    match dedent? 4 line with
    | some inner => (inner :: (splitIndented rest).1, (splitIndented rest).2)
    | none =>
      if isBlank line then ([] :: (splitIndented rest).1, (splitIndented rest).2)
      else ([], line :: rest)

/-- The indented block at the front of a text without its indent, and what follows it. -/
def detab (cs : Text) : Text × Text :=
  let parts := splitIndented (lines cs)
  (joinWith ['\n'] parts.1, joinWith ['\n'] parts.2)

/-- Every line that is indented by `steps` full steps loses that indent. -/
def dedentLines (steps : Nat) (cs : Text) : Text :=
  joinWith ['\n'] ((lines cs).map fun line => (dedent? (4 * steps) line).getD line)

/-- How many characters of a kind stand in front, and what follows them. -/
def countRun (mark : Char) (limit : Nat) : Text → Nat × Text
  | [] => (0, [])
  | c :: cs =>
    match limit with
    | 0 => (0, c :: cs)
    | limit + 1 =>
      if c = mark then ((countRun mark limit cs).1 + 1, (countRun mark limit cs).2)
      else (0, c :: cs)

/-- The text of a heading up to its closing number signs and the end of its line, and what follows
the line.  A backslash takes the next character with it and cannot end the line. -/
def headingTail? : Text → Option (Text × Text)
  | [] => some ([], [])
  | c :: cs =>
    match (c :: cs).dropWhile (· == '#') with
    | [] => some ([], [])
    | '\n' :: rest => some ([], rest)
    | _ =>
      if c = '\\' then
        match cs with
        | [] => none
        | d :: ds =>
          if d = '\n' then none
          else (headingTail? ds).map fun r => (c :: d :: r.1, r.2)
      else (headingTail? cs).map fun r => (c :: r.1, r.2)

/-- Reads a heading at the start of a line: its level, its text and what follows its line. -/
def readHeading? (cs : Text) : Option (Nat × Text × Text) :=
  match countRun '#' 6 cs with
  | (0, _) => none
  | (level, rest) => (headingTail? rest).map fun r => (level, r.1, r.2)

/-- A part of a block that is found at the start of a line: what comes before the line, without
the line end, whether the line is the first, and what is read there. -/
structure Found (α : Type) where
  before : Text
  first : Bool
  value : α

/-- The first line, from the left, at whose start `read` succeeds. -/
def findLine? {α : Type} (read : Text → Option α) (cs : Text) : Option (Found α) :=
  match read cs with
  | some value => some ⟨[], true, value⟩
  | none => go cs
where
  /-- The search behind the first line. -/
  go : Text → Option (Found α)
    | [] => none
    | c :: cs =>
      if c = '\n' then
        match read cs with
        | some value => some ⟨[], false, value⟩
        | none => (go cs).map fun f => { f with before := c :: f.before }
      else (go cs).map fun f => { f with before := c :: f.before }

/-- The first heading in a block. -/
def findHeading? (cs : Text) : Option (Found (Nat × Text × Text)) :=
  findLine? readHeading? cs

/-- The level of a heading whose second line underlines the first. -/
def underlinedLevel? (cs : Text) : Option Nat :=
  match lines cs with
  | _ :: under :: _ =>
    match under with
    | mark :: more =>
      if mark = '=' ∨ mark = '-' then
        if isSpaces (spanWhile (· == mark) more).2 then some (if mark = '=' then 1 else 2)
        else none
      else none
    | [] => none
  | _ => none

/-- Whether the text holds at least `count` marks with at most two spaces between neighbours;
`gap` counts the spaces since the last mark. -/
def isRuleOf (mark : Char) (gap count : Nat) : Text → Bool
  | [] => count == 0
  | c :: cs =>
    if c = mark then decide (gap ≤ 2) && isRuleOf mark 0 (count - 1) cs
    else if c = ' ' then
      if count = 0 && isSpaces cs then true else isRuleOf mark (gap + 1) count cs
    else false

def isRule (line : Text) : Bool :=
  match skipSpaces 3 line with
  | c :: cs => (c == '-' || c == '_' || c == '*') && isRuleOf c 0 3 (c :: cs)
  | [] => false

/-- The lines before the first horizontal rule and those after it. -/
def splitAtRule? : List Text → Option (List Text × List Text)
  | [] => none
  | line :: rest =>
    if isRule line then some ([], rest)
    else (splitAtRule? rest).map fun r => (line :: r.1, r.2)

/-- Reads the digits and the full stop of an ordered item. -/
def readOrdinal? (cs : Text) : Option Text :=
  match spanWhile isDigit cs with
  | (_ :: _, '.' :: rest) => some rest
  | _ => none

/-- Reads the mark of an unordered item. -/
def readBullet? : Text → Option Text
  | c :: rest => if c = '*' || c = '+' || c = '-' then some rest else none
  | [] => none

/-- What follows at least one space, up to the end of the line. -/
def readItemText? : Text → Option Text
  | ' ' :: rest => some (skipAllSpaces rest)
  | _ => none

def readOrdered? (line : Text) : Option Text :=
  (readOrdinal? (skipSpaces 3 line)).bind readItemText?

def readUnordered? (line : Text) : Option Text :=
  (readBullet? (skipSpaces 3 line)).bind readItemText?

def readItem? (line : Text) : Option Text :=
  (readOrdered? line).or (readUnordered? line)

/-- Whether a line is an item of either kind that is indented by one step. -/
def isIndentedItem (line : Text) : Bool :=
  match dedent? 4 line with
  | some inner => (readItem? inner).isSome
  | none => false

def opensOrdered (cs : Text) : Bool :=
  (readOrdered? cs).isSome

def opensUnordered (cs : Text) : Bool :=
  (readUnordered? cs).isSome

/-- What follows the mark of a quoted line. -/
def readQuote? (cs : Text) : Option Text :=
  match skipSpaces 3 cs with
  | '>' :: ' ' :: rest => some rest
  | '>' :: rest => some rest
  | _ => none

/-- A line of a quote without its mark. -/
def unquote (line : Text) : Text :=
  if trim line = ['>'] then []
  else (readQuote? line).getD line

/-- A link target: its name, its address, its title and what follows it. -/
structure Target where
  name : Text
  address : Text
  title : Option Text
  rest : Text

/-- The rest of a text from the end of its first line on, when only spaces stand before it. -/
def readLineEnd? (cs : Text) : Option Text :=
  match skipAllSpaces cs with
  | [] => some []
  | '\n' :: rest => some ('\n' :: rest)
  | _ => none

/-- Reads a title between its first character and `close`, which ends the line. -/
def readTitle? : Text → Option (Text × Text)
  | c :: cs =>
    let close? : Option Char :=
      if c = '"' || c = '\x27' then some c else if c = '(' then some ')' else none
    match close? with
    | none => none
    | some close =>
      let line := cs.takeWhile (· != '\n')
      match (dropEndWhile (· == ' ') line).reverse with
      | d :: inside =>
        if d = close then some (inside.reverse, cs.drop line.length) else none
      | [] => none
  | [] => none

/-- Reads what may follow an address: a title on its line or on the next one, or the line end. -/
def readAfterAddress? (cs : Text) : Option (Option Text × Text) :=
  let here := skipAllSpaces cs
  let atLineEnd : Option (Option Text × Text) := match here with
    | [] => some (none, [])
    | '\n' :: rest => some (none, '\n' :: rest)
    | _ => none
  let below : Option (Option Text × Text) := match here with
    | '\n' :: rest =>
      let next := skipAllSpaces rest
      match readTitle? next with
      | some (title, left) => some (some title, left)
      | none => (readLineEnd? next).map fun left => (none, left)
    | _ => none
  match below with
  | some r => some r
  | none =>
    match readTitle? here with
    | some (title, left) => some (some title, left)
    | none => atLineEnd

/-- Reads an address, the longest first, of which `taken` characters in reverse are settled, and
what may follow it (`fuel` is the number of characters that may be given back). -/
def readAddress? : Nat → Text → Text → Option (Text × Option Text × Text)
  | _, [], _ => none
  | 0, _ :: _, _ => none
  | fuel + 1, c :: taken, rest =>
    match readAfterAddress? rest with
    | some (title, left) => some ((c :: taken).reverse, title, left)
    | none => readAddress? fuel taken (c :: rest)

/-- The text without angle brackets: opening ones in front, closing ones at the end. -/
def trimAngles (cs : Text) : Text :=
  dropEndWhile (· == '>') (cs.dropWhile (· == '<'))

/-- Reads a link target at the start of a line. -/
def readTarget? (cs : Text) : Option Target :=
  match skipSpaces 3 cs with
  | '[' :: inner =>
    match spanWhile (fun c => c != '[' && c != ']') inner with
    | (name, ']' :: ':' :: rest) =>
      let gap := skipAllSpaces rest
      let start := match gap with
        | '\n' :: below => skipAllSpaces below
        | other => other
      let run := spanWhile (fun c => !isSpace c) start
      match readAddress? run.1.length run.1.reverse run.2 with
      | some (address, title, left) =>
        some ⟨lower (trim name), trimAngles address, title.filter (fun t => !t.isEmpty), left⟩
      | none => none
    | _ => none
  | _ => none

/-- The first link target in a block. -/
def findTarget? (cs : Text) : Option (Found Target) :=
  findLine? readTarget? cs

end Changelog.Line
