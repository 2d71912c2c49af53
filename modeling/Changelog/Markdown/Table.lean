import Changelog.Markdown.Line

/-!
# Tables

A block is a table when its first line has the same number of cells as its second and the second
holds only bars, colons, hyphens and spaces.  Bars inside code do not part cells.
-/

namespace Changelog.Table

open Text Line

/-- What a row is made of: a bar, a run of backticks that may open or close code, or text. -/
inductive Token
  /-- A bar that may part two cells. -/
  | bar
  /-- Backticks, after a backslash when `escaped`. -/
  | ticks (count : Nat) (escaped : Bool)
  /-- Text that parts nothing. -/
  | text (chars : Text)
  deriving DecidableEq

def Token.chars : Token → Text
  | .bar => ['|']
  | .ticks count escaped => (if escaped then ['\\'] else []) ++ List.replicate count '\x60'
  | .text chars => chars

/-- The tokens of a row (`fuel` bounds the recursion). -/
def tokensWithin : Nat → Text → List Token
  | 0, _ => []
  | _ + 1, [] => []
  | fuel + 1, '\\' :: '\\' :: cs => .text ['\\', '\\'] :: tokensWithin fuel cs
  | fuel + 1, '\\' :: '|' :: cs => .text ['\\', '|'] :: tokensWithin fuel cs
  | fuel + 1, '\\' :: '\x60' :: cs =>
    let run := spanWhile (· == '\x60') cs
    .ticks (run.1.length + 1) true :: tokensWithin fuel run.2
  | fuel + 1, '|' :: cs => .bar :: tokensWithin fuel cs
  | fuel + 1, '\x60' :: cs =>
    let run := spanWhile (· == '\x60') cs
    .ticks (run.1.length + 1) false :: tokensWithin fuel run.2
  | fuel + 1, c :: cs => .text [c] :: tokensWithin fuel cs

def tokens (row : Text) : List Token :=
  tokensWithin row.length row

/-- How many backticks close code that this token opens; none when it opens no code. -/
def Token.opens? : Token → Option Nat
  | .ticks count escaped =>
    let size := if escaped then count - 1 else count
    if size = 0 then none else some size
  | _ => none

/-- The tokens up to and including the first that closes code opened by `size` backticks, and the
tokens after it. -/
def closeCode? (size : Nat) : List Token → Option (List Token × List Token)
  | [] => none
  | t :: ts =>
    match t with
    | .ticks count _ =>
      if count = size then some ([t], ts)
      else (closeCode? size ts).map fun r => (t :: r.1, r.2)
    | _ => (closeCode? size ts).map fun r => (t :: r.1, r.2)

/-- A cell with characters put in front of the first of the cells. -/
def prependFirst (chars : Text) : List Text → List Text
  | [] => [chars]
  | cell :: cells => (chars ++ cell) :: cells

/-- The cells between the bars that lie outside code (`fuel` bounds the recursion). -/
def cellsWithin : Nat → List Token → List Text
  | 0, _ => [[]]
  | _ + 1, [] => [[]]
  | fuel + 1, t :: ts =>
    match t with
    | .bar => [] :: cellsWithin fuel ts
    | _ =>
      match t.opens?.bind fun size => closeCode? size ts with
      | some (inside, rest) =>
        prependFirst (t.chars ++ inside.flatMap Token.chars) (cellsWithin fuel rest)
      | none => prependFirst t.chars (cellsWithin fuel ts)

/-- The cells of a row without its borders. -/
def cells (row : Text) : List Text :=
  cellsWithin (tokens row).length.succ (tokens row)

/-- The row without a closing bar and the backslashes before it, when their number is even. -/
def dropEndBar? (row : Text) : Option Text :=
  match row.reverse with
  | '|' :: before =>
    let run := spanWhile (· == '\\') before
    if run.1.length % 2 = 0 then some run.2.reverse else none
  | _ => none

def hasStartBar (row : Text) : Bool :=
  row.head? == some '|'

def hasEndBar (row : Text) : Bool :=
  (dropEndBar? row).isSome

/-- The cells of a row; `bordered` says that bars may stand at its ends. -/
def splitRow (bordered : Bool) (row : Text) : List Text :=
  if bordered then
    let inner := if hasStartBar row then row.drop 1 else row
    cells ((dropEndBar? inner).getD inner)
  else cells row

/-- The look of a table: whether its rows have borders, and the cells of its second line. -/
structure Frame where
  bordered : Bool
  separator : List Text

/-- A character that the second line of a table may hold. -/
def isSeparatorChar (c : Char) : Bool :=
  c == '|' || c == ':' || c == '-' || c == ' '

/-- The look of the table that a block is, if it is one. -/
def frame? (block : Text) : Option Frame :=
  match (lines block).map trimSpaces with
  | header :: second :: rest =>
    let bordered := hasStartBar header || hasEndBar header
    let width := (splitRow bordered header).length
    let many := decide (1 < width)
    let single := width == 1 && bordered &&
      (second :: rest).all fun row => hasStartBar row || hasEndBar row
    if many || single then
      let separator := splitRow bordered second
      if separator.length = width ∧ separator.all (fun cell => cell.all isSeparatorChar) then
        some ⟨bordered, separator⟩
      else none
    else none
  | _ => none

/-- The side to which a column is set, as its separator says. -/
def alignment? (separator : Text) : Option String :=
  let cell := trimSpaces separator
  let left := cell.head? == some ':'
  let right := cell.getLast? == some ':'
  if left && right then some "center"
  else if left then some "left"
  else if right then some "right"
  else none

def cellDraft (tag : String) (align : Option String) (text : Text) : Draft :=
  let cell : Draft := Draft.ofText tag text
  match align with
  | some side => cell.set "style" ("text-align: ".toList ++ side.toList ++ [';'])
  | none => cell

/-- A row with as many cells as there are columns. -/
def rowDraft (frame : Frame) (tag : String) (row : Text) : Draft :=
  let texts := splitRow frame.bordered row
  let drafts := (frame.separator.map alignment?).zipIdx.map fun (align, i) =>
    cellDraft tag align (trimSpaces ((texts[i]?).getD []))
  ⟨"tr", [], none, none, drafts⟩

/-- The row of a table that has no rows below its head. -/
def emptyRow (frame : Frame) : Draft :=
  ⟨"tr", [], none, none, frame.separator.map fun _ => Element.bare "td"⟩

/-- The table that a block is. -/
def draft (frame : Frame) (block : Text) : Draft :=
  match lines block with
  | [] => Element.bare "table"
  | header :: below =>
    let rows := below.drop 1
    let head : Draft :=
      ⟨"thead", [], none, none, [rowDraft frame "th" (trimSpaces header)]⟩
    let body : List Draft :=
      if rows.isEmpty then [emptyRow frame]
      else rows.map fun row => rowDraft frame "td" (trimSpaces row)
    ⟨"table", [], none, none, [head, ⟨"tbody", [], none, none, body⟩]⟩

end Changelog.Table
