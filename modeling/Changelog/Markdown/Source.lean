import Changelog.Text.Mark

/-!
# Clean source texts

A source is cleaned before it is read: marks are taken out, all line ends become line feeds, tabs
become spaces, and lines of spaces become empty.
-/

namespace Changelog.Source

/-- The text without the characters that begin and end marks. -/
def dropMarks (cs : Text) : Text :=
  cs.filter fun c => c != Mark.opening && c != Mark.closing

/-- The text with each line end made a line feed. -/
def normalizeLines : Text → Text
  | [] => []
  | '\r' :: '\n' :: cs => '\n' :: normalizeLines cs
  | '\r' :: cs => '\n' :: normalizeLines cs
  | c :: cs => c :: normalizeLines cs

/-- The text with each tab made as many spaces as lead to the next tab stop, from a column on. -/
def expandTabs (column : Nat) : Text → Text
  | [] => []
  | c :: cs =>
    if c = '\t' then
      let width := 4 - column % 4
      List.replicate width ' ' ++ expandTabs (column + width) cs
    else if c = '\n' then c :: expandTabs 0 cs
    else c :: expandTabs (column + 1) cs

/-- The lines with each line of spaces, other than the first and the last, made empty. -/
def clearLines : List Text → List Text
  | [] => []
  | [last] => [last]
  | line :: others => (if line.all (· == ' ') then [] else line) :: clearLines others

/-- The text with its lines of spaces made empty, other than the first and the last. -/
def clearBlank (cs : Text) : Text :=
  match Text.lines cs with
  | [] => []
  | first :: others => Text.joinWith ['\n'] (first :: clearLines others)

/-- The clean form of a source, which ends with a blank line. -/
def clean (cs : Text) : Text :=
  clearBlank (expandTabs 0 (normalizeLines (dropMarks cs) ++ ['\n', '\n']))

end Changelog.Source
