import Changelog.Markdown.Span.Outcome
import Changelog.Text.Space

/-!
# Code and escapes in running text

Code stands between runs of backticks of equal length.  A backslash takes the meaning from the
character after it.
-/

namespace Changelog.Span

open Text

def tick : Char := '\x60'

/-- The characters that a backslash can escape. -/
def escapable : List Char :=
  ['\\', tick, '*', '_', '{', '}', '[', ']', '(', ')', '>', '#', '+', '-', '.', '!', '|']

/-- The part of a text before its next run of exactly `size` ticks, and what follows that run
(`fuel` bounds the recursion). -/
def untilTicks (size : Nat) : Nat → Text → Option (Text × Text)
  | 0, _ => none
  | _ + 1, [] => none
  | fuel + 1, c :: cs =>
    if c = tick then
      let run := spanWhile (· == tick) (c :: cs)
      if run.1.length = size then some ([], run.2)
      else (untilTicks size fuel run.2).map fun r => (run.1 ++ r.1, r.2)
    else (untilTicks size fuel cs).map fun r => (c :: r.1, r.2)

/-- The code opened by a run of `run` ticks before `rest`: by as many of the ticks as find a partner,
the others being part of the code. -/
def readTicks (run : Nat) (rest : Text) : Nat → Option (Text × Text)
  | 0 => none
  | size + 1 =>
    match untilTicks (size + 1) rest.length rest with
    | some (inside, left) => some (List.replicate (run - (size + 1)) tick ++ inside, left)
    | none => readTicks run rest size

/-- Reads code, or backslashes in pairs before a tick. -/
def readCode : Reader := fun before cs =>
  if before.head? = some '\\' then none
  else match cs with
    | '\\' :: _ =>
      let run := spanWhile (· == '\\') cs
      if run.1.length % 2 = 0 ∧ run.2.head? = some tick then
        let marks := (List.replicate (run.1.length / 2) (Mark.escaped 92)).flatten
        some (.replace (.text marks) run.2)
      else none
    | _ =>
      let run := spanWhile (· == tick) cs
      match readTicks run.1.length run.2 run.1.length with
      | some (inside, left) =>
        let code : Draft :=
          ⟨"code", [], some (.fixed (Escape.code (trim inside))), none, []⟩
        some (.replace (.element code) left)
      | none => none

def readEscape : Reader := fun _ cs =>
  match cs with
  | '\\' :: c :: rest =>
    if escapable.contains c then some (.replace (.text (Mark.escaped c.toNat)) rest)
    else some (.pass rest)
  | _ => none

/-- Reads two spaces at the end of a line. -/
def readBreak : Reader := fun _ cs =>
  match cs with
  | ' ' :: ' ' :: '\n' :: rest => some (.replace (.element (Element.bare "br")) rest)
  | _ => none

/-- Reads one to three asterisks or low lines that stand alone between white space. -/
def readLoneMarks : Reader := fun before cs =>
  let opens := match before with
    | [] => true
    | c :: _ => isSpace c
  match cs with
  | c :: _ =>
    if opens && (c == '*' || c == '_') then
      let run := spanWhile (· == c) cs
      let closes := match run.2 with
        | [] => true
        | d :: _ => isSpace d
      if closes && decide (run.1.length ≤ 3) then some (.replace (.text run.1) run.2) else none
    else none
  | [] => none

end Changelog.Span
