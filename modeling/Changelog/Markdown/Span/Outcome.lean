import Changelog.Markdown.Span.Shelf

/-!
# Searching running text

A reader looks at one place of a text, knowing the characters before it in reverse.  It may replace
what stands there, pass over it, or not apply.
-/

namespace Changelog.Span

/-- What a reader puts in place of what it read. -/
inductive Value
  /-- An element. -/
  | element (d : Draft)
  /-- Text that takes no further part in the search. -/
  | text (chars : Text)
  /-- Markup to be stored. -/
  | markup (chars : Text)

/-- What a reader does at a place. -/
inductive Outcome
  /-- The part up to `rest` is replaced. -/
  | replace (value : Value) (rest : Text)
  /-- The part up to `rest` stays, and the search goes on behind it. -/
  | pass (rest : Text)

/-- What a reader does, given the characters before a place in reverse and those from it on. -/
abbrev Reader := Text → Text → Option Outcome

/-- A replacement found in a text, with the characters before it in reverse. -/
structure Hit where
  before : Text
  value : Value
  rest : Text

/-- The first replacement that a reader makes (`fuel` bounds the number of places). -/
def searchWithin (read : Reader) : Nat → Text → Text → Option Hit
  | 0, _, _ => none
  | _ + 1, _, [] => none
  | fuel + 1, before, c :: cs =>
    match read before (c :: cs) with
    | some (.replace value rest) => some ⟨before, value, rest⟩
    | some (.pass rest) =>
      let passed := (c :: cs).take ((c :: cs).length - rest.length)
      searchWithin read fuel (passed.reverse ++ before) rest
    | none => searchWithin read fuel (c :: before) cs

/-- The first replacement that a reader makes in a text. -/
def search (read : Reader) (cs : Text) : Option Hit :=
  searchWithin read cs.length [] cs

/-- The shortest part of a text, maybe empty, after which `stop` succeeds; `before` holds the
characters in front of it in reverse. -/
def lazyUntil {β : Type} (stop : Text → Text → Option β) : Text → Text → Option (Text × β)
  | before, [] => (stop before []).map fun b => ([], b)
  | before, c :: cs =>
    match stop before (c :: cs) with
    | some b => some ([], b)
    | none => (lazyUntil stop (c :: before) cs).map fun r => (c :: r.1, r.2)

end Changelog.Span
