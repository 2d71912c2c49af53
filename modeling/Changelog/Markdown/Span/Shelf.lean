import Changelog.Markdown.Draft
import Changelog.Markdown.Stash
import Changelog.Tree.Written

/-!
# The shelf of spans

A span is a piece of running text that is settled: an element, or text that takes no further part
in the search.  It lies on the shelf while its mark stands in the text around it.
-/

namespace Changelog

/-- A settled piece of running text. -/
inductive Span
  | element (d : Draft)
  | text (chars : Text)

/-- The spans of a document by number, and the markup stored so far. -/
structure Shelf where
  spans : Array Span
  stash : Stash

namespace Shelf

/-- Puts a span on the shelf; the result is its mark. -/
def put (shelf : Shelf) (span : Span) : Text × Shelf :=
  (Mark.span shelf.spans.size, { shelf with spans := shelf.spans.push span })

/-- The span whose mark has the given digits. -/
def find? (shelf : Shelf) (digits : Text) : Option Span :=
  let index := Text.digitsValue digits
  if Mark.spanName index = digits then shelf.spans[index]? else none

/-- A text with the marks of spans replaced by what `show` makes of the spans; a mark without a span
is dropped. -/
def replaceMarks (shelf : Shelf) (image : Span → Text) (cs : Text) : Text :=
  Text.replaceAll
    (fun t => (Mark.readSpan? t).map fun r => (((shelf.find? r.1).map image).getD [], r.2)) cs

/-- The text of a span without its tags. -/
def plainSpan : Span → Text
  | .element d => d.finish.innerText
  | .text chars => chars

/-- A text with each mark of a span replaced by the text of the span. -/
def plain (shelf : Shelf) (cs : Text) : Text :=
  shelf.replaceMarks plainSpan cs

/-- A text with each mark of a span replaced by its written form, and marks inside that form as
well; settled text gets its backslash back (`depth` bounds the nesting). -/
def written (shelf : Shelf) : Nat → Text → Text
  | 0, cs => cs
  | depth + 1, cs =>
    shelf.replaceMarks
      (fun
        | .element d => written shelf depth d.finish.write
        | .text chars => '\\' :: chars) cs

end Shelf

end Changelog
