import Changelog.Text.Mark

/-!
# Stored markup

Markup that goes to the page as it stands is stored while the rest of the document is built, and
a mark holds its place.  Marks are numbered from the count, which goes on over documents.
-/

namespace Changelog

/-- The markup stored so far and how many marks were made. -/
structure Stash where
  entries : List Text
  count : Nat
  deriving DecidableEq

namespace Stash

/-- The stash that holds nothing. -/
def empty : Stash := ⟨[], 0⟩

/-- Stores markup; the result is its mark. -/
def store (s : Stash) (markup : Text) : Text × Stash :=
  (Mark.raw s.count, ⟨s.entries ++ [markup], s.count + 1⟩)

/-- A stash that holds the given markup in order. -/
def ofList (entries : List Text) : Stash :=
  entries.foldl (fun s e => (s.store e).2) empty

end Stash

end Changelog
