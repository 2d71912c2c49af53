import Changelog.Tree.Element

/-!
# Drafts of documents

While a document is built, a text knows whether it is verbatim: verbatim text is not searched for
markup.
-/

namespace Changelog

/-- A text of a draft. -/
structure Piece where
  chars : Text
  verbatim : Bool
  deriving DecidableEq, Inhabited

namespace Piece

/-- Text that may hold markup. -/
def running (chars : Text) : Piece := ⟨chars, false⟩

/-- Text that is shown as it stands. -/
def fixed (chars : Text) : Piece := ⟨chars, true⟩

end Piece

/-- An element of a document that is being built. -/
abbrev Draft := Element Piece

/-- What links may refer to: an address and a title under each name, the latest first. -/
abbrev References := List (Text × Text × Option Text)

def References.find? (refs : References) (name : Text) : Option (Text × Option Text) :=
  (List.find? (fun r => r.1 == name) refs).map (·.2)

namespace Draft

/-- The characters of an optional text; none where it is absent. -/
def charsOf : Option Piece → Text
  | some p => p.chars
  | none => []

/-- An element with running text and nothing else. -/
def ofText (tag : String) (chars : Text) : Draft :=
  ⟨tag, [], some (.running chars), none, []⟩

/-- The finished tree of a draft. -/
def finish (d : Draft) : Tree :=
  d.map Piece.chars

end Draft

end Changelog
