import Changelog.Tree.Element

/-!
# The look of headings and lists

A heading level has classes, may have a box around it, and may have an anchor.  Both kinds of
lists share their classes, and so do all list items.
-/

namespace Changelog

/-- How headings of a level look. -/
structure HeadingLook where
  classes : String
  /-- The classes of the box around it. -/
  box : Option String
  /-- Whether the heading gets an anchor. -/
  anchored : Bool
  deriving DecidableEq

/-- The title is large, the entries of the changelog are boxed and anchored, and all levels from
the fourth on look alike. -/
def HeadingLook.ofLevel : Int → HeadingLook
  | 1 => ⟨"text-4xl font-bold text-gray-900 mb-8", none, false⟩
  | 2 => ⟨"text-2xl font-semibold text-gray-900 mb-4", some "mb-8", true⟩
  | 3 => ⟨"text-xl font-medium text-gray-800 mt-6 mb-4", none, false⟩
  | _ => ⟨"font-medium text-gray-800 mt-4 mb-2", none, false⟩

def listClass : String := "list-disc list-inside space-y-2 text-gray-600 mb-6 ml-4"

def itemClass : String := "text-base"

def headingTags : List String := ["h1", "h2", "h3", "h4", "h5", "h6"]

def listTags : List String := ["ul", "ol"]

end Changelog
