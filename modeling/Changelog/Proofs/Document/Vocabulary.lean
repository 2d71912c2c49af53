import Changelog.Tree.Element

/-!
# The vocabulary of documents

A document that a parser reads is made of elements with a fixed list of tags and a fixed list of
attributes.  No `div`, no class and no id is among them: these are what the decoration adds.
-/

namespace Changelog.Element

/-- The tags of the elements below the root of a document. -/
def documentTags : List String :=
  ["p", "h1", "h2", "h3", "h4", "h5", "h6", "hr", "ul", "ol", "li", "blockquote", "pre", "code",
    "table", "thead", "tbody", "tr", "th", "td", "a", "img", "br", "em", "strong"]

/-- The names of the attributes of these elements. -/
def documentAttrs : List String :=
  ["href", "src", "title", "alt", "style"]

/-- Whether a tag and attributes are in the vocabulary. -/
def Labelled (tag : String) (attrs : List (String × Text)) : Prop :=
  tag ∈ documentTags ∧ ∀ a ∈ attrs, a.1 ∈ documentAttrs

/-- Every element of the tree is labelled in the vocabulary. -/
inductive Named : Tree → Prop
  | intro {e : Tree} (label : Labelled e.tag e.attrs)
      (children : ∀ child ∈ e.children, Named child) : Named e

theorem Named.label {e : Tree} (h : Named e) : Labelled e.tag e.attrs := by
  cases h with
  | intro label children => exact label

theorem Named.children {e : Tree} (h : Named e) : ∀ child ∈ e.children, Named child := by
  cases h with
  | intro label children => exact children

end Changelog.Element
