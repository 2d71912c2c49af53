import Changelog.Style.Anchor
import Changelog.Style.Look
import Changelog.Tree.Address

/-!
# Decorating a document

Headings, lists and list items get their classes; anchored headings get an id, and boxed headings
a box, which takes their place and the text after them.  The elements are decorated one after the
other; a box moves the addresses of those that are still to come.
-/

namespace Changelog

/-- Why an element could not be decorated. -/
inductive DecorateError
  /-- The text of the heading has no value. -/
  | text (cause : NumberError)
  /-- The second character of the tag is no digit. -/
  | level (c : Char)
  /-- The tag has no second character. -/
  | shortTag
  /-- The root is a heading, and nothing encloses it. -/
  | rootHeading
  deriving DecidableEq, Repr

namespace Element

/-- The class attribute set to the given classes. -/
def withClass (classes : String) (e : Tree) : Tree :=
  e.set "class" classes.toList

/-- An element in a box of the given classes; the box takes the text after it. -/
def boxed (classes : String) (e : Tree) : Tree :=
  ⟨"div", [("class", classes.toList)], none, e.tail, [{ e with tail := none }]⟩

end Element

/-- The level of a heading, which is the digit after the first character of its tag. -/
def headingLevel (tag : String) : Except DecorateError Nat :=
  match tag.toList with
  | _ :: c :: _ =>
    match Text.digitValue? c with
    | some level => .ok level
    | none => .error (.level c)
  | _ => .error .shortTag

/-- A tree, and the failure of the last operation on it if there was one. -/
abbrev Attempt := Tree × Option DecorateError

/-- The element at an address put into a box.  The root stays as it is. -/
def boxAt (tree : Tree) (address : Address) (classes : String) : Tree :=
  if address = [] then tree else tree.update (Element.boxed classes) address

/-- The list classes given to the element at an address. -/
def styleListAt (tree : Tree) (address : Address) : Tree :=
  tree.update (Element.withClass listClass) address

/-- The item classes given to the element at an address. -/
def styleItemAt (tree : Tree) (address : Address) : Tree :=
  tree.update (Element.withClass itemClass) address

/-- The element at an address made a heading of its level.  The classes are set before the anchor
is made, and stay when it cannot be made. -/
def styleHeadingAt (stash : Stash) (tree : Tree) (address : Address) : Attempt :=
  match tree.at? address with
  | none => (tree, none)
  | some heading =>
    match headingLevel heading.tag with
    | .error e => (tree, some e)
    | .ok level =>
      let look := HeadingLook.ofLevel level
      let classed := tree.update (Element.withClass look.classes) address
      let box (t : Tree) : Tree := match look.box with
        | some classes => boxAt t address classes
        | none => t
      if look.anchored then
        match Anchor.textOf stash heading with
        | .error e => (classed, some (.text e))
        | .ok text => (box (classed.update (·.set "id" (Anchor.ofText text)) address), none)
      else (box classed, none)

/-- Whether an element with this tag gets a box. -/
def isBoxed (tag : String) : Bool :=
  headingTags.contains tag &&
    match headingLevel tag with
    | .ok level => (HeadingLook.ofLevel level).box.isSome
    | .error _ => false

/-- Where an element is found after the element at `box` was put into a box. -/
def Address.afterBox (box address : Address) : Address :=
  if box.isPrefixOf address then box ++ 0 :: address.drop box.length else address

/-- The element at an address decorated as its tag asks. -/
def decorateAt (stash : Stash) (tree : Tree) (address : Address) : Attempt :=
  match tree.at? address with
  | none => (tree, none)
  | some e =>
    if headingTags.contains e.tag then
      if address = [] then (tree, some .rootHeading) else styleHeadingAt stash tree address
    else if listTags.contains e.tag then (styleListAt tree address, none)
    else if e.tag = "li" then (styleItemAt tree address, none)
    else (tree, none)

/-- Where an element is found after the given boxes were put in, the earliest first. -/
def Address.afterBoxes (boxes : List Address) (address : Address) : Address :=
  boxes.foldl (fun a box => Address.afterBox box a) address

/-- The elements whose first addresses are given decorated one after the other, up to the first
failure, once the boxes at `boxes` were put in. -/
def decorateAll (stash : Stash) (tree : Tree) (boxes : List Address) : List Address → Attempt
  | [] => (tree, none)
  | first :: later =>
    let address := Address.afterBoxes boxes first
    match decorateAt stash tree address with
    | (changed, some e) => (changed, some e)
    | (changed, none) =>
      let box := match tree.at? address with
        | some e => if isBoxed e.tag then [address] else []
        | none => []
      decorateAll stash changed (boxes ++ box) later

/-- All elements of a document decorated in document order. -/
def decorate (stash : Stash) (tree : Tree) : Attempt :=
  decorateAll stash tree [] tree.addresses

end Changelog
