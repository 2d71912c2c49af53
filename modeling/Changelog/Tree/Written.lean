import Changelog.Markdown.Escape
import Changelog.Tree.Element

/-!
# Written form of trees

An element is written as its start tag with its attributes in order of their names, its text, its
children and its end tag, then its tail.  Elements that are always empty have one tag.
-/

namespace Changelog

/-- The tags of elements that are always empty. -/
def emptyTags : List String :=
  ["area", "base", "basefont", "br", "col", "frame", "hr", "img", "input", "isindex", "link",
   "meta", "param"]

/-- The tags of elements whose text is written as it stands. -/
def scriptTags : List String :=
  ["script", "style"]

/-- An attribute put into its place by name. -/
def insertAttr (a : String × Text) : List (String × Text) → List (String × Text)
  | [] => [a]
  | b :: bs => if a.1 < b.1 then a :: b :: bs else b :: insertAttr a bs

def sortedAttrs (attrs : List (String × Text)) : List (String × Text) :=
  attrs.foldr insertAttr []

/-- Attributes as they are written in a start tag. -/
def writeAttrs (attrs : List (String × Text)) : Text :=
  (sortedAttrs attrs).flatMap fun a =>
    ' ' :: (a.1.toList ++ '=' :: '"' :: (Escape.value a.2 ++ ['"']))

namespace Element

mutual

/-- The written form of an element and its tail. -/
def write : Tree → Text
  | ⟨tag, attrs, text, tail, children⟩ =>
    let name := tag.toList
    let start := '<' :: (name ++ writeAttrs attrs)
    let after := Escape.text (tail.getD [])
    if emptyTags.contains (String.ofList (Text.lowerAscii name)) then start ++ " />".toList ++ after
    else
      let inner := text.getD []
      let shown :=
        if scriptTags.contains (String.ofList (Text.lowerAscii name)) then inner
        else Escape.text inner
      start ++ '>' :: (shown ++ writeAll children ++ '<' :: '/' :: (name ++ '>' :: after))

def writeAll : List Tree → Text
  | [] => []
  | e :: es => write e ++ writeAll es

end

end Element

end Changelog
