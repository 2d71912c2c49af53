import Changelog.Text.Mark
import Changelog.Text.Space
import Changelog.Tree.Element

/-!
# Layout of trees

Line ends are put between the elements that stand below each other on a page: where there is only
white space before the first of them, and after each of them.
-/

namespace Changelog

/-- The tags of elements that stand below each other. -/
def blockTags : List String :=
  ["address", "article", "aside", "blockquote", "details", "div", "dl", "fieldset", "figcaption",
   "figure", "footer", "form", "h1", "h2", "h3", "h4", "h5", "h6", "header", "hgroup", "hr", "main",
   "menu", "nav", "ol", "p", "pre", "search", "section", "table", "ul", "canvas", "colgroup", "dd",
   "body", "dt", "group", "html", "iframe", "li", "legend", "math", "map", "noscript", "output",
   "object", "option", "progress", "script", "style", "summary", "tbody", "td", "textarea", "tfoot",
   "th", "thead", "tr", "video", "center"]

/-- Whether elements with this tag stand below each other; a slash at its end does not count. -/
def isBlockTag (tag : Text) : Bool :=
  let name := String.ofList (Text.dropEndWhile (· == '/') (Text.lowerAscii tag))
  blockTags.contains name

namespace Element

/-- Whether an optional text is absent or white space. -/
def isBlankText : Option Text → Bool
  | some cs => Text.isBlank cs
  | none => true

/-- Whether the element stands on lines of its own. -/
def isBlock (e : Tree) : Bool :=
  isBlockTag e.tag.toList

/-- Whether the first of some elements stands on lines of its own. -/
def startsWithBlock : List Tree → Bool
  | e :: _ => e.isBlock
  | [] => false

/-- A line end in place of an optional text that is blank. -/
def breakBlank (text : Option Text) : Option Text :=
  if isBlankText text then some ['\n'] else text

mutual

/-- Line ends put in and around an element that stands on lines of its own. -/
def breakLines : Tree → Tree
  | ⟨tag, attrs, text, tail, children⟩ =>
    if isBlockTag tag.toList && tag != "code" && tag != "pre" then
      let text := if isBlankText text && startsWithBlock children then some ['\n'] else text
      ⟨tag, attrs, text, breakBlank tail, breakLinesAll children⟩
    else ⟨tag, attrs, text, breakBlank tail, children⟩

/-- Line ends put in and around those children that stand on lines of their own. -/
def breakLinesAll : List Tree → List Tree
  | [] => []
  | e :: es => (if e.isBlock then breakLines e else e) :: breakLinesAll es

end

/-- A line break with a line end after it. -/
def breakAfter (tag : String) (tail : Option Text) : Option Text :=
  if tag = "br" then
    if isBlankText tail then some ['\n'] else tail.map ('\n' :: ·)
  else tail

mutual

/-- The text of code blocks ends with one line end, and line breaks have a line end after them. -/
def tidy : Tree → Tree
  | ⟨tag, attrs, text, tail, children⟩ =>
    ⟨tag, attrs, text, breakAfter tag tail, tidyCode tag children⟩

/-- The children of an element with the given tag; the first child of a code block is its code. -/
def tidyCode (tag : String) : List Tree → List Tree
  | [] => []
  | e :: es =>
    let code := tidy e
    (if tag == "pre" && e.tag == "code" && e.children.isEmpty then
      { code with text := code.text.map fun t => Text.trimEnd t ++ ['\n'] }
     else code) :: tidyAll es

def tidyAll : List Tree → List Tree
  | [] => []
  | e :: es => tidy e :: tidyAll es

end

/-- The tree with its line ends. -/
def layout (tree : Tree) : Tree :=
  tree.breakLines.tidy

/-- The text with the marks of escaped characters replaced.  A text stays as it is where a mark names
no character; no tree that a parser reads has such a text. -/
def settleText (cs : Text) : Text :=
  match Mark.unescape cs with
  | .ok plain => plain
  | .error _ => cs

mutual

/-- Escaped characters put back in texts, tails and attributes; the text of code holds none. -/
def settle : Tree → Tree
  | ⟨tag, attrs, text, tail, children⟩ =>
    ⟨tag, attrs.map fun a => (a.1, settleText a.2),
      if tag = "code" then text else text.map settleText, tail.map settleText, settleAll children⟩

def settleAll : List Tree → List Tree
  | [] => []
  | e :: es => settle e :: settleAll es

end

end Element

end Changelog
