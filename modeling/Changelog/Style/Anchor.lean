import Changelog.Entity.Decode
import Changelog.Markdown.Stash
import Changelog.Text.Lower
import Changelog.Text.Word
import Changelog.Tree.Element

/-!
# Anchors of headings

The anchor of a heading is made from the text that a reader sees: marks are resolved, tags are
dropped and character references decoded.  The anchor holds small ASCII letters, digits, low lines
and single hyphens.
-/

namespace Changelog.Anchor

/-- The text with every run of characters that are no ASCII word characters made one hyphen;
`inGap` says that the character before belongs to such a run. -/
def hyphenate (inGap : Bool) : Text → Text
  | [] => []
  | c :: cs =>
    if Text.isAsciiWord c then c :: hyphenate false cs
    else if inGap then hyphenate true cs
    else '-' :: hyphenate true cs

/-- The anchor of a text. -/
def ofText (text : Text) : Text :=
  hyphenate false (Text.lower text)

/-- Reads a tag: an angle bracket, at least one character, and the next closing bracket. -/
def readTag? : Text → Option (Text × Text)
  | '<' :: c :: cs =>
    if c = '>' then none
    else match Text.spanWhile (· != '>') cs with
      | (inside, _ :: rest) => some (c :: inside, rest)
      | (_, []) => none
  | _ => none

def dropTags (cs : Text) : Text :=
  Text.replaceAll (fun t => (readTag? t).map fun r => ([], r.2)) cs

/-- What a mark of stored markup shows: the markup without its tags, or the mark itself when
nothing is stored under its number. -/
def rawText (stash : Stash) (digits : Text) : Except NumberError Text :=
  (Text.readDecimal digits).map fun index =>
    match stash.entries[index]? with
    | some markup => dropTags markup
    | none => Mark.opening :: (Mark.rawWord ++ digits ++ [Mark.closing])

/-- The text with the marks of stored markup replaced by what they show. -/
def resolveRaw (stash : Stash) (cs : Text) : Except NumberError Text :=
  Text.replaceAll? (fun t => (Mark.readRaw? t).map fun r => (rawText stash r.1, r.2)) cs

/-- The text that a reader sees where the given text, which may hold marks, stands. -/
def visible (stash : Stash) (cs : Text) : Except NumberError Text :=
  ((resolveRaw stash cs).bind Mark.unescape).bind Entity.decode

/-- The text of a heading that a reader sees. -/
def textOf (stash : Stash) (heading : Tree) : Except NumberError Text :=
  visible stash heading.innerText

end Changelog.Anchor
