import Changelog.Markdown.Span.Outcome
import Changelog.Text.Space

/-!
# Markup in running text

Tags, comments, instructions, sections and character references that stand in running text are stored
as they are.
-/

namespace Changelog.Span

open Text

/-- Reads a comment after its opening: up to the first closing that no further opening comes
before. -/
def readCommentBody? : Text → Option (Text × Text)
  | [] => none
  | c :: cs =>
    match after? "-->".toList (c :: cs) with
    | some rest => some ("-->".toList, rest)
    | none =>
      if startsWith (c :: cs) "<!--".toList then none
      else (readCommentBody? cs).map fun r => (c :: r.1, r.2)

def isTagNameChar (c : Char) : Bool :=
  !(isSpace c || c == '<' || c == '>' || c == '@' || c == '/')

def isAttributeChar (c : Char) : Bool :=
  !(isSpace c || c == '"' || c == '\'' || c == '<' || c == '>' || c == '/' || c == '=')

/-- A character of a value without quotes. -/
def isBareChar (c : Char) : Bool :=
  !(isSpace c || c == '"' || c == '\'' || c == '=' || c == '<' || c == '>' || c == '\x60')

/-- What follows a value, which is quoted or holds no space. -/
def afterValue? : Text → Option Text
  | [] => none
  | c :: cs =>
    if c = '"' ∨ c = '\'' then
      match (spanWhile (· != c) cs).2 with
      | [] => none
      | _ :: rest => some rest
    else
      match spanWhile isBareChar (c :: cs) with
      | ([], _) => none
      | (_, rest) => some rest

/-- What follows an attribute, given the text from its name on. -/
def afterAttribute? (cs : Text) : Option Text :=
  match spanWhile isAttributeChar cs with
  | ([], _) => none
  | (_, rest) =>
    match rest.dropWhile isSpace with
    | '=' :: more => some ((afterValue? (more.dropWhile isSpace)).getD rest)
    | _ => some rest

/-- What follows the closing bracket of a tag, given the text from behind its name on.  There is
space before each attribute; `steps` bounds how many there are. -/
def afterAttributes? : Nat → Text → Option Text
  | 0, _ => none
  | steps + 1, cs =>
    match cs.dropWhile isSpace with
    | '>' :: rest => some rest
    | '/' :: '>' :: rest => some rest
    | inside =>
      if cs.head?.any isSpace then (afterAttribute? inside).bind (afterAttributes? steps)
      else none

/-- Reads a tag after its opening bracket. -/
def readTagBody? (cs : Text) : Option (Text × Text) :=
  let named := if cs.head? = some '/' then cs.drop 1 else cs
  match named with
  | c :: more =>
    if c.isAlpha then
      (afterAttributes? (cs.length + 1) (spanWhile isTagNameChar more).2).map fun rest =>
        (cs.take (cs.length - rest.length), rest)
    else none
  | [] => none

/-- Reads up to a closing, which belongs to what is read. -/
def readThrough? (closing cs : Text) : Option (Text × Text) :=
  (splitFirst? closing cs).map fun r => (r.1 ++ closing, r.2)

/-- Reads a comment, an instruction or a section after its opening bracket. -/
def readHiddenBody? (cs : Text) : Option (Text × Text) :=
  let reads : List (Text × (Text → Option (Text × Text))) :=
    [("!--".toList, readCommentBody?), ("?".toList, readThrough? "?>".toList),
     ("![CDATA[".toList, readThrough? "]]>".toList)]
  reads.findSome? fun (opening, read) =>
    ((after? opening cs).bind read).map fun r => (opening ++ r.1, r.2)

/-- Marks of spans replaced by their written form, and backslashes put back before characters that
they escaped.  On the shelves of a parser every such mark names a character. -/
def restore (shelf : Shelf) (cs : Text) : Text :=
  let shown := shelf.written (shelf.spans.size + 1) cs
  match Mark.unescape shown with
  | .ok plain => plain
  | .error _ => shown

/-- Reads a tag, a comment, an instruction or a section. -/
def readMarkup (shelf : Shelf) : Reader := fun _ cs =>
  match cs with
  | '<' :: inner =>
    ((readTagBody? inner).or (readHiddenBody? inner)).map fun r =>
      .replace (.markup (restore shelf ('<' :: r.1))) r.2
  | _ => none

/-- Reads a character reference that is closed by a semicolon. -/
def readReferenceBody? : Text → Option (Text × Text)
  | '#' :: 'x' :: cs =>
    match spanWhile isHexDigit cs with
    | (d :: ds, ';' :: rest) => some ('#' :: 'x' :: d :: ds ++ [';'], rest)
    | _ => none
  | '#' :: cs =>
    match spanWhile isAsciiDigit cs with
    | (d :: ds, ';' :: rest) => some ('#' :: d :: ds ++ [';'], rest)
    | _ => none
  | cs =>
    match spanWhile Char.isAlphanum cs with
    | (d :: ds, ';' :: rest) => some (d :: ds ++ [';'], rest)
    | _ => none

def readCharacterReference (shelf : Shelf) : Reader := fun _ cs =>
  match cs with
  | '&' :: inner =>
    (readReferenceBody? inner).map fun r => .replace (.markup (restore shelf ('&' :: r.1))) r.2
  | _ => none

end Changelog.Span
