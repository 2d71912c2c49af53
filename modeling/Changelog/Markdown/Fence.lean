import Changelog.Markdown.Escape
import Changelog.Markdown.Stash
import Changelog.Text.Space
import Changelog.Text.Word

/-!
# Fenced code

Code may stand between two lines of tildes or backticks.  The first line can name the language of
the code, or give its language, classes and id between braces.  Fenced code is stored before the
blocks of the document are read.
-/

namespace Changelog.Fence

/-- The language, the classes and the id of fenced code. -/
structure Info where
  language : Option Text
  classes : List Text
  id : Text
  deriving DecidableEq

/-- What stands between braces: an attribute and its value, or a word. -/
inductive Item
  | pair (key value : Text)
  | word (text : Text)
  deriving DecidableEq

/-- Reads what stands in a word: anything but spaces, equals signs and closing braces. -/
def readWord (cs : Text) : Text × Text :=
  Text.spanWhile (fun c => c != ' ' && c != '=' && c != '}') cs

/-- Reads a value between quotes, with the quotes at its ends taken off. -/
def readQuotedValue? (mark : Char) : Text → Option (Text × Text)
  | c :: cs =>
    if c = mark then
      match Text.spanWhile (· != mark) cs with
      | (inside, _ :: rest) => some (inside, rest)
      | (_, []) => none
    else none
  | [] => none

/-- Reads the value after an equals sign. -/
def readValue? (cs : Text) : Option (Text × Text) :=
  ((readQuotedValue? '"' cs).or (readQuotedValue? '\'' cs)).or
    (match readWord cs with
    | ([], _) => none
    | found => some found)

def readItem? (cs : Text) : Option (Item × Text) :=
  match readWord cs with
  | ([], _) => none
  | (key, '=' :: rest) =>
    match readValue? rest with
    | some (value, after) => some (.pair key value, after)
    | none => some (.word key, '=' :: rest)
  | (key, rest) => some (.word key, rest)

/-- Reads items, and spaces between them, as long as there are any; `steps` bounds how many. -/
def readItems : Nat → Text → List Item × Text
  | 0, cs => ([], cs)
  | _ + 1, [] => ([], [])
  | steps + 1, c :: cs =>
    if c = ' ' then readItems steps cs
    else match readItem? (c :: cs) with
      | none => ([], c :: cs)
      | some (item, rest) =>
        let more := readItems steps rest
        (item :: more.1, more.2)

/-- A class or an id, when the item gives one. -/
inductive Naming
  | className (name : Text)
  | id (name : Text)

/-- What an item says about the code. -/
def Item.naming? : Item → Option Naming
  | .word ('.' :: name) => some (.className name)
  | .word ('#' :: name) => some (.id name)
  | .word text => if text = "id".toList then some (.id text) else none
  | .pair key value =>
    if key = ['.'] then some (.className value)
    else if key = "id".toList then some (.id value)
    else none

def classesOf (items : List Item) : List Text :=
  items.filterMap fun item =>
    match item.naming? with
    | some (.className name) => some name
    | _ => none

/-- The id that items give, the last one where there are several. -/
def idOf (items : List Item) : Text :=
  items.foldl (fun id item =>
    match item.naming? with
    | some (.id name) => name
    | _ => id) []

/-- What the text between braces says.  It says nothing when a brace is closed within it. -/
def readAttributes? (cs : Text) : Option Info :=
  let (items, rest) := readItems cs.length cs
  if rest.contains '}' then none
  else match classesOf items with
    | [] => some ⟨none, [], idOf items⟩
    | language :: classes => some ⟨some language, classes, idOf items⟩

/-- What follows the fence in its line. -/
inductive Header
  | attributes (text : Text)
  | language (name : Text)

def Header.info? : Header → Option Info
  | .attributes [] => some ⟨none, [], []⟩
  | .attributes text => readAttributes? text
  | .language name => some ⟨if name = [] then none else some name, [], []⟩

/-- Reads a fence: three or more tildes or backticks. -/
def readFence? (line : Text) : Option (Text × Text) :=
  let tildes := Text.spanWhile (· == '~') line
  let ticks := Text.spanWhile (· == '\x60') line
  if 3 ≤ tildes.1.length then some tildes
  else if 3 ≤ ticks.1.length then some ticks
  else none

def isLanguageChar (c : Char) : Bool :=
  Text.isWord c || c == '#' || c == '.' || c == '+' || c == '-'

/-- The word before the numbers of lines to be highlighted. -/
def highlightWord : Text := "hl_lines".toList

/-- Whether a line is all but spaces up to a closing quote. -/
def closesQuote (mark : Char) (line : Text) : Bool :=
  Text.last? (Text.dropEndWhile (· == ' ') line) == some mark

/-- The lines after numbers of lines to be highlighted, which may go on over several lines. -/
def afterHighlight? (mark : Char) : Text → List Text → Option (List Text)
  | line, following =>
    if closesQuote mark line then
      match following with
      | [] => none
      | _ :: _ => some following
    else match following with
      | [] => none
      | next :: more => afterHighlight? mark next more
termination_by _ following => following.length

/-- The lines of code once the language was read, when nothing else, or numbers of lines, stand
after it. -/
def afterLanguage? (rest : Text) (following : List Text) : Option (List Text) :=
  match Text.after? (highlightWord ++ ['=']) rest with
  | some (mark :: numbers) =>
    if mark = '"' ∨ mark = '\'' then afterHighlight? mark numbers following else none
  | some [] => none
  | none => if rest = [] ∧ following ≠ [] then some following else none

/-- Reads the name of a language without the dot before it, and what stands after it. -/
def readLanguage? (cs : Text) (following : List Text) : Option (Header × List Text) :=
  let bare : Text := match cs with
    | '.' :: more => more
    | _ => cs
  let (name, rest) := Text.spanWhile isLanguageChar bare
  match afterLanguage? (rest.dropWhile (· == ' ')) following with
  | some inside => some (.language name, inside)
  | none =>
    if Text.endsWith name highlightWord then
      let before := name.take (name.length - highlightWord.length)
      (afterLanguage? (highlightWord ++ rest) following).map fun inside =>
        (.language before, inside)
    else none

/-- Reads the first line of fenced code; the result is the fence, the header, and the lines that
code may stand in. -/
def readOpening? (line : Text) (following : List Text) : Option (Text × Header × List Text) :=
  (readFence? line).bind fun (fence, rest) =>
    let found : Option (Header × List Text) :=
      match rest.dropWhile (· == ' ') with
      | '{' :: inside =>
        if Text.last? inside = some '}' ∧ following ≠ [] then
          some (.attributes inside.dropLast, following)
        else none
      | other => readLanguage? other following
    found.map fun r => (fence, r)

/-- Whether a line closes code after the given fence. -/
def isClosing (fence line : Text) : Bool :=
  match Text.after? fence line with
  | some rest => rest.all (· == ' ')
  | none => false

/-- The lines before the closing fence, and those after it. -/
def splitAtClosing? (fence : Text) : List Text → Option (List Text × List Text)
  | [] => none
  | line :: more =>
    if isClosing fence line then some ([], more)
    else (splitAtClosing? fence more).map fun r => (line :: r.1, r.2)

/-- An attribute of an element, unless its value is empty. -/
def writeAttribute (name : String) (value : Text) : Text :=
  if value = [] then []
  else ' ' :: (name.toList ++ "=\"".toList ++ Escape.value value ++ ['"'])

def codeChar (c : Char) : Text :=
  if c = '"' then "&quot;".toList else Escape.codeChar c

/-- The markup of fenced code. -/
def write (info : Info) (code : List Text) : Text :=
  let language : Text := match info.language with
    | some name => if name = [] then [] else
      " class=\"language-".toList ++ Escape.value name ++ ['"']
    | none => []
  "<pre".toList ++ writeAttribute "id" info.id ++
    (if info.classes = [] then [] else
      " class=\"".toList ++ Escape.value (Text.joinWith [' '] info.classes) ++ ['"']) ++
    "><code".toList ++ language ++ ['>'] ++
    (code.flatMap fun line => line ++ ['\n']).flatMap codeChar ++ "</code></pre>".toList

/-- The lines of a document with fenced code stored; `steps` bounds how many are looked at. -/
def storeLines : Nat → Stash → List Text → List Text × Stash
  | 0, stash, lines => (lines, stash)
  | _ + 1, stash, [] => ([], stash)
  | steps + 1, stash, line :: following =>
    let found : Option (Text × List Text) := do
      let (fence, header, inside) ← readOpening? line following
      let (code, after) ← splitAtClosing? fence inside
      let info ← header.info?
      return (write info code, after)
    match found with
    | some (markup, after) =>
      let (mark, stored) := stash.store markup
      let (rest, final) := storeLines steps stored after
      ([] :: mark :: [] :: rest, final)
    | none =>
      let (rest, final) := storeLines steps stash following
      (line :: rest, final)

/-- A document with its fenced code stored. -/
def store (stash : Stash) (source : Text) : Text × Stash :=
  let lines := Text.lines source
  let (rest, final) := storeLines lines.length stash lines
  (Text.joinWith ['\n'] rest, final)

end Changelog.Fence
