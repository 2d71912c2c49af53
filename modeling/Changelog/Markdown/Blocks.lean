import Changelog.Markdown.Escape
import Changelog.Markdown.Table

/-!
# Blocks

A source is a sequence of blocks parted by blank lines.  Each block is added to the element that is
being filled: as a heading, a rule, code, a table, a list, a quote or a paragraph, or as a further
part of what stands there.  Link targets are taken out of the document.
-/

namespace Changelog.Blocks

open Text Line

/-- What encloses the blocks that are being added, beyond the element they go to. -/
inductive Mood
  /-- Items of a list without blank lines. -/
  | list
  /-- The first item after a blank line in a list. -/
  | looseList
  /-- Blocks whose indent was taken off. -/
  | dedented
  /-- The inside of a quote. -/
  | quote
  deriving DecidableEq

/-- An element that is being filled, and the link targets found so far. -/
structure Page where
  parent : Draft
  references : References

/-- The way in which blocks are added inside other blocks. -/
abbrev Fill := Option Mood → Page → List Text → Page

/-- An element after one block was added, and the blocks that are left. -/
structure Step where
  page : Page
  rest : List Text

/-- A block put in front of the others, unless nothing is left of it. -/
def requeue (block : Text) (rest : List Text) : List Text :=
  if block.isEmpty then rest else block :: rest

/-- A block put in front of the others, unless it is blank. -/
def requeueUnlessBlank (block : Text) (rest : List Text) : List Text :=
  if isBlank block then rest else block :: rest

def Page.add (page : Page) (child : Draft) : Page :=
  { page with parent := page.parent.append child }

/-- Blocks added to an element inside the page; `place` puts the filled element back. -/
def Page.fillInside (page : Page) (fill : Fill) (mood : Option Mood) (inner : Draft)
    (blocks : List Text) (place : Draft → Draft) : Page :=
  let filled := fill mood ⟨inner, page.references⟩ blocks
  ⟨place filled.parent, filled.references⟩

def Page.fillLast (page : Page) (fill : Fill) (mood : Option Mood) (blocks : List Text) : Page :=
  match page.parent.lastChild? with
  | none => page
  | some child =>
    page.fillInside fill mood child blocks fun filled => page.parent.mapLast fun _ => filled

/-- Blocks added to a new last child. -/
def Page.fillNew (page : Page) (fill : Fill) (mood : Option Mood) (tag : String)
    (blocks : List Text) : Page :=
  page.fillInside fill mood (Element.bare tag) blocks fun filled => page.parent.append filled

/-- The pieces of a text between blank lines. -/
def chunks (cs : Text) : List Text :=
  splitText ['\n', '\n'] cs

def isListTag (tag : String) : Bool :=
  tag == "ul" || tag == "ol"

def isItemTag (tag : String) : Bool :=
  tag == "li"

/-- The code text of a code block. -/
def codeText? (d : Draft) : Option Text :=
  if d.tag = "pre" then
    match d.children with
    | code :: _ => if code.tag = "code" then some (Draft.charsOf code.text) else none
    | [] => none
  else none

def withCodeText (chars : Text) (d : Draft) : Draft :=
  match d.children with
  | code :: others => { d with children := { code with text := some (.fixed chars) } :: others }
  | [] => d

/-- The page whose last child, a code block, has its code text changed. -/
def Page.mapCode (f : Text → Text) (page : Page) : Page :=
  match page.parent.lastChild?.bind codeText? with
  | some chars => { page with parent := page.parent.mapLast (withCodeText (f chars)) }
  | none => page

/-! ### Blank lines and code -/

/-- A block that is empty or begins with a blank line: blank lines count inside code. -/
def addBlank (page : Page) (block : Text) (rest : List Text) : Step :=
  match block with
  | [] => ⟨page.mapCode (· ++ ['\n', '\n']), rest⟩
  | _ :: others => ⟨page.mapCode (· ++ ['\n']), requeue others rest⟩

/-- An indented block: code, which goes on from code that stands before it. -/
def addCode (page : Page) (block : Text) (rest : List Text) : Step :=
  let parts := detab block
  let code := Escape.code (trimEnd parts.1) ++ ['\n']
  let page := match page.parent.lastChild?.bind codeText? with
    | some _ => page.mapCode (· ++ '\n' :: code)
    | none =>
      page.add ⟨"pre", [], none, none, [⟨"code", [], some (.fixed code), none, []⟩]⟩
  ⟨page, requeue parts.2 rest⟩

/-! ### Blocks inside list items -/

/-- The element reached by going down last children the given number of times. -/
def lastDescendant (d : Draft) : Nat → Draft
  | 0 => d
  | depth + 1 =>
    match d.lastChild? with
    | some child => lastDescendant child depth
    | none => d

/-- The draft with the element changed that is reached by going down last children. -/
def mapDescendant (f : Draft → Draft) (d : Draft) : Nat → Draft
  | 0 => f d
  | depth + 1 => d.mapLast fun child => mapDescendant f child depth

/-- How far down an indented block belongs: the list level that is reached and the number of last
children on the way (`fuel` bounds the number of children). -/
def descend (indent : Nat) : Nat → Nat → Draft → Nat × Nat
  | 0, level, _ => (level, 0)
  | fuel + 1, level, d =>
    if level < indent then
      match d.lastChild? with
      | some child =>
        if isListTag child.tag then
          let r := descend indent fuel (level + 1) child
          (r.1, r.2 + 1)
        else if isItemTag child.tag then
          let r := descend indent fuel level child
          (r.1, r.2 + 1)
        else (level, 0)
      | none => (level, 0)
    else (level, 0)

/-- An item whose text is put into a paragraph in front of its children. -/
def textToParagraph (item : Draft) : Draft :=
  if (Draft.charsOf item.text).isEmpty then item
  else
    { item with
      text := some (.running [])
      children := Draft.ofText "p" (Draft.charsOf item.text) :: item.children }

/-- Whether a block goes into an item of a list that stands before it. -/
def continuesItem (mood : Option Mood) (parent : Draft) (block : Text) : Bool :=
  isIndented block && mood != some .dedented &&
    (isItemTag parent.tag ||
      match parent.lastChild? with
      | some child => isListTag child.tag
      | none => false)

/-- An indented block that goes into an item. -/
def addToItem (fill : Fill) (mood : Option Mood) (page : Page) (block : Text)
    (rest : List Text) : Step :=
  let parent := page.parent
  let indent := (block.takeWhile (· == ' ')).length / 4
  let (level, depth) := descend indent parent.size (if mood = some .list then 1 else 0) parent
  let inner := dedentLines level block
  let sibling := lastDescendant parent depth
  let page' :=
    if isItemTag parent.tag then
      match parent.lastChild? with
      | some child =>
        if isListTag child.tag then page.fillLast fill (some .dedented) [inner]
        else fill (some .dedented) page [inner]
      | none => fill (some .dedented) page [inner]
    else
      let place (filled : Draft) : Draft := mapDescendant (fun _ => filled) parent depth
      if isItemTag sibling.tag then
        page.fillInside fill (some .dedented) sibling [inner] place
      else match sibling.lastChild? with
        | some item =>
          if isItemTag item.tag then
            page.fillInside fill (some .dedented) (textToParagraph item) (chunks inner)
              fun filled => place (sibling.mapLast fun _ => filled)
          else
            page.fillInside fill (some .dedented) (Element.bare "li") [inner]
              fun filled => place (sibling.append filled)
        | none =>
          page.fillInside fill (some .dedented) (Element.bare "li") [inner]
            fun filled => place (sibling.append filled)
  ⟨page', rest⟩

/-! ### Headings and rules -/

def headingTag (level : Nat) : String :=
  match level with
  | 1 => "h1"
  | 2 => "h2"
  | 3 => "h3"
  | 4 => "h4"
  | 5 => "h5"
  | _ => "h6"

/-- A heading that begins with number signs, with the lines before and after it. -/
def addHeading (fill : Fill) (mood : Option Mood) (page : Page)
    (found : Found (Nat × Text × Text)) (rest : List Text) : Step :=
  let (level, header, after) := found.value
  let page := if found.before.isEmpty then page else fill mood page [found.before]
  let after := if mood = some .looseList then dedentLines 1 after else after
  ⟨page.add (Draft.ofText (headingTag level) (trim header)), requeue after rest⟩

/-- A heading whose second line underlines the first. -/
def addUnderlined (page : Page) (level : Nat) (block : Text) (rest : List Text) : Step :=
  let all := lines block
  let page := page.add (Draft.ofText (headingTag level) (trim (all.headD [])))
  ⟨page, if all.length ≤ 2 then rest else joinWith ['\n'] (all.drop 2) :: rest⟩

/-- A horizontal rule, with the lines before and after it. -/
def addRule (fill : Fill) (mood : Option Mood) (page : Page) (before after : List Text)
    (rest : List Text) : Step :=
  let pre := dropEndWhile (· == '\n') (joinWith ['\n'] before)
  let post := (joinWith ['\n'] after).dropWhile (· == '\n')
  let page := if pre.isEmpty then page else fill mood page [pre]
  ⟨page.add (Element.bare "hr"), requeue post rest⟩

/-! ### Lists -/

/-- A line put below the last item. -/
def extendLast (items : List Text) (line : Text) : List Text :=
  match items.reverse with
  | [] => [line]
  | item :: others => ((item ++ '\n' :: line) :: others).reverse

/-- The items after one more line. -/
def addItemLine (items : List Text) (line : Text) : List Text :=
  match readItem? line with
  | some text => items ++ [text]
  | none =>
    if isIndentedItem line && !((items.getLast?).any isIndented) then items ++ [line]
    else extendLast items line

def items (block : Text) : List Text :=
  (lines block).foldl addItemLine []

/-- The last item of a list made ready for a blank line after it: its text becomes a paragraph, and
so does the text after its last child. -/
def loosen (item : Draft) : Draft :=
  let item := textToParagraph item
  match item.lastChild? with
  | some child =>
    if (Draft.charsOf child.tail).isEmpty then item
    else
      (item.mapLast fun c => { c with tail := some (.running []) }).append
        (Draft.ofText "p" (trimStart (Draft.charsOf child.tail)))
  | none => item

/-- One item added to a list: to its last item when the item is indented, else as a new one. -/
def addItem (fill : Fill) (list : Page) (item : Text) : Page :=
  if isIndented item then list.fillLast fill (some .list) [item]
  else list.fillNew fill (some .list) "li" [item]

/-- A list, or the next items of the list that stands before it. -/
def addList (fill : Fill) (tag : String) (page : Page) (block : Text) (rest : List Text) : Step :=
  let all := items block
  let page' := match page.parent.lastChild? with
    | some sibling =>
      if isListTag sibling.tag then
        let first := Page.fillNew ⟨sibling.mapLast loosen, page.references⟩ fill (some .looseList)
          "li" (all.take 1)
        let list := (all.drop 1).foldl (addItem fill) first
        ⟨page.parent.mapLast fun _ => list.parent, list.references⟩
      else addNew all
    | none => addNew all
  ⟨page', rest⟩
where
  /-- The items added to the element itself when it is a list, else to a new list in it. -/
  addNew (all : List Text) : Page :=
    if isListTag page.parent.tag then all.foldl (addItem fill) page
    else
      let list := all.foldl (addItem fill) ⟨Element.bare tag, page.references⟩
      ⟨page.parent.append list.parent, list.references⟩

/-! ### Quotes, link targets and paragraphs -/

/-- The first quoted line of a block, with what stands before it. -/
def findQuote? (block : Text) : Option (Found Text) :=
  findLine? (fun cs => (readQuote? cs).map fun _ => cs) block

/-- A quote, which goes on from a quote that stands before it. -/
def addQuote (fill : Fill) (mood : Option Mood) (page : Page) (found : Found Text)
    (rest : List Text) : Step :=
  let page := fill mood page [found.before]
  let quoted := if found.first then found.value else '\n' :: found.value
  let inner := chunks (joinWith ['\n'] ((lines quoted).map unquote))
  let page := match page.parent.lastChild? with
    | some sibling =>
      if sibling.tag = "blockquote" then page.fillLast fill (some .quote) inner
      else page.fillNew fill (some .quote) "blockquote" inner
    | none => page.fillNew fill (some .quote) "blockquote" inner
  ⟨page, rest⟩

/-- Link targets that follow each other, the first of which was read already; the result holds what
follows them (`steps` bounds how many there are). -/
def addTargets : Nat → References → Target → References × Text
  | 0, references, target => (references, target.rest)
  | steps + 1, references, target =>
    let references := (target.name, target.address, target.title) :: references
    let after := target.rest.dropWhile (· == '\n')
    match readTarget? after with
    | some next => addTargets steps references next
    | none => (references, after)

/-- Link targets, with the lines before and after them. -/
def addTarget (page : Page) (found : Found Target) (rest : List Text) : Step :=
  let (references, after) :=
    addTargets (found.value.rest.length + 1) page.references found.value
  let before := dropEndWhile (· == '\n') found.before
  ⟨{ page with references }, requeueUnlessBlank before (requeueUnlessBlank after rest)⟩

/-- A paragraph; in a tight list its lines go to the item itself. -/
def addParagraph (mood : Option Mood) (page : Page) (block : Text) (rest : List Text) : Step :=
  let parent := page.parent
  let parent :=
    if isBlank block then parent
    else if mood = some .list then
      match parent.lastChild? with
      | some _ =>
        parent.mapLast fun c =>
          { c with tail := some (.running (Draft.charsOf c.tail ++ '\n' :: block)) }
      | none =>
        let text := Draft.charsOf parent.text
        let added := trimStart block
        { parent with
          text := some (.running (if text.isEmpty then added else text ++ '\n' :: added)) }
    else parent.append (Draft.ofText "p" (trimStart block))
  ⟨{ page with parent }, rest⟩

/-! ### The choice of a block's kind -/

/-- One block added, of the first kind that fits. -/
def step (fill : Fill) (mood : Option Mood) (page : Page) (block : Text) (rest : List Text) :
    Step :=
  if block.isEmpty || block.head? == some '\n' then addBlank page block rest
  else if continuesItem mood page.parent block then addToItem fill mood page block rest
  else if isIndented block then addCode page block rest
  else match Table.frame? block with
  | some frame => ⟨page.add (Table.draft frame block), rest⟩
  | none =>
  match findHeading? block with
  | some found => addHeading fill mood page found rest
  | none =>
  match underlinedLevel? block with
  | some level => addUnderlined page level block rest
  | none =>
  match splitAtRule? (lines block) with
  | some (before, after) => addRule fill mood page before after rest
  | none =>
  if opensOrdered block then addList fill "ol" page block rest
  else if opensUnordered block then addList fill "ul" page block rest
  else match findQuote? block with
  | some found => addQuote fill mood page found rest
  | none =>
  match findTarget? block with
  | some found => addTarget page found rest
  | none => addParagraph mood page block rest

/-- Blocks added one after the other (`fuel` bounds the number of steps and their nesting). -/
def fillWithin : Nat → Fill
  | 0, _, page, _ => page
  | _ + 1, _, page, [] => page
  | fuel + 1, mood, page, block :: rest =>
    let s := step (fillWithin fuel) mood page block rest
    fillWithin fuel mood s.page s.rest

/-- Steps that suffice for a source. -/
def stepBound (source : Text) : Nat :=
  8 * source.length + 16

/-- The blocks of a source, as children of one element. -/
def read (references : References) (source : Text) : Page :=
  fillWithin (stepBound source) none ⟨Element.bare "div", references⟩ (chunks source)

end Changelog.Blocks
