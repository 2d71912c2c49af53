import Changelog.Markdown.Span.Outcome
import Changelog.Text.Lower
import Changelog.Text.Space

/-!
# Links and images

A link is a text in brackets with an address and maybe a title in parentheses, or with the name of a
link target in brackets.  An image has an exclamation mark before it.
-/

namespace Changelog.Span

open Text

/-- The text up to the bracket that closes `depth` open ones, and what follows it. -/
def untilBracket (depth : Nat) : Text → Option (Text × Text)
  | [] => none
  | c :: cs =>
    if c = ']' then
      if depth ≤ 1 then some ([], cs) else (untilBracket (depth - 1) cs).map fun r => (c :: r.1, r.2)
    else if c = '[' then (untilBracket (depth + 1) cs).map fun r => (c :: r.1, r.2)
    else (untilBracket depth cs).map fun r => (c :: r.1, r.2)

def readLinkText? (before : Text) : Text → Option (Text × Text)
  | '[' :: cs => if before.head? = some '!' then none else untilBracket 1 cs
  | _ => none

def readImageText? : Text → Option (Text × Text)
  | '!' :: '[' :: cs => untilBracket 1 cs
  | _ => none

/-- An address and a title as they are written, and what follows the parentheses. -/
structure Destination where
  address : Text
  title : Option Text
  rest : Text

def readQuotedTitle? : Text → Option (Text × Text)
  | c :: cs =>
    if c = '"' || c = '\x27' then
      match spanWhile (· != c) cs with
      | (title, _ :: rest) => some (title, rest)
      | (_, []) => none
    else none
  | [] => none

/-- Reads an address in angle brackets, a title if there is one, and the closing parenthesis. -/
def readAngled? : Text → Option Destination
  | '<' :: cs =>
    match spanWhile (fun c => c != '<' && c != '>') cs with
    | (address, '>' :: rest) =>
      let after := trimStart rest
      match after with
      | ')' :: left => some ⟨trim address, none, left⟩
      | _ =>
        match readQuotedTitle? after with
        | some (title, more) =>
          match trimStart more with
          | ')' :: left => some ⟨trim address, some title, left⟩
          | _ => none
        | none => none
    | _ => none
  | _ => none

/-- One of the two kinds of quotes met in parentheses: where its text starts and where it ended
last. -/
structure QuoteTrack where
  mark : Char
  start : Nat
  finish : Option Nat

/-- What is known at a place inside the parentheses of a link. -/
structure LinkScan where
  /-- The number of characters passed. -/
  index : Nat
  /-- The number of open parentheses. -/
  depth : Nat
  /-- The number of open parentheses, were the quotes no title. -/
  plainDepth : Nat
  /-- Where the link ends, were the quotes no title. -/
  plainEnd : Option Nat
  /-- The first kind of quote. -/
  first : Option QuoteTrack
  /-- The second kind of quote. -/
  second : Option QuoteTrack
  /-- The last character other than a space. -/
  last : Option Char

/-- What is known at the opening parenthesis. -/
def LinkScan.start : LinkScan := ⟨0, 1, 1, none, none, none, none⟩

/-- Whether the quote ended with the last character other than a space. -/
def QuoteTrack.endsWith (q : Option QuoteTrack) (last : Option Char) : Bool :=
  match q with
  | some t => t.finish.isSome && last == some t.mark
  | none => false

/-- What is known after a quotation mark. -/
def LinkScan.quote (s : LinkScan) (c : Char) : LinkScan :=
  match s.first with
  | none => { s with first := some ⟨c, s.index + 1, none⟩, plainDepth := s.depth, depth := 1 }
  | some f =>
    if c = f.mark then { s with first := some { f with finish := some (s.index + 1) } }
    else match s.second with
      | none => { s with second := some ⟨c, s.index + 1, none⟩ }
      | some t => { s with second := some { t with finish := some (s.index + 1) } }

/-- What is known after one more character, before it counts as passed. -/
def LinkScan.step (s : LinkScan) (c : Char) : LinkScan :=
  if c = '(' then
    if s.first.isNone then { s with depth := s.depth + 1 }
    else { s with plainDepth := s.plainDepth - 1 }
  else if c = ')' then
    if QuoteTrack.endsWith s.first s.last || QuoteTrack.endsWith s.second s.last then
      { s with depth := 0 }
    else if s.first.isNone then { s with depth := s.depth - 1 }
    else if s.plainDepth = 0 then s
    else if s.plainDepth = 1 then { s with plainDepth := 0, plainEnd := some (s.index + 1) }
    else { s with plainDepth := s.plainDepth - 1 }
  else if c = '"' || c = '\x27' then s.quote c
  else s

/-- The part of a text between two places. -/
def slice (cs : Text) (start stop : Nat) : Text :=
  (cs.take stop).drop start

/-- The address and the title when the parentheses close after a character; `all` is what they
hold. -/
def LinkScan.close (s : LinkScan) (all rest : Text) : Destination :=
  let titled (t : QuoteTrack) (finish : Nat) : Destination :=
    ⟨slice all 0 (t.start - 1), some (slice all t.start (finish - 1)), rest⟩
  let plain : Destination := ⟨all.take s.index, none, rest⟩
  let ofSecond : Destination := match s.second with
    | some t =>
      match t.finish with
      | some finish => if s.last = some t.mark then titled t finish else plain
      | none => plain
    | none => plain
  match s.first with
  | some t =>
    match t.finish with
    | some finish => if s.last = some t.mark then titled t finish else ofSecond
    | none => ofSecond
  | none => ofSecond

/-- Reads the rest of the parentheses of a link; `all` is the text from their start on. -/
def LinkScan.run (all : Text) : LinkScan → Text → Option Destination
  | s, [] =>
    if s.plainDepth = 0 then
      match s.plainEnd with
      | some stop => some ⟨all.take (stop - 1), none, all.drop stop⟩
      | none => some ⟨all.take (all.length - 2), none, all.drop (all.length - 1)⟩
    else none
  | s, c :: cs =>
    let t := s.step c
    if t.depth = 0 then some (t.close all cs)
    else LinkScan.run all
      { t with index := t.index + 1, last := if c = ' ' then t.last else some c } cs

def readDestination? : Text → Option Destination
  | '(' :: cs =>
    let inner := trimStart cs
    match readAngled? inner with
    | some d => some d
    | none => LinkScan.run inner LinkScan.start inner
  | _ => none

/-- The text without the equal quotes around it. -/
def dequote (cs : Text) : Text :=
  let mark := cs.head?
  if (mark = some '"' ∨ mark = some '\x27') ∧ cs.getLast? = mark then (cs.drop 1).dropLast else cs

/-- A title as it is shown: without quotes, and with a space for every white space character. -/
def cleanTitle (shelf : Shelf) (title : Text) : Text :=
  (dequote (shelf.plain (trim title))).map fun c => if isSpace c then ' ' else c

/-- An address as it is shown. -/
def cleanAddress (shelf : Shelf) (address : Text) : Text :=
  trim (shelf.plain address)

/-- An element that refers to an address. -/
def refer (tag attr : String) (address : Text) (title : Option Text) : Draft :=
  let d : Draft := (Element.bare tag).set attr address
  match title with
  | some t => d.set "title" t
  | none => d

def linkDraft (label address : Text) (title : Option Text) : Draft :=
  { refer "a" "href" address title with text := some (.running label) }

def imageDraft (shelf : Shelf) (label address : Text) (title : Option Text) : Draft :=
  (refer "img" "src" address title).set "alt" (shelf.plain label)

def readLink (shelf : Shelf) : Reader := fun before cs =>
  match cs with
  | '[' :: after =>
    if before.head? = some '!' then none
    else match untilBracket 1 after with
      | some (label, rest) =>
        match readDestination? rest with
        | some d =>
          some (.replace (.element (linkDraft label (cleanAddress shelf d.address)
            (d.title.map (cleanTitle shelf)))) d.rest)
        | none => none
      | none => none
  | _ => none

def readImage (shelf : Shelf) : Reader := fun _ cs =>
  match readImageText? cs with
  | some (label, rest) =>
    match readDestination? rest with
    | some d =>
      some (.replace (.element (imageDraft shelf label (cleanAddress shelf d.address)
        (d.title.map (cleanTitle shelf)))) d.rest)
    | none => none
  | none => none

/-- Runs of white space made one space. -/
def joinSpaces (inGap : Bool) : Text → Text
  | [] => []
  | c :: cs =>
    if isSpace c then if inGap then joinSpaces true cs else ' ' :: joinSpaces true cs
    else c :: joinSpaces false cs

/-- Reads the name of a link target in brackets, after at most one white space character; an empty
name stands for the text of the link. -/
def readName? (label rest : Text) : Option (Text × Text) :=
  let inner? : Option Text := match rest with
    | '[' :: cs => some cs
    | c :: '[' :: cs => if isSpace c then some cs else none
    | _ => none
  match inner? with
  | some cs =>
    match spanWhile (· != ']') cs with
    | (name, _ :: left) => some (lower (if name.isEmpty then label else name), left)
    | (_, []) => none
  | none => none

/-- A reference resolved: the element made from its target, or nothing when there is no target. -/
def resolve (references : References) (name left : Text)
    (make : Text → Option Text → Draft) : Outcome :=
  match references.find? (joinSpaces false name) with
  | some (address, title) => .replace (.element (make address title)) left
  | none => .pass left

/-- Reads a link to a target by name; `short` says that its text is the name. -/
def readReference (references : References) (short : Bool) : Reader := fun before cs =>
  match readLinkText? before cs with
  | some (label, rest) =>
    match if short then some (lower label, rest) else readName? label rest with
    | some (name, left) => some (resolve references name left (linkDraft label))
    | none => none
  | none => none

/-- Reads an image whose target is given by name; `short` says that its text is the name. -/
def readImageReference (references : References) (shelf : Shelf) (short : Bool) : Reader :=
  fun _ cs =>
    match readImageText? cs with
    | some (label, rest) =>
      match if short then some (lower label, rest) else readName? label rest with
      | some (name, left) => some (resolve references name left (imageDraft shelf label))
      | none => none
    | none => none

end Changelog.Span
