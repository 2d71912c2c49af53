import Changelog.Entity.AddressNames
import Changelog.Markdown.Span.Outcome

/-!
# Addresses in angle brackets

A web address in angle brackets is a link to itself.  A mail address as well, but each of its
characters is written as a reference.
-/

namespace Changelog.Span

open Text

/-- A character of a scheme after its first letter. -/
def isSchemeChar (c : Char) : Bool :=
  c.isAlphanum || c == '+' || c == '.' || c == '-'

/-- Reads the scheme of a web address, and the slashes after it. -/
def readScheme? : Text → Option Text
  | c :: cs =>
    if c.isAlpha then after? "://".toList (spanWhile isSchemeChar cs).2 else none
  | [] => none

def readWebAddress (shelf : Shelf) : Reader := fun _ cs =>
  match cs with
  | '<' :: inner =>
    match readScheme? inner with
    | none => none
    | some _ =>
      match spanWhile (fun c => c != '<' && c != '>') inner with
      | (address, '>' :: rest) =>
        let d : Draft := (Element.bare "a").set "href" (shelf.plain address)
        some (.replace (.element { d with text := some (.fixed address) }) rest)
      | _ => none
  | _ => none

/-- A mail address, told by its last at sign: something without exclamation marks before it, and
something after it. -/
def isMailAddress (cs : Text) : Bool :=
  let after := cs.reverse.takeWhile (· != '@')
  let before := (cs.reverse.drop after.length).drop 1
  !after.isEmpty && decide (after.length < cs.length) && !before.isEmpty && !before.contains '!'

/-- A character of a mail address: its name if it has one, else its number. -/
def disguise (c : Char) : Text :=
  match Entity.addressName? c.toNat with
  | some name => Mark.ampersand ++ name.toList ++ [';']
  | none => Mark.ampersand ++ '#' :: (decimal c.toNat ++ [';'])

/-- A character by its number. -/
def disguiseByNumber (c : Char) : Text :=
  Mark.ampersand ++ '#' :: (decimal c.toNat ++ [';'])

def mailDraft (address : Text) : Draft :=
  let address := (after? "mailto:".toList address).getD address
  let target := ("mailto:".toList ++ address).flatMap disguiseByNumber
  let d : Draft := (Element.bare "a").set "href" target
  { d with text := some (.fixed (address.flatMap disguise)) }

def readMailAddress (shelf : Shelf) : Reader := fun _ cs =>
  match cs with
  | '<' :: inner =>
    match spanWhile (fun c => c != '<' && c != '>' && c != ' ') inner with
    | (address, '>' :: rest) =>
      if isMailAddress address then
        some (.replace (.element (mailDraft (shelf.plain address))) rest)
      else none
    | _ => none
  | _ => none

end Changelog.Span
