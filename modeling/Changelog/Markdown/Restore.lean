import Changelog.Markdown.Stash
import Changelog.Text.Lower
import Changelog.Tree.Layout

/-!
# Stored markup put back

In the written page the marks of stored markup are replaced by the markup.  A paragraph that holds
nothing but such a mark is dropped around markup that stands on lines of its own.
-/

namespace Changelog.Restore

open Text

/-- Whether markup stands on lines of its own: it begins with the tag of such an element, in whatever
case, or it is a comment, declaration or instruction. -/
def isBlockMarkup (markup : Text) : Bool :=
  match markup with
  | '<' :: cs =>
    let inner : Text := match cs with
      | '/' :: c :: rest => if c != ' ' && c != '>' then c :: rest else cs
      | _ => cs
    match inner.takeWhile fun c => c != ' ' && c != '>' with
    | [] => false
    | c :: name =>
      if c == '!' || c == '?' || c == '@' || c == '%' then true else isBlockTag (lower (c :: name))
  | _ => false

/-- Reads a mark of stored markup: whether a paragraph holds nothing but the mark, the digits of the
mark, and what follows. -/
def readStored? (cs : Text) : Option (Bool × Text × Text) :=
  let alone : Option (Bool × Text × Text) :=
    ((after? "<p>".toList cs).bind Mark.readRaw?).bind fun r =>
      (after? "</p>".toList r.2).map fun rest => (true, r.1, rest)
  alone.or ((Mark.readRaw? cs).map fun r => (false, r.1, r.2))

/-- The page with stored markup put back, in the markup as well (`depth` bounds the nesting). -/
def within (stash : Stash) : Nat → Text → Text
  | 0, cs => cs
  | depth + 1, cs =>
    replaceAll
      (fun t =>
        match readStored? t with
        | none => none
        | some (alone, digits, rest) =>
          match stash.entries[digitsValue digits]? with
          | none => some (t.take (t.length - rest.length), rest)
          | some markup =>
            let shown :=
              if alone && !isBlockMarkup markup then "<p>".toList ++ markup ++ "</p>".toList
              else markup
            some (within stash depth shown, rest))
      cs

/-- The page with stored markup and ampersands put back. -/
def page (stash : Stash) (cs : Text) : Text :=
  replaceText Mark.ampersand ['&'] (within stash (stash.entries.length + 1) cs)

end Changelog.Restore
