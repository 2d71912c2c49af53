import Changelog.Error
import Changelog.Markdown.Blocks
import Changelog.Markdown.Fence
import Changelog.Markdown.Raw.Extract
import Changelog.Markdown.Restore
import Changelog.Markdown.Source
import Changelog.Markdown.Span.Reading

/-!
# The parser

A parser keeps the link targets and the stored markup of the sources it has read.  A source becomes
a tree of blocks, its running text is read, the tree is decorated and laid out, and the written page
gets its stored markup back.
-/

namespace Changelog

/-- What a parser remembers. -/
structure Parser where
  references : References
  stash : Stash

namespace Parser

def fresh : Parser := ⟨[], Stash.empty⟩

/-- The source with fenced code and blocks of markup stored. -/
def store (stash : Stash) (source : Text) : Text × Stash :=
  let fenced := Fence.store stash source
  Raw.store fenced.2 fenced.1

/-- The tree of a source that is not blank, before it is decorated. -/
def read (parser : Parser) (source : Text) : Tree × Parser :=
  let stored := store parser.stash (Source.clean source)
  let page := Blocks.read parser.references stored.1
  let document := Span.readDocument page.references page.parent stored.2
  (document.1.finish, ⟨page.references, document.2⟩)

/-- The tree as it is written. -/
def finalTree (tree : Tree) : Tree :=
  tree.layout.settle

/-- The inside of a written tree, without white space at its ends. -/
def writeInside (tree : Tree) : Text :=
  Text.trim (Escape.text (tree.text.getD []) ++ Element.writeAll tree.children)

/-- The page of a decorated tree. -/
def page (stash : Stash) (tree : Tree) : Text :=
  Text.trim (Restore.page stash (writeInside (finalTree tree)))

/-- The page of a source, and the parser after it. -/
def render (parser : Parser) (source : Text) : Except DecorateError Text × Parser :=
  if Text.isBlank source then (.ok [], parser)
  else
    let (tree, after) := parser.read source
    match decorate after.stash tree with
    | (_, some e) => (.error e, after)
    | (decorated, none) => (.ok (page after.stash decorated), after)

end Parser

/-- What stands before a changelog. -/
def pageStart : Text :=
  "\n<div class=\"changelog-container prose prose-lg max-w-none\">\n".toList

/-- What stands after a changelog. -/
def pageEnd : Text :=
  "\n</div>\n".toList

/-- The page of a changelog, read by a parser of its own. -/
def render (source : Text) : Except DecorateError Text :=
  (Parser.fresh.render source).1.map fun body => pageStart ++ body ++ pageEnd

end Changelog
