import Changelog.Markdown.Parser
import Changelog.Proofs.Document.Blocks
import Changelog.Proofs.Document.Spans

/-!
# What a parser reads

A source is read as a bare `div` with elements of the vocabulary in it, and its texts are of every
grade that the source has once its markup is stored.
-/

namespace Changelog.Parser

open Element

variable {g : Grade}

/-- What is read of a source: the texts inside the root are of the grade, the elements are sound, and
so is the stored markup. -/
theorem read_sound {parser : Parser} {source : Text}
    (hs : g.running (store parser.stash (Source.clean source)).1)
    (hm : (store parser.stash (Source.clean source)).2.Sound g)
    (hr : References.Sound g parser.references) :
    (∃ document : Draft, (parser.read source).1 = document.finish ∧ Root g document) ∧
      (parser.read source).2.stash.Sound g := by
  have hread : parser.read source =
      let stored := store parser.stash (Source.clean source)
      let page := Blocks.read parser.references stored.1
      let document := Span.readDocument page.references page.parent stored.2
      (document.1.finish, ⟨page.references, document.2⟩) := rfl
  have hempty : Inside g (Element.bare "div" : Draft) := ⟨Grade.empty, List.forall_mem_nil _⟩
  rw [hread]
  generalize store parser.stash (Source.clean source) = stored at hs hm
  have hblocks := Blocks.grown_read parser.references hs
  dsimp only
  generalize Blocks.read parser.references stored.1 = page at hblocks
  have hinside := hblocks.parent.inside hempty
  obtain ⟨hgrown, hstash⟩ := Span.sound_readDocument (hblocks.references hr) hm hinside
  generalize Span.readDocument page.references page.parent stored.2 = document at hgrown hstash
  exact ⟨⟨document.1, rfl, hgrown.tag.trans hblocks.parent.tag,
    hgrown.attrs.trans hblocks.parent.attrs, hgrown.tail.trans hblocks.parent.tail,
    hgrown.inside hinside⟩, hstash⟩

/-- The link targets are of the grade as well. -/
theorem references_read {parser : Parser} {source : Text}
    (hs : g.running (store parser.stash (Source.clean source)).1)
    (hr : References.Sound g parser.references) :
    References.Sound g (parser.read source).2.references := by
  have hblocks := (Blocks.grown_read parser.references hs).references hr
  unfold Parser.read
  generalize store parser.stash (Source.clean source) = stored at hblocks ⊢
  exact hblocks

/-- Every source is read as a bare `div` with elements of the vocabulary in it. -/
theorem read_named (parser : Parser) (source : Text) :
    ∃ text tail children, (parser.read source).1 = ⟨"div", [], text, tail, children⟩ ∧
      ∀ child ∈ children, Named child := by
  obtain ⟨⟨document, hread, htag, hattrs, -, hinside⟩, -⟩ :=
    @read_sound Grade.any parser source trivial ⟨Nat.zero_le _, fun _ _ => trivial⟩
      (fun _ _ => ⟨trivial, fun _ _ => trivial⟩)
  obtain ⟨tag, attrs, text, tail, children⟩ := document
  subst htag hattrs
  exact ⟨_, _, _, hread, Sound.namedAll children hinside.children⟩

end Changelog.Parser
