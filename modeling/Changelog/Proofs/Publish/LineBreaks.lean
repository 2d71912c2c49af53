import Changelog.Proofs.Publish.Contract
import Changelog.Proofs.Publish.Sources
import Changelog.Proofs.Text.Bytes
import Changelog.Proofs.Text.LineEnds

/-!
# Kinds of line breaks

A run makes the line ends of its source line feeds before it makes the page, and the parser does so
once more.  The page of a file is the page of the text that its bytes write, and texts that differ
in the kinds of their line breaks only have the same page.
-/

namespace Changelog

open FileSystem Source

variable {t u : Text} {r : Request} {fs : FileSystem}

/-- A parser sees of a source its clean form, and whether it is blank. -/
theorem Parser.render_congr (parser : Parser) (hblank : Text.isBlank t = Text.isBlank u)
    (hclean : clean t = clean u) : parser.render t = parser.render u := by
  unfold Parser.render Parser.read
  rw [hblank, hclean]

theorem render_normalizeLines (ho : Mark.opening ∉ t) (hc : Mark.closing ∉ t) :
    render (normalizeLines t) = render t := by
  have hparser := Parser.fresh.render_congr (isBlank_normalizeLines t) (clean_normalizeLines ho hc)
  unfold render
  rw [hparser]

theorem readSource_of_encode {source : Text} (h : loadSource fs source = .ok (Utf8.encode t)) :
    readSource fs source = .ok (normalizeLines t) := by
  rw [readSource_of_load h, decodeSource, Utf8.decode_eq_ok.mpr rfl]

/-- The page of a file that holds a text is the page of the text. -/
theorem pageOf_of_load {around : Surroundings} {source : Text} (ho : Mark.opening ∉ t)
    (hc : Mark.closing ∉ t) (h : loadSource fs source = .ok (Utf8.encode t)) :
    pageOf around fs source = renderFor around t := by
  unfold pageOf
  rw [readSource_of_encode h]
  change renderFor around (normalizeLines t) = renderFor around t
  unfold renderFor
  rw [render_normalizeLines ho hc]

namespace Request

/-- The run finds the bytes of a text at its source, and names that are names. -/
structure Finds (r : Request) (fs : FileSystem) (t : Text) : Prop where
  loads : loadSource fs r.source = .ok (Utf8.encode t)
  plain : ∀ name ∈ r.around.names, '/' ∉ name

/-- After the run the target is a file with these bytes. -/
def Leaves (r : Request) (fs : FileSystem) (fragment : List UInt8) : Prop :=
  (r.run fs).files.node? r.target = some (.file Job.pageMode fragment)

/-- What a run that succeeds leaves is the page of the text at its source. -/
theorem Finds.leaves (h : r.Finds fs t) (ho : Mark.opening ∉ t) (hc : Mark.closing ∉ t)
    (hs : (r.run fs).succeeded = true) :
    ∃ page, render t = .ok page ∧ r.Leaves fs (Utf8.encode page) := by
  rcases @run_cases r fs h.plain with
    ⟨-, text, page, goal, hreads, hrenders, hresolves, -, hholds⟩ | ⟨hfailed, -⟩
  · rw [readSource_of_encode h.loads] at hreads
    cases hreads
    rw [render_normalizeLines ho hc] at hrenders
    exact ⟨page, hrenders, node?_of_resolve hresolves hholds.there⟩
  · rw [hs] at hfailed
    cases hfailed

end Request

/-- The kinds of the line breaks of a text without marks make no difference, to its page or to what
the runs on files that hold it leave. -/
theorem lineBreaks_immaterial (t : Text) (ho : Mark.opening ∉ t) (hc : Mark.closing ∉ t) :
    render t = render (replaceReturns t) ∧
      (∀ (r : Request) (fs : FileSystem), r.Finds fs t →
        pageOf r.around fs r.source = renderFor r.around t ∧
        ((r.run fs).succeeded = true →
          ∃ page, render t = .ok page ∧ r.Leaves fs (Utf8.encode page))) ∧
      ∀ u, replaceReturns u = replaceReturns t → render u = render t ∧
        ∀ (r r' : Request) (fs fs' : FileSystem), r.Finds fs t → r'.Finds fs' u →
          (r.run fs).succeeded = true → (r'.run fs').succeeded = true →
          ∃ fragment, r.Leaves fs fragment ∧ r'.Leaves fs' fragment := by
  refine ⟨?_, fun r fs hfinds => ?_, fun u hkinds => ?_⟩
  · rw [← normalizeLines_eq_replaceReturns, render_normalizeLines ho hc]
  · exact ⟨pageOf_of_load ho hc hfinds.loads, hfinds.leaves ho hc⟩
  · rw [← normalizeLines_eq_replaceReturns, ← normalizeLines_eq_replaceReturns] at hkinds
    have hou : Mark.opening ∉ u := not_mem_of_normalizeLines hkinds (by decide) (by decide) ho
    have hcu : Mark.closing ∉ u := not_mem_of_normalizeLines hkinds (by decide) (by decide) hc
    have hrender : render u = render t := by
      rw [← render_normalizeLines hou hcu, hkinds, render_normalizeLines ho hc]
    refine ⟨hrender, fun r r' fs fs' hfinds hfinds' hs hs' => ?_⟩
    obtain ⟨page, hpage, hleaves⟩ := hfinds.leaves ho hc hs
    obtain ⟨page', hpage', hleaves'⟩ := hfinds'.leaves hou hcu hs'
    have hsame : page' = page := by
      rw [hrender, hpage] at hpage'
      exact (Except.ok.inj hpage').symm
    exact ⟨Utf8.encode page, hleaves, hsame ▸ hleaves'⟩

/-- A title and a list, with line breaks of all kinds. -/
def mixedBreaks : Text :=
  "# A\r\n\r- b\nc\r\n".toList

/-- The same lines, with other breaks. -/
def otherBreaks : Text :=
  "# A\r\r\n- b\rc\n".toList

/-- A directory with one file. -/
def holding (t : Text) : FileSystem :=
  ⟨[], [(["CHANGELOG.md".toList], .file 0o644 (Utf8.encode t))]⟩

/-- A run without faults. -/
def undisturbed : Request :=
  ⟨⟨fun _ => none, ["k3x9".toList]⟩, "CHANGELOG.md".toList, "changelog.html".toList⟩

theorem lineBreaks_immaterial_mixedBreaks :
    render mixedBreaks = render (replaceReturns mixedBreaks) ∧
      (undisturbed.run (holding mixedBreaks)).succeeded = true ∧
      (undisturbed.run (holding otherBreaks)).succeeded = true ∧
      mixedBreaks ≠ otherBreaks ∧ render otherBreaks = render mixedBreaks ∧
      ∃ fragment, undisturbed.Leaves (holding mixedBreaks) fragment ∧
        undisturbed.Leaves (holding otherBreaks) fragment := by
  have ho : Mark.opening ∉ mixedBreaks := by decide
  have hc : Mark.closing ∉ mixedBreaks := by decide
  have hkinds : replaceReturns otherBreaks = replaceReturns mixedBreaks := by decide
  have hfinds (t : Text) (ht : t = mixedBreaks ∨ t = otherBreaks) :
      undisturbed.Finds (holding t) t := ⟨by rcases ht with rfl | rfl <;> rfl, by decide⟩
  have hs : (undisturbed.run (holding mixedBreaks)).succeeded = true := by decide +kernel
  have hs' : (undisturbed.run (holding otherBreaks)).succeeded = true := by decide +kernel
  obtain ⟨htranslated, -, hothers⟩ := lineBreaks_immaterial mixedBreaks ho hc
  obtain ⟨hrender, hruns⟩ := hothers otherBreaks hkinds
  exact ⟨htranslated, hs, hs', by decide, hrender,
    hruns undisturbed undisturbed _ _ (hfinds mixedBreaks (Or.inl rfl))
      (hfinds otherBreaks (Or.inr rfl)) hs hs'⟩

end Changelog
