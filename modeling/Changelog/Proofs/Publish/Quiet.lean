import Changelog.Proofs.Files.Places
import Changelog.Proofs.Publish.Calls
import Changelog.Publish.Console

/-!
# Runs that meet no faults

The script lies in a directory beside its changelog.  Where no call fails from without, directories
lead to the script and a name for a temporary file is free, a page is written: it is in the target's
place, and nothing else has changed.
-/

namespace Changelog

open FileSystem

def changelogName : Text := "CHANGELOG.md".toList

def pageName : Text := "changelog.html".toList

/-- Where the script is run: in the directory `docs` of the directory `box`. -/
structure Site (around : Surroundings) (fs : FileSystem) (box : Place) (docs : Text) : Prop where
  /-- No call fails from without. -/
  quiet : ∀ call, around.faults call = none
  reaches : fs.Reaches (box ++ [docs])
  /-- The changelog and the page are files, where there is something. -/
  changelog : fs.isDirectory (box ++ [changelogName]) = false
  page : fs.isDirectory (box ++ [docs, pageName]) = false
  /-- All paths are short enough. -/
  changelogFits : Fits (box ++ [changelogName])
  pageFits : Fits (box ++ [docs, pageName])
  /-- Temporary files may be made under the names that are tried, and one of them is free. -/
  plain : ∀ name ∈ around.names, '/' ∉ name ∧ '\x00' ∉ name
  short : ∀ name ∈ around.names, exceeds nameLimit (Job.temporaryName name) = false
  fits : ∀ name ∈ around.names, Fits (box ++ [docs, Job.temporaryName name])
  free : ∃ name ∈ around.names, fs.get? (box ++ [docs, Job.temporaryName name]) = none

theorem plain_changelogName : Path.Plain changelogName :=
  ⟨by decide, by decide, by decide, by decide, by decide⟩

theorem plain_pageName : Path.Plain pageName :=
  ⟨by decide, by decide, by decide, by decide, by decide⟩

theorem plain_temporaryName {name : Text} (h : '/' ∉ name ∧ '\x00' ∉ name) :
    Path.Plain (Job.temporaryName name) := by
  refine ⟨Job.temporaryName_ne_nil name, Job.slash_not_mem_temporaryName h.1, ?_, ?_, ?_⟩
  · unfold Job.temporaryName
    rw [List.mem_append, List.mem_append, not_or, not_or]
    exact ⟨⟨by decide, h.2⟩, by decide⟩
  · exact nofun
  · exact nofun

variable {around : Surroundings} {fs now : FileSystem} {box : Place} {docs : Text}

theorem append_pair (box : Place) (docs name : Text) :
    box ++ [docs, name] = (box ++ [docs]) ++ [name] := by
  rw [List.append_assoc]
  rfl

namespace Site

variable (h : Site around fs box docs)
include h

theorem plainDocs : Path.Plain docs :=
  h.reaches.plain docs (List.mem_append_right _ List.mem_cons_self)

theorem plainPage : ∀ other ∈ (box ++ [docs]) ++ [pageName], Path.Plain other := by
  intro other ho
  rcases List.mem_append.mp ho with ho | ho
  · exact h.reaches.plain other ho
  · rw [List.mem_singleton.mp ho]
    exact plain_pageName

/-- A temporary file is made under the first name that is free. -/
theorem createFirst {names : List Text} (hsub : ∀ name ∈ names, name ∈ around.names)
    (hfree : ∃ name ∈ names, fs.get? (box ++ [docs, Job.temporaryName name]) = none) :
    ∃ temporary made, Job.createFirst fs (Path.ofPlace (box ++ [docs])) names =
        (made, .created temporary) ∧ fs.get? temporary.place = none ∧
      fs.Becomes temporary.place (some (.file 0o600 [])) made := by
  induction names with
  | nil =>
    obtain ⟨name, hname, -⟩ := hfree
    cases hname
  | cons name names ih =>
    have hname := hsub name List.mem_cons_self
    have hplain := plain_temporaryName (h.plain name hname)
    have hshort := h.short name hname
    have hfits := h.fits name hname
    unfold Job.createFirst
    dsimp only
    rw [Path.inside_ofPlace h.plainDocs]
    rw [append_pair] at hfits
    rw [append_pair, h.reaches.create hplain hshort hfits]
    cases hget : fs.get? ((box ++ [docs]) ++ [Job.temporaryName name]) with
    | some node =>
      -- The name is taken, so the free one is among those that follow.
      refine ih (fun other ho => hsub other (List.mem_cons_of_mem _ ho)) ?_
      obtain ⟨other, hother, hnone⟩ := hfree
      rcases List.mem_cons.mp hother with rfl | hother
      · rw [append_pair, hget] at hnone
        cases hnone
      · exact ⟨other, hother, hnone⟩
    | none => exact ⟨_, _, rfl, hget, becomes_put fs _ _ (by simp)⟩

theorem directory_eq (fragment : Text) :
    Job.directory ⟨Path.ofPlace (box ++ [docs, pageName]), fragment⟩ fs =
      Path.ofPlace (box ++ [docs]) := by
  unfold Job.directory
  rw [append_pair]
  exact Path.directory_ofPlace h.plainPage _

/-- One call is made as it is asked for. -/
theorem step_eq (job : Job) (state : FileSystem × Progress) {call : Call}
    (hc : state.2.call? = some call) :
    job.step around state = ((job.perform around.names state.1 state.2).1,
      state.2.after (job.perform around.names state.1 state.2).2) := by
  rw [Job.step_eq around state call hc]
  unfold Job.answer
  rw [h.quiet]

/-- The first call makes the temporary file. -/
theorem perform_begun (fragment : Text) :
    ∃ temporary made, Job.perform ⟨Path.ofPlace (box ++ [docs, pageName]), fragment⟩ around.names
        fs .begun = (made, .created temporary) ∧ fs.get? temporary.place = none ∧
      fs.Becomes temporary.place (some (.file 0o600 [])) made := by
  have hnul : (Path.ofPlace (box ++ [docs])).contains '\x00' = false := by
    simpa using Path.nul_not_mem_ofPlace h.reaches.plain
  unfold Job.perform
  dsimp only
  rw [h.directory_eq fragment, hnul]
  exact h.createFirst (fun _ hn => hn) h.free

omit h in
theorem perform_created (job : Job) (names : List Text) {temporary : Temporary} {mode : Nat}
    {old : List UInt8} (hfile : now.get? temporary.place = some (.file mode old)) :
    ∃ filled, job.perform names now (.created temporary) = (filled, .done) ∧
      now.Becomes temporary.place (some (.file mode (Utf8.encode job.fragment))) filled := by
  refine ⟨_, ?_, becomes_put now _ _ (ne_nil_of_get? hfile (by simp))⟩
  unfold Job.perform
  dsimp only
  rw [fill_file hfile]
  rfl

omit h in
theorem perform_filled (job : Job) (names : List Text) {temporary : Temporary} {mode : Nat}
    {content : List UInt8} (hfile : now.get? temporary.place = some (.file mode content)) :
    ∃ permitted, job.perform names now (.filled temporary) = (permitted, .done) ∧
      now.Becomes temporary.place (some (.file Job.pageMode content)) permitted := by
  refine ⟨_, ?_, becomes_put now _ _ (ne_nil_of_get? hfile (by simp))⟩
  unfold Job.perform
  dsimp only
  rw [setMode_file hfile]
  rfl

/-- The last call moves the temporary file to the target. -/
theorem perform_permitted (fragment : Text) {temporary : Temporary} {mode : Nat}
    {content : List UInt8} (hnone : fs.get? temporary.place = none)
    (hfile : fs.Becomes temporary.place (some (.file mode content)) now) :
    ∃ final, Job.perform ⟨Path.ofPlace (box ++ [docs, pageName]), fragment⟩ around.names now
        (.permitted temporary) = (final, .done) ∧
      fs.Becomes (box ++ [docs, pageName]) (some (.file mode content)) final := by
  have ha := hfile.aligned (isDirectory_eq_false hnone (by simp)) (by simp)
  have hplace := ne_nil_of_get? hnone (by simp)
  have hgone := (hfile.trans (becomes_erase now temporary.place hplace)).get?_eq hnone
  have hput := becomes_put (now.erase temporary.place) (box ++ [docs, pageName])
    (.file mode content) (by simp)
  have hnul : (Path.ofPlace (box ++ [docs, pageName])).contains '\x00' = false := by
    rw [append_pair]
    simpa using Path.nul_not_mem_ofPlace h.plainPage
  have hfits := h.pageFits
  have hpage := (ha.directory _).trans h.page
  refine ⟨(now.erase temporary.place).put (box ++ [docs, pageName]) (.file mode content), ?_,
    hfile.working, hput.there, fun other ho => (hput.apart other ho).trans (hgone other)⟩
  unfold Job.perform
  dsimp only
  rw [hnul]
  rw [append_pair] at hfits hpage ⊢
  rw [(h.reaches.aligned ha).move plain_pageName (by decide) hfits hfile.there hpage]
  rfl

/-- The page is written, and nothing else changes. -/
theorem deliver (fragment : Text) :
    ∃ now, deliver around fs (Path.ofPlace (box ++ [docs, pageName])) fragment = (now, none) ∧
      fs.Becomes (box ++ [docs, pageName]) (some (.file Job.pageMode (Utf8.encode fragment)))
        now := by
  have hstep := h.step_eq ⟨Path.ofPlace (box ++ [docs, pageName]), fragment⟩
  obtain ⟨temporary, made, hcreate, hnone, hmade⟩ := h.perform_begun fragment
  obtain ⟨filled, hfill, hfilled⟩ := perform_created
    ⟨Path.ofPlace (box ++ [docs, pageName]), fragment⟩ around.names hmade.there
  obtain ⟨permitted, hmode, hpermitted⟩ := perform_filled
    ⟨Path.ofPlace (box ++ [docs, pageName]), fragment⟩ around.names hfilled.there
  obtain ⟨final, hmove, hfinal⟩ := h.perform_permitted fragment hnone
    ((hmade.trans hfilled).trans hpermitted)
  -- The four calls, each on the files and the progress that the one before left.
  have h1 := hstep (fs, .begun) rfl
  have h2 := hstep (made, .created temporary) rfl
  have h3 := hstep (filled, .filled temporary) rfl
  have h4 := hstep (permitted, .permitted temporary) rfl
  rw [hcreate] at h1
  rw [hfill] at h2
  rw [hmode] at h3
  rw [hmove] at h4
  refine ⟨final, ?_, hfinal⟩
  unfold Changelog.deliver Job.run Job.callLimit
  simp only [Job.steps, h1, h2, h3, h4, Progress.after]
  rfl

end Site

end Changelog
