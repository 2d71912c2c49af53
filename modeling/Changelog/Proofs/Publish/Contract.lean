import Changelog.Proofs.Files.Reading
import Changelog.Proofs.Publish.Run
import Changelog.Publish.Make

/-!
# What a run owes

A run says in its result and in its one record whether the target holds the page.  If it does not,
the target is what it was before.  Nothing else changes, but for a temporary file that could not be
removed.  This is so for every run of a sequence, whatever the runs before it met.
-/

namespace Changelog

open FileSystem

/-- A run to be made: what it meets, and its two paths. -/
structure Request where
  around : Surroundings
  source : Text
  target : Text

namespace Request

/-- The run on some files. -/
def run (r : Request) (fs : FileSystem) : Report :=
  publish r.around fs r.source r.target

/-- The calls on files that the run makes once it has a page, with their replies. -/
def calls (r : Request) (fs : FileSystem) : List (Call × Reply) :=
  match pageOf r.around fs r.source with
  | .error _ => []
  | .ok page => Job.calls ⟨r.target, page⟩ r.around Job.callLimit (fs, .begun)

/-- The failures that the run meets, in their order. -/
def causes (r : Request) (fs : FileSystem) : List Failure :=
  match pageOf r.around fs r.source with
  | .error cause => [cause]
  | .ok _ => failures (r.calls fs)

/-- The place of a temporary file that the run may make: free, and in the directory of the full form
of the target. -/
def MayMake (r : Request) (fs : FileSystem) (place : Place) : Prop :=
  fs.get? place = none ∧ ∃ parent name, name ∈ r.around.names ∧
    fs.resolve (Path.directory (Job.workingPath fs) r.target) = .ok parent ∧
    place = parent ++ [Job.temporaryName name]

/-- What the run owes, given the files before it. -/
structure Kept (r : Request) (fs : FileSystem) : Prop where
  /-- It succeeds when it put the page of the source in the target's place, and only then. -/
  success : (r.run fs).succeeded = true ↔
    ∃ text page, readSource fs r.source = .ok text ∧ render text = .ok page ∧
      (r.run fs).files.node? r.target = some (.file 0o644 (Utf8.encode page)) ∧
      (.replace, .done) ∈ r.calls fs
  /-- A success is logged in one record, which is no error and has no cause. -/
  written : (r.run fs).succeeded = true → ∃ record, (r.run fs).log = [record] ∧
    record.level = .info ∧ record.cause = none ∧
    record.message = "Changelog HTML written to ".toList ++ r.target
  /-- A failure is logged in one record, an error with the last failure that was met as its cause, and
  leaves the target as it was. -/
  failed : (r.run fs).succeeded = false →
    (∃ record cause, (r.run fs).log = [record] ∧ record.level = .error ∧
      record.cause = some cause ∧ (r.causes fs).getLast? = some cause ∧
      record.message = "Failed to generate changelog HTML from ".toList ++ r.source) ∧
    (r.run fs).files.node? r.target = fs.node? r.target
  /-- No other place changes, unless a temporary file could not be removed. -/
  others : (∀ cause, (.discard, .failed cause) ∉ r.calls fs) → ∀ place,
    ((r.run fs).succeeded = true → (r.run fs).files.resolve r.target ≠ .ok place) →
    (r.run fs).files.get? place = fs.get? place
  /-- A temporary file that could not be removed is all that was added. -/
  left : ∀ cause, (.discard, .failed cause) ∈ r.calls fs →
    (r.run fs).succeeded = false ∧ ∃ place mode content, r.MayMake fs place ∧
      (r.run fs).files.get? place = some (.file mode content) ∧
      ∀ other, other ≠ place → (r.run fs).files.get? other = fs.get? other
  /-- The working directory is the same. -/
  working : (r.run fs).files.working = fs.working

variable {r : Request} {fs : FileSystem}

theorem pageOf_ok {around : Surroundings} {source page : Text}
    (h : pageOf around fs source = .ok page) :
    ∃ text, readSource fs source = .ok text ∧ render text = .ok page := by
  unfold pageOf at h
  cases hr : readSource fs source with
  | error cause =>
    rw [hr] at h
    cases h
  | ok text =>
    rw [hr] at h
    have hpage : renderFor around text = .ok page := h
    unfold renderFor at hpage
    cases hf : around.faults .render with
    | some cause =>
      rw [hf] at hpage
      cases hpage
    | none =>
      rw [hf] at hpage
      cases ht : render text with
      | error err =>
        rw [ht] at hpage
        cases hpage
      | ok page' =>
        rw [ht] at hpage
        cases hpage
        exact ⟨text, rfl, ht⟩

theorem run_of_error {cause : Failure} (h : pageOf r.around fs r.source = .error cause) :
    r.run fs = ⟨fs, false, [Record.failed r.source cause]⟩ := by
  unfold run publish
  rw [h]
  rfl

theorem run_of_ok {page : Text} (h : pageOf r.around fs r.source = .ok page) :
    r.run fs = ⟨(Job.run ⟨r.target, page⟩ r.around fs).1,
      (Job.run ⟨r.target, page⟩ r.around fs).2.isNone,
      [Record.ofOutcome r.source r.target (Job.run ⟨r.target, page⟩ r.around fs).2]⟩ := by
  unfold run publish
  rw [h]
  rfl

/-- A run that succeeds puts its page at the target.  One that fails changes nothing, unless a
fault kept it from removing its temporary file. -/
theorem run_cases (hplain : ∀ name ∈ r.around.names, '/' ∉ name) :
    ((r.run fs).succeeded = true ∧ ∃ text page goal, readSource fs r.source = .ok text ∧
      render text = .ok page ∧ (r.run fs).files.resolve r.target = .ok goal ∧
      fs.isDirectory goal = false ∧
      fs.Becomes goal (some (.file Job.pageMode (Utf8.encode page))) (r.run fs).files) ∨
    ((r.run fs).succeeded = false ∧ (fs.Same (r.run fs).files ∨
      ∃ cause, r.around.faults .discard = some cause ∧
        (.discard, .failed cause) ∈ r.calls fs)) := by
  cases hpage : pageOf r.around fs r.source with
  | error cause =>
    rw [run_of_error hpage]
    exact Or.inr ⟨rfl, Or.inl (.refl fs)⟩
  | ok page =>
    have hending := @Job.run_ending ⟨r.target, page⟩ r.around fs hplain
    have hcalls : r.calls fs =
        Job.calls ⟨r.target, page⟩ r.around Job.callLimit (fs, .begun) := by
      unfold calls
      rw [hpage]
    have hdiscard {cause : Failure} (hm : (.discard, .failed cause) ∈ r.calls fs) :
        r.around.faults .discard = some cause :=
      Job.discard_failed hplain Job.callLimit (fs, .begun) [] ⟨rfl, rfl⟩ (hcalls ▸ hm)
    obtain ⟨text, htext, hrender⟩ := pageOf_ok hpage
    rw [run_of_ok hpage]
    rw [← hcalls] at hending
    generalize Job.run ⟨r.target, page⟩ r.around fs = ended at hending ⊢
    obtain ⟨now, outcome⟩ := ended
    dsimp only at hending ⊢
    cases hending with
    | replaced _ _ hresolves hfile hholds =>
      exact Or.inl ⟨rfl, text, page, _, htext, hrender, hresolves, hfile, hholds⟩
    | unchanged _ _ _ hworking hsame => exact Or.inr ⟨rfl, Or.inl ⟨hworking, hsame⟩⟩
    | left _ hkept _ _ _ => exact Or.inr ⟨rfl, Or.inr ⟨_, hdiscard hkept, hkept⟩⟩

theorem mayMake_of_owns {page : Text} {place : Place}
    (h : Job.Owns ⟨r.target, page⟩ r.around fs place) : r.MayMake fs place :=
  ⟨h.free, h.home⟩

theorem node?_of_resolve {now : FileSystem} {path : Text} {goal : Place} {node : Node}
    (hr : now.resolve path = .ok goal) (hg : now.get? goal = some node) :
    now.node? path = some node := by
  unfold node?
  rw [hr]
  exact hg

/-- A run without a page changes nothing. -/
theorem kept_of_error {cause : Failure} (h : pageOf r.around fs r.source = .error cause) :
    r.Kept fs := by
  have hcalls : r.calls fs = [] := by
    unfold calls
    rw [h]
  have hcauses : r.causes fs = [cause] := by
    unfold causes
    rw [h]
  have hrun := run_of_error h
  refine ⟨?_, ?_, ?_, ?_, ?_, ?_⟩
  · rw [hcalls]
    refine ⟨fun hs => ?_, fun ⟨_, _, _, _, _, hm⟩ => nomatch hm⟩
    rw [hrun] at hs
    cases hs
  · rw [hrun]
    exact nofun
  · rw [hrun, hcauses]
    exact fun _ => ⟨⟨_, cause, rfl, rfl, rfl, rfl, rfl⟩, rfl⟩
  · rw [hrun]
    exact fun _ _ _ => rfl
  · rw [hcalls]
    exact fun _ hm => nomatch hm
  · rw [hrun]

/-- A run with a page keeps what it owes however it ends. -/
theorem kept_of_ok (hu : r.around.Unused fs r.target) {page : Text}
    (h : pageOf r.around fs r.source = .ok page) : r.Kept fs := by
  have hending := @Job.run_ending ⟨r.target, page⟩ r.around fs hu.plain
  have hrun := run_of_ok h
  have hcalls : r.calls fs = Job.calls ⟨r.target, page⟩ r.around Job.callLimit (fs, .begun) := by
    unfold calls
    rw [h]
  have hcauses : r.causes fs = failures (r.calls fs) := by
    unfold causes
    rw [h]
  obtain ⟨text, htext, hpage⟩ := pageOf_ok h
  rw [← hcalls] at hending
  generalize Job.run ⟨r.target, page⟩ r.around fs = ended at hending hrun
  obtain ⟨now, outcome⟩ := ended
  dsimp only at hending hrun
  cases hending with
  | replaced hdone hkept hresolve _ hholds =>
    have hnode := node?_of_resolve hresolve hholds.there
    refine ⟨?_, ?_, ?_, ?_, ?_, ?_⟩
    · rw [hrun]
      exact ⟨fun _ => ⟨text, page, htext, hpage, hnode, hdone⟩, fun _ => rfl⟩
    · rw [hrun]
      exact fun _ => ⟨_, rfl, rfl, rfl, rfl⟩
    · rw [hrun]
      exact nofun
    · rw [hrun]
      intro _ place hplace
      apply hholds.apart
      intro he
      rw [he] at hplace
      exact hplace rfl hresolve
    · exact fun cause hm => absurd hm (hkept cause)
    · rw [hrun]
      exact hholds.working
  | @unchanged cause hdone hkept hlast hworking hsame =>
    refine ⟨?_, ?_, ?_, ?_, ?_, ?_⟩
    · rw [hrun]
      exact ⟨nofun, fun ⟨_, _, _, _, _, hm⟩ => absurd hm hdone⟩
    · rw [hrun]
      exact nofun
    · rw [hrun, hcauses]
      exact fun _ => ⟨⟨_, cause, rfl, rfl, rfl, hlast, rfl⟩, node?_congr hworking hsame r.target⟩
    · rw [hrun]
      exact fun _ place _ => hsame place
    · exact fun cause hm => absurd hm (hkept cause)
    · rw [hrun]
      exact hworking
  | @left cause place mode content hdone hkept hlast howns hholds =>
    have htarget : now.node? r.target = fs.node? r.target := by
      obtain ⟨name, hname, hplace⟩ := howns.getLast?
      refine node?_appears hholds howns.free ?_ r.target ?_
      · intro hinside
        exact hu.working name hname (hinside.subset (List.mem_of_getLast? hplace))
      · rw [hplace]
        exact hu.target name hname
    refine ⟨?_, ?_, ?_, ?_, ?_, ?_⟩
    · rw [hrun]
      exact ⟨nofun, fun ⟨_, _, _, _, _, hm⟩ => absurd hm hdone⟩
    · rw [hrun]
      exact nofun
    · rw [hrun, hcauses]
      exact fun _ => ⟨⟨_, cause, rfl, rfl, rfl, hlast, rfl⟩, htarget⟩
    · exact fun hnone => absurd hkept (hnone cause)
    · rw [hrun]
      exact fun _ _ => ⟨rfl, place, mode, content, mayMake_of_owns howns, hholds.there,
        hholds.apart⟩
    · rw [hrun]
      exact hholds.working

/-- One run keeps what it owes. -/
theorem kept (hu : r.around.Unused fs r.target) : r.Kept fs := by
  cases h : pageOf r.around fs r.source with
  | error cause => exact kept_of_error h
  | ok page => exact kept_of_ok hu h

end Request

/-- The runs of a sequence, each with the files that it begins with. -/
def history (fs : FileSystem) : List Request → List (FileSystem × Request)
  | [] => []
  | r :: more => (fs, r) :: history (r.run fs).files more

/-- An empty changelog in the working directory. -/
def emptyChangelog : FileSystem :=
  ⟨[], [(["CHANGELOG.md".toList], .file 0o644 [])]⟩

/-- A run that meets no faults, and one whose temporary file can neither be written nor removed. -/
def goodThenFailing : List Request :=
  let source := "CHANGELOG.md".toList
  let target := "changelog.html".toList
  let fails : Call → Option Failure
    | .write => some (.runtime "full".toList)
    | .discard => some (.runtime "busy".toList)
    | _ => none
  [⟨⟨fun _ => none, ["k3x9".toList]⟩, source, target⟩,
    ⟨⟨fails, ["k3x9".toList]⟩, source, target⟩]

end Changelog
