import Changelog.Proofs.Publish.Contract
import Changelog.Proofs.Publish.Sources

/-!
# Runs made again

Once a run has succeeded the target holds the page of its source.  From then on no run with the
same paths changes anything: one that succeeds writes the page that is there, and one that fails
leaves things as they are, provided that it could remove its temporary file.
-/

namespace Changelog

open FileSystem

/-- The target holds the page of the source. -/
structure Settled (fs : FileSystem) (source target text page : Text) (goal : Place) : Prop where
  reads : readSource fs source = .ok text
  renders : render text = .ok page
  resolves : fs.resolve target = .ok goal
  holds : fs.get? goal = some (.file Job.pageMode (Utf8.encode page))

variable {fs now : FileSystem} {source target text page : Text} {goal : Place} {r : Request}

theorem Settled.same (h : Settled fs source target text page goal) (hs : fs.Same now) :
    Settled now source target text page goal :=
  ⟨(readSource_same hs source).trans h.reads, h.renders, (hs.resolve target).trans h.resolves,
    (hs.get? goal).trans h.holds⟩

/-- A page that appears at the target, where the source is not, is the page of the source. -/
theorem settled_of_becomes (hreads : readSource fs source = .ok text)
    (hrenders : render text = .ok page)
    (hresolves : now.resolve target = .ok goal) (hfile : fs.isDirectory goal = false)
    (hholds : fs.Becomes goal (some (.file Job.pageMode (Utf8.encode page))) now)
    (hapart : ∀ place, fs.resolve source = .ok place → fs.resolve target ≠ .ok place) :
    Settled now source target text page goal := by
  obtain ⟨bytes, hload, hdecode⟩ := readSource_ok hreads
  obtain ⟨hnul, hread⟩ := loadSource_eq_ok.mp hload
  have haligned : fs.Aligned now := hholds.aligned hfile (by simp)
  have hsource : fs.resolve source ≠ .ok goal := by
    intro hr
    obtain ⟨place, mode, hplace, hget⟩ := read_ok hread
    rw [hr] at hplace
    cases hplace
    -- The source would be what the target led to before.
    refine hapart goal hr (haligned.symm.resolve hresolves ?_)
    rw [hget]
    exact nofun
  have hnow : loadSource now source = .ok bytes :=
    loadSource_eq_ok.mpr ⟨hnul, hholds.read hfile (by simp) hread hsource⟩
  exact ⟨(readSource_of_load hnow).trans hdecode, hrenders, hresolves, hholds.there⟩

/-- The page written again where it is. -/
theorem Settled.rewritten (h : Settled fs source target text page goal) {other : Place}
    (hresolves : now.resolve target = .ok other) (hfile : fs.isDirectory other = false)
    (hholds : fs.Becomes other (some (.file Job.pageMode (Utf8.encode page))) now) :
    fs.Same now := by
  have haligned : fs.Aligned now := hholds.aligned hfile (by simp)
  have hthere : now.get? goal = some (.file Job.pageMode (Utf8.encode page)) := by
    by_cases hg : goal = other
    · rw [hg]
      exact hholds.there
    · exact (hholds.apart goal hg).trans h.holds
  have hgoal : now.resolve target = .ok goal :=
    haligned.resolve h.resolves (by rw [hthere]; exact nofun)
  rw [hresolves] at hgoal
  cases hgoal
  refine ⟨hholds.working, fun place => ?_⟩
  by_cases hp : place = goal
  · rw [hp, hthere, h.holds]
  · exact hholds.apart place hp

namespace Request

/-- No fault keeps the run from removing its temporary file. -/
def Tidy (r : Request) (fs : FileSystem) : Prop :=
  ∀ cause, r.around.faults .discard = some cause → (.discard, .failed cause) ∉ r.calls fs

/-- Where the target holds its page a run changes nothing. -/
theorem run_settled (h : Settled fs r.source r.target text page goal)
    (hplain : ∀ name ∈ r.around.names, '/' ∉ name) (htidy : r.Tidy fs) :
    fs.Same (r.run fs).files := by
  rcases run_cases hplain with
    ⟨-, text', page', other, hreads, hrenders, hresolves, hfile, hholds⟩ |
    ⟨-, hsame | ⟨cause, hfault, hm⟩⟩
  · rw [h.reads] at hreads
    cases hreads
    rw [h.renders] at hrenders
    cases hrenders
    exact h.rewritten hresolves hfile hholds
  · exact hsame
  · exact absurd hm (htidy cause hfault)

end Request

/-- The files that a sequence of runs leaves. -/
def filesAfter (fs : FileSystem) (requests : List Request) : FileSystem :=
  requests.foldl (fun files r => (r.run files).files) fs

theorem same_filesAfter (requests : List Request) (h : Settled fs source target text page goal)
    (hpaths : ∀ r ∈ requests, r.source = source ∧ r.target = target)
    (hplain : ∀ r ∈ requests, ∀ name ∈ r.around.names, '/' ∉ name)
    (htidy : ∀ entry ∈ history fs requests, entry.2.Tidy entry.1) :
    fs.Same (filesAfter fs requests) := by
  induction requests generalizing fs with
  | nil => exact .refl fs
  | cons r later ih =>
    obtain ⟨⟨rfl, rfl⟩, hpaths⟩ := List.forall_mem_cons.mp hpaths
    obtain ⟨hfirst, hplain⟩ := List.forall_mem_cons.mp hplain
    obtain ⟨hown, htidy⟩ := List.forall_mem_cons.mp htidy
    have hrun : fs.Same (r.run fs).files := Request.run_settled h hfirst hown
    exact hrun.trans (ih (h.same hrun) hpaths hplain htidy)

/-- After a run that succeeded, more runs with the same paths leave all files as they are, whether
they fail or succeed, as long as each can remove its temporary file. -/
theorem runs_repeatable (fs : FileSystem) (first : Request) (others : List Request)
    (hplain : ∀ r ∈ first :: others, ∀ name ∈ r.around.names, '/' ∉ name)
    (hpaths : ∀ r ∈ others, r.source = first.source ∧ r.target = first.target)
    (hapart : ∀ place, fs.resolve first.source = .ok place →
      fs.resolve first.target ≠ .ok place)
    (hsuccess : (first.run fs).succeeded = true)
    (htidy : ∀ entry ∈ history (first.run fs).files others, entry.2.Tidy entry.1) :
    (filesAfter (first.run fs).files others).working = (first.run fs).files.working ∧
      (∀ place, (filesAfter (first.run fs).files others).get? place =
        (first.run fs).files.get? place) ∧
      ∀ path, (filesAfter (first.run fs).files others).node? path =
        (first.run fs).files.node? path := by
  obtain ⟨hfirst, hothers⟩ := List.forall_mem_cons.mp hplain
  rcases @Request.run_cases first fs hfirst with
    ⟨-, text, page, goal, hreads, hrenders, hresolves, hfile, hholds⟩ | ⟨hfailed, -⟩
  · have hsettled := settled_of_becomes hreads hrenders hresolves hfile hholds hapart
    have hsame := same_filesAfter others hsettled hpaths hothers htidy
    exact ⟨hsame.working, hsame.get?, node?_congr hsame.working hsame.get?⟩
  · rw [hsuccess] at hfailed
    cases hfailed

/-- An empty changelog beside an empty directory. -/
def besideDocs : FileSystem :=
  ⟨[], [(["docs".toList], .directory), (["CHANGELOG.md".toList], .file 0o644 [])]⟩

/-- A run on paths with detours, with faults at the given calls. -/
def detour (faulty : List Call) (name : String) : Request :=
  ⟨⟨fun call => if faulty.contains call then some (.runtime []) else none, [name.toList]⟩,
    "docs/../CHANGELOG.md".toList, "./docs//changelog.html".toList⟩

/-- A run that cannot write, one without faults, and one that makes no page. -/
def mixedRuns : List Request :=
  [detour [.write] "b2", detour [] "c3", detour [.render, .discard] "d4"]

theorem runs_repeatable_mixedRuns :
    (∀ place, besideDocs.resolve (detour [] "a1").source = .ok place →
      besideDocs.resolve (detour [] "a1").target ≠ .ok place) ∧
    ((detour [] "a1").run besideDocs).succeeded = true ∧
    (history ((detour [] "a1").run besideDocs).files mixedRuns).map
      (fun entry => (entry.2.run entry.1).succeeded) = [false, true, false] ∧
    (filesAfter ((detour [] "a1").run besideDocs).files mixedRuns).working =
      ((detour [] "a1").run besideDocs).files.working ∧
    (∀ place, (filesAfter ((detour [] "a1").run besideDocs).files mixedRuns).get? place =
      ((detour [] "a1").run besideDocs).files.get? place) ∧
    ∀ path, (filesAfter ((detour [] "a1").run besideDocs).files mixedRuns).node? path =
      ((detour [] "a1").run besideDocs).files.node? path := by
  have hapart (place : Place) (_ : besideDocs.resolve (detour [] "a1").source = .ok place) :
      besideDocs.resolve (detour [] "a1").target ≠ .ok place := by
    have htarget : besideDocs.resolve (detour [] "a1").target = .error .missing := by rfl
    rw [htarget]
    exact nofun
  have hsuccess : ((detour [] "a1").run besideDocs).succeeded = true := by decide
  refine ⟨hapart, hsuccess, by decide, runs_repeatable besideDocs (detour [] "a1") mixedRuns
    (by decide) (by decide) hapart hsuccess ?_⟩
  intro entry hentry
  rcases List.mem_cons.mp hentry with rfl | hentry
  · exact nofun
  rcases List.mem_cons.mp hentry with rfl | hentry
  · exact nofun
  rcases List.mem_singleton.mp hentry with rfl
  -- The last run makes no calls on files, so its fault at the removal is not met.
  intro cause _ hm
  cases hm

end Changelog
