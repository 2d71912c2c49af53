import Changelog.Proofs.Files.Lasting
import Changelog.Proofs.Publish.Calls

/-!
# Whole runs

Between two calls the files are those that the run began with, but for the temporary file.  A run
comes to its end within the calls it may make: it put the fragment in the target's place, or it left
the files as they were, or its temporary file could not be removed and is all that was added.
-/

namespace Changelog

open FileSystem

/-- The failures that calls ended with, in their order. -/
def failures (calls : List (Call × Reply)) : List Failure :=
  calls.filterMap fun call =>
    match call.2 with
    | .failed cause => some cause
    | _ => none

theorem failures_concat (calls : List (Call × Reply)) (call : Call) (cause : Failure) :
    (failures (calls ++ [(call, .failed cause)])).getLast? = some cause := by
  rw [failures, List.filterMap_append]
  exact List.getLast?_concat

theorem failures_concat_done (calls : List (Call × Reply)) (call : Call) :
    failures (calls ++ [(call, .done)]) = failures calls := by
  rw [failures, List.filterMap_append]
  exact List.append_nil _

/-- Calls none of which removed the temporary file or moved it. -/
def Pending (calls : List (Call × Reply)) : Prop :=
  ∀ call ∈ calls, call.1 ≠ .discard ∧ call ≠ (.replace, .done)

theorem Pending.concat {calls : List (Call × Reply)} (h : Pending calls) {call : Call × Reply}
    (hd : call.1 ≠ .discard) (hr : call ≠ (.replace, .done)) : Pending (calls ++ [call]) := by
  intro other ho
  rcases List.mem_append.mp ho with ho | ho
  · exact h other ho
  · rw [List.mem_singleton.mp ho]
    exact ⟨hd, hr⟩

theorem Pending.not_replaced {calls : List (Call × Reply)} (h : Pending calls) :
    (Call.replace, Reply.done) ∉ calls :=
  fun hm => (h _ hm).2 rfl

theorem Pending.not_discarded {calls : List (Call × Reply)} (h : Pending calls) (reply : Reply) :
    (Call.discard, reply) ∉ calls :=
  fun hm => (h _ hm).1 rfl

theorem not_mem_concat {calls : List (Call × Reply)} {call other : Call × Reply}
    (h : other ∉ calls) (hne : other ≠ call) : other ∉ calls ++ [call] := by
  rw [List.mem_append, List.mem_singleton, not_or]
  exact ⟨h, hne⟩

namespace Job

/-- How a run that began with the files `fs` ended: the calls it made, the files it left, and its
failure. -/
inductive Ending (job : Job) (around : Surroundings) (fs : FileSystem) :
    List (Call × Reply) → FileSystem → Option Failure → Prop
  /-- The fragment is in the target's place. -/
  | replaced {calls : List (Call × Reply)} {now : FileSystem} {goal : Place}
      (done : (.replace, .done) ∈ calls) (kept : ∀ cause, (.discard, .failed cause) ∉ calls)
      (resolves : now.resolve job.target = .ok goal) (file : fs.isDirectory goal = false)
      (holds : fs.Becomes goal (some (.file pageMode (Utf8.encode job.fragment))) now) :
      Ending job around fs calls now none
  /-- Nothing was changed, or all was undone. -/
  | unchanged {calls : List (Call × Reply)} {now : FileSystem} {cause : Failure}
      (done : (.replace, .done) ∉ calls) (kept : ∀ cause, (.discard, .failed cause) ∉ calls)
      (last : (failures calls).getLast? = some cause) (working : now.working = fs.working)
      (same : ∀ place, now.get? place = fs.get? place) :
      Ending job around fs calls now (some cause)
  /-- The temporary file could not be removed. -/
  | left {calls : List (Call × Reply)} {now : FileSystem} {cause : Failure} {place : Place}
      {mode : Nat} {content : List UInt8}
      (done : (.replace, .done) ∉ calls) (kept : (.discard, .failed cause) ∈ calls)
      (last : (failures calls).getLast? = some cause) (owns : job.Owns around fs place)
      (holds : fs.Becomes place (some (.file mode content)) now) :
      Ending job around fs calls now (some cause)

/-- What holds between the calls of a run that began with the files `fs`. -/
def Stage (job : Job) (around : Surroundings) (fs : FileSystem) (calls : List (Call × Reply))
    (now : FileSystem) : Progress → Prop
  | .begun => calls = [] ∧ now = fs
  | .created temporary =>
    Pending calls ∧ job.Owns around fs temporary.place ∧
      ∃ mode content, fs.Becomes temporary.place (some (.file mode content)) now
  | .filled temporary =>
    Pending calls ∧ job.Owns around fs temporary.place ∧
      ∃ mode, fs.Becomes temporary.place (some (.file mode (Utf8.encode job.fragment))) now
  | .permitted temporary =>
    Pending calls ∧ job.Owns around fs temporary.place ∧
      fs.Becomes temporary.place (some (.file pageMode (Utf8.encode job.fragment))) now
  | .failing temporary cause =>
    Pending calls ∧ (failures calls).getLast? = some cause ∧
      job.Owns around fs temporary.place ∧
      ∃ mode content, fs.Becomes temporary.place (some (.file mode content)) now
  | .ended outcome => job.Ending around fs calls now outcome

/-- How many calls may come yet. -/
def remaining : Progress → Nat
  | .begun => 5
  | .created _ => 4
  | .filled _ => 3
  | .permitted _ => 2
  | .failing _ _ => 1
  | .ended _ => 0

variable {job : Job} {around : Surroundings} {fs now : FileSystem} {calls : List (Call × Reply)}

/-- A call that fails after the temporary file was made leads to its removal. -/
theorem stage_failed {temporary : Temporary} (call : Call) (cause : Failure)
    (hd : call ≠ .discard) (hp : Pending calls) (ho : job.Owns around fs temporary.place)
    (hb : ∃ mode content, fs.Becomes temporary.place (some (.file mode content)) now) :
    job.Stage around fs (calls ++ [(call, .failed cause)]) now (.failing temporary cause) := by
  refine ⟨hp.concat hd ?_, failures_concat calls call cause, ho, hb⟩
  intro he
  cases he

/-- The move of the finished file ends the run. -/
theorem ending_replaced {place : Place} {next : FileSystem} (hp : Pending calls)
    (ho : job.Owns around fs place)
    (hb : fs.Becomes place (some (.file pageMode (Utf8.encode job.fragment))) now)
    (hm : now.move place job.target = .ok next) :
    job.Ending around fs (calls ++ [(.replace, .done)]) next none := by
  obtain ⟨goal, hresolve, hdirectory, mid, hgone, hput⟩ := move_ok hb.there hm
  have hsame := (hb.trans hgone).get?_eq ho.free
  refine .replaced (List.mem_append_right _ (List.mem_singleton.mpr rfl)) ?_ hresolve ?_
    ⟨hput.working.trans (hgone.working.trans hb.working), hput.there, ?_⟩
  · intro cause
    exact not_mem_concat (hp.not_discarded _) (by simp)
  · by_cases hg : goal = place
    · rw [hg]
      exact isDirectory_eq_false ho.free (by simp)
    · rwa [← isDirectory_eq (hb.apart goal hg)]
  · intro other hother
    rw [hput.apart other hother]
    exact hsame other

/-- One call leads from each stage of a run to a later one. -/
theorem stage_step (hplain : ∀ name ∈ around.names, '/' ∉ name) (progress : Progress)
    (h : job.Stage around fs calls now progress) :
    job.Stage around fs (calls ++ job.made around (now, progress))
        (job.step around (now, progress)).1 (job.step around (now, progress)).2 ∧
      remaining (job.step around (now, progress)).2 ≤ remaining progress - 1 := by
  cases progress with
  | begun =>
    obtain ⟨rfl, rfl⟩ := h
    rw [step_eq around _ .create rfl, made_eq around _ .create rfl]
    rcases answer_begun hplain with ⟨cause, ha⟩ | ⟨temporary, next, ha, ho, hb⟩
    · rw [ha]
      refine ⟨.unchanged (by simp) (by simp) (failures_concat [] .create cause) rfl
        (fun _ => rfl), Nat.zero_le _⟩
    · rw [ha]
      refine ⟨⟨?_, ho, _, _, hb⟩, Nat.le_refl _⟩
      intro call hcall
      cases List.mem_singleton.mp hcall
      exact ⟨by simp, by simp⟩
  | created temporary =>
    obtain ⟨hp, ho, mode, content, hb⟩ := h
    rw [step_eq around _ .write rfl, made_eq around _ .write rfl]
    rcases answer_created job around now temporary with
      ⟨cause, ha⟩ | ⟨next, ha, mode', old, -, hn⟩
    · rw [ha]
      exact ⟨stage_failed .write cause (by simp) hp ho ⟨_, _, hb⟩,
        by simp [remaining, Progress.after]⟩
    · rw [ha]
      exact ⟨⟨hp.concat (by simp) (by simp), ho, mode', hb.trans hn⟩, Nat.le_refl _⟩
  | filled temporary =>
    obtain ⟨hp, ho, mode, hb⟩ := h
    rw [step_eq around _ .permit rfl, made_eq around _ .permit rfl]
    rcases answer_filled job around now temporary with
      ⟨cause, ha⟩ | ⟨next, ha, old, content, hold, hn⟩
    · rw [ha]
      exact ⟨stage_failed .permit cause (by simp) hp ho ⟨_, _, hb⟩,
        by simp [remaining, Progress.after]⟩
    · rw [ha]
      rw [hb.there] at hold
      cases hold
      exact ⟨⟨hp.concat (by simp) (by simp), ho, hb.trans hn⟩, Nat.le_refl _⟩
  | permitted temporary =>
    obtain ⟨hp, ho, hb⟩ := h
    rw [step_eq around _ .replace rfl, made_eq around _ .replace rfl]
    rcases answer_permitted job around now temporary with
      ⟨cause, ha⟩ | ⟨next, ha, hm⟩
    · rw [ha]
      exact ⟨stage_failed .replace cause (by simp) hp ho ⟨_, _, hb⟩, Nat.le_refl _⟩
    · rw [ha]
      exact ⟨ending_replaced hp ho hb hm, Nat.zero_le _⟩
  | failing temporary cause =>
    obtain ⟨hp, hl, ho, mode, content, hb⟩ := h
    rw [step_eq around _ .discard rfl, made_eq around _ .discard rfl]
    rcases answer_failing job around now temporary cause with
      ⟨cause', ha⟩ | ⟨next, ha, hn⟩
    · rw [ha]
      refine ⟨.left (not_mem_concat hp.not_replaced (by simp))
        (List.mem_append_right _ (List.mem_singleton.mpr rfl))
        (failures_concat calls .discard cause') ho hb, Nat.le_refl _⟩
    · rw [ha]
      have hgone := hb.trans hn
      refine ⟨.unchanged (not_mem_concat hp.not_replaced (by simp)) ?_ ?_ hgone.working
        (hgone.get?_eq ho.free), Nat.le_refl _⟩
      · intro cause'
        exact not_mem_concat (hp.not_discarded _) (by simp)
      · rw [failures_concat_done]
        exact hl
  | ended outcome =>
    have hstep : job.step around (now, .ended outcome) = (now, .ended outcome) := rfl
    have hmade : job.made around (now, .ended outcome) = [] := rfl
    rw [hstep, hmade, List.append_nil]
    exact ⟨h, Nat.zero_le _⟩

/-- So many calls lead to a stage from which fewer calls may come. -/
theorem stage_steps (hplain : ∀ name ∈ around.names, '/' ∉ name) (n : Nat)
    (state : FileSystem × Progress) (calls : List (Call × Reply)) (h : job.Stage around fs calls state.1 state.2) :
    job.Stage around fs (calls ++ job.calls around n state) (job.steps around n state).1
        (job.steps around n state).2 ∧
      remaining (job.steps around n state).2 ≤ remaining state.2 - n := by
  induction n generalizing state calls with
  | zero =>
    rw [Job.calls, List.append_nil]
    exact ⟨h, Nat.le_refl _⟩
  | succ n ih =>
    obtain ⟨now, progress⟩ := state
    have hnow : job.Stage around fs calls now progress := h
    obtain ⟨hstage, hfewer⟩ := stage_step hplain progress hnow
    obtain ⟨hsteps, hrest⟩ := ih (job.step around (now, progress)) _ hstage
    rw [List.append_assoc] at hsteps
    refine ⟨hsteps, Nat.le_trans hrest ?_⟩
    show _ ≤ remaining progress - (n + 1)
    omega

/-- A temporary file is there to be removed, so only a fault keeps it from being removed. -/
theorem discard_failed (hplain : ∀ name ∈ around.names, '/' ∉ name) (n : Nat)
    (state : FileSystem × Progress) (calls : List (Call × Reply)) {cause : Failure}
    (h : job.Stage around fs calls state.1 state.2)
    (hm : (.discard, .failed cause) ∈ job.calls around n state) :
    around.faults .discard = some cause := by
  induction n generalizing state calls with
  | zero => cases hm
  | succ n ih =>
    obtain ⟨now, progress⟩ := state
    rcases List.mem_append.mp hm with hm | hm
    · cases hc : progress.call? with
      | none =>
        have hmade : job.made around (now, progress) = [] := by
          unfold made
          rw [hc]
        rw [hmade] at hm
        cases hm
      | some call =>
        rw [made_eq around _ call hc] at hm
        obtain ⟨rfl, hreply⟩ := Prod.mk.inj (List.mem_singleton.mp hm)
        cases progress with
        | failing temporary first =>
          obtain ⟨-, -, -, mode, content, hb⟩ := h
          unfold answer at hreply
          cases hf : around.faults .discard with
          | some other =>
            rw [hf] at hreply
            cases hreply
            rfl
          | none =>
            rw [hf] at hreply
            unfold perform eraseFile at hreply
            dsimp only at hreply
            rw [hb.there] at hreply
            cases hreply
        | begun => cases hc
        | created temporary => cases hc
        | filled temporary => cases hc
        | permitted temporary => cases hc
        | ended outcome => cases hc
    · exact ih _ _ (stage_step hplain progress h).1 hm

/-- Every run ends, in one of the three ways. -/
theorem run_ending (hplain : ∀ name ∈ around.names, '/' ∉ name) :
    job.Ending around fs (job.calls around callLimit (fs, .begun)) (job.run around fs).1
      (job.run around fs).2 := by
  obtain ⟨hstage, hrest⟩ := stage_steps hplain callLimit (fs, .begun) [] ⟨rfl, rfl⟩
  rw [List.nil_append] at hstage
  unfold run
  dsimp only
  generalize job.steps around callLimit (fs, .begun) = final at hstage hrest
  obtain ⟨now, progress⟩ := final
  have hend : remaining progress = 0 := Nat.le_zero.mp hrest
  cases progress with
  | ended outcome => exact hstage
  | begun => cases hend
  | created temporary => cases hend
  | filled temporary => cases hend
  | permitted temporary => cases hend
  | failing temporary cause => cases hend

end Job

end Changelog
