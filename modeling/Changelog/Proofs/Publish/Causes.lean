import Changelog.Proofs.Publish.Phases

/-!
# The cause that is told

The cause that a failed run tells is the failure of its first phase that fails, or that of the
removal of the temporary file after it.  Whatever faults there are at calls that the run does not
get to, its result, its log and the files it leaves are the same.
-/

namespace Changelog.Request

variable {r : Request} {held : Held} {fs : FileSystem} {phase : Phase}
variable {faults : Call → Option Failure}

theorem mem_of_through {phases : List Phase} {cause : Failure}
    (h : (r.through phases held).2 = some (phase, cause)) : phase ∈ phases := by
  induction phases generalizing held with
  | nil => cases h
  | cons first later ih =>
    cases ha : r.attempt held first with
    | error other =>
      rw [through_of_error ha] at h
      cases h
      exact List.mem_cons_self
    | ok next =>
      rw [through_of_ok ha] at h
      exact List.mem_cons_of_mem first (ih h)

theorem attemptCall_withFaults {call : Call} (h : faults call = r.around.faults call) :
    (r.withFaults faults).attemptCall held call = r.attemptCall held call := by
  have ha : Job.answer ⟨r.target, held.page⟩ (r.withFaults faults).around
      (held.files, held.progress) call =
      Job.answer ⟨r.target, held.page⟩ r.around (held.files, held.progress) call := by
    unfold Job.answer withFaults
    dsimp only
    rw [h]
  unfold attemptCall
  rw [show (r.withFaults faults).target = r.target from rfl, ha]

/-- Only a fault at its own call makes a difference to a phase. -/
theorem attempt_withFaults
    (h : ∀ call, call.phase? = some phase → faults call = r.around.faults call) :
    (r.withFaults faults).attempt held phase = r.attempt held phase := by
  cases phase with
  | load => rfl
  | decode => rfl
  | render =>
    have hr : renderFor (r.withFaults faults).around held.text = renderFor r.around held.text := by
      unfold renderFor withFaults
      dsimp only
      rw [h .render rfl]
    unfold attempt
    rw [hr]
  | create => exact attemptCall_withFaults (h .create rfl)
  | write => exact attemptCall_withFaults (h .write rfl)
  | permit => exact attemptCall_withFaults (h .permit rfl)
  | replace => exact attemptCall_withFaults (h .replace rfl)

/-- Faults in phases after the first that fails make no difference. -/
theorem through_withFaults {phases : List Phase}
    (hsorted : phases.Pairwise fun a b => a.rank < b.rank)
    (h : ∀ call phase, call.phase? = some phase →
      (∀ failed ∈ (r.through phases held).2, phase.rank ≤ failed.1.rank) →
      faults call = r.around.faults call) :
    (r.withFaults faults).through phases held = r.through phases held := by
  induction phases generalizing held with
  | nil => rfl
  | cons phase later ih =>
    obtain ⟨hfirst, hlater⟩ := List.pairwise_cons.mp hsorted
    have hattempt : (r.withFaults faults).attempt held phase = r.attempt held phase := by
      refine attempt_withFaults fun call hcall => h call phase hcall ?_
      rintro ⟨failed, cause⟩ hfailed
      rcases List.mem_cons.mp (mem_of_through hfailed) with rfl | hmem
      · exact Nat.le_refl _
      · exact Nat.le_of_lt (hfirst failed hmem)
    cases ha : r.attempt held phase with
    | error cause => rw [through_of_error ha, through_of_error (hattempt.trans ha)]
    | ok next =>
      rw [through_of_ok ha] at h ⊢
      rw [through_of_ok (hattempt.trans ha)]
      exact ih hlater h

theorem concluded_withFaults {ended : Held × Option (Phase × Failure)}
    (h : ∀ failed ∈ ended.2, failed.1.afterCreate = true →
      faults .discard = r.around.faults .discard) :
    (r.withFaults faults).concluded ended = r.concluded ended := by
  obtain ⟨held, failed⟩ := ended
  cases failed with
  | none => rfl
  | some failed =>
    obtain ⟨phase, cause⟩ := failed
    cases hp : phase.afterCreate with
    | false => rw [concluded_of_before hp, concluded_of_before hp]
    | true =>
      have hdiscard : (r.withFaults faults).around.faults .discard = r.around.faults .discard :=
        h (phase, cause) rfl hp
      unfold concluded told
      rw [hdiscard]

theorem pairwise_all : Phase.all.Pairwise fun a b => a.rank < b.rank := by
  decide

/-- Faults at calls that a run does not get to make no difference to it. -/
theorem run_withFaults (h : ∀ call, r.Reaches fs call → faults call = r.around.faults call) :
    (r.withFaults faults).run fs = r.run fs := by
  have hthrough : (r.withFaults faults).through Phase.all (.start fs) =
      r.through Phase.all (.start fs) := by
    refine through_withFaults pairwise_all fun call phase hcall hbefore => h call ?_
    unfold Reaches
    rw [hcall]
    exact hbefore
  have hconcluded : (r.withFaults faults).concluded (r.through Phase.all (.start fs)) =
      r.concluded (r.through Phase.all (.start fs)) :=
    concluded_withFaults fun failed hfailed hp => h .discard ⟨failed, hfailed, hp⟩
  rw [run_eq_reportOf, run_eq_reportOf, hthrough]
  unfold reportOf
  rw [hconcluded]
  rfl

theorem run_of_earliest_none (h : r.earliest fs = none) :
    (r.run fs).succeeded = true ∧ (r.run fs).log = [Record.written r.target] := by
  unfold earliest at h
  rw [run_eq_reportOf]
  generalize r.through Phase.all (.start fs) = ended at h ⊢
  obtain ⟨held, failed⟩ := ended
  cases h
  exact ⟨rfl, rfl⟩

theorem run_of_earliest_some {cause : Failure} (h : r.earliest fs = some (phase, cause)) :
    (r.run fs).succeeded = false ∧
      (r.run fs).log = [Record.failed r.source (r.told phase cause)] := by
  unfold earliest at h
  rw [run_eq_reportOf]
  generalize r.through Phase.all (.start fs) = ended at h ⊢
  obtain ⟨held, failed⟩ := ended
  cases h
  have hconcluded : (r.concluded (held, some (phase, cause))).2 = some (r.told phase cause) := by
    unfold concluded
    dsimp only
    split
    · rfl
    · rfl
  unfold reportOf
  rw [hconcluded]
  exact ⟨rfl, rfl⟩

theorem told_eq (r : Request) (phase : Phase) (cause : Failure) :
    r.told phase cause =
      if phase = .write ∨ phase = .permit ∨ phase = .replace then
        (r.around.faults .discard).getD cause
      else cause := by
  cases phase with
  | load => rfl
  | decode => rfl
  | render => rfl
  | create => rfl
  | write => rfl
  | permit => rfl
  | replace => rfl

/-- A run fails when one of its phases does, and tells the failure of the first that does.  If the
temporary file is there by then and its removal fails as well, that failure is told instead.  Other
faults at calls that the run does not get to leave its report and the files as they are; so does a
fault at the removal when the run succeeds. -/
theorem tells_earliest (r : Request) (fs : FileSystem) :
    ((r.run fs).succeeded = true ↔ r.earliest fs = none) ∧
      (∀ phase cause, r.earliest fs = some (phase, cause) →
        ∃ record, (r.run fs).log = [record] ∧ record.level = .error ∧
          record.cause = some (if phase = .write ∨ phase = .permit ∨ phase = .replace then
            (r.around.faults .discard).getD cause
          else cause)) ∧
      (∀ faults, (∀ call, r.Reaches fs call → faults call = r.around.faults call) →
        (r.withFaults faults).run fs = r.run fs) ∧
      ∀ faults, (∀ call, call ≠ .discard → faults call = r.around.faults call) →
        (r.run fs).succeeded = true → (r.withFaults faults).run fs = r.run fs := by
  have hnone : (r.run fs).succeeded = true ↔ r.earliest fs = none := by
    refine ⟨fun hs => ?_, fun h => (run_of_earliest_none h).1⟩
    cases he : r.earliest fs with
    | none => rfl
    | some failed =>
      rw [(run_of_earliest_some he).1] at hs
      cases hs
  refine ⟨hnone, fun phase cause he => ?_, fun faults h => run_withFaults h, ?_⟩
  · rw [(run_of_earliest_some he).2, told_eq]
    exact ⟨_, rfl, rfl, rfl⟩
  · intro faults h hs
    refine run_withFaults fun call hcall => h call ?_
    rintro rfl
    -- A run that succeeds does not get to the removal.
    obtain ⟨failed, hfailed, -⟩ := hcall
    rw [hnone.mp hs] at hfailed
    cases hfailed

/-- A run that can neither write its temporary file nor remove it, with one more fault at a call
that it does not get to. -/
def twiceFailing : Request :=
  let fails : Call → Option Failure
    | .write => some (.runtime "full".toList)
    | .discard => some (.runtime "busy".toList)
    | .replace => some (.runtime "gone".toList)
    | _ => none
  ⟨⟨fails, ["k3x9".toList]⟩, "CHANGELOG.md".toList, "changelog.html".toList⟩

/-- The same without the fault that it does not get to. -/
def twiceFailingOnly (call : Call) : Option Failure :=
  if call = .replace then none else twiceFailing.around.faults call

theorem tells_earliest_twiceFailing :
    twiceFailing.earliest emptyChangelog = some (.write, .runtime "full".toList) ∧
      (twiceFailing.run emptyChangelog).log.map (fun record => (record.level, record.cause)) =
        [(.error, some (.runtime "busy".toList))] ∧
      (twiceFailing.withFaults twiceFailingOnly).run emptyChangelog =
        twiceFailing.run emptyChangelog := by
  have hearliest : twiceFailing.earliest emptyChangelog =
      some (.write, .runtime "full".toList) := by
    decide
  obtain ⟨-, hlog, hfaults, -⟩ := tells_earliest twiceFailing emptyChangelog
  obtain ⟨record, hrecord, hlevel, hcause⟩ := hlog _ _ hearliest
  refine ⟨hearliest, ?_, hfaults twiceFailingOnly fun call hreached => ?_⟩
  · rw [hrecord, List.map_singleton, hlevel, hcause]
    rfl
  have hne : call ≠ .replace := by
    rintro rfl
    exact absurd (hreached _ hearliest) (by decide)
  exact if_neg hne

end Changelog.Request
