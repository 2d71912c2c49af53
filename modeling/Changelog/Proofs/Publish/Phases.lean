import Changelog.Proofs.Publish.Contract
import Changelog.Proofs.Publish.Sources

/-!
# The phases of a run

A run goes through seven phases, and the first that fails ends it.  If the temporary file is there
by then it is removed, and a failure to do so takes the place of the first one.  Faults at calls
that a run does not get to make no difference.
-/

namespace Changelog

open FileSystem

/-- The parts of a run that can fail, apart from the removal of the temporary file. -/
inductive Phase
  | load
  | decode
  | render
  | create
  | write
  | permit
  | replace
  deriving DecidableEq

namespace Phase

/-- The phases in their order. -/
def all : List Phase :=
  [.load, .decode, .render, .create, .write, .permit, .replace]

def rank (phase : Phase) : Nat :=
  all.idxOf phase

/-- Whether the temporary file is there when the phase begins. -/
def afterCreate (phase : Phase) : Bool :=
  Phase.create.rank < phase.rank

end Phase

/-- The phase that a call is made in; the removal of the temporary file is in none. -/
def Call.phase? : Call → Option Phase
  | .render => some .render
  | .create => some .create
  | .write => some .write
  | .permit => some .permit
  | .replace => some .replace
  | .discard => none

/-- The phases that are still to come. -/
def Progress.due : Progress → List Phase
  | .begun => [.create, .write, .permit, .replace]
  | .created _ => [.write, .permit, .replace]
  | .filled _ => [.permit, .replace]
  | .permitted _ => [.replace]
  | .failing _ _ | .ended _ => []

/-- What a run has at hand between two phases. -/
structure Held where
  files : FileSystem
  bytes : List UInt8
  text : Text
  page : Text
  progress : Progress

namespace Held

def start (fs : FileSystem) : Held :=
  ⟨fs, [], [], [], .begun⟩

/-- The files without the temporary file. -/
def withoutTemporary (held : Held) : FileSystem :=
  match held.progress.temporary? with
  | some temporary => held.files.erase temporary.place
  | none => held.files

/-- The temporary file, if it was made, is there. -/
def Sound (held : Held) : Prop :=
  ∀ temporary, held.progress.temporary? = some temporary →
    ∃ mode content, held.files.get? temporary.place = some (.file mode content)

end Held

namespace Request

/-- The next call on files: what the run has at hand after it, or its failure. -/
def attemptCall (r : Request) (held : Held) (call : Call) : Except Failure Held :=
  match Job.answer ⟨r.target, held.page⟩ r.around (held.files, held.progress) call with
  | (_, .failed cause) => .error cause
  | (files, reply) => .ok { held with files := files, progress := held.progress.after reply }

/-- A phase of the run: what the run has at hand after it, or its failure. -/
def attempt (r : Request) (held : Held) : Phase → Except Failure Held
  | .load => (loadSource held.files r.source).map fun bytes => { held with bytes := bytes }
  | .decode => (decodeSource held.bytes).map fun text => { held with text := text }
  | .render => (renderFor r.around held.text).map fun page => { held with page := page }
  | .create => r.attemptCall held .create
  | .write => r.attemptCall held .write
  | .permit => r.attemptCall held .permit
  | .replace => r.attemptCall held .replace

/-- Phases one after the other up to the first that fails; with its failure comes what the run had
at hand before it. -/
def through (r : Request) : List Phase → Held → Held × Option (Phase × Failure)
  | [], held => (held, none)
  | phase :: later, held =>
    match r.attempt held phase with
    | .error cause => (held, some (phase, cause))
    | .ok next => r.through later next

/-- The first phase of the run that fails, and its failure. -/
def earliest (r : Request) (fs : FileSystem) : Option (Phase × Failure) :=
  (r.through Phase.all (.start fs)).2

/-- The failure that is told when a phase has failed. -/
def told (r : Request) (phase : Phase) (cause : Failure) : Failure :=
  if phase.afterCreate then (r.around.faults .discard).getD cause else cause

/-- The files that are left, and the failure that is told. -/
def concluded (r : Request) : Held × Option (Phase × Failure) → FileSystem × Option Failure
  | (held, none) => (held.files, none)
  | (held, some (phase, cause)) =>
    if phase.afterCreate && (r.around.faults .discard).isNone then
      (held.withoutTemporary, some (r.told phase cause))
    else (held.files, some (r.told phase cause))

/-- The run gets to a call: no phase before that of the call fails, or, where the temporary file is
to be removed, a phase fails while it is there. -/
def Reaches (r : Request) (fs : FileSystem) (call : Call) : Prop :=
  match call.phase? with
  | some phase => ∀ failed ∈ r.earliest fs, phase.rank ≤ failed.1.rank
  | none => ∃ failed ∈ r.earliest fs, failed.1.afterCreate = true

/-- The same run with other faults. -/
def withFaults (r : Request) (faults : Call → Option Failure) : Request :=
  { r with around := { r.around with faults := faults } }

variable {r : Request} {held next : Held} {fs : FileSystem} {phase : Phase} {later : List Phase}

/-! ### Calls and phases -/

theorem createFirst_file (fs : FileSystem) (directory : Text) (names : List Text) :
    (∃ cause, Job.createFirst fs directory names = (fs, .failed cause)) ∨
      ∃ temporary now, Job.createFirst fs directory names = (now, .created temporary) ∧
        now.get? temporary.place = some (.file 0o600 []) := by
  rcases Job.createFirst_cases fs directory names with h | ⟨_, _, place, now, hcreate, h⟩
  · exact Or.inl h
  · obtain ⟨_, _, _, _, _, hnow⟩ := create_ok hcreate
    exact Or.inr ⟨_, now, h, hnow.there⟩

theorem answer_file (job : Job) (around : Surroundings) (fs : FileSystem) :
    (∃ cause, job.answer around (fs, .begun) .create = (fs, .failed cause)) ∨
      ∃ temporary now, job.answer around (fs, .begun) .create = (now, .created temporary) ∧
        now.get? temporary.place = some (.file 0o600 []) := by
  unfold Job.answer
  cases around.faults .create with
  | some cause => exact Or.inl ⟨cause, rfl⟩
  | none =>
    unfold Job.perform
    dsimp only
    split
    · exact Or.inl ⟨_, rfl⟩
    · exact createFirst_file fs (job.directory fs) around.names

section Calls

variable {progress : Progress} {call : Call}

theorem attempt_failed {cause : Failure} (hp : held.progress = progress)
    (hc : progress.call? = some call)
    (ha : Job.answer ⟨r.target, held.page⟩ r.around (held.files, progress) call =
      (held.files, .failed cause)) :
    r.attemptCall held call = .error cause ∧
      Job.step ⟨r.target, held.page⟩ r.around (held.files, held.progress) =
        (held.files, held.progress.after (.failed cause)) := by
  subst hp
  rw [attemptCall, Job.step_eq r.around _ call hc, ha]
  exact ⟨rfl, rfl⟩

theorem attempt_done {now : FileSystem} {reply : Reply} (hp : held.progress = progress)
    (hc : progress.call? = some call)
    (ha : Job.answer ⟨r.target, held.page⟩ r.around (held.files, progress) call = (now, reply))
    (hr : ∀ cause, reply ≠ .failed cause) :
    r.attemptCall held call = .ok { held with files := now, progress := progress.after reply } ∧
      Job.step ⟨r.target, held.page⟩ r.around (held.files, held.progress) =
        (now, progress.after reply) := by
  subst hp
  rw [attemptCall, Job.step_eq r.around _ call hc, ha]
  cases reply with
  | created temporary => exact ⟨rfl, rfl⟩
  | done => exact ⟨rfl, rfl⟩
  | failed cause => exact absurd rfl (hr cause)

end Calls

/-- What a phase that is due does: it fails and leaves the files as they are, or it leads to the
phases after it. -/
def Advances (r : Request) (held : Held) (phase : Phase) (later : List Phase) : Prop :=
  (∃ cause, r.attempt held phase = .error cause ∧
    Job.step ⟨r.target, held.page⟩ r.around (held.files, held.progress) =
      (held.files, held.progress.after (.failed cause))) ∨
  ∃ next, r.attempt held phase = .ok next ∧
    Job.step ⟨r.target, held.page⟩ r.around (held.files, held.progress) =
      (next.files, next.progress) ∧
    next.page = held.page ∧ next.Sound ∧ next.progress.due = later ∧
    (later = [] → next.progress = .ended none)

theorem sound_of_file {temporary : Temporary} {mode : Nat} {content : List UInt8}
    (ht : held.progress.temporary? = some temporary)
    (hf : held.files.get? temporary.place = some (.file mode content)) : held.Sound := by
  intro other ho
  rw [ht] at ho
  cases ho
  exact ⟨mode, content, hf⟩

theorem advances_of_due (hd : held.progress.due = phase :: later) :
    r.Advances held phase later := by
  have hreply (temporary : Temporary) (cause : Failure) :
      Reply.created temporary ≠ .failed cause := nofun
  have hdone (cause : Failure) : Reply.done ≠ .failed cause := nofun
  cases hp : held.progress with
  | begun =>
    rw [hp] at hd
    cases hd
    rcases answer_file ⟨r.target, held.page⟩ r.around held.files with
      ⟨cause, ha⟩ | ⟨temporary, now, ha, hfile⟩
    · exact Or.inl ⟨cause, attempt_failed hp rfl ha⟩
    · obtain ⟨hattempt, hstep⟩ := attempt_done hp rfl ha (hreply temporary)
      exact Or.inr ⟨_, hattempt, hstep, rfl, sound_of_file rfl hfile, rfl, nofun⟩
  | created temporary =>
    rw [hp] at hd
    cases hd
    rcases Job.answer_created ⟨r.target, held.page⟩ r.around held.files temporary with
      ⟨cause, ha⟩ | ⟨now, ha, _, _, _, hnow⟩
    · exact Or.inl ⟨cause, attempt_failed hp rfl ha⟩
    · obtain ⟨hattempt, hstep⟩ := attempt_done hp rfl ha hdone
      exact Or.inr ⟨_, hattempt, hstep, rfl, sound_of_file rfl hnow.there, rfl, nofun⟩
  | filled temporary =>
    rw [hp] at hd
    cases hd
    rcases Job.answer_filled ⟨r.target, held.page⟩ r.around held.files temporary with
      ⟨cause, ha⟩ | ⟨now, ha, _, _, _, hnow⟩
    · exact Or.inl ⟨cause, attempt_failed hp rfl ha⟩
    · obtain ⟨hattempt, hstep⟩ := attempt_done hp rfl ha hdone
      exact Or.inr ⟨_, hattempt, hstep, rfl, sound_of_file rfl hnow.there, rfl, nofun⟩
  | permitted temporary =>
    rw [hp] at hd
    cases hd
    rcases Job.answer_permitted ⟨r.target, held.page⟩ r.around held.files temporary with
      ⟨cause, ha⟩ | ⟨now, ha, _⟩
    · exact Or.inl ⟨cause, attempt_failed hp rfl ha⟩
    · obtain ⟨hattempt, hstep⟩ := attempt_done hp rfl ha hdone
      exact Or.inr ⟨_, hattempt, hstep, rfl, nofun, rfl, fun _ => rfl⟩
  | failing temporary cause =>
    rw [hp] at hd
    cases hd
  | ended outcome =>
    rw [hp] at hd
    cases hd

/-! ### After a failure -/

theorem steps_ended (job : Job) (around : Surroundings) (n : Nat) (files : FileSystem)
    (outcome : Option Failure) :
    job.steps around n (files, .ended outcome) = (files, .ended outcome) := by
  induction n with
  | zero => rfl
  | succ n ih => exact ih

/-- A temporary file that is there is removed, or the failure to do so is told. -/
theorem steps_failing (job : Job) (around : Surroundings) (n : Nat) {temporary : Temporary}
    {mode : Nat} {content : List UInt8} (cause : Failure)
    (hf : fs.get? temporary.place = some (.file mode content)) :
    job.steps around (n + 1) (fs, .failing temporary cause) =
      (if (around.faults .discard).isNone then fs.erase temporary.place else fs,
        .ended (some ((around.faults .discard).getD cause))) := by
  have hstep : job.step around (fs, .failing temporary cause) =
      (if (around.faults .discard).isNone then fs.erase temporary.place else fs,
        .ended (some ((around.faults .discard).getD cause))) := by
    rw [Job.step_eq around _ .discard rfl]
    unfold Job.answer
    cases around.faults .discard with
    | some second => rfl
    | none =>
      unfold Job.perform eraseFile
      dsimp only
      rw [hf]
      rfl
  show job.steps around n (job.step around (fs, .failing temporary cause)) = _
  rw [hstep, steps_ended]

theorem concluded_of_temporary {temporary : Temporary}
    (ht : held.progress.temporary? = some temporary) (hp : phase.afterCreate = true)
    (cause : Failure) :
    r.concluded (held, some (phase, cause)) =
      (if (r.around.faults .discard).isNone then held.files.erase temporary.place else held.files,
        some ((r.around.faults .discard).getD cause)) := by
  unfold concluded told Held.withoutTemporary
  dsimp only
  rw [hp, ht]
  cases r.around.faults .discard with
  | some second => rfl
  | none => rfl

/-- Where a phase that is due may fail: before there is a temporary file, or while it is there. -/
theorem due_cases {progress : Progress} (cause : Failure) (hd : progress.due = phase :: later) :
    (phase.afterCreate = false ∧ progress.after (.failed cause) = .ended (some cause)) ∨
      ∃ temporary, phase.afterCreate = true ∧ progress.temporary? = some temporary ∧
        progress.after (.failed cause) = .failing temporary cause := by
  cases progress with
  | begun =>
    cases hd
    exact Or.inl ⟨rfl, rfl⟩
  | created temporary =>
    cases hd
    exact Or.inr ⟨temporary, rfl, rfl, rfl⟩
  | filled temporary =>
    cases hd
    exact Or.inr ⟨temporary, rfl, rfl, rfl⟩
  | permitted temporary =>
    cases hd
    exact Or.inr ⟨temporary, rfl, rfl, rfl⟩
  | failing temporary cause => cases hd
  | ended outcome => cases hd

theorem concluded_of_before (hp : phase.afterCreate = false) (cause : Failure) :
    r.concluded (held, some (phase, cause)) = (held.files, some cause) := by
  unfold concluded told
  dsimp only
  rw [hp]
  rfl

/-- The calls that are left after a failed phase bring the run to its end. -/
theorem steps_of_failed (cause : Failure) (n : Nat) (hs : held.Sound)
    (hd : held.progress.due = phase :: later) :
    Job.steps ⟨r.target, held.page⟩ r.around (n + 1)
        (held.files, held.progress.after (.failed cause)) =
      ((r.concluded (held, some (phase, cause))).1,
        .ended (r.concluded (held, some (phase, cause))).2) := by
  rcases due_cases cause hd with ⟨hp, ha⟩ | ⟨temporary, hp, ht, ha⟩
  · rw [ha, steps_ended, concluded_of_before hp]
  · obtain ⟨mode, content, hf⟩ := hs temporary ht
    rw [ha, steps_failing _ _ n cause hf, concluded_of_temporary ht hp]

/-- The calls of a run are the phases that are due, up to the first that fails, and what follows a
failure. -/
theorem steps_through (phases : List Phase) (held : Held) (n : Nat) (hs : held.Sound)
    (hd : held.progress.due = phases) (hend : phases = [] → held.progress = .ended none)
    (hn : phases.length < n) :
    Job.steps ⟨r.target, held.page⟩ r.around n (held.files, held.progress) =
      ((r.concluded (r.through phases held)).1,
        .ended (r.concluded (r.through phases held)).2) := by
  induction phases generalizing held n with
  | nil =>
    rw [hend rfl, steps_ended]
    rfl
  | cons phase later ih =>
    obtain ⟨n, rfl⟩ := Nat.exists_eq_succ_of_ne_zero (Nat.ne_zero_of_lt hn)
    rw [List.length_cons] at hn
    show Job.steps _ r.around n (Job.step _ r.around (held.files, held.progress)) = _
    unfold through
    rcases advances_of_due hd with
      ⟨cause, hattempt, hstep⟩ | ⟨next, hattempt, hstep, hpage, hsound, hdue, hlast⟩
    · obtain ⟨m, rfl⟩ : ∃ m, n = m + 1 := ⟨n - 1, by omega⟩
      rw [hattempt, hstep]
      exact steps_of_failed cause m hs hd
    · rw [hattempt, hstep, ← hpage]
      exact ih next n hsound hdue hlast (Nat.lt_of_succ_lt_succ hn)

/-! ### Whole runs -/

theorem through_of_error {cause : Failure} (h : r.attempt held phase = .error cause) :
    r.through (phase :: later) held = (held, some (phase, cause)) := by
  rw [through, h]

theorem through_of_ok (h : r.attempt held phase = .ok next) :
    r.through (phase :: later) held = r.through later next := by
  rw [through, h]

/-- The report of a run, by the phases gone through. -/
def reportOf (r : Request) (ended : Held × Option (Phase × Failure)) : Report :=
  ⟨(r.concluded ended).1, (r.concluded ended).2.isNone,
    [Record.ofOutcome r.source r.target (r.concluded ended).2]⟩

/-- A run is its phases up to the first that fails. -/
theorem run_eq_reportOf (r : Request) (fs : FileSystem) :
    r.run fs = r.reportOf (r.through Phase.all (.start fs)) := by
  have hpage : pageOf r.around fs r.source =
      (loadSource fs r.source >>= decodeSource) >>= renderFor r.around := by
    rw [← readSource_eq_bind]
    rfl
  unfold Phase.all
  cases hload : loadSource fs r.source with
  | error cause =>
    have hphase : r.attempt (.start fs) .load = .error cause := congrArg (Except.map _) hload
    rw [hload] at hpage
    rw [through_of_error hphase, run_of_error hpage]
    rfl
  | ok bytes =>
    have hphase : r.attempt (.start fs) .load = .ok ⟨fs, bytes, [], [], .begun⟩ :=
      congrArg (Except.map _) hload
    rw [hload] at hpage
    rw [through_of_ok hphase]
    replace hpage : pageOf r.around fs r.source = decodeSource bytes >>= renderFor r.around := hpage
    cases hdecode : decodeSource bytes with
    | error cause =>
      have hphase : r.attempt ⟨fs, bytes, [], [], .begun⟩ .decode = .error cause :=
        congrArg (Except.map _) hdecode
      rw [hdecode] at hpage
      rw [through_of_error hphase, run_of_error hpage]
      rfl
    | ok text =>
      have hphase : r.attempt ⟨fs, bytes, [], [], .begun⟩ .decode =
          .ok ⟨fs, bytes, text, [], .begun⟩ := congrArg (Except.map _) hdecode
      rw [hdecode] at hpage
      rw [through_of_ok hphase]
      replace hpage : pageOf r.around fs r.source = renderFor r.around text := hpage
      cases hrender : renderFor r.around text with
      | error cause =>
        have hphase : r.attempt ⟨fs, bytes, text, [], .begun⟩ .render = .error cause :=
          congrArg (Except.map _) hrender
        rw [hrender] at hpage
        rw [through_of_error hphase, run_of_error hpage]
        rfl
      | ok page =>
        have hphase : r.attempt ⟨fs, bytes, text, [], .begun⟩ .render =
            .ok ⟨fs, bytes, text, page, .begun⟩ := congrArg (Except.map _) hrender
        have hsteps := @steps_through r [.create, .write, .permit, .replace]
          ⟨fs, bytes, text, page, .begun⟩ 5 nofun rfl nofun (by decide)
        rw [hrender] at hpage
        rw [through_of_ok hphase, run_of_ok hpage]
        unfold Job.run Job.callLimit
        dsimp only at hsteps ⊢
        rw [hsteps]
        rfl

end Request

end Changelog
