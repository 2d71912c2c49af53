import Changelog.Proofs.Files.Operations
import Changelog.Publish.Writing

/-!
# The calls of a run

Each call of a run fails and leaves the files as they are, or changes the temporary file only; the
move alone changes the target as well.
-/

namespace Changelog

open FileSystem

/-- What is assumed of the names under which the system makes temporary files: they hold no slash,
and they are neither the last name of the target nor a name on the way to the working directory. -/
structure Surroundings.Unused (around : Surroundings) (fs : FileSystem) (target : Text) : Prop where
  plain : ∀ name ∈ around.names, '/' ∉ name
  target : ∀ name ∈ around.names,
    (Path.names target).getLast? ≠ some (Job.temporaryName name)
  working : ∀ name ∈ around.names, Job.temporaryName name ∉ fs.working

/-- The temporary file that has to be moved or removed yet. -/
def Progress.temporary? : Progress → Option Temporary
  | .created temporary => some temporary
  | .filled temporary => some temporary
  | .permitted temporary => some temporary
  | .failing temporary _ => some temporary
  | _ => none

namespace Job

variable {job : Job} {around : Surroundings} {fs now : FileSystem}

/-- A temporary file in the directory of the target, under a name that was free. -/
structure Owns (job : Job) (around : Surroundings) (fs : FileSystem) (place : Place) : Prop where
  home : ∃ parent name, name ∈ around.names ∧ fs.resolve (job.directory fs) = .ok parent ∧
    place = parent ++ [temporaryName name]
  free : fs.get? place = none

theorem Owns.getLast? {place : Place} (h : job.Owns around fs place) :
    ∃ name ∈ around.names, place.getLast? = some (temporaryName name) := by
  obtain ⟨⟨parent, name, hname, -, rfl⟩, -⟩ := h
  exact ⟨name, hname, List.getLast?_concat⟩

/-- A call that ends does so with its reply, unless it fails from without. -/
def answer (job : Job) (around : Surroundings) (state : FileSystem × Progress) (call : Call) :
    FileSystem × Reply :=
  match around.faults call with
  | some cause => (state.1, .failed cause)
  | none => job.perform around.names state.1 state.2

/-- The call that is made next, with its reply. -/
def made (job : Job) (around : Surroundings) (state : FileSystem × Progress) :
    List (Call × Reply) :=
  match state.2.call? with
  | none => []
  | some call => [(call, (job.answer around state call).2)]

/-- So many calls in their order, with their replies. -/
def calls (job : Job) (around : Surroundings) : Nat → FileSystem × Progress → List (Call × Reply)
  | 0, _ => []
  | n + 1, state => job.made around state ++ calls job around n (job.step around state)

variable (around) in
theorem step_eq (state : FileSystem × Progress) (call : Call) (h : state.2.call? = some call) :
    job.step around state = ((job.answer around state call).1,
      state.2.after (job.answer around state call).2) := by
  unfold step answer
  rw [h]
  dsimp only
  cases around.faults call with
  | none => rfl
  | some cause => rfl

variable (around) in
theorem made_eq (state : FileSystem × Progress) (call : Call) (h : state.2.call? = some call) :
    job.made around state = [(call, (job.answer around state call).2)] := by
  unfold made
  rw [h]

/-! ### What calls do -/

theorem slash_not_mem_temporaryName {name : Text} (h : '/' ∉ name) :
    '/' ∉ temporaryName name := by
  unfold temporaryName
  rw [List.mem_append, List.mem_append, not_or, not_or]
  exact ⟨⟨by decide, h⟩, by decide⟩

theorem temporaryName_ne_nil (name : Text) : temporaryName name ≠ [] := by
  exact nofun

theorem createFirst_cases (fs : FileSystem) (directory : Text) (names : List Text) :
    (∃ cause, createFirst fs directory names = (fs, .failed cause)) ∨
    ∃ name ∈ names, ∃ place now,
      fs.create (Path.inside directory (temporaryName name)) = .ok (place, now) ∧
      createFirst fs directory names =
        (now, .created ⟨Path.inside directory (temporaryName name), place⟩) := by
  induction names with
  | nil => exact Or.inl ⟨_, rfl⟩
  | cons name names ih =>
    unfold createFirst
    dsimp only
    cases hc : fs.create (Path.inside directory (temporaryName name)) with
    | ok created =>
      exact Or.inr ⟨name, List.mem_cons_self, created.1, created.2, hc, rfl⟩
    | error refusal =>
      cases refusal with
      | taken =>
        rcases ih with ih | ⟨other, hmem, ih⟩
        · exact Or.inl ih
        · exact Or.inr ⟨other, List.mem_cons_of_mem name hmem, ih⟩
      | missing => exact Or.inl ⟨_, rfl⟩
      | busy => exact Or.inl ⟨_, rfl⟩
      | notDirectory => exact Or.inl ⟨_, rfl⟩
      | isDirectory => exact Or.inl ⟨_, rfl⟩
      | tooLong => exact Or.inl ⟨_, rfl⟩

variable (job fs) in
/-- The temporary file is made under a free name in the directory of the target, or nothing is
made. -/
theorem answer_create (hplain : ∀ name ∈ around.names, '/' ∉ name) :
    (∃ cause, job.answer around (fs, .begun) .create = (fs, .failed cause)) ∨
    ∃ name ∈ around.names, ∃ parent temporary now,
      job.answer around (fs, .begun) .create = (now, .created temporary) ∧
      fs.resolve (job.directory fs) = .ok parent ∧ fs.isDirectory parent = true ∧
      temporary.place = parent ++ [temporaryName name] ∧ fs.get? temporary.place = none ∧
      fs.Becomes temporary.place (some (.file 0o600 [])) now := by
  unfold answer
  cases around.faults .create with
  | some cause => exact Or.inl ⟨cause, rfl⟩
  | none =>
    show (∃ cause, (if (job.directory fs).contains '\x00' then (fs, Reply.failed .nulInPath)
        else createFirst fs (job.directory fs) around.names) = (fs, .failed cause)) ∨ _
    unfold perform
    dsimp only
    split
    · exact Or.inl ⟨_, rfl⟩
    · rcases createFirst_cases fs (job.directory fs) around.names with
        hfailed | ⟨name, hname, place, now, hcreate, hcreated⟩
      · exact Or.inl hfailed
      · obtain ⟨parent, last, hlocate, hplace, hfree, hbecomes⟩ := create_ok hcreate
        have hrooted := Path.isRooted_ofNames (workingPath fs) job.target
          (Path.fullNames (workingPath fs) job.target).dropLast
        have hdirectory : job.directory fs ≠ [] := by
          intro he
          unfold directory Path.directory at he
          rw [he] at hrooted
          cases hrooted
        obtain ⟨hresolve, hparent, hlast⟩ := resolve_of_inside
          (slash_not_mem_temporaryName (hplain name hname)) (temporaryName_ne_nil name)
          hdirectory hlocate
        rw [hlast] at hplace
        exact Or.inr ⟨name, hname, parent, _, now, hcreated, hresolve, hparent, hplace, hfree,
          hbecomes⟩

/-- The temporary file that is made belongs to the run. -/
theorem answer_begun (hplain : ∀ name ∈ around.names, '/' ∉ name) :
    (∃ cause, job.answer around (fs, .begun) .create = (fs, .failed cause)) ∨
    ∃ temporary now, job.answer around (fs, .begun) .create = (now, .created temporary) ∧
      job.Owns around fs temporary.place ∧
      fs.Becomes temporary.place (some (.file 0o600 [])) now := by
  rcases answer_create job fs hplain with
    hfailed | ⟨name, hname, parent, temporary, now, ha, hresolve, -, hplace, hfree, hbecomes⟩
  · exact Or.inl hfailed
  · exact Or.inr ⟨temporary, now, ha, ⟨⟨parent, name, hname, hresolve, hplace⟩, hfree⟩, hbecomes⟩

/-- An operation on the temporary file is done, or nothing is changed. -/
theorem reply_cases (fs : FileSystem) (paths : List Text) (result : Except Refusal FileSystem) :
    (∃ cause, reply fs paths result = (fs, .failed cause)) ∨
    ∃ now, reply fs paths result = (now, .done) ∧ result = .ok now := by
  cases result with
  | error refusal => exact Or.inl ⟨_, rfl⟩
  | ok now => exact Or.inr ⟨now, rfl, rfl⟩

variable (job around fs) in
theorem answer_created (temporary : Temporary) :
    (∃ cause, job.answer around (fs, .created temporary) .write = (fs, .failed cause)) ∨
    ∃ now, job.answer around (fs, .created temporary) .write = (now, .done) ∧
      ∃ mode old, fs.get? temporary.place = some (.file mode old) ∧
        fs.Becomes temporary.place (some (.file mode (Utf8.encode job.fragment))) now := by
  unfold answer
  cases around.faults .write with
  | some cause => exact Or.inl ⟨cause, rfl⟩
  | none =>
    rcases reply_cases fs [temporary.path]
      (fs.fill temporary.place (Utf8.encode job.fragment)) with hfailed | ⟨now, hdone, hok⟩
    · exact Or.inl hfailed
    · exact Or.inr ⟨now, hdone, fill_ok hok⟩

variable (job around fs) in
theorem answer_filled (temporary : Temporary) :
    (∃ cause, job.answer around (fs, .filled temporary) .permit = (fs, .failed cause)) ∨
    ∃ now, job.answer around (fs, .filled temporary) .permit = (now, .done) ∧
      ∃ old content, fs.get? temporary.place = some (.file old content) ∧
        fs.Becomes temporary.place (some (.file pageMode content)) now := by
  unfold answer
  cases around.faults .permit with
  | some cause => exact Or.inl ⟨cause, rfl⟩
  | none =>
    rcases reply_cases fs [temporary.path] (fs.setMode temporary.place pageMode) with
      hfailed | ⟨now, hdone, hok⟩
    · exact Or.inl hfailed
    · exact Or.inr ⟨now, hdone, setMode_ok hok⟩

variable (job around fs) in
theorem answer_permitted (temporary : Temporary) :
    (∃ cause, job.answer around (fs, .permitted temporary) .replace = (fs, .failed cause)) ∨
    ∃ now, job.answer around (fs, .permitted temporary) .replace = (now, .done) ∧
      fs.move temporary.place job.target = .ok now := by
  unfold answer
  cases around.faults .replace with
  | some cause => exact Or.inl ⟨cause, rfl⟩
  | none =>
    unfold perform
    dsimp only
    split
    · exact Or.inl ⟨_, rfl⟩
    · rcases reply_cases fs [temporary.path, job.target]
        (fs.move temporary.place job.target) with hfailed | hdone
      · exact Or.inl hfailed
      · exact Or.inr hdone

variable (job around fs) in
theorem answer_failing (temporary : Temporary) (cause : Failure) :
    (∃ cause', job.answer around (fs, .failing temporary cause) .discard =
      (fs, .failed cause')) ∨
    ∃ now, job.answer around (fs, .failing temporary cause) .discard = (now, .done) ∧
      fs.Becomes temporary.place none now := by
  unfold answer
  cases around.faults .discard with
  | some cause => exact Or.inl ⟨cause, rfl⟩
  | none =>
    rcases reply_cases fs [temporary.path] (fs.eraseFile temporary.place) with
      hfailed | ⟨now, hdone, hok⟩
    · exact Or.inl hfailed
    · exact Or.inr ⟨now, hdone, eraseFile_ok hok⟩

end Job

end Changelog
