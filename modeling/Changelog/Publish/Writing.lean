import Changelog.Files.FileSystem

/-!
# Writing a file in one step

A fragment is written to a temporary file beside the target first, which then takes the target's
place.  Between two calls the target holds what it held or the whole fragment.  A call that fails
after the temporary file was made is followed by its removal.
-/

namespace Changelog

/-- The calls of a run that can fail from without. -/
inductive Call
  /-- Making the page of a source. -/
  | render
  /-- Making the temporary file. -/
  | create
  /-- Writing the temporary file. -/
  | write
  /-- Making the temporary file readable to all. -/
  | permit
  /-- Moving the temporary file to the target. -/
  | replace
  /-- Removing the temporary file. -/
  | discard
  deriving DecidableEq, Repr

/-- What a run meets: the calls that fail from without, and the names that temporary files are
tried under in turn. -/
structure Surroundings where
  faults : Call → Option Failure
  names : List Text

/-- A file that was made to be moved or removed. -/
structure Temporary where
  path : Text
  place : Place
  deriving DecidableEq

/-- How a call ended. -/
inductive Reply
  | created (temporary : Temporary)
  | done
  | failed (cause : Failure)

/-- How far the writing of a file is. -/
inductive Progress
  /-- Nothing was done. -/
  | begun
  /-- The temporary file is there, and empty. -/
  | created (temporary : Temporary)
  /-- The temporary file holds the fragment. -/
  | filled (temporary : Temporary)
  /-- The temporary file is readable to all. -/
  | permitted (temporary : Temporary)
  /-- A call failed, and the temporary file has to go. -/
  | failing (temporary : Temporary) (cause : Failure)
  /-- Nothing is left to do; there is a failure unless the target was replaced. -/
  | ended (outcome : Option Failure)

namespace Progress

/-- The call that comes next. -/
def call? : Progress → Option Call
  | .begun => some .create
  | .created _ => some .write
  | .filled _ => some .permit
  | .permitted _ => some .replace
  | .failing _ _ => some .discard
  | .ended _ => none

/-- The progress once the next call was made. -/
def after : Progress → Reply → Progress
  | .begun, .created temporary => .created temporary
  | .begun, .failed cause => .ended (some cause)
  | .created temporary, .done => .filled temporary
  | .filled temporary, .done => .permitted temporary
  | .permitted _, .done => .ended none
  | .created temporary, .failed cause => .failing temporary cause
  | .filled temporary, .failed cause => .failing temporary cause
  | .permitted temporary, .failed cause => .failing temporary cause
  | .failing _ cause, .done => .ended (some cause)
  | .failing _ _, .failed cause => .ended (some cause)
  | progress, _ => progress

/-- The failure that the writing ended with. -/
def outcome : Progress → Option Failure
  | .ended outcome => outcome
  | _ => none

end Progress

/-- A fragment and where it goes. -/
structure Job where
  target : Text
  fragment : Text

namespace Job

def pageMode : Nat := 0o644

/-- What the name of a temporary file begins with. -/
def namePrefix : Text := ".changelog-".toList

/-- What the name of a temporary file ends with. -/
def nameSuffix : Text := ".html".toList

def temporaryName (name : Text) : Text :=
  namePrefix ++ name ++ nameSuffix

def workingPath (fs : FileSystem) : Text :=
  Path.ofNames ['/'] fs.working

/-- The directory of the temporary file, which is that of the target. -/
def directory (job : Job) (fs : FileSystem) : Text :=
  Path.directory (workingPath fs) job.target

/-- The temporary file made under the first name that is free. -/
def createFirst (fs : FileSystem) (directory : Text) : List Text → FileSystem × Reply
  | [] => (fs, .failed (.system .noFreeName))
  | name :: more =>
    let path := Path.inside directory (temporaryName name)
    match fs.create path with
    | .ok (place, made) => (made, .created ⟨path, place⟩)
    | .error .taken => createFirst fs directory more
    | .error refusal => (fs, .failed (.system (refusal.about [path])))

/-- The reply of an operation on a temporary file. -/
def reply (fs : FileSystem) (paths : List Text) :
    Except Refusal FileSystem → FileSystem × Reply
  | .ok changed => (changed, .done)
  | .error refusal => (fs, .failed (.system (refusal.about paths)))

/-- The next call made on the files. -/
def perform (job : Job) (names : List Text) (fs : FileSystem) :
    Progress → FileSystem × Reply
  | .begun =>
    let directory := job.directory fs
    if directory.contains '\x00' then (fs, .failed .nulInPath)
    else createFirst fs directory names
  | .created temporary =>
    reply fs [temporary.path] (fs.fill temporary.place (Utf8.encode job.fragment))
  | .filled temporary => reply fs [temporary.path] (fs.setMode temporary.place pageMode)
  | .permitted temporary =>
    if job.target.contains '\x00' then (fs, .failed .nulInPath)
    else reply fs [temporary.path, job.target] (fs.move temporary.place job.target)
  | .failing temporary _ => reply fs [temporary.path] (fs.eraseFile temporary.place)
  | .ended _ => (fs, .done)

/-- The next call made, unless it fails from without. -/
def step (job : Job) (around : Surroundings) (state : FileSystem × Progress) :
    FileSystem × Progress :=
  match state.2.call? with
  | none => state
  | some call =>
    match around.faults call with
    | some cause => (state.1, state.2.after (.failed cause))
    | none =>
      let answer := job.perform around.names state.1 state.2
      (answer.1, state.2.after answer.2)

/-- So many calls made. -/
def steps (job : Job) (around : Surroundings) : Nat → FileSystem × Progress →
    FileSystem × Progress
  | 0, state => state
  | n + 1, state => steps job around n (job.step around state)

/-- The most calls that one run makes. -/
def callLimit : Nat := 5

/-- The whole run: the files after it, and the failure it ended with. -/
def run (job : Job) (around : Surroundings) (fs : FileSystem) : FileSystem × Option Failure :=
  let final := job.steps around callLimit (fs, .begun)
  (final.1, final.2.outcome)

end Job

/-- A fragment written to a target in one step. -/
def deliver (around : Surroundings) (fs : FileSystem) (target fragment : Text) :
    FileSystem × Option Failure :=
  Job.run ⟨target, fragment⟩ around fs

end Changelog
