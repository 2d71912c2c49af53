import Changelog.Publish.Console

/-!
# The program

Makes the page of the changelog that lies above the program's own directory.  Arguments are not
looked at, and the exit status tells nothing of success.
-/

namespace Changelog.Program

/-- A text as the system takes it. -/
def shown (cs : Text) : String :=
  String.ofList cs

/-- The number and the wording of an error of the system. -/
def numberAndReason : IO.Error → UInt32 × String
  | .alreadyExists _ n reason | .invalidArgument _ n reason | .permissionDenied _ n reason
  | .resourceExhausted _ n reason | .inappropriateType _ n reason | .noSuchThing _ n reason =>
    (n, reason)
  | .interrupted _ n reason | .noFileOrDirectory _ n reason => (n, reason)
  | .otherError n reason | .resourceBusy n reason | .resourceVanished n reason
  | .unsupportedOperation n reason | .hardwareFault n reason
  | .unsatisfiedConstraints n reason | .illegalOperation n reason | .protocolError n reason
  | .timeExpired n reason => (n, reason)
  | .unexpectedEof => (0, "unexpected end of file")
  | .userError reason => (0, reason)

/-- The failure of an operation about the given paths. -/
def failureOf (e : IO.Error) (paths : List Text) : Failure :=
  let r := numberAndReason e
  .system ⟨r.1.toNat, r.2.toList, paths⟩

/-- How an operation on a temporary file ended. -/
def replyOf (paths : List Text) (operation : IO Unit) : IO Reply := do
  try
    operation
    return .done
  catch e => return .failed (failureOf e paths)

/-- The temporary file made under the first of some names that is free. -/
def createFirst (directory : Text) : List Text → IO Reply
  | [] => return .failed (.system .noFreeName)
  | name :: more => do
    let path := Path.inside directory (Job.temporaryName name)
    try
      let _ ← IO.FS.Handle.mk (shown path) .writeNew
      IO.setAccessRights (shown path) { user := { read := true, write := true } }
      return .created ⟨path, Path.names path⟩
    catch
      | .alreadyExists .. => createFirst directory more
      | e => return .failed (failureOf e [path])

/-- The next call made. -/
def perform (job : Job) (directory : Text) (names : List Text) : Progress → IO Reply
  | .begun => createFirst directory names
  | .created temporary =>
    replyOf [temporary.path] <|
      IO.FS.writeBinFile (shown temporary.path) (Utf8.encode job.fragment).toByteArray
  | .filled temporary =>
    replyOf [temporary.path] <|
      IO.setAccessRights (shown temporary.path)
        { user := { read := true, write := true }, group := { read := true },
          other := { read := true } }
  | .permitted temporary =>
    replyOf [temporary.path, job.target] <|
      IO.FS.rename (shown temporary.path) (shown job.target)
  | .failing temporary _ =>
    replyOf [temporary.path] <| IO.FS.removeFile (shown temporary.path)
  | .ended _ => return .done

/-- So many calls made. -/
def performAll (job : Job) (directory : Text) (names : List Text) : Nat → Progress → IO Progress
  | 0, progress => return progress
  | n + 1, progress =>
    match progress.call? with
    | none => return progress
    | some _ => do
      performAll job directory names n (progress.after (← perform job directory names progress))

def freshNames : IO (List Text) :=
  (List.range 100).mapM fun _ => return Text.decimal (← IO.rand 0 99999999)

/-- The page of the file at `source` written to `target`; the result is the record of it. -/
def make (source target : Text) : IO Record := do
  let bytes : Except Failure (List UInt8) ←
    try
      pure (.ok (← (← IO.FS.Handle.mk (shown source) .read).readBinToEnd).toList)
    catch e => pure (.error (failureOf e [source]))
  match bytes >>= decodeSource >>= fun text => (render text).mapError Failure.decorating with
  | .error cause => return .failed source cause
  | .ok page =>
    let progress ← performAll ⟨target, page⟩ (Path.directory ['/'] target) (← freshNames)
      Job.callLimit .begun
    return .ofOutcome source target progress.outcome

/-- The whole program: the page beside the program is made of the changelog above it. -/
def run : IO UInt32 := do
  let pages := (← IO.appDir).toString.toList
  let record ← make (sourcePath pages) (pagePath pages)
  let console := Console.ofLog [record]
  IO.print (shown (Console.text console.output))
  IO.eprint (shown (Console.text console.errors))
  return exitStatus.toUInt32

end Changelog.Program

/-- Runs the program; the arguments are not looked at. -/
def main (_arguments : List String) : IO UInt32 :=
  Changelog.Program.run
