import Changelog.Error
import Changelog.Text.Utf8

/-!
# Failures

Everything that can keep a page from being written, with the class and the wording under which it
is reported.
-/

namespace Changelog

/-- A failure of an operation on files: its number, its reason, and the paths it is about. -/
structure SystemError where
  number : Int
  reason : Text
  paths : List Text
  deriving DecidableEq

namespace SystemError

def kindOf (number : Int) : String :=
  match number with
  | 1 | 13 => "PermissionError"
  | 2 => "FileNotFoundError"
  | 3 => "ProcessLookupError"
  | 4 => "InterruptedError"
  | 10 => "ChildProcessError"
  | 11 | 114 | 115 => "BlockingIOError"
  | 17 => "FileExistsError"
  | 20 => "NotADirectoryError"
  | 21 => "IsADirectoryError"
  | 32 | 108 => "BrokenPipeError"
  | 103 => "ConnectionAbortedError"
  | 104 => "ConnectionResetError"
  | 110 => "TimeoutError"
  | 111 => "ConnectionRefusedError"
  | _ => "OSError"

/-- A whole number in decimal digits. -/
def writeNumber (n : Int) : Text :=
  if n < 0 then '-' :: Nat.toDigits 10 n.natAbs else Nat.toDigits 10 n.natAbs

/-- The paths as they follow a reason. -/
def writePaths : List Text → Text
  | [] => []
  | paths => ": ".toList ++ Text.joinWith " -> ".toList (paths.map Text.quoted)

def message (e : SystemError) : Text :=
  "[Errno ".toList ++ writeNumber e.number ++ "] ".toList ++ e.reason ++ writePaths e.paths

end SystemError

/-- Why the system refuses an operation. -/
inductive Refusal
  | missing
  | busy
  /-- Something is at the path already. -/
  | taken
  | notDirectory
  | isDirectory
  /-- A name, or the whole path, is too long. -/
  | tooLong
  deriving DecidableEq, Repr

namespace Refusal

def number : Refusal → Int
  | .missing => 2
  | .busy => 16
  | .taken => 17
  | .notDirectory => 20
  | .isDirectory => 21
  | .tooLong => 36

def reason : Refusal → Text
  | .missing => "No such file or directory".toList
  | .busy => "Device or resource busy".toList
  | .taken => "File exists".toList
  | .notDirectory => "Not a directory".toList
  | .isDirectory => "Is a directory".toList
  | .tooLong => "File name too long".toList

/-- The failure of an operation about the given paths. -/
def about (refusal : Refusal) (paths : List Text) : SystemError :=
  ⟨refusal.number, refusal.reason, paths⟩

end Refusal

/-- No name for a temporary file was free. -/
def SystemError.noFreeName : SystemError :=
  ⟨17, "No usable temporary file name found".toList, []⟩

/-- Why a page was not written. -/
inductive Failure
  /-- An operation on files failed. -/
  | system (cause : SystemError)
  /-- The source is not UTF-8. -/
  | undecodable (cause : Utf8.Error)
  /-- The document could not be decorated. -/
  | decorating (cause : DecorateError)
  /-- A value was not fit for its use. -/
  | value (message : Text)
  /-- Any other failure. -/
  | runtime (message : Text)
  deriving DecidableEq

namespace Failure

def nulInPath : Failure := .value "embedded null byte".toList

def kind : Failure → String
  | .system cause => SystemError.kindOf cause.number
  | .undecodable _ => "UnicodeDecodeError"
  | .decorating cause => cause.kind
  | .value _ => "ValueError"
  | .runtime _ => "RuntimeError"

/-- The wording of a failure; the failure about a root that is a heading has none. -/
def message : Failure → Option Text
  | .system cause => some cause.message
  | .undecodable cause => some cause.message
  | .decorating cause => cause.message
  | .value message => some message
  | .runtime message => some message

/-- A failure in one line: its class, and its wording after a colon unless it is empty. -/
def line (failure : Failure) : Text :=
  match failure.message with
  | none | some [] => failure.kind.toList
  | some message => failure.kind.toList ++ ": ".toList ++ message

end Failure

end Changelog
