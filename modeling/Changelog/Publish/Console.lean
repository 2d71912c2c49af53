import Changelog.Publish.Make

/-!
# The console

Records that tell of success go to the standard output, and records of failures to the standard
error, with their cause.  The script makes the page of the changelog that lies above its own
directory.
-/

namespace Changelog

/-- What was printed, as lines. -/
structure Console where
  output : List Text
  errors : List Text
  deriving DecidableEq

namespace Console

/-- The lines of a record: its message, and the first and the last line of the trace of its cause.
The lines between the two tell where in the program the cause arose; they are left out. -/
def recordLines (record : Record) : List Text :=
  Text.lines record.message ++
    match record.cause with
    | none => []
    | some cause => "Traceback (most recent call last):".toList :: Text.lines cause.line

/-- A record printed where it belongs. -/
def print (console : Console) (record : Record) : Console :=
  match record.level with
  | .info => { console with output := console.output ++ recordLines record }
  | .error => { console with errors := console.errors ++ recordLines record }

def ofLog (log : List Record) : Console :=
  log.foldl print ⟨[], []⟩

/-- Lines as they are printed, each with its line end. -/
def text (lines : List Text) : Text :=
  lines.flatMap fun line => line ++ ['\n']

end Console

/-- A run whose log is printed. -/
def report (around : Surroundings) (fs : FileSystem) (source target : Text) :
    FileSystem × Console :=
  let made := publish around fs source target
  (made.files, Console.ofLog made.log)

/-- The changelog that belongs to a directory of pages: it lies in the directory above. -/
def sourcePath (pages : Text) : Text :=
  Path.full pages "../CHANGELOG.md".toList

/-- The page that belongs to a directory of pages. -/
def pagePath (pages : Text) : Text :=
  Path.inside pages "changelog.html".toList

/-- The script, run from a directory of pages.  It takes no notice of its arguments. -/
def script (around : Surroundings) (fs : FileSystem) (pages : Text) (_arguments : List Text) :
    FileSystem × Console :=
  report around fs (sourcePath pages) (pagePath pages)

/-- The status that the script ends with.  A run does not fail, and its result is not looked at, so
that the status is the same whatever the run met. -/
def exitStatus : Nat := 0

end Changelog
