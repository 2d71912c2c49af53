import Changelog.Text.Scan
import Changelog.Text.Utf8

/-!
# Paths

A path is a text whose names stand between slashes.  Its full form is found in the text alone:
it is put after the working directory, and the names `.` and `..` are resolved without a look at
the files.
-/

namespace Changelog.Path

/-- The name of the directory itself. -/
def here : Text := ['.']

/-- The name of the directory above. -/
def above : Text := ['.', '.']

def isRooted (path : Text) : Bool :=
  path.head? == some '/'

/-- The names of a path in order; neighbouring slashes hold no name between them. -/
def names (path : Text) : List Text :=
  (Text.splitChar '/' path).filter (· != [])

/-- Whether a path ends with a slash after a name, so that it can only be that of a directory. -/
def endsWithSlash (path : Text) : Bool :=
  Text.last? path == some '/'

/-- The slashes that the full form of a path begins with: two where the path begins with exactly
two, and else one. -/
def rootOf (path : Text) : Text :=
  match path with
  | '/' :: '/' :: '/' :: _ => ['/']
  | '/' :: '/' :: _ => ['/', '/']
  | _ => ['/']

/-- The names below the root once `.` and `..` are resolved, given those resolved so far, the last
one first.  Nothing lies above the root. -/
def resolveNames : List Text → List Text → List Text
  | done, [] => done.reverse
  | done, name :: more =>
    if name = here then resolveNames done more
    else if name = above then resolveNames done.tail more
    else resolveNames (name :: done) more

/-- A path put after the working directory, unless it begins at the root. -/
def placed (working path : Text) : Text :=
  if isRooted path then path
  else if endsWithSlash working then working ++ path
  else working ++ '/' :: path

def fullNames (working path : Text) : List Text :=
  resolveNames [] (names (placed working path))

def ofNames (root : Text) (names : List Text) : Text :=
  root ++ Text.joinWith ['/'] names

/-- The full form of a path. -/
def full (working path : Text) : Text :=
  ofNames (rootOf (placed working path)) (fullNames working path)

/-- The full form of the directory that the full form of a path lies in. -/
def directory (working path : Text) : Text :=
  ofNames (rootOf (placed working path)) (fullNames working path).dropLast

/-- The path of a name in a directory. -/
def inside (directory name : Text) : Text :=
  if endsWithSlash directory then directory ++ name else directory ++ '/' :: name

end Changelog.Path
