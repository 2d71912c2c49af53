import Changelog.Files.Failure
import Changelog.Files.Path

/-!
# Files and directories

A file system is a finite map from places to files and directories.  A place is the list of names
that leads from the root to it.  Paths are followed name by name, and each operation either refuses
and changes nothing, or changes the places that it names and no others.
-/

namespace Changelog

/-- The names that lead from the root to a file or a directory. -/
abbrev Place := List Text

/-- What is at a place. -/
inductive Node
  | directory
  | file (mode : Nat) (content : List UInt8)
  deriving DecidableEq, Repr

/-- What is at each place, and the working directory.  The root is a directory always. -/
structure FileSystem where
  working : Place
  entries : List (Place × Node)

namespace FileSystem

def get? (fs : FileSystem) (place : Place) : Option Node :=
  if place = [] then some .directory else fs.entries.lookup place

/-- Nothing left at a place. -/
def erase (fs : FileSystem) (place : Place) : FileSystem :=
  { fs with entries := fs.entries.filter fun entry => entry.1 != place }

/-- A file or a directory put at a place, in place of what was there. -/
def put (fs : FileSystem) (place : Place) (node : Node) : FileSystem :=
  { fs with entries := (place, node) :: (fs.erase place).entries }

def isDirectory (fs : FileSystem) (place : Place) : Bool :=
  fs.get? place == some .directory

/-- The most bytes that a name may have. -/
def nameLimit : Nat := 255

/-- The most bytes that a path may have. -/
def pathLimit : Nat := 4095

/-- Whether a text has more bytes than a limit. -/
def exceeds (limit : Nat) (cs : Text) : Bool :=
  limit < (Utf8.encode cs).length

/-- The place that names lead to from a place.  Every name is looked up in a directory. -/
def walk (fs : FileSystem) : Place → List Text → Except Refusal Place
  | place, [] => .ok place
  | place, name :: more =>
    if !fs.isDirectory place then .error .notDirectory
    else if name = Path.here then fs.walk place more
    else if name = Path.above then fs.walk place.dropLast more
    else if exceeds nameLimit name then .error .tooLong
    else if (fs.get? (place ++ [name])).isNone then .error .missing
    else fs.walk (place ++ [name]) more

/-- Where a path begins. -/
def start (fs : FileSystem) (path : Text) : Place :=
  if Path.isRooted path then [] else fs.working

/-- A path that can be followed at all. -/
def acceptPath (path : Text) : Except Refusal Unit :=
  if path = [] then .error .missing
  else if exceeds pathLimit path then .error .tooLong
  else .ok ()

/-- The place that a path leads to.  A path that ends with a slash leads to a directory. -/
def resolve (fs : FileSystem) (path : Text) : Except Refusal Place := do
  acceptPath path
  let place ← fs.walk (fs.start path) (Path.names path)
  if Path.endsWithSlash path && !fs.isDirectory place then .error .notDirectory else .ok place

/-- The directory that the last name of a path is looked up in, and that name.  There is no name
when the path ends with `.` or `..`, or leads to the root. -/
def locate (fs : FileSystem) (path : Text) : Except Refusal (Place × Option Text) := do
  acceptPath path
  let names := Path.names path
  let parent ← fs.walk (fs.start path) names.dropLast
  if !fs.isDirectory parent then .error .notDirectory
  else match names.getLast? with
    | none => .ok (parent, none)
    | some last =>
      .ok (parent, if last = Path.here ∨ last = Path.above then none else some last)

/-- The place of a name that is new or looked up in a directory. -/
def child (parent : Place) (name : Text) : Except Refusal Place :=
  if exceeds nameLimit name then .error .tooLong else .ok (parent ++ [name])

/-- The bytes of the file at a path. -/
def read (fs : FileSystem) (path : Text) : Except Refusal (List UInt8) := do
  let place ← fs.resolve path
  match fs.get? place with
  | some (.file _ content) => .ok content
  | some .directory => .error .isDirectory
  | none => .error .missing

/-- A file written over, or made with the given mode where there was none. -/
def write (fs : FileSystem) (path : Text) (mode : Nat) (content : List UInt8) :
    Except Refusal FileSystem := do
  match ← fs.locate path with
  | (_, none) => .error .isDirectory
  | (parent, some name) =>
    if Path.endsWithSlash path then .error .isDirectory
    else
      let place ← child parent name
      match fs.get? place with
      | some .directory => .error .isDirectory
      | some (.file kept _) => .ok (fs.put place (.file kept content))
      | none => .ok (fs.put place (.file mode content))

def makeDirectory (fs : FileSystem) (path : Text) : Except Refusal FileSystem := do
  match ← fs.locate path with
  | (_, none) => .error .taken
  | (parent, some name) =>
    let place ← child parent name
    if (fs.get? place).isSome then .error .taken else .ok (fs.put place .directory)

def remove (fs : FileSystem) (path : Text) : Except Refusal FileSystem := do
  match ← fs.locate path with
  | (_, none) => .error .isDirectory
  | (parent, some name) =>
    let place ← child parent name
    match fs.get? place with
    | none => .error .missing
    | some .directory => .error .isDirectory
    | some (.file _ _) =>
      if Path.endsWithSlash path then .error .notDirectory else .ok (fs.erase place)

/-- An empty file made that was not there, which only its owner may read and write; the result is
its place. -/
def create (fs : FileSystem) (path : Text) : Except Refusal (Place × FileSystem) := do
  match ← fs.locate path with
  | (_, none) => .error .taken
  | (parent, some name) =>
    let place ← child parent name
    if (fs.get? place).isSome then .error .taken
    else .ok (place, fs.put place (.file 0o600 []))

/-- The content of the file at a place changed. -/
def fill (fs : FileSystem) (place : Place) (content : List UInt8) :
    Except Refusal FileSystem :=
  match fs.get? place with
  | some (.file mode _) => .ok (fs.put place (.file mode content))
  | some .directory => .error .isDirectory
  | none => .error .missing

def setMode (fs : FileSystem) (place : Place) (mode : Nat) : Except Refusal FileSystem :=
  match fs.get? place with
  | some (.file _ content) => .ok (fs.put place (.file mode content))
  | some .directory => .error .isDirectory
  | none => .error .missing

def eraseFile (fs : FileSystem) (place : Place) : Except Refusal FileSystem :=
  match fs.get? place with
  | some (.file _ _) => .ok (fs.erase place)
  | some .directory => .error .isDirectory
  | none => .error .missing

/-- The file at a place moved to a path in one step, over the file that was there. -/
def move (fs : FileSystem) (place : Place) (path : Text) : Except Refusal FileSystem := do
  match ← fs.locate path with
  | (_, none) => .error .busy
  | (parent, some name) =>
    let goal ← child parent name
    match fs.get? place with
    | none => .error .missing
    | some node =>
      if Path.endsWithSlash path then .error .notDirectory
      else if fs.isDirectory goal then .error .isDirectory
      else .ok ((fs.erase place).put goal node)

theorem get?_nil (fs : FileSystem) : fs.get? [] = some .directory := by
  simp [get?]

theorem get?_put_self (fs : FileSystem) (place : Place) (node : Node) (h : place ≠ []) :
    (fs.put place node).get? place = some node := by
  simp [get?, put, h]

theorem lookup_filter_ne (entries : List (Place × Node)) (place other : Place)
    (h : other ≠ place) :
    (entries.filter fun entry => entry.1 != place).lookup other = entries.lookup other := by
  induction entries with
  | nil => rfl
  | cons entry entries ih =>
    obtain ⟨key, node⟩ := entry
    by_cases hp : key = place
    · subst hp
      have : (other == key) = false := by simpa using h
      simp [List.lookup_cons, this, ih]
    · by_cases ho : other = key
      · subst ho
        simp [hp]
      · have : (other == key) = false := by simpa using ho
        simp [List.lookup_cons, hp, this, ih]

theorem get?_erase_ne (fs : FileSystem) (place other : Place) (h : other ≠ place) :
    (fs.erase place).get? other = fs.get? other := by
  simp only [get?, erase, lookup_filter_ne _ _ _ h]

theorem get?_put_ne (fs : FileSystem) (place other : Place) (node : Node) (h : other ≠ place) :
    (fs.put place node).get? other = fs.get? other := by
  have hb : (other == place) = false := by simpa using h
  simp only [get?, put, erase, List.lookup_cons, hb, lookup_filter_ne _ _ _ h]

end FileSystem

end Changelog
