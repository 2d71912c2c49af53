import Changelog.Markdown.Parser
import Changelog.Publish.Writing

/-!
# Making a page from a file

A run reads a changelog, makes its page and writes the page to its target.  It does not fail:
what went wrong is in the one record that it logs, and in its result.
-/

namespace Changelog

/-- How grave a record is. -/
inductive Level
  | info
  | error
  deriving DecidableEq, Repr

/-- A line of a log, and the failure it is about. -/
structure Record where
  level : Level
  message : Text
  cause : Option Failure
  deriving DecidableEq

/-- The text of the bytes of a source, with each line end made a line feed. -/
def decodeSource (bytes : List UInt8) : Except Failure Text :=
  match Utf8.decode bytes with
  | .error e => .error (.undecodable e)
  | .ok text => .ok (Source.normalizeLines text)

def readSource (fs : FileSystem) (source : Text) : Except Failure Text :=
  if source.contains '\x00' then .error .nulInPath
  else
    match fs.read source with
    | .error refusal => .error (.system (refusal.about [source]))
    | .ok bytes => decodeSource bytes

/-- The page of a text, unless the conversion fails from without. -/
def renderFor (around : Surroundings) (text : Text) : Except Failure Text :=
  match around.faults .render with
  | some cause => .error cause
  | none => (render text).mapError Failure.decorating

/-- The page of a source file. -/
def pageOf (around : Surroundings) (fs : FileSystem) (source : Text) : Except Failure Text := do
  renderFor around (← readSource fs source)

/-- The record of a run that wrote its target. -/
def Record.written (target : Text) : Record :=
  ⟨.info, "Changelog HTML written to ".toList ++ target, none⟩

def Record.failed (source : Text) (cause : Failure) : Record :=
  ⟨.error, "Failed to generate changelog HTML from ".toList ++ source, some cause⟩

/-- The record of a run, by the failure it ended with. -/
def Record.ofOutcome (source target : Text) : Option Failure → Record
  | none => .written target
  | some cause => .failed source cause

/-- What a run leaves: the files, whether the target was written, and the log. -/
structure Report where
  files : FileSystem
  succeeded : Bool
  log : List Record

/-- The page of the file at `source` written to `target`. -/
def publish (around : Surroundings) (fs : FileSystem) (source target : Text) : Report :=
  let ended : FileSystem × Option Failure :=
    match pageOf around fs source with
    | .error cause => (fs, some cause)
    | .ok page => deliver around fs target page
  ⟨ended.1, ended.2.isNone, [Record.ofOutcome source target ended.2]⟩

end Changelog
