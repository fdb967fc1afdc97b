import LooseData.Command.Run
import LooseData.Runtime.Libraries

set_option autoImplicit false

/-! # The program

The outer layer of the program: it collects what surrounds a run, lets `Command.run` decide, and
writes what that says.
-/

namespace LooseData.Main

/-- The code with which the system says that a file is a directory. -/
def isDirectoryCode : UInt32 := 21

/-- What there is at a path. What cannot be read counts as missing. -/
def look (path : FilePath) : IO FileEntry := do
  try
    pure (.file (← IO.FS.readFile path.toText))
  catch
    | .inappropriateType _ code _ =>
      pure (if code = isDirectoryCode then .directory else .missing)
    | _ => pure .missing

/-- The variables in the text of an environment, which separates them by null characters. -/
def variablesOf (text : String) : List (String × String) :=
  ((Text.splitBy (· == '\x00') text.toList).map String.ofList).map fun line =>
    let (name, value) := Command.Piece.split line
    (name, value.getD "")

/-- The variables of this run. -/
def ownVariables : IO (List (String × String)) := do
  match ← look (.ofText "/proc/self/environ") with
  | .file text => pure (variablesOf text)
  | _ => pure []

/-- Where a run may look for something: on the way to the configuration files, to the marks of
projects, and to everything that an argument may name. -/
def placesToLook (s : Surroundings) (arguments : List String) : List FilePath :=
  let above := s.directory.upwards
  let paths := (Config.userFile s).toOption.toList ++ above.map Config.projectFile
    ++ above.flatMap fun directory => Config.projectMarks.map directory.child
  let names := arguments.flatMap fun argument =>
    argument :: ((Command.Piece.split argument).2).toList
  (paths.flatMap fun path => Surroundings.placesOn (s.start path) path.parts)
    ++ names.flatMap fun name =>
      Surroundings.placesOn (s.start (.ofText name)) (Surroundings.stepsOf name)

/-- What surrounds this run, as far as its arguments may lead to it. -/
def surroundings (arguments : List String) : IO Surroundings := do
  let directory := FilePath.ofText (toString (← IO.currentDir))
  let bare : Surroundings := ⟨← ownVariables, directory, Runtime.installation, fun _ => .missing⟩
  let entries ← (placesToLook bare arguments).eraseDups.mapM fun path => do
    pure (path, ← look path)
  let entry (path : FilePath) : FileEntry := (entries.lookup path).getD .missing
  pure { bare with entry := Runtime.withInstallation entry }

/-- What a report adds to the error output. -/
def notes (report : Command.Report) : String :=
  let log := String.join (report.records.map fun r => r.line ++ "\n")
  match report.ending with
  | .failed fault => log ++ "Error: " ++ fault.message ++ "\n"
  | ending => log ++ Runtime.libraries.errors ending

end LooseData.Main

open LooseData Runtime in
/-- Run the program with its arguments. -/
def main (arguments : List String) : IO UInt32 := do
  let report := Command.run libraries (← Main.surroundings arguments) arguments
  IO.print (libraries.output report.ending)
  IO.eprint (Main.notes report)
  pure (UInt32.ofNat report.ending.exitCode)
