import LooseData.Runtime.Arguments.Sorting

set_option autoImplicit false

/-! # Reading arguments

The arguments of a command are sorted, its switches are checked in the order of their first use, and
then what is left must be what the command takes. A switch that asks for help or a version comes
before all checks.
-/

namespace LooseData.Command

variable {α : Type}

/-- The end of a run in which the command was misused. -/
def Usage.misused (u : Usage) (misuse : Misuse) : Except Ending α := .error (misuse.ending u)

/-- The ending that a switch asks for in place of the command. -/
def Switch.ending? (u : Usage) (switch : Switch) : Option Ending :=
  match switch.takes with
  | .help => some (.settled 0 u.line "")
  | .version number => some (.settled 0 (u.path ++ ", version " ++ number ++ "\n") "")
  | _ => none

/-- Check the value of a switch. The file that it names must be there. -/
def Switch.check (s : Surroundings) (u : Usage) (switch : Switch) (value : String) :
    Except Ending Unit :=
  match switch.takes with
  | .text check => match check value with
    | .ok _ => .ok ()
    | .error reason => u.misused (.invalidValue switch.name reason)
  | .file =>
    if value.contains '\x00' then .error (.failed .nullInName)
    else match s.lookAt value with
    | .file _ => .ok ()
    | .directory =>
      u.misused (.invalidValue switch.name ("File " ++ Text.quote value ++ " is a directory."))
    | .missing | .unnameable =>
      u.misused (.invalidValue switch.name ("File " ++ Text.quote value ++ " does not exist."))
  | _ => .ok ()

/-- Sort the arguments of a command, and check its switches. `mixed` tells whether switches may
stand behind other arguments. -/
def Form.sort (f : Form) (u : Usage) (mixed : Bool) (s : Surroundings) (arguments : List String) :
    Except Ending (List (String × String) × List String) := do
  let a ← match Arguments.read f.switches mixed arguments with
    | .error misuse => u.misused misuse
    | .ok a => pure a
  let used := a.names.filterMap fun name => f.switches.find? (·.name == name)
  match used.findSome? (Switch.ending? u) with
  | some ending => throw ending
  | none =>
    let values := used.map fun switch => (switch, (a.value? switch.name).getD "")
    for (switch, value) in values do
      switch.check s u value
    pure (values.map fun v => (v.1.name, v.2), a.plain)

/-- What arguments give for a command. -/
def readForm (f : Form) (s : Surroundings) (arguments : List String) : Except Ending Given := do
  let u := Usage.ofForm f
  let (switches, plain) ← f.sort u true s arguments
  match f.argument, plain with
  | none, [] => pure ⟨switches, ""⟩
  | some _, [argument] => pure ⟨switches, argument⟩
  | some name, [] => u.misused (.argumentMissing name)
  | none, extra :: others | some _, _ :: extra :: others => u.misused (.argumentsLeft extra others)

/-- What arguments give for a command with commands of its own. A word that is none of these and
starts with a dash is read as a switch first. -/
def readGroup (g : Group α) (s : Surroundings) (arguments : List String) :
    Except Ending (Given × α × List String) := do
  let u := Usage.ofGroup g
  let (switches, plain) ← g.form.sort u false s arguments
  match plain with
  | [] => u.misused .commandMissing
  | word :: rest => match g.commands.lookup word with
    | some command => pure (⟨switches, ""⟩, command, rest)
    | none => do
      if word.startsWith "-" then
        let _ ← g.form.sort u false s plain
      u.misused (.unknownCommand word (Text.similarTo word (g.commands.map Prod.fst)))

end LooseData.Command
