import LooseData.Runtime.Arguments.Misuse
import LooseData.Runtime.Text.Similarity

set_option autoImplicit false

/-! # Arguments of the command line

An argument that starts with a dash names switches: one by its name after two dashes, with a
value after an equals sign if it takes one, or several by their letters after one dash. A switch
that takes a value and has none of its own takes the next argument. Two dashes alone end the
switches. Everything else is a plain argument.
-/

namespace LooseData.Command

/-- Whether a switch takes a value. -/
def Takes.takesValue : Takes → Bool
  | .text _ | .file => true
  | _ => false

/-- A switch as it was given. -/
structure Use where
  name : String
  value : Option String

/-- Arguments sorted into switches and plain arguments, both in order. -/
structure Arguments where
  uses : List Use
  plain : List String

namespace Arguments

/-- The arguments with switches in front. -/
def withUses (a : Arguments) (uses : List Use) : Arguments :=
  { a with uses := uses ++ a.uses }

/-- The arguments with a plain one in front. -/
def withPlain (a : Arguments) (argument : String) : Arguments :=
  { a with plain := argument :: a.plain }

/-- Whether a switch was given. -/
def has (a : Arguments) (name : String) : Bool := a.uses.any fun u => u.name == name

/-- The value of a switch; the last one counts. -/
def value? (a : Arguments) (name : String) : Option String :=
  (a.uses.reverse.find? fun u => u.name == name).bind Use.value

/-- The names of the given switches, each once, in the order of their first use. -/
def names (a : Arguments) : List String := (a.uses.map Use.name).eraseDups

end Arguments

/-- What a single argument is. -/
inductive Piece where
  /-- The end of the switches. -/
  | ending
  | plain
  | switches (uses : List Use)
  /-- A switch that takes the next argument as its value. -/
  | awaiting (name : String)

namespace Piece

/-- The name and the value in an argument of the form `name=value`. -/
def split (argument : String) : String × Option String :=
  let cs := argument.toList
  match cs.dropWhile (· ≠ '=') with
  | _ :: value => (String.ofList (cs.takeWhile (· ≠ '=')), some (String.ofList value))
  | [] => (argument, none)

/-- A known switch with the value in its own argument. -/
def ofSwitch (value : Option String) (switch : Switch) : Except Misuse Piece :=
  match switch.takes.takesValue, value with
  | true, some v => .ok (.switches [⟨switch.name, some v⟩])
  | true, none => .ok (.awaiting switch.name)
  | false, some _ => .error (.valueUnwanted switch.name)
  | false, none => .ok (.switches [⟨switch.name, none⟩])

/-- The switch that a letter stands for. -/
def ofLetter (switches : List Switch) (c : Char) : Except Misuse Use :=
  match switches.find? (·.letter == some c) with
  | some switch => .ok ⟨switch.name, none⟩
  | none => .error (.unknownSwitch ("-" ++ String.singleton c) [])

/-- What an argument is for a command with the given switches. -/
def ofArgument (switches : List Switch) (argument : String) : Except Misuse Piece :=
  match argument.toList with
  | ['-', '-'] => .ok .ending
  | '-' :: c :: letters =>
    let (name, value) := split argument
    match switches.find? fun switch => switch.name == name with
    | some switch => ofSwitch value switch
    | none =>
      if c = '-' then .error (.unknownSwitch name (Text.similarTo name (switches.map Switch.name)))
      else ((c :: letters).mapM (ofLetter switches)).map .switches
  | _ => .ok .plain

end Piece

/-- Sort arguments for a command with the given switches. `mixed` tells whether switches may
stand behind plain arguments. -/
def Arguments.read (switches : List Switch) (mixed : Bool) :
    List String → Except Misuse Arguments
  | [] => .ok ⟨[], []⟩
  | argument :: rest =>
    match Piece.ofArgument switches argument with
    | .error misuse => .error misuse
    | .ok .ending => .ok ⟨[], rest⟩
    | .ok .plain =>
      if mixed then (Arguments.read switches mixed rest).map fun a => a.withPlain argument
      else .ok ⟨[], argument :: rest⟩
    | .ok (.switches uses) =>
      (Arguments.read switches mixed rest).map fun a => a.withUses uses
    | .ok (.awaiting name) =>
      match rest with
      | [] => .error (.valueMissing name)
      | value :: rest =>
        (Arguments.read switches mixed rest).map fun a => a.withUses [⟨name, some value⟩]

end LooseData.Command
