import LooseData.Layer.Index
import LooseData.Logged
import LooseData.Text.Blank

set_option autoImplicit false

/-! # Log levels

A level is given by a name in any letter case or by a number from zero to five, and nothing
stands for the default. `Level.number` is the number that loggers compare.
-/

namespace LooseData

/-- How important a record must be to be shown. -/
inductive Level where
  | trace
  | debug
  | info
  | warning
  | error
deriving DecidableEq

namespace Level

/-- The number of a level. More important levels have higher numbers. -/
def number : Level → Nat
  | .trace => 5
  | .debug => 10
  | .info => 20
  | .warning => 30
  | .error => 40

/-- The level that is used when none is given. -/
def default : Level := .info

/-- The names of levels. -/
def names : List (String × Level) :=
  [("debug", .debug), ("error", .error), ("info", .info), ("log", .info), ("trace", .trace),
    ("warn", .warning), ("warning", .warning)]

/-- The levels that the numbers from zero on stand for. -/
def numbered : List Level := [.trace, .debug, .info, .info, .warning, .error]

/-- The fault of a value that is no level; `hint` says what would be. -/
def invalid {α : Type} (v : Value) (hint : String) : Except Fault α := do
  throw (.invalidLevel (← v.display?) hint)

/-- The level of a number. -/
def ofInt (i : Int) : Except Fault Level :=
  match (if 0 ≤ i then numbered[i.toNat]? else none) with
  | some l => .ok l
  | none => invalid (.int i) (" (expected 0-" ++ toString (numbered.length - 1) ++ ")")

/-- The level of a text. -/
def ofText (s : String) : Except Fault Level := do
  let name := Text.lower (String.ofList (Text.trim s.toList))
  match ← numeral? name with
  | some n => ofInt n
  | none => match names.lookup name with
    | some l => pure l
    | none => invalid (.text s) (". Valid: " ++ commaSeparated (names.map Prod.fst))

/-- The level that a value stands for. -/
def ofValue : Value → Except Fault Level
  | .atom .null => .ok default
  | .atom (.int i) => ofInt i
  | .atom (.text s) => ofText s
  | v => invalid v ""

/-- The level of a record. -/
def ofSeverity : Severity → Level
  | .trace => .trace
  | .debug => .debug

/-- Whether a record is important enough to be shown at a level. -/
def admits (level : Level) (r : Record) : Bool :=
  decide (level.number ≤ (ofSeverity r.severity).number)

end Level

/-- A logger: its name, its own level, and the levels of its handlers. -/
structure Logger where
  name : String
  level : Level
  handlers : List Level

namespace Logger

/-- The name of the logger of this library. -/
def ownName : String := "stepdata"

/-- The logger with one handler, which replaces an earlier one; both have the given level. -/
def configure (level : Value) : Except Fault Logger :=
  (Level.ofValue level).map fun l => ⟨ownName, l, [l]⟩

end Logger

end LooseData
