set_option autoImplicit false

/-! # What can be wrong with a configuration

Problems with a configuration file as a whole, and complaints about single settings. Every
complaint has a place: the names and numbers that lead to the setting.
-/

namespace LooseData.Config

/-- What can be wrong with a configuration file. -/
inductive FileProblem where
  | unreadable
  | malformed
  | notMapping (kind : String)
  | defaultsMissing
  | defaultsEmpty
deriving DecidableEq

/-- The wording of a problem with a file. -/
def FileProblem.message : FileProblem → String
  | .unreadable => "cannot read file"
  | .malformed => "invalid YAML"
  | .notMapping kind => "config must be a YAML mapping (dict), got " ++ kind
  | .defaultsMissing => "built-in defaults not found (possible installation problem)"
  | .defaultsEmpty => "built-in defaults file is empty (possible installation problem)"

/-- What can be wrong with a setting. -/
inductive Complaint where
  /-- A text is needed. -/
  | notText
  /-- Bytes are given for a text that are none in their encoding. -/
  | undecodable
  /-- A whole number is needed. -/
  | notWhole
  /-- A text is given that does not hold a whole number. -/
  | unreadableNumber
  /-- A text is given that holds a whole number with too many digits, or a double that is too
  large. -/
  | numberTooLong
  /-- A number is given that is not whole. -/
  | fraction
  /-- An infinity or a NaN is given. -/
  | notFinite
  | negative
  /-- A text or a number is given that is no log level. -/
  | unknownLevel
  /-- A mapping of settings is needed. -/
  | notSection
  /-- A mapping is needed. -/
  | notMapping
  /-- The name of a setting is no text. -/
  | nameNotText
deriving DecidableEq

/-- A step on the way to a setting. -/
inductive PlacePart where
  | name (s : String)
  | number (i : Int)
deriving DecidableEq

/-- The way to a setting. -/
abbrev Place := List PlacePart

/-- The place of the setting of a name in a section. -/
def Place.child (place : Place) (name : String) : Place := place ++ [PlacePart.name name]

/-- A complaint and its place. -/
structure Violation where
  place : Place
  complaint : Complaint
deriving DecidableEq

end LooseData.Config
