set_option autoImplicit false

/-! # Search patterns

A search pattern is the source text of a regular expression together with a flag that makes
letter case irrelevant. What it matches is not decided here: whatever searches with patterns takes
a `Matcher`.
-/

namespace LooseData

/-- A pattern to search for. -/
structure Pattern where
  source : String
  ignoreCase : Bool
deriving DecidableEq

/-- The flags of a pattern as a number: texts are matched by characters, and letter case may be
irrelevant. -/
def Pattern.flags (p : Pattern) : Nat := if p.ignoreCase then 34 else 32

/-- Whether a pattern matches somewhere in a text. -/
abbrev Matcher := Pattern → String → Bool

end LooseData
