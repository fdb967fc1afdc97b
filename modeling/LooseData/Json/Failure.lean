import LooseData.Text.Quoted

set_option autoImplicit false

/-! # Why a text is no JSON document

A failure names the problem and the place where reading stopped: line and column counted
from one, and the offset in characters counted from zero.
-/

namespace LooseData.Json

/-- What is wrong with a text. -/
inductive Problem where
  | expectedValue
  | expectedName
  | expectedColon
  | expectedComma
  | extraData
  | unterminatedString
  | controlCharacter
  | invalidEscape
  | invalidUnicodeEscape
  | byteOrderMark
  /-- One of the names `NaN`, `Infinity` and `-Infinity`, which strict JSON does not have. -/
  | constant (name : String)
deriving DecidableEq

/-- The wording of a problem. -/
def Problem.message : Problem → String
  | .expectedValue => "Expecting value"
  | .expectedName => "Expecting property name enclosed in double quotes"
  | .expectedColon => "Expecting ':' delimiter"
  | .expectedComma => "Expecting ',' delimiter"
  | .extraData => "Extra data"
  | .unterminatedString => "Unterminated string starting at"
  | .controlCharacter => "Invalid control character at"
  | .invalidEscape => "Invalid \\escape"
  | .invalidUnicodeEscape => "Invalid \\uXXXX escape"
  | .byteOrderMark => "Unexpected UTF-8 BOM (decode using utf-8-sig)"
  | .constant name => "Invalid JSON constant " ++ Text.quote name

/-- A problem and its place in the text. -/
structure Failure where
  problem : Problem
  line : Nat
  column : Nat
  offset : Nat
deriving DecidableEq

/-- The failure at the point of `text` that the prefix `before` leads up to. -/
def Failure.after (problem : Problem) (before : List Char) : Failure where
  problem := problem
  line := before.count '\n' + 1
  column := (before.reverse.takeWhile (· ≠ '\n')).length + 1
  offset := before.length

/-- The wording of a failure. -/
def Failure.message (f : Failure) : String :=
  f.problem.message ++ ": line " ++ toString f.line ++ " column " ++ toString f.column
    ++ " (char " ++ toString f.offset ++ ")"

end LooseData.Json
