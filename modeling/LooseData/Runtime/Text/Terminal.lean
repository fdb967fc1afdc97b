set_option autoImplicit false

/-! # Texts without terminal sequences

A terminal sequence is an escape, an opening bracket, any number of digits, semicolons and
question marks, and a letter. It changes how a terminal shows what follows it and has no place
in a text that is not shown on one.
-/

namespace LooseData.Text

/-- Whether a character may stand between the bracket and the letter of a terminal sequence. -/
def isParameter (c : Char) : Bool := c.isDigit || c == ';' || c == '?'

/-- How many characters the terminal sequence at the start has after its escape, if one starts
there. -/
def sequenceLength? : List Char → Option Nat
  | '\x1b' :: '[' :: cs =>
    match cs.dropWhile isParameter with
    | c :: _ => if c.isAlpha then some ((cs.takeWhile isParameter).length + 2) else none
    | [] => none
  | _ => none

/-- The text without terminal sequences, of which `used` characters at the start still belong
to one. -/
def plainFrom : (used : Nat) → List Char → List Char
  | _, [] => []
  | used + 1, _ :: cs => plainFrom used cs
  | 0, c :: cs => match sequenceLength? (c :: cs) with
    | some length => plainFrom length cs
    | none => c :: plainFrom 0 cs

/-- The text without terminal sequences. -/
def plain (s : String) : String := String.ofList (plainFrom 0 s.toList)

end LooseData.Text
