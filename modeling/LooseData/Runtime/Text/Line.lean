set_option autoImplicit false

/-! # Lines within a text

Where the lines of a text end, and how lines are folded into one: the blanks around a line break
are dropped, a single break becomes a blank, and of several breaks the first is dropped. The
separators of lines and of paragraphs are breaks that are never dropped themselves.
-/

namespace LooseData.Text

/-- Whether a character ends a line. -/
def isLineBreak (c : Char) : Bool := c == '\n' || c == '\x85' || c == '\u2028' || c == '\u2029'

/-- The text with a line feed in place of every carriage return, alone or before a line feed. -/
def withLineFeeds : List Char → List Char
  | [] => []
  | '\r' :: '\n' :: cs => '\n' :: withLineFeeds cs
  | '\r' :: cs => '\n' :: withLineFeeds cs
  | c :: cs => c :: withLineFeeds cs

/-- What line breaks with nothing but blanks between them are folded into. -/
def foldedBreaks (breaks : List Char) : List Char :=
  match breaks.map fun c => if c == '\x85' then '\n' else c with
  | ['\n'] => [' ']
  | '\n' :: breaks => breaks
  | breaks => breaks

end LooseData.Text
