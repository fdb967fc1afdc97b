import LooseData.Runtime.Text.Line
import LooseData.Text.Quoted
import LooseData.Text.Split

set_option autoImplicit false

/-! # The styles of YAML scalars

A text can be written plainly if no reader takes it for something else: it must not look like a
number, a date, a boolean or null, and must hold no characters that structure a document.
Otherwise it is written between single quotes, or, if it holds special characters, between
double quotes.
-/

namespace LooseData.Yaml

/-- How a text is written. -/
inductive Style where
  | plain
  | single
  | double
deriving DecidableEq

/-! ## Texts that stand for something else -/

/-- The words for booleans, null, and the special keys. -/
def reservedWords : List String :=
  ["yes", "Yes", "YES", "no", "No", "NO", "true", "True", "TRUE", "false", "False", "FALSE",
    "on", "On", "ON", "off", "Off", "OFF", "~", "null", "Null", "NULL", "", "<<", "=",
    ".nan", ".NaN", ".NAN", ".inf", ".Inf", ".INF", "-.inf", "-.Inf", "-.INF", "+.inf", "+.Inf",
    "+.INF"]

/-- The text without a sign at its start. -/
def dropSign : List Char → List Char
  | '-' :: cs => cs
  | '+' :: cs => cs
  | cs => cs

/-- Whether a text consists of characters of a class and has some. -/
def allOf (test : Char → Bool) (cs : List Char) : Bool := !cs.isEmpty && cs.all test

/-- Whether a text is a digit and then digits and low lines. -/
def isGrouped : List Char → Bool
  | c :: cs => c.isDigit && cs.all fun d => d.isDigit || d == '_'
  | [] => false

/-- Whether a text is a number below sixty of one or two digits. -/
def isSixtieth : List Char → Bool
  | [c] => c.isDigit
  | [c, d] => '0' ≤ c && c ≤ '5' && d.isDigit
  | _ => false

/-- Whether a text is a number of more than one place in base sixty. -/
def isSexagesimal (cs : List Char) : Bool :=
  match Text.splitBy (· == ':') cs with
  | first :: second :: rest => isGrouped first && (second :: rest).all isSixtieth
  | _ => false

/-- Whether a text without a sign looks like a whole number. -/
def looksWhole : List Char → Bool
  | '0' :: 'b' :: cs => allOf (fun c => c == '0' || c == '1' || c == '_') cs
  | '0' :: 'x' :: cs => allOf (fun c =>
      c.isDigit || ('a' ≤ c && c ≤ 'f') || ('A' ≤ c && c ≤ 'F') || c == '_') cs
  | '0' :: cs => cs.all fun c => ('0' ≤ c && c ≤ '7') || c == '_'
  | cs => isGrouped cs || isSexagesimal cs

/-- Whether a text is empty or an exponent with a sign. -/
def isExponent : List Char → Bool
  | [] => true
  | e :: sign :: digits =>
    (e == 'e' || e == 'E') && (sign == '-' || sign == '+') && allOf Char.isDigit digits
  | _ => false

/-- Whether a text consists of fraction digits and an optional exponent. -/
def isFraction (cs : List Char) : Bool :=
  isExponent (cs.dropWhile fun c => c.isDigit || c == '_')

/-- Whether a text looks like a number with a point. -/
def looksFractional (cs : List Char) : Bool :=
  let unsigned := dropSign cs
  let whole := unsigned.takeWhile (· ≠ '.')
  match unsigned.dropWhile (· ≠ '.') with
  | _ :: fraction =>
    (isGrouped whole && isFraction fraction)
      || (cs.head? == some '.' && (fraction.head?.any Char.isDigit) && isFraction fraction)
      || (isSexagesimal whole && fraction.all fun c => c.isDigit || c == '_')
  | [] => false

/-- Whether a text is a number of the given counts of digits. -/
def isDigitsOf (counts : List Nat) (cs : List Char) : Bool :=
  counts.contains cs.length && cs.all Char.isDigit

/-- Whether a text is a time of the day with an optional fraction and zone. -/
def isTime (cs : List Char) : Bool :=
  match Text.splitBy (· == ':') cs with
  | hours :: minutes :: rest =>
    let seconds := Text.joinWith ':' rest
    let tail := match seconds.drop 2 with
      | '.' :: fraction => fraction.dropWhile Char.isDigit
      | tail => tail
    isDigitsOf [1, 2] hours && isDigitsOf [2] minutes && isDigitsOf [2] (seconds.take 2)
      && isZone (tail.dropWhile fun c => c == ' ' || c == '\t')
  | _ => false
where
  /-- Whether a text is empty or a zone. -/
  isZone : List Char → Bool
    | [] => true
    | ['Z'] => true
    | sign :: cs => (sign == '-' || sign == '+')
      && match Text.splitBy (· == ':') cs with
        | [hours] => isDigitsOf [1, 2] hours
        | [hours, minutes] => isDigitsOf [1, 2] hours && isDigitsOf [2] minutes
        | _ => false

/-- Whether a text looks like a date, or like a date with a time. -/
def looksDated (cs : List Char) : Bool :=
  match Text.splitBy (· == '-') (cs.take 10) with
  | [year, month, day] =>
    let dayDigits := day.takeWhile Char.isDigit
    let dateLength := year.length + month.length + dayDigits.length + 2
    let rest := cs.drop dateLength
    isDigitsOf [4] year
      && ((isDigitsOf [2] month && isDigitsOf [2] dayDigits && rest.isEmpty)
        || (isDigitsOf [1, 2] month && isDigitsOf [1, 2] dayDigits
          && match rest with
            | 'T' :: time => isTime time
            | 't' :: time => isTime time
            | c :: time => (c == ' ' || c == '\t')
              && isTime (time.dropWhile fun d => d == ' ' || d == '\t')
            | [] => false))
  | _ => false

/-- Whether a plain text stands for something else than itself. -/
def looksTyped (cs : List Char) : Bool :=
  reservedWords.contains (String.ofList cs) || looksWhole (dropSign cs) || looksFractional cs
    || looksDated cs

/-! ## Characters that structure a document -/

/-- Whether a character counts as blank around indicators. -/
def isSpacing (c : Char) : Bool :=
  c == '\x00' || c == ' ' || c == '\t' || c == '\r' || Text.isLineBreak c

/-- Whether a character can only be written as an escape. -/
def isSpecial (c : Char) : Bool := !(c == '\n' || (0x20 ≤ c.toNat && c.toNat ≤ 0x7E))

/-- The characters that no plain text starts with. -/
def leadingIndicators : List Char :=
  ['#', ',', '[', ']', '\x7b', '\x7d', '&', '*', '!', '|', '>', '\'', '"', '%', '@', '\x60']

/-- Whether the characters after the first hold an indicator: a colon before a blank or the end,
or a number sign after a blank. `before` is the character in front. -/
def holdsIndicator (before : Char) : List Char → Bool
  | [] => false
  | c :: cs =>
    (c == ':' && (cs.head?.all isSpacing)) || (c == '#' && isSpacing before)
      || holdsIndicator c cs

/-- Whether a text holds characters that structure a document outside of brackets. -/
def hasIndicators : List Char → Bool
  | [] => false
  | c :: cs =>
    let marks := ['-', '-', '-'].isPrefixOf (c :: cs) || ['.', '.', '.'].isPrefixOf (c :: cs)
    marks || leadingIndicators.contains c
      || ((c == '?' || c == ':' || c == '-') && (cs.head?.all isSpacing))
      || holdsIndicator c cs

/-- Whether two neighbouring characters are as given. -/
def holdsPair (first second : Char → Bool) : List Char → Bool
  | c :: d :: cs => (first c && second d) || holdsPair first second (d :: cs)
  | _ => false

/-- Whether a text can be written plainly. -/
def plainAllowed (cs : List Char) : Bool :=
  let ends := [cs.head?, cs.getLast?].any fun c => c.any fun c => c == ' ' || Text.isLineBreak c
  !(ends || cs.any Text.isLineBreak || cs.any isSpecial || hasIndicators cs || looksTyped cs)

/-- Whether a text can be written between single quotes. -/
def singleAllowed (cs : List Char) : Bool :=
  !(cs.any isSpecial || holdsPair Text.isLineBreak (· == ' ') cs
    || holdsPair (· == ' ') Text.isLineBreak cs)

/-- The style of a text. The key of an entry must stand on one line. -/
def styleOf (isKey : Bool) (cs : List Char) : Style :=
  if plainAllowed cs then .plain
  else if singleAllowed cs && !(isKey && cs.any Text.isLineBreak) then .single
  else .double

end LooseData.Yaml
