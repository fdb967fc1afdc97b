import LooseData.Layer.Index
import LooseData.Text.Encoding

set_option autoImplicit false

/-! # Reading JSON

The reader goes through the characters of a document and returns the value read together with
the characters that follow. When it stops early, it says what is wrong and which characters
were still ahead, so that the place of the failure is known.

Objects become dictionaries, in which the last of several members of one name wins. A number
without fraction and exponent is a whole number. The dialects differ in what else is a number:
the names `NaN`, `Infinity` and `-Infinity` are refused in strict JSON and are numbers in extended
JSON.
-/

namespace LooseData.Json

/-- Which documents are read. -/
inductive Dialect where
  | strict
  /-- JSON with the numbers `NaN`, `Infinity` and `-Infinity`. -/
  | extended
deriving DecidableEq

/-- Why reading stopped. -/
inductive Stop where
  /-- A problem before the characters `ahead`. -/
  | wrong (problem : Problem) (ahead : List Char)
  /-- A name for a number that strict JSON does not have. -/
  | constant (name : String)
  /-- A whole number with too many digits. -/
  | numeralTooLong (digits : Nat)

/-- What reading yields: a value and the characters that follow it. -/
abbrev Read (α : Type) := Except Stop (α × List Char)

/-- Whether a character may stand between tokens. -/
def isBlank (c : Char) : Bool := c == ' ' || c == '\t' || c == '\n' || c == '\r'

/-- The characters after leading blanks. -/
def skipBlanks (cs : List Char) : List Char := cs.dropWhile isBlank

/-! ## Strings -/

/-- The value of a hexadecimal digit. -/
def hexValue? (c : Char) : Option Nat :=
  if c.isDigit then some (c.toNat - '0'.toNat)
  else if 'a' ≤ c ∧ c ≤ 'f' then some (c.toNat - 'a'.toNat + 10)
  else if 'A' ≤ c ∧ c ≤ 'F' then some (c.toNat - 'A'.toNat + 10)
  else none

/-- The value of four hexadecimal digits. -/
def unit? (a b c d : Char) : Option Nat := do
  pure ((((← hexValue? a) * 16 + (← hexValue? b)) * 16 + (← hexValue? c)) * 16 + (← hexValue? d))

/-- The character that a letter after a backslash stands for. -/
def escaped? : Char → Option Char
  | '"' => some '"'
  | '\\' => some '\\'
  | '/' => some '/'
  | 'b' => some '\x08'
  | 'f' => some '\x0c'
  | 'n' => some '\n'
  | 'r' => some '\r'
  | 't' => some '\t'
  | _ => none

/-- The code unit that an escape at the start of some characters stands for, if one starts there
with a character to follow it. -/
def escapedUnit? : List Char → Option (Except Stop Nat)
  | '\\' :: 'u' :: a :: b :: c :: d :: e :: ahead =>
    match unit? a b c d with
    | some n => some (.ok n)
    | none => some (.error (.wrong .invalidUnicodeEscape ('u' :: a :: b :: c :: d :: e :: ahead)))
  | _ => none

/-- The character that the characters after a backslash stand for, and how many of them do so.
`start` is the string with its opening quote. An escape for a code unit must be followed by at
least one character, which a closed string always has; the escape for the second of a pair of
surrogates belongs to that for the first. -/
def escape (start : List Char) : List Char → Except Stop (Char × Nat)
  | [] => .error (.wrong .unterminatedString start)
  | 'u' :: ahead =>
    match escapedUnit? ('\\' :: 'u' :: ahead) with
    | none => .error (.wrong .invalidUnicodeEscape ('u' :: ahead))
    | some (.error stop) => .error stop
    | some (.ok high) =>
      match if Text.isHighSurrogate high then escapedUnit? (ahead.drop 4) else none with
      | some (.error stop) => .error stop
      | some (.ok low) =>
        if Text.isLowSurrogate low then .ok (Text.charAt (Text.joinSurrogates high low), 11)
        else .ok (Text.charAt high, 5)
      | none => .ok (Text.charAt high, 5)
  | c :: ahead =>
    match escaped? c with
    | some c => .ok (c, 1)
    | none => .error (.wrong .invalidEscape ('\\' :: c :: ahead))

/-- Put a character in front of what is read after it. -/
def precede (c : Char) (read : Read (List Char)) : Read (List Char) :=
  read.map fun (cs, ahead) => (c :: cs, ahead)

/-- Read the rest of a string up to its closing quote, leaving out the first `used` characters,
which belong to an escape. `start` is the string with its opening quote, where a string that
never closes is reported. -/
def readString (start : List Char) : (used : Nat) → List Char → Read (List Char)
  | _, [] => .error (.wrong .unterminatedString start)
  | used + 1, _ :: ahead => readString start used ahead
  | 0, '"' :: ahead => .ok ([], ahead)
  | 0, '\\' :: ahead =>
    match escape start ahead with
    | .ok (c, used) => precede c (readString start used ahead)
    | .error stop => .error stop
  | 0, c :: ahead =>
    if c.toNat < 0x20 then .error (.wrong .controlCharacter (c :: ahead))
    else precede c (readString start 0 ahead)

/-! ## Numbers and names -/

/-- The digits at the start and the characters after them. -/
def digitsOf (cs : List Char) : List Char × List Char :=
  (cs.takeWhile Char.isDigit, cs.dropWhile Char.isDigit)

/-- The digits before the point: a single zero, or all digits at the start. -/
def wholeDigits : List Char → List Char × List Char
  | '0' :: ahead => (['0'], ahead)
  | cs => digitsOf cs

/-- The digits after a point. A point without digits is left alone. -/
def fractionDigits : List Char → List Char × List Char
  | '.' :: ahead => match digitsOf ahead with
    | ([], _) => ([], '.' :: ahead)
    | read => read
  | cs => ([], cs)

/-- The exponent after the letter for it. A letter without digits is left alone. -/
def exponent? : List Char → Option (Int × List Char)
  | e :: ahead =>
    if e = 'e' ∨ e = 'E' then
      let (negative, digits) := match ahead with
        | '-' :: digits => (true, digits)
        | '+' :: digits => (false, digits)
        | digits => (false, digits)
      match digitsOf digits with
      | ([], _) => none
      | (digits, ahead) =>
        let n : Int := numeralValue digits
        some (if negative then -n else n, ahead)
    else none
  | [] => none

/-- Read a number. -/
def readNumber (cs : List Char) : Read Value :=
  let (negative, unsigned) := match cs with
    | '-' :: ahead => (true, ahead)
    | _ => (false, cs)
  let (whole, ahead) := wholeDigits unsigned
  if whole.isEmpty then .error (.wrong .expectedValue cs)
  else
    let (fraction, ahead) := fractionDigits ahead
    let digits := numeralValue (whole ++ fraction)
    match exponent? ahead with
    | some (e, ahead) =>
      .ok (.double (Decimal.toDouble negative ⟨digits, e - fraction.length⟩), ahead)
    | none =>
      if !fraction.isEmpty then
        .ok (.double (Decimal.toDouble negative ⟨digits, -(fraction.length : Int)⟩), ahead)
      else if maxNumeralDigits < whole.length then .error (.numeralTooLong whole.length)
      else .ok (.int (if negative then -(digits : Int) else digits), ahead)

/-- The names of values, and what they stand for. -/
def names : List (String × Value) :=
  [("null", .null), ("true", .bool true), ("false", .bool false)]

/-- The names of numbers that strict JSON does not have. -/
def constants : List (String × Double) :=
  [("NaN", .nan 0), ("Infinity", .infinite false), ("-Infinity", .infinite true)]

/-- The characters after a word, if they start with it. -/
def after? : (word cs : List Char) → Option (List Char)
  | [], cs => some cs
  | w :: word, c :: cs => if w = c then after? word cs else none
  | _ :: _, [] => none

/-- The entry whose name the characters start with, and the characters after the name. -/
def named? {α : Type} (entries : List (String × α)) (cs : List Char) :
    Option ((String × α) × List Char) :=
  entries.findSome? fun entry => (after? entry.1.toList cs).map fun ahead => (entry, ahead)

/-- Read a name or a number. -/
def readScalar (dialect : Dialect) (cs : List Char) : Read Value :=
  match named? names cs, named? constants cs with
  | some ((_, v), ahead), _ => .ok (v, ahead)
  | none, some ((name, d), ahead) => match dialect with
    | .strict => .error (.constant name)
    | .extended => .ok (.double d, ahead)
  | none, none => readNumber cs

/-! ## Values -/

mutual

/-- Read a value, going at most `depth` steps deep. -/
def readValue (dialect : Dialect) : (depth : Nat) → List Char → Read Value
  | 0, cs => .error (.wrong .expectedValue cs)
  | depth + 1, cs =>
    match cs with
    | '"' :: ahead =>
      (readString cs 0 ahead).map fun (text, ahead) => (.text (String.ofList text), ahead)
    | '[' :: ahead =>
      match skipBlanks ahead with
      | ']' :: ahead => .ok (.list [], ahead)
      | ahead => (readItems dialect depth ahead).map fun (items, ahead) => (.list items, ahead)
    | '{' :: ahead =>
      match skipBlanks ahead with
      | '}' :: ahead => .ok (.dict [], ahead)
      | ahead => (readMembers dialect depth ahead).map fun (members, ahead) =>
        (.dict (Table.ofList members), ahead)
    | cs => readScalar dialect cs

/-- Read the items of an array up to its closing bracket. -/
def readItems (dialect : Dialect) : (depth : Nat) → List Char → Except Stop (List Value × List Char)
  | 0, cs => .error (.wrong .expectedValue cs)
  | depth + 1, cs => do
    let (v, ahead) ← readValue dialect depth cs
    match skipBlanks ahead with
    | ']' :: ahead => .ok ([v], ahead)
    | ',' :: ahead =>
      let (items, ahead) ← readItems dialect depth (skipBlanks ahead)
      .ok (v :: items, ahead)
    | ahead => .error (.wrong .expectedComma ahead)

/-- Read the members of an object up to its closing brace. -/
def readMembers (dialect : Dialect) :
    (depth : Nat) → List Char → Except Stop (List (Key × Value) × List Char)
  | 0, cs => .error (.wrong .expectedName cs)
  | depth + 1, cs =>
    match cs with
    | '"' :: ahead => do
      let (name, ahead) ← readString cs 0 ahead
      match skipBlanks ahead with
      | ':' :: ahead =>
        let (v, ahead) ← readValue dialect depth (skipBlanks ahead)
        let member := (Key.text (String.ofList name), v)
        match skipBlanks ahead with
        | '}' :: ahead => .ok ([member], ahead)
        | ',' :: ahead =>
          let (members, ahead) ← readMembers dialect depth (skipBlanks ahead)
          .ok (member :: members, ahead)
        | ahead => .error (.wrong .expectedComma ahead)
      | ahead => .error (.wrong .expectedColon ahead)
    | cs => .error (.wrong .expectedName cs)

end

/-! ## Documents -/

/-- The fault of a document in which reading stopped. -/
def Stop.toFault (document : List Char) : Stop → Fault
  | .wrong problem ahead =>
    .json (.after problem (document.take (document.length - ahead.length)))
  | .constant name => .json (.after (.constant name) [])
  | .numeralTooLong digits => .numeralTooLong digits

/-- Read a whole document. Blanks may surround the value. Of two steps deeper into a value at
least one takes a character, so the length of the document bounds the depth. -/
def readDocument (dialect : Dialect) (cs : List Char) : Except Stop Value := do
  let (v, ahead) ← readValue dialect (2 * cs.length + 2) (skipBlanks cs)
  match skipBlanks ahead with
  | [] => .ok v
  | ahead => .error (.wrong .extraData ahead)

/-- The value of a document without a byte order mark. -/
def ofChars (dialect : Dialect) (cs : List Char) : Except Fault Value :=
  (readDocument dialect cs).mapError (·.toFault cs)

/-- The value of a document in a dialect. -/
def ofTextIn (dialect : Dialect) (s : String) : Except Fault Value :=
  match s.toList with
  | '\uFEFF' :: cs => .error ((Stop.wrong .byteOrderMark ('\uFEFF' :: cs)).toFault ('\uFEFF' :: cs))
  | cs => ofChars dialect cs

/-- The value of a strict document. -/
def ofText (s : String) : Except Fault Value := ofTextIn .strict s

/-- The value of an encoded document. -/
def ofBytes (bytes : List UInt8) : Except Fault Value :=
  match Text.ofBytes? bytes with
  | some cs => ofChars .strict cs
  | none => .error .undecodable

/-- The value of a document that is given as a text or encoded. -/
def decode : Value → Except Fault Value
  | .atom (.text s) => ofText s
  | .atom (.bytes bytes) => ofBytes bytes
  | .node (.buffer bytes) => ofBytes bytes
  | _ => .error .notJsonText

/-- A text that is a document decoded; everything else as it is. -/
def decodeText (v : Value) : Value :=
  match v with
  | .atom (.text s) => (ofText s).toOption.getD v
  | v => v

end LooseData.Json
