import LooseData.Runtime.Settings.Whole
import LooseData.Level
import LooseData.Text.Encoding

set_option autoImplicit false

/-! # Reading single settings

A setting is read leniently: a text may be given as bytes, a whole number as a text or as a double
without a fraction, and either as a member of an enumeration whose value is one. What cannot be
read so has a complaint. Complaints about several settings are reported together.
-/

namespace LooseData.Config

/-- What reading yields: a value, or complaints. -/
abbrev Checked (α : Type) := Except (List Violation) α

/-- The result of a reading that has one complaint. -/
def complain {α : Type} (place : Place) (complaint : Complaint) : Checked α :=
  .error [⟨place, complaint⟩]

/-- Two readings, whose complaints are reported together. -/
def both {α β : Type} (a : Checked α) (b : Checked β) : Checked (α × β) :=
  match a, b with
  | .ok x, .ok y => .ok (x, y)
  | .ok _, .error ys => .error ys
  | .error xs, .ok _ => .error xs
  | .error xs, .error ys => .error (xs ++ ys)

/-- The reading of a single value, with a complaint about its place. -/
def located {α : Type} (place : Place) (x : Except Complaint α) : Checked α :=
  x.mapError fun complaint => [⟨place, complaint⟩]

/-! ## Texts -/

/-- The bytes of a byte string or a buffer. -/
def bytes? : Value → Option (List UInt8)
  | .atom (.bytes bytes) => some bytes
  | .node (.buffer bytes) => some bytes
  | _ => none

/-- The text that bytes encode. -/
def decoded (invalid : Complaint) (bytes : List UInt8) : Except Complaint String :=
  match Text.decodeUtf8 bytes with
  | some cs => .ok (String.ofList cs)
  | none => .error invalid

/-- The value of a member of an enumeration as an atom. -/
def memberValue? : Value → Option Atom
  | .atom (.member e name) => (e.constants.lookup name).map Atom.ofConstant
  | _ => none

/-- The text that a value stands for. -/
def textOf (v : Value) : Except Complaint String :=
  match v, bytes? v, memberValue? v with
  | .atom (.text s), _, _ => .ok s
  | _, some bytes, _ => decoded .undecodable bytes
  | _, none, some a => .ok (Value.atom a).shown
  | _, none, none => .error .notText

/-! ## Whole numbers -/

/-- The greatest magnitude that a double may have to be read as a whole number. -/
def maxWholeDouble : Nat := Nat.pow 2 63 - 1

/-- The whole number that a double stands for. -/
def wholeOfDouble (d : Double) : Except Complaint Int :=
  match d, d.toInt? with
  | .finite .., some i => if i.natAbs ≤ maxWholeDouble then .ok i else .error .numberTooLong
  | .finite .., none => .error .fraction
  | _, _ => .error .notFinite

/-- The whole number that a value stands for. -/
def whole (v : Value) : Except Complaint Int :=
  match v, bytes? v, memberValue? v with
  | .atom (.int i), _, _ => .ok i
  | .atom (.bool b), _, _ => .ok (if b then 1 else 0)
  | .atom (.double d), _, _ => wholeOfDouble d
  | .atom (.text s), _, _ => wholeOfText s
  | _, some bytes, _ => do wholeOfText (← decoded .unreadableNumber bytes)
  | _, none, some (.int i) => .ok i
  | _, none, _ => .error .notWhole

/-! ## Settings -/

/-- A level as it is given: a text or a whole number. -/
def levelForm (place : Place) (v : Value) : Checked Value :=
  match v, textOf v, whole v with
  | _, .ok s, _ => .ok (.text s)
  | _, .error _, .ok i => .ok (.int i)
  | _, .error forText, .error forNumber =>
    .error [⟨place.child "str", forText⟩, ⟨place.child "int", forNumber⟩]

/-- A level that is known. -/
def levelAt (place : Place) (v : Value) : Checked Value := do
  let v ← levelForm place v
  match Level.ofValue v with
  | .ok _ => pure v
  | .error _ => complain place .unknownLevel

/-- A limit for nested tags, which null leaves out. -/
def limitAt (place : Place) (v : Value) : Checked (Option Int) :=
  if v.isNull then .ok none
  else do
    let i ← located place (whole v)
    if i < 0 then complain place .negative else pure (some i)

/-! ## Keys -/

/-- Whether a whole number is a step of its own on the way to a setting. -/
def isPlaceNumber (i : Int) : Bool := -Nat.pow 2 63 ≤ i && i < Nat.pow 2 63

/-- A key as a step on the way to a setting. -/
def PlacePart.ofKey (key : Key) : PlacePart :=
  match key with
  | .atom (.text s) => .name s
  | .atom (.bool b) => .number (if b then 1 else 0)
  | .atom (.int i) => if isPlaceNumber i then .number i else .name key.display
  | key => .name key.display

/-- Entries whose keys must be texts. -/
def namedEntries (place : Place) (entries : Table Value) : Checked (Table Value) :=
  let wrong := entries.filterMap fun e => match e.1 with
    | .atom (.text _) => none
    | key => some (⟨place ++ [PlacePart.ofKey key], .nameNotText⟩ : Violation)
  if wrong.isEmpty then .ok entries else .error wrong

/-- The key of an entry read as a text. -/
def keyAt (place : Place) (key : Key) : Checked String :=
  located (place ++ [PlacePart.ofKey key, .name "[key]"]) (textOf (.ofKey key))

/-- Entries with their keys read as texts. -/
def keyedEntries (place : Place) (entries : Table Value) : Checked (Table Value) :=
  entries.foldl (fun read e => (both read (keyAt place e.1)).map fun (read, name) =>
    Table.set read (.text name) e.2) (.ok [])

end LooseData.Config
