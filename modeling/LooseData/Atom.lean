import LooseData.Number.Form
import LooseData.Pattern
import LooseData.Text.Quoted

set_option autoImplicit false

/-! # Values without parts

The values that hold no other values: null, booleans, whole numbers, doubles, texts, byte
strings, search patterns, enumerations with their members, functions, and the methods that
numbers, patterns and enumerations have as attributes.

Atoms of different kinds may stand for the same number: a boolean counts as 0 or 1 and a
double as the whole number that it equals. `Atom.canon` picks one atom for each number, so that
two atoms are the same for a container exactly when their canonical forms are equal.
-/

namespace LooseData

/-- The value of a member of an enumeration. -/
inductive Constant where
  | text (s : String)
  | int (i : Int)
deriving DecidableEq

/-- A class of named constants. A name whose constant occurred before is an alias of the name
that had it first. -/
structure Enumeration where
  name : String
  constants : List (String × Constant)
deriving DecidableEq

/-- The functions that ship with the library as tag handlers. -/
inductive Builtin where
  | array
  | bool
  | config
  | state
  | number
  | int
  | json
  | none
deriving DecidableEq

/-- A function that can be stored as a value. Functions supplied from outside are known by
name; what they do is a parameter of the evaluation. -/
inductive FunctionName where
  | builtin (b : Builtin)
  | custom (name : String)
deriving DecidableEq

/-- What a method belongs to: a value, or the type of values of a kind. -/
inductive Receiver where
  | bool (b : Bool)
  | int (i : Int)
  | double (d : Double)
  | pattern (p : Pattern)
  | enumeration (e : Enumeration)
  | type (name : String)
deriving DecidableEq

/-- The name of the kind of a receiver. -/
def Receiver.kind : Receiver → String
  | .bool _ => "bool"
  | .int _ => "int"
  | .double _ => "float"
  | .pattern _ => "re.Pattern"
  | .enumeration _ => "EnumType"
  | .type _ => "type"

/-- A function that is an attribute of a value. -/
structure Method where
  receiver : Receiver
  name : String
deriving DecidableEq

/-- A value without parts. -/
inductive Atom where
  | null
  | bool (b : Bool)
  | int (i : Int)
  | double (d : Double)
  | text (s : String)
  | bytes (bytes : List UInt8)
  | pattern (p : Pattern)
  | enumeration (e : Enumeration)
  | member (e : Enumeration) (name : String)
  | function (f : FunctionName)
  | method (m : Method)
deriving DecidableEq

/-- The name that a name of an enumeration is an alias of; a name of its own stands for
itself. -/
def Enumeration.memberName? (e : Enumeration) (name : String) : Option String :=
  (e.constants.lookup name).bind fun c =>
    (e.constants.find? fun entry => entry.2 == c).map Prod.fst

/-- The members of an enumeration, without aliases. -/
def Enumeration.members (e : Enumeration) : List (String × Constant) :=
  e.constants.filter fun entry => e.memberName? entry.1 == some entry.1

namespace Atom

/-- The atom of a constant. -/
def ofConstant : Constant → Atom
  | .text s => .text s
  | .int i => .int i

/-- The methods of the given names. -/
def methods (receiver : Receiver) (names : List String) : List (String × Atom) :=
  names.map fun name => (name, .method ⟨receiver, name⟩)

/-- The attributes of a whole number, or of a boolean that counts as one. -/
def intAttributes (receiver : Receiver) (kind : String) (i : Int) : List (String × Atom) :=
  [("real", .int i), ("imag", .int 0), ("numerator", .int i), ("denominator", .int 1)]
    ++ methods receiver ["as_integer_ratio", "bit_count", "bit_length", "conjugate", "to_bytes"]
    ++ methods (.type kind) ["from_bytes"]

/-- The attributes of a double. -/
def doubleAttributes (d : Double) : List (String × Atom) :=
  [("real", .double d), ("imag", .double .zero)]
    ++ methods (.double d) ["as_integer_ratio", "conjugate", "hex", "is_integer"]
    ++ methods (.type "float") ["fromhex"]

/-- The attributes of a pattern that do not depend on what its source says. -/
def patternAttributes (p : Pattern) : List (String × Atom) :=
  [("pattern", .text p.source), ("flags", .int p.flags)]
    ++ methods (.pattern p) ["findall", "finditer", "fullmatch", "match", "scanner", "search",
      "split", "sub", "subn"]

/-- The attribute of an atom with the given name. An enumeration has its members as attributes,
and one method; a member has its name, its value, and the other members. -/
def attribute? : Atom → String → Option Atom
  | .bool b, name => (intAttributes (.bool b) "bool" (if b then 1 else 0)).lookup name
  | .int i, name => (intAttributes (.int i) "int" i).lookup name
  | .double d, name => (doubleAttributes d).lookup name
  | .pattern p, name => (patternAttributes p).lookup name
  | .enumeration e, name =>
    ((e.memberName? name).map (.member e)).or ((methods (.enumeration e) ["mro"]).lookup name)
  | .member e own, name =>
    if name = "name" then some (.text own)
    else if name = "value" then (e.constants.lookup own).map ofConstant
    else (e.memberName? name).map (.member e)
  | _, _ => none

/-- Whether attributes can be set on an atom, as on a class, its members, and a function. What is
set on them is not followed here. -/
def keepsAttributes : Atom → Bool
  | .enumeration _ | .member .. | .function _ => true
  | _ => false

/-- The representative of the atoms that a container treats as one. -/
def canon : Atom → Atom
  | .bool b => .int (if b then 1 else 0)
  | .double d => match d.toInt? with
    | some i => .int i
    | none => .double d
  | a => a

/-- Whether a container treats two atoms as one. -/
def same (a b : Atom) : Bool := a.canon == b.canon

/-- Whether an atom is a NaN, which equals nothing. -/
def isNaN : Atom → Bool
  | .double d => d.isNaN
  | _ => false

/-- The name of an atom's kind. -/
def kind : Atom → String
  | .null => "NoneType"
  | .bool _ => "bool"
  | .int _ => "int"
  | .double _ => "float"
  | .text _ => "str"
  | .bytes _ => "bytes"
  | .pattern _ => "Pattern"
  | .enumeration _ => "EnumType"
  | .member e _ => e.name
  | .function _ => "function"
  | .method _ => "builtin_function_or_method"

/-- How many characters of the quoted source of a pattern are shown. -/
def patternWidth : Nat := 200

/-- The display of a search pattern. A long source is cut off. -/
def showPattern (p : Pattern) : String :=
  "re.compile(" ++ String.ofList ((Text.quoteChars p.source.toList).take patternWidth)
    ++ (if p.ignoreCase then ", re.IGNORECASE)" else ")")

/-- The display of a method. Where in memory its receiver lies is left out. -/
def showMethod (m : Method) : String :=
  "<built-in method " ++ m.name ++ " of " ++ m.receiver.kind ++ " object>"

/-- The display of a constant. -/
def showConstant : Constant → String
  | .text s => Text.quote s
  | .int i => toString i

/-- The display of an atom, as it appears inside containers and in messages. -/
def display : Atom → String
  | .null => "None"
  | .bool b => if b then "True" else "False"
  | .int i => toString i
  | .double d => NumberForm.display.write d
  | .text s => Text.quote s
  | .bytes bs => Text.quoteBytes bs
  | .pattern p => showPattern p
  | .enumeration e => "<enum '" ++ e.name ++ "'>"
  | .member e name =>
    "<" ++ e.name ++ "." ++ name
      ++ ((e.constants.lookup name).map fun c => ": " ++ showConstant c).getD "" ++ ">"
  | .function f => match f with
    | .builtin _ => "<function>"
    | .custom name => "<function " ++ name ++ ">"
  | .method m => showMethod m

/-- Whether an atom counts as true in a condition: everything does except null, false, zero
and what is empty. -/
def truthy : Atom → Bool
  | .null => false
  | .bool b => b
  | .int i => i != 0
  | .double (.finite _ rank) => rank.val != 0
  | .text s => !s.isEmpty
  | .bytes bs => !bs.isEmpty
  | _ => true

end Atom

end LooseData
