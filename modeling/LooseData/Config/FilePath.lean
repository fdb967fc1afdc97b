import LooseData.Text.Split

set_option autoImplicit false

/-! # Paths of files

A path has an anchor, which is empty for a relative path, and parts. Empty parts and parts that
are a single dot are left out when a path is read; two dots stay until the path is resolved
against a directory.
-/

namespace LooseData

/-- The path of a file or directory. -/
structure FilePath where
  anchor : String
  parts : List String
deriving DecidableEq

namespace FilePath

/-- The anchor at the start of a text. Exactly two slashes are an anchor of their own. -/
def anchorOf : List Char → String
  | '/' :: '/' :: '/' :: _ => "/"
  | '/' :: '/' :: _ => "//"
  | '/' :: _ => "/"
  | _ => ""

/-- The path that a text names. -/
def ofText (s : String) : FilePath :=
  ⟨anchorOf s.toList,
    ((Text.fields (· == '/') s.toList).map String.ofList).filter fun part => part != "."⟩

/-- The path as a text. -/
def toText (p : FilePath) : String :=
  if p.anchor.isEmpty && p.parts.isEmpty then "."
  else p.anchor ++ String.intercalate "/" p.parts

/-- The path of an entry of a directory. -/
def child (p : FilePath) (name : String) : FilePath := { p with parts := p.parts ++ [name] }

/-- Whether a path is relative. -/
def isRelative (p : FilePath) : Bool := p.anchor.isEmpty

/-- The absolute path with the given parts. -/
def absolute (parts : List String) : FilePath := ⟨"/", parts⟩

/-- The parts of the place that a step leads to. Two dots lead to the place above, and an empty
step or a single dot stays. -/
def advance (parts : List String) (step : String) : List String :=
  if step = ".." then parts.dropLast
  else if step.isEmpty || step = "." then parts
  else parts ++ [step]

/-- Parts with every pair of dots and the part before it taken out. -/
def withoutDots (parts : List String) : List String := parts.foldl advance []

/-- The path as seen from a directory, without dots. -/
def resolveIn (p directory : FilePath) : FilePath :=
  if p.isRelative then ⟨directory.anchor, withoutDots (directory.parts ++ p.parts)⟩
  else { p with parts := withoutDots p.parts }

/-- The directory of parts and all directories above it, the innermost first. `above` are the
parts taken off, the last one first. -/
def upwardsFrom (anchor : String) : (reversed : List String) → List FilePath
  | [] => [⟨anchor, []⟩]
  | part :: above => ⟨anchor, (part :: above).reverse⟩ :: upwardsFrom anchor above

/-- A directory and all directories above it, the innermost first. -/
def upwards (p : FilePath) : List FilePath := upwardsFrom p.anchor p.parts.reverse

end FilePath

/-- What there is at a path. -/
inductive FileEntry where
  | missing
  | directory
  | file (text : String)
  /-- Nothing that could be there, because a part of the path is too long for a name. -/
  | unnameable
deriving DecidableEq

/-- Whether there is anything at a path. -/
def FileEntry.isPresent : FileEntry → Bool
  | .missing | .unnameable => false
  | .directory | .file _ => true

/-- The number of bytes that a name in a directory can have. -/
def maxNameSize : Nat := 255

/-- A finite tree of files: files with their texts, and directories. All paths are absolute. -/
structure FileTree where
  files : List (FilePath × String)
  directories : List FilePath

/-- What there is at a path of a tree. Whatever lies on the way to something is a directory. -/
def FileTree.entry (t : FileTree) (path : FilePath) : FileEntry :=
  match t.files.lookup path with
  | some text => .file text
  | none =>
    if (t.directories ++ t.files.map Prod.fst).any fun p =>
        p.anchor == path.anchor && path.parts.isPrefixOf p.parts then .directory
    else .missing

/-- What surrounds a run of the program: variables in order, the working directory, the directory
that the program is installed in, and what there is at absolute paths without dots. -/
structure Surroundings where
  bindings : List (String × String)
  directory : FilePath
  installation : FilePath
  entry : FilePath → FileEntry

namespace Surroundings

/-- What there is at the end of some steps from a place. Every step needs a directory to start
from, also one that stays or leads up. -/
def walk (s : Surroundings) : (place steps : List String) → FileEntry
  | place, [] => s.entry (.absolute place)
  | place, step :: steps =>
    match s.entry (.absolute place) with
    | .directory =>
      if maxNameSize < step.utf8ByteSize then .unnameable
      else s.walk (FilePath.advance place step) steps
    | _ => .missing

/-- Where the steps of a path start: at the root or in the working directory. -/
def start (s : Surroundings) (p : FilePath) : List String :=
  if p.isRelative then s.directory.parts else []

/-- What there is at a path, a relative one being taken from the working directory. -/
def look (s : Surroundings) (p : FilePath) : FileEntry := s.walk (s.start p) p.parts

/-- The steps that a name spells out, empty ones included. -/
def stepsOf (name : String) : List String :=
  (Text.splitBy (· == '/') name.toList).map String.ofList

/-- What there is under a name that is taken letter by letter: a file followed by a slash is not
there, nor is anything under the empty name. -/
def lookAt (s : Surroundings) (name : String) : FileEntry :=
  if name.isEmpty then .missing else s.walk (s.start (.ofText name)) (stepsOf name)

/-- The places on the way of some steps. -/
def placesOn : (place steps : List String) → List FilePath
  | place, [] => [.absolute place]
  | place, step :: steps => .absolute place :: placesOn (FilePath.advance place step) steps

/-- The value of a variable. -/
def valueOf? (s : Surroundings) (name : String) : Option String := s.bindings.lookup name

end Surroundings

end LooseData
