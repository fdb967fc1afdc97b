import LooseData.Value
import LooseData.Text.Word

set_option autoImplicit false

/-! # Tagged texts

A text is tagged if it starts with a run of ASCII letters, digits and low lines and a colon: the
run is the **tag**, and what follows the colon is the **payload**. A payload may be tagged in
turn. `Tag.spine` takes all tags off a text; what is left is not tagged.
-/

namespace LooseData

namespace Tag

/-- The tag and the payload of a text. -/
def split? (cs : List Char) : Option (List Char × List Char) :=
  let tag := cs.takeWhile Text.isAsciiWord
  match cs.dropWhile Text.isAsciiWord with
  | ':' :: payload => if tag.isEmpty then none else some (tag, payload)
  | _ => none

/-- Whether a text is tagged. -/
def isTagged (cs : List Char) : Bool := (split? cs).isSome

/-- All tags at the start of a text, and what follows the last of them. `used` characters at the
start belong to a tag already. -/
def spineFrom : (used : Nat) → List Char → List (List Char) × List Char
  | _, [] => ([], [])
  | used + 1, _ :: cs => spineFrom used cs
  | 0, c :: cs =>
    match split? (c :: cs) with
    | some (tag, _) =>
      let (tags, payload) := spineFrom tag.length cs
      (tag :: tags, payload)
    | none => ([], c :: cs)

/-- All tags at the start of a text, the outermost first, and the payload of the last one. -/
def spine (cs : List Char) : List (List Char) × List Char := spineFrom 0 cs

/-- The text with the given tags in front of a payload. -/
def written : (tags : List (List Char)) → (payload : List Char) → List Char
  | [], payload => payload
  | tag :: tags, payload => tag ++ ':' :: written tags payload

end Tag

/-- Whether a value is a tagged text. -/
def Value.isTagged : Value → Bool
  | .atom (.text s) => Tag.isTagged s.toList
  | _ => false

end LooseData
