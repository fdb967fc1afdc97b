set_option autoImplicit false

/-! # Splitting texts

Cutting a text at separators, and joining pieces again.
-/

namespace LooseData.Text

/-- The pieces between separators, empty ones included. -/
def splitBy (separates : Char → Bool) : List Char → List (List Char)
  | [] => [[]]
  | c :: cs =>
    if separates c then [] :: splitBy separates cs
    else match splitBy separates cs with
      | [] => [[c]]
      | piece :: pieces => (c :: piece) :: pieces

/-- The pieces between separators that are not empty. -/
def fields (separates : Char → Bool) (cs : List Char) : List (List Char) :=
  (splitBy separates cs).filter fun piece => !piece.isEmpty

/-- Pieces with a separator between neighbours. -/
def joinWith (separator : Char) : List (List Char) → List Char
  | [] => []
  | [piece] => piece
  | piece :: pieces => piece ++ separator :: joinWith separator pieces

/-- Whether a text occurs within another. -/
def occursIn (part : List Char) : List Char → Bool
  | [] => part.isEmpty
  | c :: cs => part.isPrefixOf (c :: cs) || occursIn part cs

end LooseData.Text
