set_option autoImplicit false

/-! # Similar texts

Two texts are compared by the blocks that they share: the longest common block is taken out, and
what stands before it and what stands after it are compared in the same way. Texts are similar
if shared blocks make up at least three fifths of them.
-/

namespace LooseData.Text

/-- A block that two texts share: where it starts in either of them, and its length. -/
structure Block where
  first : Nat
  second : Nat
  length : Nat

/-- How many characters two texts start with in common. -/
def commonStart : List Char → List Char → Nat
  | a :: as, b :: bs => if a = b then commonStart as bs + 1 else 0
  | _, _ => 0

/-- The longest shared block. Of several, the one that starts first in the first text is taken,
and of these the one that starts first in the second. -/
def longestBlock (a b : List Char) : Block :=
  (List.range a.length).foldl (fun best i =>
    (List.range b.length).foldl (fun best j =>
      let length := commonStart (a.drop i) (b.drop j)
      if best.length < length then ⟨i, j, length⟩ else best) best) ⟨0, 0, 0⟩

/-- How many characters the shared blocks of two texts have, when blocks are taken out at most
`depth` times one beside the other. -/
def sharedWithin : (depth : Nat) → List Char → List Char → Nat
  | 0, _, _ => 0
  | depth + 1, a, b =>
    let block := longestBlock a b
    if block.length = 0 then 0
    else
      sharedWithin depth (a.take block.first) (b.take block.second) + block.length
        + sharedWithin depth (a.drop (block.first + block.length))
            (b.drop (block.second + block.length))

/-- How many characters the shared blocks of two texts have. -/
def shared (a b : List Char) : Nat := sharedWithin a.length a b

/-- Whether two texts are similar. -/
def isSimilar (a b : List Char) : Bool :=
  decide (3 * (a.length + b.length) ≤ 10 * shared a b)

/-- Whether of two candidates the first is to be named before the second: it shares more with the
word, or as much and is the greater text. -/
def isCloser (word a b : String) : Bool :=
  let shareOfA := shared a.toList word.toList * (b.length + word.length)
  let shareOfB := shared b.toList word.toList * (a.length + word.length)
  decide (shareOfB < shareOfA) || (shareOfA == shareOfB && decide (b ≤ a))

/-- How many similar candidates are named at most. -/
def maxSimilar : Nat := 3

/-- The candidates that are most similar to a word. -/
def similarTo (word : String) (candidates : List String) : List String :=
  ((candidates.filter fun candidate => isSimilar candidate.toList word.toList).mergeSort
    (isCloser word)).take maxSimilar

end LooseData.Text
