import LooseData.Text.Lowercase

set_option autoImplicit false

/-! # Characters that are alike

Two characters are alike if they differ in letter case only. That is more than having the same
lower case form: the long s and the plain one have different forms but the same capital, and so
have the small sigma and the final one.
-/

namespace LooseData.Text

/-- The form under which a character is compared when letter case is irrelevant. -/
def foldChar (c : Char) : Char := if c = '\u0130' then 'i' else lowerChar c

/-- Folded characters with the other folded characters that have the same capital. -/
def sameCapital : List (Nat × List Nat) :=
  [(0x69, [0x131]), (0x73, [0x17f]), (0xb5, [0x3bc]), (0x131, [0x69]), (0x17f, [0x73]),
    (0x345, [0x3b9, 0x1fbe]), (0x390, [0x1fd3]), (0x3b0, [0x1fe3]), (0x3b2, [0x3d0]),
    (0x3b5, [0x3f5]), (0x3b8, [0x3d1]), (0x3b9, [0x345, 0x1fbe]), (0x3ba, [0x3f0]),
    (0x3bc, [0xb5]), (0x3c0, [0x3d6]), (0x3c1, [0x3f1]), (0x3c2, [0x3c3]), (0x3c3, [0x3c2]),
    (0x3c6, [0x3d5]), (0x3d0, [0x3b2]), (0x3d1, [0x3b8]), (0x3d5, [0x3c6]), (0x3d6, [0x3c0]),
    (0x3f0, [0x3ba]), (0x3f1, [0x3c1]), (0x3f5, [0x3b5]), (0x432, [0x1c80]), (0x434, [0x1c81]),
    (0x43e, [0x1c82]), (0x441, [0x1c83]), (0x442, [0x1c84, 0x1c85]), (0x44a, [0x1c86]),
    (0x463, [0x1c87]), (0x1c80, [0x432]), (0x1c81, [0x434]), (0x1c82, [0x43e]),
    (0x1c83, [0x441]), (0x1c84, [0x442, 0x1c85]), (0x1c85, [0x442, 0x1c84]), (0x1c86, [0x44a]),
    (0x1c87, [0x463]), (0x1c88, [0xa64b]), (0x1e61, [0x1e9b]), (0x1e9b, [0x1e61]),
    (0x1fbe, [0x345, 0x3b9]), (0x1fd3, [0x390]), (0x1fe3, [0x3b0]), (0xa64b, [0x1c88]),
    (0xfb05, [0xfb06]), (0xfb06, [0xfb05])]

/-- The characters whose folded form is the given one. -/
def spellings (folded : Char) : List Char :=
  let shifted := lowerRows.filterMap fun (first, last, step, shift) =>
    let n := ((folded.toNat : Int) - shift).toNat
    if shift ≠ 0 ∧ first ≤ n ∧ n ≤ last ∧ (n - first) % step = 0 then some (Char.ofNat n) else none
  folded :: (if folded = 'i' then ['\u0130'] else []) ++ shifted

/-- All characters that differ from a character in letter case only, among them itself. -/
def alike (c : Char) : List Char :=
  let folded := foldChar c
  let others := ((sameCapital.lookup folded.toNat).getD []).map Char.ofNat
  (folded :: others).flatMap spellings

/-- Whether some characters start with a word, regardless of letter case. -/
def startsAlike : (word cs : List Char) → Bool
  | [], _ => true
  | _ :: _, [] => false
  | w :: word, c :: cs => (alike c).contains w && startsAlike word cs

/-- Whether a word occurs within a text, regardless of letter case. -/
def occursAlike (word : List Char) : List Char → Bool
  | [] => word.isEmpty
  | c :: cs => startsAlike word (c :: cs) || occursAlike word cs

end LooseData.Text
