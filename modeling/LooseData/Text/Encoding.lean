import LooseData.Text.Surrogate

set_option autoImplicit false

/-! # Unicode encodings

Decoding of byte strings in the encodings that JSON documents may have. The encoding is told by a
byte order mark or, without one, by where the first four bytes are zero. A surrogate without a
partner decodes to the character that stands in for it.
-/

namespace LooseData.Text

/-- The order of the bytes of a code unit. -/
inductive ByteOrder where
  | big
  | little
deriving DecidableEq

/-- An encoding of texts. -/
inductive Encoding where
  | utf8
  | utf16 (order : ByteOrder)
  | utf32 (order : ByteOrder)
deriving DecidableEq

/-- The six low bits of a byte that continues a character. -/
def continuation? (b : UInt8) : Option Nat :=
  if 0x80 ≤ b ∧ b ≤ 0xBF then some (b.toNat - 0x80) else none

/-- The character of a code point that must need as many bytes as it was given. -/
def charFrom? (least n : Nat) : Option Char := if n < least then none else charOf? n

/-- Decode bytes in the encoding with one to four bytes for each character. -/
def decodeUtf8 : List UInt8 → Option (List Char)
  | [] => some []
  | a :: rest =>
    if a < 0x80 then (decodeUtf8 rest).map (Char.ofNat a.toNat :: ·)
    else match rest with
      | [] => none
      | b :: rest => do
        let x ← continuation? b
        if 0xC0 ≤ a ∧ a < 0xE0 then
          let c ← charFrom? 0x80 ((a.toNat - 0xC0) * 64 + x)
          (decodeUtf8 rest).map (c :: ·)
        else match rest with
          | [] => none
          | b :: rest =>
            let y ← continuation? b
            if 0xE0 ≤ a ∧ a < 0xF0 then
              let c ← charFrom? 0x800 ((a.toNat - 0xE0) * 4096 + x * 64 + y)
              (decodeUtf8 rest).map (c :: ·)
            else match rest with
              | [] => none
              | b :: rest =>
                let z ← continuation? b
                if 0xF0 ≤ a then
                  let c ← charFrom? 0x10000
                    ((a.toNat - 0xF0) * 262144 + x * 4096 + y * 64 + z)
                  (decodeUtf8 rest).map (c :: ·)
                else none

/-- Two bytes as a code unit. -/
def unit16 (order : ByteOrder) (a b : UInt8) : Nat :=
  match order with
  | .big => a.toNat * 256 + b.toNat
  | .little => b.toNat * 256 + a.toNat

/-- The code units of bytes that come in twos. -/
def units16 (order : ByteOrder) : List UInt8 → Option (List Nat)
  | [] => some []
  | [_] => none
  | a :: b :: rest => (units16 order rest).map (unit16 order a b :: ·)

/-- Characters from code units, two surrogates making one. -/
def joinUnits : List Nat → Option (List Char)
  | [] => some []
  | [n] => (charOf? n).map fun c => [c]
  | n :: m :: rest =>
    if isHighSurrogate n && isLowSurrogate m then do
      let c ← charOf? (joinSurrogates n m)
      (joinUnits rest).map (c :: ·)
    else do
      let c ← charOf? n
      (joinUnits (m :: rest)).map (c :: ·)

/-- Decode bytes in the encoding with four bytes for each character. -/
def decodeUtf32 (order : ByteOrder) : List UInt8 → Option (List Char)
  | [] => some []
  | a :: b :: c :: d :: rest => do
    let n := match order with
      | .big => unit16 .big a b * 65536 + unit16 .big c d
      | .little => unit16 .little c d * 65536 + unit16 .little a b
    let c ← charOf? n
    (decodeUtf32 order rest).map (c :: ·)
  | _ => none

/-- Decode bytes in an encoding. -/
def decode : Encoding → List UInt8 → Option (List Char)
  | .utf8, bytes => decodeUtf8 bytes
  | .utf16 order, bytes => (units16 order bytes).bind joinUnits
  | .utf32 order, bytes => decodeUtf32 order bytes

/-- The encoding of a byte string and the bytes after a byte order mark. -/
def detect : List UInt8 → Encoding × List UInt8
  | 0 :: 0 :: 0xFE :: 0xFF :: rest => (.utf32 .big, rest)
  | 0xFF :: 0xFE :: 0 :: 0 :: rest => (.utf32 .little, rest)
  | 0xFE :: 0xFF :: rest => (.utf16 .big, rest)
  | 0xFF :: 0xFE :: rest => (.utf16 .little, rest)
  | 0xEF :: 0xBB :: 0xBF :: rest => (.utf8, rest)
  | bytes => (unmarked bytes, bytes)
where
  /-- The encoding of a byte string without a byte order mark. -/
  unmarked : List UInt8 → Encoding
    | [a, b] => if a = 0 then .utf16 .big else if b = 0 then .utf16 .little else .utf8
    | a :: b :: c :: d :: _ =>
      if a = 0 then (if b = 0 then .utf32 .big else .utf16 .big)
      else if b = 0 then (if c = 0 ∧ d = 0 then .utf32 .little else .utf16 .little)
      else .utf8
    | _ => .utf8

/-- The characters of a byte string whose encoding it tells itself. -/
def ofBytes? (bytes : List UInt8) : Option (List Char) :=
  let (encoding, rest) := detect bytes
  decode encoding rest

end LooseData.Text
