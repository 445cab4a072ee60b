/-!
Byte strings as text. `Utf8.chunks` reads a byte string into characters and broken sequences; a broken
sequence ends where the bytes stop being the start of a character.
- `Utf8.decode?` is the text of a well-formed byte string, and inverts `Utf8.encode`;
- `Utf8.lossy` shows each broken sequence as one replacement character.
-/

namespace LinkWatch.Utf8

/-- The bytes of a text. -/
def encode (s : String) : List UInt8 := s.toList.flatMap String.utf8EncodeChar

/-- A character, or bytes that are none. -/
inductive Chunk where
  | char (c : Char)
  | broken (bs : List UInt8)
deriving DecidableEq

/-- A byte that continues a character. -/
def isTail (b : UInt8) : Bool := b &&& 0xc0 == 0x80

/-- The second bytes that may follow a first byte: as many as say how long the character is, and no
overlong, surrogate or too large code points. -/
def isSecond (first b : UInt8) : Bool :=
  if first == 0xe0 then 0xa0 ≤ b && b ≤ 0xbf
  else if first == 0xed then 0x80 ≤ b && b ≤ 0x9f
  else if first == 0xf0 then 0x90 ≤ b && b ≤ 0xbf
  else if first == 0xf4 then 0x80 ≤ b && b ≤ 0x8f
  else isTail b

/-- The payload of a tail byte appended to the bits before it. -/
def extend (n : Nat) (b : UInt8) : Nat := n * 64 + (b &&& 0x3f).toNat

/-- How many bytes a character with this first byte has; `0` for a byte that starts none. -/
def width (b : UInt8) : Nat :=
  if b < 0x80 then 1
  else if 0xc2 ≤ b && b ≤ 0xdf then 2
  else if 0xe0 ≤ b && b ≤ 0xef then 3
  else if 0xf0 ≤ b && b ≤ 0xf4 then 4
  else 0

/-- The first chunk of a byte string that starts with `a`, and how many bytes after `a` it takes. -/
def first (a : UInt8) (rest : List UInt8) : Chunk × Nat :=
  match width a, rest with
  | 1, _ => (.char (.ofNat a.toNat), 0)
  | 2, b :: _ =>
    if isTail b then (.char (.ofNat (extend (a &&& 0x1f).toNat b)), 1) else (.broken [a], 0)
  | 3, b :: more =>
    if isSecond a b then
      match more with
      | c :: _ =>
        if isTail c then (.char (.ofNat (extend (extend (a &&& 0x0f).toNat b) c)), 2)
        else (.broken [a, b], 1)
      | [] => (.broken [a, b], 1)
    else (.broken [a], 0)
  | 4, b :: more =>
    if isSecond a b then
      match more with
      | c :: more =>
        if isTail c then
          match more with
          | d :: _ =>
            if isTail d then (.char (.ofNat (extend (extend (extend (a &&& 0x07).toNat b) c) d)), 3)
            else (.broken [a, b, c], 2)
          | [] => (.broken [a, b, c], 2)
        else (.broken [a, b], 1)
      | [] => (.broken [a, b], 1)
    else (.broken [a], 0)
  | _, _ => (.broken [a], 0)

/-- The chunks after the next `skip` bytes. -/
def chunksFrom : (skip : Nat) → List UInt8 → List Chunk
  | _, [] => []
  | skip + 1, _ :: bs => chunksFrom skip bs
  | 0, b :: bs => (first b bs).1 :: chunksFrom (first b bs).2 bs

/-- A byte string as characters and broken sequences. -/
def chunks (bs : List UInt8) : List Chunk := chunksFrom 0 bs

/-- The character of a chunk. -/
def Chunk.char? : Chunk → Option Char
  | .char c => some c
  | .broken _ => none

/-- The text of a byte string without broken sequences. -/
def decode? (bs : List UInt8) : Option String := ((chunks bs).mapM Chunk.char?).map String.ofList

/-- A byte string as text, with a replacement character for each broken sequence. -/
def lossy (bs : List UInt8) : String :=
  String.ofList ((chunks bs).map fun c => c.char?.getD '\uFFFD')

end LinkWatch.Utf8
