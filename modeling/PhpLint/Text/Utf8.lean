import PhpLint.Text.Basic

/-!
The bytes of a text. Decoding reads one byte at a time and knows of the character
it is inside of; bytes that belong to no character are told apart from the
characters, so a caller can refuse them or put a mark in their place.
-/

namespace PhpLint.Text

abbrev Bytes := List UInt8

/-- The UTF-8 form of a text. -/
def utf8 (s : Text) : Bytes := s.flatMap String.utf8EncodeChar

/-- An interval of bytes. -/
structure ByteRange where
  low : UInt8
  high : UInt8
  deriving DecidableEq, Repr

def ByteRange.has (r : ByteRange) (b : UInt8) : Bool := r.low ≤ b && b ≤ r.high

/-- What any byte after the second one of a character lies in. -/
def ByteRange.tail : ByteRange := ⟨0x80, 0xbf⟩

/-- A character of which the first bytes have been read. -/
structure PartialChar where
  /-- The value of the bytes so far. -/
  value : Nat
  /-- What the next byte has to lie in. -/
  next : ByteRange
  /-- How many bytes come after the next one. -/
  owed : Nat
  deriving DecidableEq, Repr

/-- The meaning of a byte between two characters. -/
inductive Lead where
  | char (c : Char)
  | opens (p : PartialChar)
  | stray
  deriving DecidableEq, Repr

/-- Reads the first byte of a character. Forms that are longer than needed, halves
of surrogate pairs and values beyond the last character are ruled out by the range
of the second byte. -/
def Lead.ofByte (b : UInt8) : Lead :=
  let n := b.toNat
  if n < 0x80 then .char (Char.ofNat n)
  else if n < 0xc2 then .stray
  else if n < 0xe0 then .opens ⟨n % 0x20, .tail, 0⟩
  else if n = 0xe0 then .opens ⟨0, ⟨0xa0, 0xbf⟩, 1⟩
  else if n = 0xed then .opens ⟨0xd, ⟨0x80, 0x9f⟩, 1⟩
  else if n < 0xf0 then .opens ⟨n % 0x10, .tail, 1⟩
  else if n = 0xf0 then .opens ⟨0, ⟨0x90, 0xbf⟩, 2⟩
  else if n < 0xf4 then .opens ⟨n % 8, .tail, 2⟩
  else if n = 0xf4 then .opens ⟨4, ⟨0x80, 0x8f⟩, 2⟩
  else .stray

/-- Decodes bytes; `none` stands for bytes that start a character without ending
it, or belong to none. -/
def decodeFrom (pending : Option PartialChar) : Bytes → List (Option Char)
  | [] => if pending.isSome then [none] else []
  | b :: rest =>
    match pending with
    | some p =>
      if p.next.has b then
        let value := p.value * 0x40 + b.toNat % 0x40
        match p.owed with
        | 0 => some (Char.ofNat value) :: decodeFrom none rest
        | owed + 1 => decodeFrom (some ⟨value, .tail, owed⟩) rest
      else
        none :: match Lead.ofByte b with
          | .char c => some c :: decodeFrom none rest
          | .opens q => decodeFrom (some q) rest
          | .stray => none :: decodeFrom none rest
    | none =>
      match Lead.ofByte b with
      | .char c => some c :: decodeFrom none rest
      | .opens q => decodeFrom (some q) rest
      | .stray => none :: decodeFrom none rest

/-- The mark in place of bytes that are no character. -/
def replacementMark : Char := '\uFFFD'

/-- Decodes bytes with a mark in place of those that are no character. -/
def ofUtf8Lossy (bytes : Bytes) : Text :=
  (decodeFrom none bytes).map fun c => c.getD replacementMark

/-- Decodes bytes that are all characters. -/
def ofUtf8? (bytes : Bytes) : Option Text := (decodeFrom none bytes).mapM id

end PhpLint.Text
