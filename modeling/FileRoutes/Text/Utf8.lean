/-! # UTF-8

Reading and writing the UTF-8 form of a text. `Utf8.decode` is **strict**: overlong forms,
surrogates and values above U+10FFFF are refused at the first byte that no well-formed sequence
can have there. A refusal (`Utf8.Fault`) names the bytes of the sequence that was begun, where it
begins, and why it cannot be finished. -/

namespace FileRoutes.Text.Utf8

/-- Why bytes are no UTF-8. -/
inductive Reason where
  /-- No sequence begins with this byte. -/
  | invalidStart
  /-- The sequence cannot go on with the byte that follows. -/
  | invalidContinuation
  /-- The bytes end before the sequence does. -/
  | unexpectedEnd
  deriving DecidableEq, Repr

/-- A **refusal**: the sequence that is not well formed. -/
structure Fault where
  /-- How many bytes stand before the sequence. -/
  position : Nat
  /-- The bytes of the sequence that were accepted, or its first byte if no sequence begins so. -/
  bytes : List UInt8
  /-- Why the sequence was given up. -/
  reason : Reason
  deriving DecidableEq, Repr

/-- A closed range of bytes. -/
structure ByteRange where
  /-- The least byte of the range. -/
  low : UInt8
  /-- The greatest byte of the range. -/
  high : UInt8
  deriving DecidableEq, Repr

/-- Whether a byte lies in the range. -/
def ByteRange.holds (range : ByteRange) (byte : UInt8) : Bool :=
  range.low ≤ byte && byte ≤ range.high

/-- The bytes that continue a sequence where nothing else is asked. -/
def continuation : ByteRange := ⟨0x80, 0xBF⟩

/-- The ranges of the bytes after a **first byte**, the second byte's being narrower where a wider
one would allow overlong forms, surrogates or values above U+10FFFF; `none` when no sequence begins
with the byte. -/
def followers (first : UInt8) : Option (List ByteRange) :=
  if first < 0x80 then some []
  else if first < 0xC2 then none
  else if first < 0xE0 then some [continuation]
  else if first == 0xE0 then some [⟨0xA0, 0xBF⟩, continuation]
  else if first == 0xED then some [⟨0x80, 0x9F⟩, continuation]
  else if first < 0xF0 then some [continuation, continuation]
  else if first == 0xF0 then some [⟨0x90, 0xBF⟩, continuation, continuation]
  else if first < 0xF4 then some [continuation, continuation, continuation]
  else if first == 0xF4 then some [⟨0x80, 0x8F⟩, continuation, continuation]
  else none

/-- The bits of the value that a first byte carries. -/
def leadingBits (first : UInt8) : Nat :=
  if first < 0x80 then first.toNat
  else if first < 0xE0 then first.toNat % 0x20
  else if first < 0xF0 then first.toNat % 0x10
  else first.toNat % 0x08

/-- A sequence that has been **begun**. -/
structure Begun where
  /-- How many bytes stand before it. -/
  position : Nat
  /-- Its bytes so far. -/
  bytes : List UInt8
  /-- The value of the bits read so far. -/
  value : Nat
  /-- What the next byte must be. -/
  next : ByteRange
  /-- What the bytes after the next one must be. -/
  later : List ByteRange

/-- Decodes bytes behind a given number of others. A sequence may have been begun. -/
def decodeFrom : (position : Nat) → Option Begun → List UInt8 → Except Fault (List Char)
  | _, none, [] => .ok []
  | _, some begun, [] => .error ⟨begun.position, begun.bytes, .unexpectedEnd⟩
  | position, none, byte :: rest =>
    match followers byte with
    | none => .error ⟨position, [byte], .invalidStart⟩
    | some [] => (decodeFrom (position + 1) none rest).map (Char.ofNat byte.toNat :: ·)
    | some (next :: later) =>
      decodeFrom (position + 1) (some ⟨position, [byte], leadingBits byte, next, later⟩) rest
  | position, some begun, byte :: rest =>
    if begun.next.holds byte then
      let value := 0x40 * begun.value + byte.toNat % 0x40
      match begun.later with
      | [] => (decodeFrom (position + 1) none rest).map (Char.ofNat value :: ·)
      | next :: later =>
        let begun := ⟨begun.position, begun.bytes ++ [byte], value, next, later⟩
        decodeFrom (position + 1) (some begun) rest
    else .error ⟨begun.position, begun.bytes, .invalidContinuation⟩

/-- The text that bytes write in UTF-8, or the first sequence that is not well formed. -/
def decode (bytes : List UInt8) : Except Fault (List Char) :=
  decodeFrom 0 none bytes

/-- The UTF-8 form of a text. -/
def encode (text : List Char) : List UInt8 :=
  text.flatMap String.utf8EncodeChar

end FileRoutes.Text.Utf8
