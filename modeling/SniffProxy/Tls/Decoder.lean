import SniffProxy.Bytes

/-!
# Decoding TLS structures

TLS messages are built from big-endian numbers and from vectors with a length in front. A decoder
takes bytes from the front of its input and fails where the input is too short or not allowed.

* `u8`, `u16`, `take` — numbers and fixed lengths.
* `vector8`, `vector16` — the bytes behind a length of one or two bytes.
* `each` — the elements that fill a vector.
-/

namespace SniffProxy.Tls

/-- Takes a value from the front of a byte string, or fails. -/
abbrev Decoder := StateT Bytes Option

namespace Decoder

/-- The value of a decoder that uses up all of its input. -/
def complete {α : Type} (decoder : Decoder α) (bytes : Bytes) : Option α :=
  match decoder.run bytes with
  | some (value, []) => some value
  | _ => none

/-- The next so many bytes. -/
def take (count : Nat) : Decoder Bytes := fun bytes =>
  if bytes.length < count then none else some (bytes.take count, bytes.drop count)

/-- A big-endian number of so many bytes. -/
def number (count : Nat) : Decoder Nat := do
  let bytes ← take count
  return bytes.foldl (fun n b => 256 * n + b.toNat) 0

/-- A number of one byte. -/
def u8 : Decoder Nat := number 1

/-- A number of two bytes. -/
def u16 : Decoder Nat := number 2

/-- A number of four bytes. -/
def u32 : Decoder Nat := number 4

/-- All the bytes that are left. -/
def rest : Decoder Bytes := fun bytes => some (bytes, [])

/-- A condition that must hold. -/
def require (holds : Bool) : Decoder Unit :=
  if holds then pure () else failure

/-- The bytes behind a length of one byte. -/
def vector8 : Decoder Bytes := do
  take (← u8)

/-- The bytes behind a length of two bytes. -/
def vector16 : Decoder Bytes := do
  take (← u16)

/-- At least one byte behind a length of one byte. -/
def nonEmpty8 : Decoder Bytes := do
  let bytes ← vector8
  require !bytes.isEmpty
  return bytes

/-- At least one byte behind a length of two bytes. -/
def nonEmpty16 : Decoder Bytes := do
  let bytes ← vector16
  require !bytes.isEmpty
  return bytes

/-- Elements that fill a byte string. Every element takes at least one byte, so as many elements as
bytes are enough. -/
def fill {α : Type} (element : Decoder α) : (fuel : Nat) → Bytes → Option (List α)
  | _, [] => some []
  | 0, _ :: _ => none
  | fuel + 1, bytes =>
    match element.run bytes with
    | none => none
    | some (value, rest) => (fill element fuel rest).map fun values => value :: values

/-- The elements of a vector whose bytes another decoder takes. -/
def each {α : Type} (element : Decoder α) (vector : Decoder Bytes) : Decoder (List α) := do
  let bytes ← vector
  match fill element bytes.length bytes with
  | some values => return values
  | none => failure

end Decoder

end SniffProxy.Tls
