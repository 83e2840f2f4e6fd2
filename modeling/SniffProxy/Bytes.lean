/-!
# Byte strings

Streams carry bytes; names and messages are text. This module holds the byte string type, the
codecs between the two worlds, and the sixteen-bit numbers of the wire formats.

* `utf8`, `decodeUtf8` — a text and its UTF-8 bytes; `decodeUtf8_eq_some_iff` says that the
  decoder accepts exactly what the encoder produces.
* `Port.toBytes`, `Port.ofBytes` — big-endian ports; each undoes the other.
* `hex`, `ofHex?` — lowercase hexadecimal.
-/

namespace SniffProxy

/-- A finite sequence of bytes. -/
abbrev Bytes := List UInt8

/-- The UTF-8 bytes of a text. -/
def utf8 (text : String) : Bytes :=
  text.toByteArray.data.toList

/-- The text with these UTF-8 bytes, if they are well formed. -/
def decodeUtf8 (bytes : Bytes) : Option String :=
  String.fromUTF8? ⟨bytes.toArray⟩

theorem decodeUtf8_utf8 (text : String) : decodeUtf8 (utf8 text) = some text := by
  have h : (⟨(utf8 text).toArray⟩ : ByteArray) = text.toByteArray := by
    simp [utf8]
  unfold decodeUtf8 String.fromUTF8?
  rw [h, dif_pos text.isValidUTF8]
  rfl

theorem utf8_of_decodeUtf8 {bytes : Bytes} {text : String} (h : decodeUtf8 bytes = some text) :
    utf8 text = bytes := by
  unfold decodeUtf8 String.fromUTF8? at h
  split at h
  · cases h
    simp [utf8, String.fromUTF8]
  · cases h

/-- The decoder accepts exactly what the encoder produces. -/
theorem decodeUtf8_eq_some_iff {bytes : Bytes} {text : String} :
    decodeUtf8 bytes = some text ↔ bytes = utf8 text :=
  ⟨fun h => (utf8_of_decodeUtf8 h).symm, fun h => h ▸ decodeUtf8_utf8 text⟩

/-! ## Ports -/

/-- A TCP port. -/
abbrev Port := UInt16

/-- The two bytes of a port, the more significant one first. -/
def Port.toBytes (port : Port) : Bytes :=
  [UInt8.ofNat (port.toNat / 256), UInt8.ofNat (port.toNat % 256)]

/-- The port with this high and low byte. -/
def Port.ofBytes (high low : UInt8) : Port :=
  UInt16.ofNat (high.toNat * 256 + low.toNat)

@[simp] theorem Port.length_toBytes (port : Port) : (Port.toBytes port).length = 2 := rfl

theorem Port.toBytes_ofBytes (high low : UInt8) :
    Port.toBytes (Port.ofBytes high low) = [high, low] := by
  have hh := high.toNat_lt
  have hl := low.toNat_lt
  have hn : (Port.ofBytes high low).toNat = high.toNat * 256 + low.toNat := by
    simp only [Port.ofBytes, UInt16.toNat_ofNat']
    omega
  simp only [Port.toBytes, hn, List.cons.injEq, and_true]
  constructor
  · apply UInt8.toNat.inj
    rw [UInt8.toNat_ofNat']
    omega
  · apply UInt8.toNat.inj
    rw [UInt8.toNat_ofNat']
    omega

theorem Port.ofBytes_toBytes (port : Port) :
    Port.ofBytes (UInt8.ofNat (port.toNat / 256)) (UInt8.ofNat (port.toNat % 256)) = port := by
  have h := port.toNat_lt
  apply UInt16.toNat.inj
  simp only [Port.ofBytes, UInt16.toNat_ofNat', UInt8.toNat_ofNat']
  omega

/-! ## Hexadecimal -/

/-- The lowercase hexadecimal digit of a number below sixteen. -/
def hexDigit (n : Nat) : Char :=
  if n < 10 then Char.ofNat (48 + n) else Char.ofNat (87 + n)

/-- Two lowercase digits for each byte. -/
def hexChars : Bytes → List Char
  | [] => []
  | b :: rest => hexDigit (b.toNat / 16) :: hexDigit (b.toNat % 16) :: hexChars rest

/-- Lowercase hexadecimal text of a byte string. -/
def hex (bytes : Bytes) : String :=
  String.ofList (hexChars bytes)

/-- The value of a hexadecimal digit of either case. -/
def hexValue? (c : Char) : Option Nat :=
  if '0' ≤ c ∧ c ≤ '9' then some (c.toNat - 48)
  else if 'a' ≤ c ∧ c ≤ 'f' then some (c.toNat - 87)
  else if 'A' ≤ c ∧ c ≤ 'F' then some (c.toNat - 55)
  else none

/-- The bytes written as pairs of hexadecimal digits. -/
def ofHexChars? : List Char → Option Bytes
  | [] => some []
  | [_] => none
  | c :: d :: rest =>
    match hexValue? c, hexValue? d, ofHexChars? rest with
    | some h, some l, some bytes => some (UInt8.ofNat (h * 16 + l) :: bytes)
    | _, _, _ => none

/-- Reads hexadecimal text. -/
def ofHex? (text : String) : Option Bytes :=
  ofHexChars? text.toList

end SniffProxy
