import SniffProxy.Bytes
import SniffProxy.Error

/-!
# HTTP request heads

The head of an HTTP/1 request: request line and header lines up to the empty line. A scanner looks
at the bytes that have arrived so far and either finds a complete head, or proof that no head starts
with these bytes, or neither.

* `Scan` — the three verdicts; every scanner answers one.
* `Head.scan` — the scanner of a head: leading empty lines, a method, a target, a version, at most
  `maxHeaders` header lines, and the empty line. Lines end in CRLF or in a bare LF.
-/

namespace SniffProxy.Http

/-- A verdict on the bytes so far. -/
inductive Scan (α : Type) where
  /-- More bytes are needed. -/
  | incomplete
  /-- No continuation of the bytes is well formed. -/
  | faulty (fault : HeadFault)
  /-- Found, with the bytes after it. -/
  | found (value : α) (rest : Bytes)
  deriving DecidableEq, Repr

/-- Goes on scanning after what was found. -/
def Scan.andThen {α β : Type} (scan : Scan α) (next : α → Bytes → Scan β) : Scan β :=
  match scan with
  | incomplete => incomplete
  | faulty fault => faulty fault
  | found value rest => next value rest

/-! ## Classes of bytes -/

/-- Carriage return. -/
def cr : UInt8 := 0x0D

/-- Line feed. -/
def lf : UInt8 := 0x0A

/-- The space. -/
def space : UInt8 := 0x20

/-- The horizontal tab. -/
def tab : UInt8 := 0x09

/-- The colon. -/
def colon : UInt8 := 0x3A

/-- The marks that a token may hold beside letters and digits. -/
def tokenMarks : List UInt8 := utf8 "!#$%&'*+-.^_`|~"

/-- The bytes of methods and header names. -/
def isTokenByte (b : UInt8) : Bool :=
  (0x30 ≤ b && b ≤ 0x39) || (0x41 ≤ b && b ≤ 0x5A) || (0x61 ≤ b && b ≤ 0x7A) ||
    tokenMarks.contains b

/-- The bytes of request targets. -/
def isTargetByte (b : UInt8) : Bool :=
  0x20 < b && b != 0x7F

/-- The bytes of header values. -/
def isValueByte (b : UInt8) : Bool :=
  b == tab || (0x20 ≤ b && b != 0x7F)

/-! ## The request line -/

/-- Skips empty lines. -/
def skipEmptyLines : Bytes → Scan Unit
  | [] => .incomplete
  | [b] => if b = cr ∨ b = lf then .incomplete else .found () [b]
  | b :: c :: rest =>
    if b = cr then
      if c = lf then skipEmptyLines rest else .faulty .newLine
    else if b = lf then skipEmptyLines (c :: rest)
    else .found () (b :: c :: rest)

/-- Scans the end of a line; the fault is what else may not stand there. -/
def scanLineEnd (fault : HeadFault) : Bytes → Scan Unit
  | [] => .incomplete
  | b :: rest =>
    if b = lf then .found () rest
    else if b = cr then
      match rest with
      | [] => .incomplete
      | c :: rest => if c = lf then .found () rest else .faulty fault
    else .faulty fault

/-- Scans a method and the space after it. -/
def scanMethod (bytes : Bytes) : Scan Bytes :=
  let method := bytes.takeWhile isTokenByte
  match bytes.dropWhile isTokenByte with
  | [] => .incomplete
  | b :: rest => if b = space ∧ method ≠ [] then .found method rest else .faulty .token

/-- Scans a request target, at least one byte of UTF-8 text, and the space after it. -/
def scanTarget (bytes : Bytes) : Scan Bytes :=
  let target := bytes.takeWhile isTargetByte
  match bytes.dropWhile isTargetByte with
  | [] => .incomplete
  | b :: rest =>
    if b = space ∧ target ≠ [] ∧ (decodeUtf8 target).isSome then .found target rest
    else .faulty .token

/-- What both versions start with. -/
def versionStem : Bytes := utf8 "HTTP/1."

/-- Scans the version. Fewer than eight bytes are judged by the stem alone. -/
def scanVersion (bytes : Bytes) : Scan UInt8 :=
  let version := bytes.take 8
  if version.length < 8 then
    if version.take 7 = versionStem.take version.length then .incomplete else .faulty .version
  else if version = versionStem ++ [0x30] then .found 0 (bytes.drop 8)
  else if version = versionStem ++ [0x31] then .found 1 (bytes.drop 8)
  else .faulty .version

/-! ## Header lines -/

/-- A header line. -/
structure Header where
  name : Bytes
  value : Bytes
  deriving DecidableEq, Repr

/-- The most header lines in a head. -/
def maxHeaders : Nat := 64

/-- Whether a byte is blank inside a line. -/
def isLineBlank (b : UInt8) : Bool :=
  b == space || b == tab

/-- Scans a header name and the colon after it. -/
def scanName (bytes : Bytes) : Scan Bytes :=
  let name := bytes.takeWhile isTokenByte
  match bytes.dropWhile isTokenByte with
  | [] => .incomplete
  | b :: rest => if b = colon ∧ name ≠ [] then .found name rest else .faulty .headerName

/-- Scans a header value and the end of its line. Blanks around the value do not belong to it. -/
def scanValue (bytes : Bytes) : Scan Bytes :=
  let value := (bytes.dropWhile isLineBlank).takeWhile isValueByte
  (scanLineEnd .headerValue ((bytes.dropWhile isLineBlank).dropWhile isValueByte)).andThen
    fun _ rest => .found (value.reverse.dropWhile isLineBlank).reverse rest

/-- Scans header lines and the empty line after them, with room for so many lines. -/
def scanHeaders : (room : Nat) → Bytes → Scan (List Header)
  | _, [] => .incomplete
  | 0, b :: rest =>
    if b = cr ∨ b = lf then (scanLineEnd .newLine (b :: rest)).andThen fun _ rest => .found [] rest
    else if isTokenByte b then .faulty .tooManyHeaders
    else .faulty .headerName
  | room + 1, b :: rest =>
    if b = cr ∨ b = lf then (scanLineEnd .newLine (b :: rest)).andThen fun _ rest => .found [] rest
    else
      (scanName (b :: rest)).andThen fun name rest =>
        (scanValue rest).andThen fun value rest =>
          (scanHeaders room rest).andThen fun headers rest => .found (⟨name, value⟩ :: headers) rest

/-! ## Heads -/

/-- A request head. -/
structure Head where
  method : Bytes
  target : Bytes
  minorVersion : UInt8
  headers : List Header
  deriving DecidableEq, Repr

/-- Scans a request head. -/
def Head.scan (bytes : Bytes) : Scan Head :=
  (skipEmptyLines bytes).andThen fun _ rest =>
    (scanMethod rest).andThen fun method rest =>
      (scanTarget rest).andThen fun target rest =>
        (scanVersion rest).andThen fun minorVersion rest =>
          (scanLineEnd .newLine rest).andThen fun _ rest =>
            (scanHeaders maxHeaders rest).andThen fun headers rest =>
              .found ⟨method, target, minorVersion, headers⟩ rest

/-- Whether two names agree up to the case of ASCII letters. -/
def sameName (x y : Bytes) : Bool :=
  let lower := fun b : UInt8 => if 0x41 ≤ b && b ≤ 0x5A then b + 0x20 else b
  x.map lower == y.map lower

/-- The value of the first header line with this name. -/
def Head.value? (head : Head) (name : Bytes) : Option Bytes :=
  (head.headers.find? fun header => sameName header.name name).map Header.value

end SniffProxy.Http
