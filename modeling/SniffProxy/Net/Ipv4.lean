import SniffProxy.Bytes
import SniffProxy.Text

/-!
# IPv4 addresses

The four octets of an IPv4 address, their dotted text and its reader. The reader takes exactly four
decimal parts of one to three digits, none with a superfluous leading zero and none above 255.
-/

namespace SniffProxy

/-- An IPv4 address. -/
structure Ipv4 where
  a : UInt8
  b : UInt8
  c : UInt8
  d : UInt8
  deriving DecidableEq, Repr

namespace Ipv4

/-- The four octets in the order of the wire. -/
def toBytes (ip : Ipv4) : Bytes :=
  [ip.a, ip.b, ip.c, ip.d]

@[simp] theorem length_toBytes (ip : Ipv4) : ip.toBytes.length = 4 := rfl

/-- Dotted decimal text. -/
def toString (ip : Ipv4) : String :=
  s!"{ip.a.toNat}.{ip.b.toNat}.{ip.c.toNat}.{ip.d.toNat}"

/-- Reads a decimal octet at the start of a text: as many digits as follow, at most three, no
superfluous leading zero, value at most 255. -/
def readOctet (cs : List Char) : Option (UInt8 × List Char) :=
  let digits := cs.takeWhile Char.isDigit
  let rest := cs.dropWhile Char.isDigit
  if digits.length = 0 ∨ 3 < digits.length then none
  else if digits.head? = some '0' ∧ 1 < digits.length then none
  else
    match Text.readNatUpTo 255 digits with
    | some n => some (UInt8.ofNat n, rest)
    | none => none

/-- Reads a dot and an octet. -/
def readDotOctet : List Char → Option (UInt8 × List Char)
  | '.' :: rest => readOctet rest
  | _ => none

/-- Reads an address at the start of a text. -/
def readPrefix (cs : List Char) : Option (Ipv4 × List Char) :=
  match readOctet cs with
  | none => none
  | some (a, r₁) =>
    match readDotOctet r₁ with
    | none => none
    | some (b, r₂) =>
      match readDotOctet r₂ with
      | none => none
      | some (c, r₃) =>
        match readDotOctet r₃ with
        | none => none
        | some (d, r₄) => some (⟨a, b, c, d⟩, r₄)

/-- Reads a text that is an address and nothing else. -/
def ofChars? (cs : List Char) : Option Ipv4 :=
  match readPrefix cs with
  | some (ip, []) => some ip
  | _ => none

/-- The address with this dotted decimal text. -/
def ofString? (text : String) : Option Ipv4 :=
  ofChars? text.toList

/-- The loopback network `127.0.0.0/8`. -/
def isLoopback (ip : Ipv4) : Bool :=
  ip.a = 127

/-- The address that stands for every interface. -/
def any : Ipv4 := ⟨0, 0, 0, 0⟩

end Ipv4

end SniffProxy
