import SniffProxy.Net.Ipv6

/-!
# DNS names

The names that a TLS peer may be called by: a DNS name or an IP address. A DNS name has labels of
one to sixty-three letters, digits, underscores and inner hyphens, may end in a dot, is at most 253
characters long, and its last label is not a number, which keeps it apart from IPv4 addresses.
-/

namespace SniffProxy

namespace DnsName

/-- The longest label. -/
def maxLabelLength : Nat := 63

/-- The longest name. -/
def maxLength : Nat := 253

/-- The characters of a label. -/
def isLabelChar (c : Char) : Bool :=
  c.isAlphanum || c = '_' || c = '-'

/-- Whether a text is a label. -/
def isLabel (cs : List Char) : Bool :=
  !cs.isEmpty && decide (cs.length ≤ maxLabelLength) && cs.all isLabelChar &&
    decide (cs.head? ≠ some '-') && decide (cs.getLast? ≠ some '-')

/-- The labels of a name, without the empty one behind a final dot. -/
def labels (cs : List Char) : List (List Char) :=
  let pieces := Text.splitAt '.' cs
  if pieces.getLast? = some [] then pieces.dropLast else pieces

/-- Whether a text is a DNS name. -/
def isValid (cs : List Char) : Bool :=
  decide (cs.length ≤ maxLength) && !(labels cs).isEmpty && (labels cs).all isLabel &&
    !((labels cs).getLastD []).all Char.isDigit

end DnsName

/-- Who a TLS peer is said to be. -/
inductive PeerName where
  | dns (name : String)
  | ip (text : String)
  deriving DecidableEq, Repr

/-- Reads the name of a peer: a DNS name, or else an IP address. -/
def PeerName.ofString? (text : String) : Option PeerName :=
  let cs := text.toList
  if DnsName.isValid cs then some (.dns text)
  else if (Ipv4.ofChars? cs).isSome || (Ipv6.ofChars? cs).isSome then some (.ip text)
  else none

end SniffProxy
