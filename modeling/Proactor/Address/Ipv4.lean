import Proactor.Bytes

/-!
# IPv4 hosts

Four octets and their dotted text. Only one text is read for each host: decimal octets
without leading zeros, three points, and nothing around them.
-/

namespace Proactor

/-- A host by its four octets, the most significant first. -/
structure Ipv4 where
  a : UInt8
  b : UInt8
  c : UInt8
  d : UInt8
  deriving DecidableEq, Repr, Inhabited

namespace Ipv4

/-- The decimal text of an octet. -/
def octetText (o : UInt8) : List Char := Nat.toDigits 10 o.toNat

/-- The value of a decimal digit. -/
def digitValue (c : Char) : Nat := c.toNat - '0'.toNat

/-- The number that a string of decimal digits writes. -/
def digitsValue (ds : List Char) : Nat := ds.foldl (fun n c => n * 10 + digitValue c) 0

/-- Reads the octet at the front: all the digits there, of which there are one to three, the
first of several not zero, and their number at most 255. -/
def readOctet (cs : List Char) : Option (UInt8 × List Char) :=
  let ds := cs.takeWhile Char.isDigit
  if ds.length = 0 ∨ 3 < ds.length then none
  else if 1 < ds.length ∧ ds.head? = some '0' then none
  else if 255 < digitsValue ds then none
  else some (UInt8.ofNat (digitsValue ds), cs.dropWhile Char.isDigit)

/-- Reads a point and the octet behind it. -/
def readPointOctet : List Char → Option (UInt8 × List Char)
  | '.' :: cs => readOctet cs
  | _ => none

/-- Reads dotted text, all of it. -/
def ofChars? (cs : List Char) : Option Ipv4 := do
  let (a, cs) ← readOctet cs
  let (b, cs) ← readPointOctet cs
  let (c, cs) ← readPointOctet cs
  let (d, cs) ← readPointOctet cs
  if cs.isEmpty then some ⟨a, b, c, d⟩ else none

/-- The dotted characters of a host. -/
def chars (ip : Ipv4) : List Char :=
  octetText ip.a ++ '.' :: (octetText ip.b ++ '.' :: (octetText ip.c ++ '.' :: octetText ip.d))

/-- The host that a text names, if it is in dotted form. -/
def ofText? (s : String) : Option Ipv4 := ofChars? s.toList

/-- The dotted text of a host. -/
def text (ip : Ipv4) : String := String.ofList ip.chars

/-- The octets in network order. -/
def bytes (ip : Ipv4) : Bytes := [ip.a, ip.b, ip.c, ip.d]

/-- The host of this machine itself. -/
def loopback : Ipv4 := ⟨127, 0, 0, 1⟩

end Ipv4

end Proactor
