import Proactor.Address.Ipv4

/-!
# Addresses

What can be read out of the bytes a host writes for the far or near end of a socket. Reading
never fails: too few bytes for a family number are no address, and a family that is not
understood is carried along with its bytes.
-/

namespace Proactor

/-- The number of an address family. -/
abbrev Family := UInt16

namespace Family

def unspecified : Family := 0
def unix : Family := 1
def inet : Family := 2
def inet6 : Family := 10
def netlink : Family := 16

end Family

/-- A decoded address. -/
inductive Address where
  /-- Nothing was written, as for a message on a connected socket. -/
  | none
  | inet (host : Ipv4) (port : UInt16)
  /-- Of a family that is not understood; `body` is what follows the family number. -/
  | foreign (family : Family) (body : Bytes)
  deriving DecidableEq, Repr, Inhabited

namespace Address

def isNone : Address → Bool
  | none => true
  | _ => false

/-- Host text and port of an IPv4 address. -/
def hostPort? : Address → Option (String × UInt16)
  | inet host port => some (host.text, port)
  | _ => .none

/-- The text of an address in messages. -/
def text : Address → String
  | none => "<none>"
  | inet host port => host.text ++ ":" ++ port.toNat.repr
  | foreign family body =>
    "<family " ++ family.toNat.repr ++ ": " ++ body.length.repr ++ " bytes>"

/-- Reads address bytes: a family number, low byte first, and for IPv4 the port and the host
in network order, in a record of at least 16 bytes. -/
def ofBytes : Bytes → Address
  | f0 :: f1 :: body =>
    let family := UInt16.ofNat (Bytes.toNatLE [f0, f1])
    match family == Family.inet && decide (14 ≤ body.length), body with
    | true, p0 :: p1 :: a :: b :: c :: d :: _ =>
      inet ⟨a, b, c, d⟩ (UInt16.ofNat (Bytes.toNatBE [p0, p1]))
    | _, _ => foreign family body
  | _ => none

/-- The 16 bytes in which a host expects an IPv4 address. -/
def inetBytes (host : Ipv4) (port : UInt16) : Bytes :=
  Bytes.ofNatLE 2 Family.inet.toNat ++ Bytes.ofNatBE 2 port.toNat ++ host.bytes ++ Bytes.zeros 8

@[simp] theorem length_inetBytes (host : Ipv4) (port : UInt16) :
    (inetBytes host port).length = 16 := by
  simp [inetBytes, Ipv4.bytes]

@[simp] theorem ofBytes_nil : ofBytes [] = none := rfl

end Address

end Proactor
