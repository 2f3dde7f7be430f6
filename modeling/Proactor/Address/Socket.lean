import Proactor.Address.Basic
import Proactor.Fault

/-!
# Socket addresses

The fixed-size record in which addresses go to a host and come back, with the recorded length
of its meaningful front. The host may record more than the record holds; what is meaningful is
then the whole record.
-/

namespace Proactor

/-- A 128-byte address record and the length recorded for it. -/
structure SocketAddress where
  storage : Bytes
  length : UInt32
  length_storage : storage.length = 128 := by simp

namespace SocketAddress

/-- How many bytes an address record has. -/
def size : Nat := 128

/-- The record that holds the front of `front`, with `length` recorded. -/
def ofFront (front : Bytes) (length : UInt32) : SocketAddress :=
  { storage := Bytes.overwrite (Bytes.zeros size) front
    length
    length_storage := by simp [size] }

/-- The zeroed record, with all of it recorded: what a host is given to fill. -/
def empty : SocketAddress := ofFront [] 128

/-- The record of an IPv4 address. -/
def inet (host : Ipv4) (port : UInt16) : SocketAddress := ofFront (Address.inetBytes host port) 16

/-- The family number at the front of the record, whatever length is recorded. -/
def family (a : SocketAddress) : Family := UInt16.ofNat (Bytes.toNatLE (a.storage.take 2))

/-- The meaningful bytes: the recorded front, or all there is. -/
def bytes (a : SocketAddress) : Bytes := a.storage.take a.length.toNat

/-- The address that the meaningful bytes hold. -/
def address (a : SocketAddress) : Address := Address.ofBytes a.bytes

/-- The destination that a family, a host text and a port name. Only IPv4 is understood, and
its family is looked at first. -/
def encode (family : Int32) (host : String) (port : UInt16) : Except Fault SocketAddress :=
  if family.toInt ≠ Family.inet.toNat then .error (.unsupportedAddressFamily family)
  else match Ipv4.ofText? host with
    | some ip => .ok (inet ip port)
    | none => .error (.invalidArgument .hostNotIpv4)

theorem length_bytes (a : SocketAddress) : a.bytes.length = min a.length.toNat 128 := by
  simp [bytes, a.length_storage]

/-- The meaningful bytes of an IPv4 record are its 16-byte form. -/
theorem bytes_inet (host : Ipv4) (port : UInt16) :
    (inet host port).bytes = Address.inetBytes host port := by
  have h := Bytes.take_overwrite (Bytes.zeros size) (Address.inetBytes host port) (by simp [size])
  simpa [inet, ofFront, bytes] using h

end SocketAddress

end Proactor
