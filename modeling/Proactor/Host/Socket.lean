import Proactor.Address.Basic
import Proactor.Fault
import Proactor.Host.Message

/-!
# Sockets

The state of one socket. Messages between sockets of this machine are kept in the receiver's
queue.
-/

namespace Proactor

/-- How a socket passes data on. -/
inductive SocketType where
  | stream
  | datagram
  | raw
  | seqpacket
  deriving DecidableEq, Repr, Inhabited

namespace SocketType

/-- The number of a type. -/
def number : SocketType → Int32
  | stream => 1
  | datagram => 2
  | raw => 3
  | seqpacket => 5

/-- Sockets of this type have connections. -/
def isConnected : SocketType → Bool
  | stream | seqpacket => true
  | datagram | raw => false

end SocketType

/-- The state of one socket. -/
structure Socket where
  family : Family
  type : SocketType
  protocol : Int32 := 0
  /-- The bound name, as address bytes; empty if there is none. -/
  name : Bytes := []
  /-- The socket that messages go to. -/
  peer : Option FileId := none
  /-- The socket has, or had, a connection. -/
  established : Bool := false
  listening : Bool := false
  /-- Connections that wait to be accepted. -/
  backlog : List FileId := []
  queue : List Message := []
  /-- A failure that is yet to be reported, once. -/
  error : Option Errno := none
  noReceive : Bool := false
  noSend : Bool := false
  deriving DecidableEq, Repr, Inhabited

namespace Socket

/-- How many datagrams a socket queues before senders that are not its peer have to wait. -/
def maxQueued : Nat := 10

/-- The largest datagram between sockets of this machine. -/
def maxDatagram : Nat := 212960

/-- The largest datagram of the internet protocol. -/
def maxInetDatagram : Nat := 65535

/-- The local address bytes: the bound name, or the family number and zeros. -/
def localName (s : Socket) : Bytes :=
  if s.name.isEmpty then
    let size :=
      if s.family = Family.inet then 16
      else if s.family = Family.inet6 then 28
      else if s.family = Family.netlink then 12
      else 2
    Bytes.ofNatLE 2 s.family.toNat ++ Bytes.zeros (size - 2)
  else s.name

/-- Address bytes of a path name: family, characters, and a zero byte. -/
def pathName (path : String) : Bytes :=
  Bytes.ofNatLE 2 Family.unix.toNat ++ path.toUTF8.toList ++ [0]

/-- How much room of a sender the data in the queue takes up. -/
def chargeOf (s : Socket) (origin : FileId) : Nat :=
  ((s.queue.filter (·.origin == origin)).map Message.charge).foldl (· + ·) 0

/-- The socket with another port in its internet name. -/
def withPort (s : Socket) (port : Nat) : Socket :=
  { s with name := s.localName.take 2 ++ Bytes.ofNatBE 2 port ++ s.localName.drop 4 }

/-- The port of a bound internet socket. -/
def inetPort? (s : Socket) : Option UInt16 :=
  match s.name with
  | _ :: _ :: p0 :: p1 :: _ =>
    if s.family = Family.inet then some (UInt16.ofNat (Bytes.toNatBE [p0, p1])) else none
  | _ => none

end Socket

end Proactor
