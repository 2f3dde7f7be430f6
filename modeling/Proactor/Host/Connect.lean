import Proactor.Host.Attempt

/-!
# Connections

Connecting sockets and accepting connections. No IPv4 host can be reached from here: there are
sockets of that family, and they can be bound, but nothing is ever connected or delivered.
-/

namespace Proactor.Host

/-- The least length of an address that names its family. -/
def familySize : Nat := 2

/-- Gives a local datagram socket another peer, or none. What it had received from the former
one is lost, which is reported there. -/
def changePeer (h : Host) (id : FileId) (s : Socket) (other : Option FileId) : Host :=
  let change (h : Host) := h.modifySocket id fun s => { s with peer := other }
  match s.peer with
  | some former =>
    if some former = other ∨ s.queue.isEmpty then change h
    else
      let h := (change h).modifySocket id fun s => { s with queue := [] }
      h.modifySocket former fun f =>
        if f.peer = some id then { f with error := some Errno.reset } else f
  | none => change h

/-- Gives a datagram socket of the internet family a port of its own, unless it has one. Sending
and connecting do that, also if they fail then. -/
def bindPort (h : Host) (id : FileId) (s : Socket) : Host :=
  if s.family = Family.inet && s.type == .datagram && (s.inetPort?).getD 0 == 0 then
    { h.modifySocket id (·.withPort h.nextPort) with nextPort := h.nextPort + 1 }
  else h

/-- Why an IPv4 address is not connected to. -/
def connectInet (s : Socket) : Errno :=
  if s.family = Family.inet then
    if s.listening then Errno.isConnected else Errno.unreachable
  else if s.family = Family.inet6 && s.type == .datagram then Errno.unreachable
  else Errno.invalid

/-- Accepts a connection: the one that has waited longest, or none yet. -/
def accept (h : Host) (id : FileId) (s : Socket) (room : Nat) (flags : UInt32) :
    Host × Attempt :=
  if !s.type.isConnected then (h, fail Errno.notSupported)
  else if !s.listening then (h, fail Errno.invalid)
  else match s.backlog with
    | [] => (h, none)
    | connection :: backlog =>
      let h := h.modifySocket id fun s => { s with backlog }
      let peer := ((h.socket? connection).bind Socket.peer).bind h.socket?
      let name := (peer.map Socket.localName).getD (Bytes.ofNatLE 2 Family.unix.toNat)
      let (h, fd) := h.addDescriptor connection
      let nonblocking := hasFlag flags flagNonblocking
      let h := h.modifyFile connection fun f =>
        { f with holders := f.holders - 1, nonblocking }
      (h, succeed fd.toInt.toNat { name := some (name.take room), nameLength := some name.length })

/-- A socket without the connection that it had, or was waiting for. -/
def disconnect (h : Host) (id : FileId) (s : Socket) : Host :=
  if s.family = Family.unix then h.changePeer id s none
  else match s.type with
    | .stream => h.modifySocket id fun s =>
      { s with listening := false, noReceive := false, noSend := false }
    | _ => if s.family = Family.inet then h.modifySocket id (·.withPort 0) else h

/-- Connects a socket to an address other than a path name; the unspecified family takes a
connection away. -/
def connect (h : Host) (id : FileId) (s : Socket) (a : SocketAddress) : Host × Attempt :=
  if a.length.toNat < familySize then (h, fail Errno.invalid)
  else if a.family = Family.unspecified then
    if s.family = Family.unix && s.type.isConnected then (h, fail Errno.invalid)
    else (h.disconnect id s, succeedPlain 0)
  else (h.bindPort id s, fail (connectInet s))

end Proactor.Host
