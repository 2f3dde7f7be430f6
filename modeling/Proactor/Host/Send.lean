import Proactor.Host.Connect

/-!
# Sending

Sending from sockets. Data for another socket of this machine goes to its queue at once, as
long as the sender has room for more data under way; internet sockets say why they send
nothing.
-/

namespace Proactor.Host

/-- The sender of a datagram finds its peer gone: it has no peer any more, and what it had
received is lost. -/
def loseDatagramPeer (h : Host) (id : FileId) : Host :=
  h.modifySocket id fun s => { s with peer := none, queue := [] }

/-- Puts a message at the end of a socket's queue. -/
def deliver (h : Host) (id : FileId) (m : Message) : Host :=
  h.modifySocket id fun s => { s with queue := s.queue ++ [m] }

/-- There is room for more data of a socket under way. -/
def hasRoom (h : Host) (id : FileId) : Bool := decide (h.chargeOf id < Message.maxCharge)

/-- Delivers parts of a stream as long as there is room; the count is how many bytes that were. -/
def deliverParts (h : Host) (id : FileId) (name : Bytes) (peer : FileId) :
    List Bytes → Host × Nat
  | [] => (h, 0)
  | part :: parts =>
    if !h.hasRoom id then (h, 0)
    else
      let charge := Message.streamCharge part.length
      let (h, n) := (h.deliver peer { data := part, sender := name, origin := id, charge })
        |>.deliverParts id name peer parts
      (h, part.length + n)

/-- Delivers one urgent byte of a stream, if there is room; any before it are urgent no more. -/
def deliverUrgent (h : Host) (id : FileId) (name : Bytes) (peer : FileId) (data : Bytes) :
    Host × Nat :=
  if !h.hasRoom id then (h, 0)
  else
    let m : Message :=
      { data, sender := name, origin := id, charge := Message.streamCharge data.length
        isUrgent := true }
    (h.modifySocket peer fun s => { s with queue := Message.calm s.queue ++ [m] }, data.length)

/-- Delivers bytes of a stream, of which the last one may be urgent, as far as there is room. -/
def deliverStream (h : Host) (id : FileId) (name : Bytes) (peer : FileId) (content : Bytes)
    (isUrgent : Bool) : Host × Nat :=
  if isUrgent then
    let (h, n) := h.deliverParts id name peer (Message.parts content.dropLast)
    if n + 1 < content.length then (h, n)
    else
      let (h, last) := h.deliverUrgent id name peer (content.drop n)
      (h, n + last)
  else h.deliverParts id name peer (Message.parts content)

/-- Sends bytes of a stream to the socket at its other end. -/
def sendStream (h : Host) (id : FileId) (s : Socket) (content : Bytes) (named isUrgent : Bool) :
    Host × Attempt :=
  if isUrgent && content.isEmpty then (h, fail Errno.notSupported)
  else if named then (h, fail (if s.established then Errno.isConnected else Errno.notSupported))
  else match s.peer with
    | none => (h, fail Errno.notConnected)
    | some peer =>
      if s.noSend then (h, fail Errno.brokenPipe)
      else match h.socket? peer with
        | none => (h, fail Errno.brokenPipe)
        | some other =>
          if other.noReceive then (h, fail Errno.brokenPipe)
          else if content.isEmpty then (h, succeedPlain 0)
          else match h.deliverStream id s.name peer content isUrgent with
            | (h, 0) => (h, none)
            | (h, n) => (h, succeedPlain n)

/-- A peer that is not connected back takes only so many datagrams. -/
def isFull (id : FileId) (other : Socket) : Bool :=
  other.peer != some id && decide (Socket.maxQueued < other.queue.length)

/-- A socket takes datagrams from its peer alone, if it has one. -/
def maySend (id : FileId) (other : Socket) : Bool := other.peer.all (· == id)

/-- A socket sends no datagram, whoever is to get it: because of a failure, or as long as there
is no room. -/
def refuseDatagram (h : Host) (id : FileId) (s : Socket) (size : Nat) : Option (Host × Attempt) :=
  if Socket.maxDatagram < size then some (h, fail Errno.messageTooLong)
  else match h.takeError id s with
    | some (h, e) => some (h, fail e)
    | none =>
      if s.noSend then some (h, fail Errno.brokenPipe)
      else if h.hasRoom id then none else some (h, none)

/-- Sends a datagram to the peer of a socket. -/
def sendDatagram (h : Host) (id : FileId) (s : Socket) (content : Bytes) (named : Bool) :
    Host × Attempt :=
  if named then (h, fail Errno.invalid)
  else match h.refuseDatagram id s content.length with
    | some refusal => refusal
    | none =>
      match s.peer with
      | none => (h, fail Errno.notConnected)
      | some peer =>
        match h.socket? peer with
        | none => (h.loseDatagramPeer id, fail Errno.refused)
        | some other =>
          if !maySend id other then (h, fail Errno.notPermitted)
          else if other.noReceive then (h, fail Errno.brokenPipe)
          else if isFull id other then (h, none)
          else
            let m : Message :=
              { data := content, sender := s.name, origin := id
                charge := Message.datagramCharge content.length }
            (h.deliver peer m, succeedPlain content.length)

/-- The port number of a destination. -/
def portOf (a : SocketAddress) : Nat :=
  match a.address with
  | .inet _ port => port.toNat
  | _ => 0

/-- Why a datagram is not sent to an IPv4 host. -/
def sendInetDatagram (content : Bytes) (destination : Option SocketAddress) (flags : UInt32) :
    Errno :=
  if Socket.maxInetDatagram < content.length then Errno.messageTooLong
  else if hasFlag flags flagOutOfBand then Errno.notSupported
  else match destination with
    | none => Errno.destinationRequired
    | some a => if portOf a = 0 then Errno.invalid else Errno.unreachable

/-- Why a datagram is not sent from an IPv6 socket: only IPv4 destinations are told. -/
def sendInet6Datagram (content : Bytes) (destination : Option SocketAddress) (flags : UInt32) :
    Errno :=
  match destination with
  | none => Errno.destinationRequired
  | some a =>
    if a.length.toNat < familySize then Errno.invalid
    else if a.family = Family.unspecified then Errno.destinationRequired
    else sendInetDatagram content destination flags

/-- Why an internet stream sends nothing, if it is to be connected on the way. -/
def sendOpening (s : Socket) (destination : Option SocketAddress) : Errno :=
  match destination with
  | none => if s.listening then Errno.isConnected else Errno.invalid
  | some a =>
    if a.length.toNat < familySize then Errno.invalid
    else if a.family = Family.unspecified then Errno.notSupported
    else connectInet s

/-- Why an internet socket sends nothing. -/
def sendInet (s : Socket) (content : Bytes) (destination : Option SocketAddress)
    (flags : UInt32) : Errno :=
  match s.type with
  | .datagram =>
    if s.family = Family.inet then sendInetDatagram content destination flags
    else sendInet6Datagram content destination flags
  | _ => if hasFlag flags flagFastOpen then sendOpening s destination else Errno.brokenPipe

/-- Sends from a socket; a destination without length is none. -/
def send (h : Host) (id : FileId) (s : Socket) (content : Bytes)
    (destination : Option SocketAddress) (flags : UInt32) : Host × Attempt :=
  let destination := destination.filter (·.length != 0)
  let isUrgent := hasFlag flags flagOutOfBand
  if s.family = Family.unix then
    match s.type with
    | .stream => h.sendStream id s content destination.isSome isUrgent
    | .seqpacket => (h, fail Errno.notConnected)
    | _ =>
      if isUrgent then (h, fail Errno.notSupported)
      else h.sendDatagram id s content destination.isSome
  else if s.family = Family.netlink then
    if isUrgent then (h, fail Errno.notSupported)
    else if content.isEmpty then (h, fail Errno.noData)
    else if destination.isSome then (h, fail Errno.invalid)
    else if Socket.maxDatagram < content.length then (h, fail Errno.messageTooLong)
    else (h, succeedPlain content.length)
  else (h.bindPort id s, fail (sendInet s content destination flags))

end Proactor.Host
