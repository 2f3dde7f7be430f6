import Proactor.Host.Readiness
import Proactor.Os

/-!
# System calls

Making files, naming sockets, connecting them, and moving bytes without waiting.
-/

namespace Proactor.Host

/-- A new pipe: its reading and its writing descriptor. -/
def makePipe (h : Host) : Host × Fd × Fd :=
  let n := h.pipes.length
  let (h, r) := { h with pipes := h.pipes ++ [({} : Pipe)] }.openFile (.pipeReader n)
  let (h, w) := h.openFile (.pipeWriter n)
  (h, r, w)

/-- Two new local sockets, each the peer of the other. -/
def makePair (h : Host) (type : SocketType) : Host × Fd × Fd :=
  let a := h.files.length
  let s : Socket := { family := Family.unix, type, established := type.isConnected }
  let (h, fdA) := h.openFile (.socket { s with peer := some (a + 1) })
  let (h, fdB) := h.openFile (.socket { s with peer := some a })
  (h, fdA, fdB)

/-- The protocol number of a new socket, or why there is no such socket. -/
def protocolOf (family : Family) (type : SocketType) : Except Errno Int32 :=
  if family = Family.unix then .ok 0
  else if family = Family.netlink then
    match type with
    | .datagram | .raw => .ok 0
    | _ => .error Errno.socketTypeNotSupported
  else match type with
    | .stream => .ok 6
    | .datagram => .ok 17
    | .raw => .error Errno.protocolNotSupported
    | .seqpacket => .error Errno.socketTypeNotSupported

/-- A new socket. A raw local socket is one for datagrams. -/
def makeSocket (h : Host) (family : Family) (type : SocketType) : Host × Except Errno Fd :=
  match protocolOf family type with
  | .error e => (h, .error e)
  | .ok protocol =>
    let type := if family = Family.unix && type == .raw then .datagram else type
    let (h, fd) := h.openFile (.socket { family, type, protocol })
    (h, .ok fd)

/-- A new internet socket, bound to this machine and a port of its own. -/
def makeInet (h : Host) (type : SocketType) : Host × Fd :=
  let port := UInt16.ofNat h.nextPort
  let isStream := type == SocketType.stream
  let s : Socket :=
    { family := Family.inet, type, protocol := if isStream then 6 else 17
      name := Address.inetBytes Ipv4.loopback port, listening := isStream }
  { h with nextPort := h.nextPort + 1 }.openFile (.socket s)

/-- A new local socket, bound to a path name. A path name is given away once and for all. -/
def makeNamed (h : Host) (type : SocketType) (path : String) : Host × Except Errno Fd :=
  if (h.paths.lookup path).isSome then (h, .error Errno.addressInUse)
  else
    let id := h.files.length
    let (h, fd) := h.openFile (.socket {
      family := Family.unix
      type
      name := Socket.pathName path
      listening := type == .stream })
    ({ h with paths := (path, id) :: h.paths }, .ok fd)

/-- The socket that a descriptor names. -/
def socketAt (h : Host) (fd : Fd) : Except Errno (FileId × Socket) :=
  match h.fileId? fd with
  | none => .error Errno.badDescriptor
  | some id =>
    match h.socket? id with
    | some s => .ok (id, s)
    | none => .error Errno.notSocket

/-- Connects a stream to a listener: the listener gets a socket that waits to be accepted. -/
def joinListener (h : Host) (id : FileId) (listenerId : FileId) (listener : Socket) : Host :=
  let connection : Socket :=
    { family := Family.unix, type := listener.type, name := listener.name, peer := some id
      established := true }
  let (h, connectionId) := h.addFile (.socket connection)
  let h := h.hold connectionId
  let h := h.modifySocket listenerId fun s => { s with backlog := s.backlog ++ [connectionId] }
  h.modifySocket id fun s => { s with peer := some connectionId, established := true }

/-- Why a socket of another family is not connected to a path name: as an address of its own
family the name is too short, or it is of the wrong family. -/
def connectForeign (s : Socket) (path : String) : Errno :=
  if s.listening then Errno.isConnected
  else if (Socket.pathName path).length < s.localName.length then Errno.invalid
  else Errno.familyNotSupported

/-- Connects a local socket to the one with a path name. -/
def connectPath (h : Host) (fd : Fd) (path : String) : Host × Except Errno Unit :=
  match h.socketAt fd with
  | .error e => (h, .error e)
  | .ok (id, s) =>
    if s.family ≠ Family.unix then (h.bindPort id s, .error (connectForeign s path))
    else match h.paths.lookup path with
      | none => (h, .error Errno.noEntry)
      | some otherId =>
        match h.socket? otherId with
        | none => (h, .error Errno.refused)
        | some other =>
          if other.type ≠ s.type then (h, .error Errno.wrongSocketType)
          else if !s.type.isConnected then
            if maySend id other then (h.changePeer id s (some otherId), .ok ())
            else (h, .error Errno.notPermitted)
          else if !other.listening || other.noReceive then (h, .error Errno.refused)
          else if s.established then (h, .error Errno.isConnected)
          else if s.listening then (h, .error Errno.invalid)
          else (h.joinListener id otherId other, .ok ())

/-- Connects a socket to a port of this machine. -/
def connectPort (h : Host) (fd : Fd) (port : UInt16) : Host × Except Errno Unit :=
  match h.fileId? fd with
  | none => (h, .error Errno.badDescriptor)
  | some id =>
    match h.perform id (.connect (SocketAddress.inet Ipv4.loopback port)) with
    | (h, some (n, _)) => (h, if n.toInt < 0 then .error (Int32.ofInt (-n.toInt)) else .ok ())
    | (h, none) => (h, .error Errno.inProgress)

/-- The end of a request that did not have to wait, as bytes stored or a failure. -/
def resultOf : Attempt → Except Errno (Nat × Bytes)
  | none => .error Errno.again
  | some (n, t) => if n.toInt < 0 then .error (Int32.ofInt (-n.toInt)) else .ok (n.toInt.toNat, t.data)

/-- System calls refuse messages in the layout of narrower machines. -/
def refusesLayout : Request → Bool
  | .receive _ _ flags | .send _ _ flags => hasFlag flags flagNarrow
  | .unmapped (.receive _ _ flags) | .unmapped (.send _ _ flags) => hasFlag flags flagNarrow
  | _ => false

/-- One attempt at a request on a descriptor. -/
def performFd (h : Host) (fd : Fd) (r : Request) : Host × Attempt :=
  if refusesLayout r then (h, fail Errno.invalid)
  else match h.fileId? fd with
    | some id => h.perform id r
    | none => (h, fail Errno.badDescriptor)

/-- Writes what a file takes at once. -/
def writeNow (h : Host) (fd : Fd) (content : Bytes) : Host × Except Errno Nat :=
  let (h, a) := h.performFd fd (.write content)
  (h, (resultOf a).map (·.1))

/-- What comes of waiting on a socket that receives nothing more. -/
def endOfWaiting (h : Host) (id : FileId) (r : Request) : Attempt :=
  match h.socket? id with
  | some s =>
    if !s.noReceive then none
    else match r with
      | .read _ | .unmapped (.read _) => succeedPlain 0
      | .receive _ nameRoom _ => succeed 0 (nameTransfer {} [] nameRoom)
      | .accept .. | .unmapped (.accept ..) => fail Errno.invalid
      | _ => none
  | none => none

/-- Reads what there is, if the file polls ready; a negative number never does. -/
def readNow (h : Host) (fd : Fd) (room : Nat) : Host × Except Errno Bytes :=
  match if fd.toInt < 0 then .idle else h.readiness fd .input with
  | .idle => (h, .error Errno.again)
  | _ =>
    match h.fileId? fd with
    | none => (h, .error Errno.badDescriptor)
    | some id =>
      match h.perform id (.read room) with
      | (h, none) =>
        let a := if h.isNonblocking id then none else h.endOfWaiting id (.read room)
        (h, (resultOf a).map (·.2))
      | (h, a) => (h, (resultOf a).map (·.2))

/-- Writes zeros until there is no more room; the answer is how many. -/
def fillUp (h : Host) (fd : Fd) : Host × Nat :=
  match h.writeNow fd (Bytes.zeros (Pipe.maxPages * Pipe.pageSize)) with
  | (h, .ok n) => (h, n)
  | (h, .error _) => (h, 0)

/-- The file refuses to wait. Of a descriptor that names nothing every flag counts as set. -/
def nonblocking (h : Host) (fd : Fd) : Bool :=
  match h.fileId? fd with
  | some id => h.isNonblocking id
  | none => true

/-- Makes a file refuse to wait, or not. -/
def setNonblocking (h : Host) (fd : Fd) (enabled : Bool) : Host :=
  match h.fileId? fd with
  | some id => h.modifyFile id fun f => { f with nonblocking := enabled }
  | none => h

/-- A socket with one direction, or both, shut down. -/
def shutSides (receive send : Bool) (s : Socket) : Socket :=
  { s with noReceive := s.noReceive || receive, noSend := s.noSend || send }

/-- Shuts down receiving (0), sending (1), or both (2). -/
def shutDown (h : Host) (fd : Fd) (how : Int) : Host × Except Errno Unit :=
  match h.socketAt fd with
  | .error e => (h, .error e)
  | .ok (id, s) =>
    let receive := how == 0 || how == 2
    let send := how == 1 || how == 2
    if s.family = Family.netlink then (h, .error Errno.notSupported)
    else if how < 0 ∨ 2 < how then (h, .error Errno.invalid)
    else if s.family ≠ Family.unix then
      if s.listening then
        (h.modifySocket id fun s => { s with listening := s.listening && !receive }, .ok ())
      else (h.modifySocket id (shutSides receive send), .error Errno.notConnected)
    else
      let h := h.modifySocket id (shutSides receive send)
      match s.type.isConnected, s.peer with
      | true, some peer => (h.modifySocket peer (shutSides send receive), .ok ())
      | _, _ => (h, .ok ())

/-- One option of a socket. -/
def socketOption (h : Host) (fd : Fd) (o : SocketOption) : Except Errno Int32 :=
  (h.socketAt fd).map fun (_, s) =>
    match o with
    | .domain => Int32.ofNat s.family.toNat
    | .type => s.type.number
    | .protocol => s.protocol

/-- The local address of a socket. -/
def socketName (h : Host) (fd : Fd) : Option SocketAddress :=
  match h.socketAt fd with
  | .ok (_, s) => some (SocketAddress.ofFront s.localName (UInt32.ofNat s.localName.length))
  | .error _ => none

/-- Creates an event counter. -/
def makeCounter (h : Host) : Host × Fd := h.openFile (.counter 0)

/-- Adds one to an event counter. -/
def addToCounter (h : Host) (fd : Fd) : Host × Except Errno Unit :=
  match h.fileId? fd with
  | none => (h, .error Errno.badDescriptor)
  | some id =>
    match h.file? id with
    | some (.counter value) => (h.setFile id (.counter (value + 1)), .ok ())
    | _ => (h, .error Errno.invalid)

end Proactor.Host
