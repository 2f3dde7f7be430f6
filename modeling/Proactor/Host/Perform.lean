import Proactor.Host.Receive
import Proactor.Host.Send

/-!
# Performing requests

One attempt at any request on any file, also if the memory it names is not there: what is found
out before that memory is touched comes first.
-/

namespace Proactor.Host

/-! ## Pipes and counters -/

/-- Reads from a pipe; without a writer its end is reached behind the last byte. -/
def readPipe (h : Host) (n room : Nat) : Host × Attempt :=
  let p := h.pipe n
  if room = 0 then (h, succeedPlain 0)
  else if p.isReadable then
    let (p, data) := p.read room
    (h.modifyPipe n fun _ => p, succeed data.length { data })
  else if p.writerOpen then (h, none)
  else (h, succeedPlain 0)

/-- Writes to a pipe, as much as there is room for. -/
def writePipe (h : Host) (n : Nat) (content : Bytes) : Host × Attempt :=
  let p := h.pipe n
  if content.isEmpty then (h, succeedPlain 0)
  else if !p.readerOpen then (h, fail Errno.brokenPipe)
  else
    let (p, count) := p.write content
    if count = 0 then (h, none) else (h.modifyPipe n fun _ => p, succeedPlain count)

/-- How many bytes reading a counter takes. -/
def counterSize : Nat := 8

/-- Reads and clears a counter, which has to be above zero. -/
def readCounter (h : Host) (id : FileId) (value room : Nat) : Host × Attempt :=
  if room < counterSize then (h, fail Errno.invalid)
  else if value = 0 then (h, none)
  else (h.setFile id (.counter 0), succeed counterSize { data := Bytes.ofNatLE counterSize value })

/-! ## Requests -/

/-- Reads from a file. -/
def readFile (h : Host) (id : FileId) (room : Nat) : File → Host × Attempt
  | .pipeReader n => h.readPipe n room
  | .pipeWriter _ => (h, fail Errno.badDescriptor)
  | .counter value => h.readCounter id value room
  | .socket s =>
    if room = 0 then (h, succeedPlain 0) else h.receive id s room none 0
  | .terminal => (h, none)
  | .ring _ => (h, fail Errno.invalid)

/-- Writes to a file. -/
def writeFile (h : Host) (id : FileId) (content : Bytes) : File → Host × Attempt
  | .pipeWriter n => h.writePipe n content
  | .pipeReader _ => (h, fail Errno.badDescriptor)
  | .socket s => h.send id s content none 0
  | .terminal => (h, succeedPlain content.length)
  | .counter _ => (h, fail Errno.invalid)
  | .ring _ => (h, fail Errno.invalid)

/-- One attempt at a request on a file. -/
def performOn (h : Host) (id : FileId) (file : File) : Request → Host × Attempt
  | .event => (h, succeedPlain 0)
  | .read room => h.readFile id room file
  | .write content => h.writeFile id content file
  | .receive room nameRoom flags =>
    match file with
    | .socket s =>
      let (h, a) := h.receive id s room nameRoom flags
      (h, a.map fun (n, t) => (n, tellMessage flags t))
    | _ => (h, fail Errno.notSocket)
  | .send content destination flags =>
    match file with
    | .socket s => h.send id s content destination flags
    | _ => (h, fail Errno.notSocket)
  | .accept room flags =>
    if !mayAcceptWith flags then (h, fail Errno.invalid)
    else match file with
      | .socket s => h.accept id s room flags
      | _ => (h, fail Errno.notSocket)
  | .connect a =>
    if SocketAddress.size < a.length.toNat then (h, fail Errno.invalid)
    else match file with
      | .socket s => h.connect id s a
      | _ => (h, fail Errno.notSocket)
  | .unmapped _ => (h, fail Errno.badAddress)

/-- A datagram that is taken from its queue is lost if it cannot be stored. -/
def losesUnstored : File → Bool
  | .socket s => !s.type.isConnected
  | _ => false

/-- Sends a datagram from memory that is not there, which is found before its receiver is. -/
def sendUnmapped (h : Host) (id : FileId) (s : Socket) (length : Nat) : Host × Attempt :=
  (h.refuseDatagram id s length).getD (h, fail Errno.badAddress)

/-- Moves data to or from memory that is not there: that fails if there is any data to move, and
`lost` says whether the data is lost then. -/
def moveUnmapped (h : Host) (id : FileId) (file : File) (r : Request) (lost : Bool) :
    Host × Attempt :=
  match h.performOn id file r with
  | (_, none) => (h, none)
  | (after, some (n, t)) =>
    if n.toInt ≤ 0 then (after, some (n, t))
    else (if lost then after else h, fail Errno.badAddress)

/-- Writes from memory that is not there. -/
def writeUnmapped (h : Host) (id : FileId) (content : Bytes) (file : File) : Host × Attempt :=
  match file with
  | .socket s =>
    if s.family = Family.unix ∧ s.type = .datagram ∧ 0 < content.length then
      h.sendUnmapped id s content.length
    else h.moveUnmapped id file (.write content) false
  | _ => h.moveUnmapped id file (.write content) false

/-- Accepts a connection whose peer cannot be named: it is lost, unless no name is wanted. -/
def acceptUnmapped (h : Host) (id : FileId) (s : Socket) (room : Nat) (flags : UInt32) :
    Host × Attempt :=
  match h.accept id s room flags with
  | (after, some (n, t)) =>
    if n.toInt < 0 ∨ room = 0 then (after, some (n, t))
    else ((after.closeFd (Int32.ofInt n.toInt)).1, fail Errno.badAddress)
  | (after, none) => (after, none)

/-- One attempt at a request on memory that is not there. It waits or fails for other reasons
first, if it finds them before it touches that memory. -/
def performUnmapped (h : Host) (id : FileId) (file : File) (r : Request) : Host × Attempt :=
  match r, file with
  | .read _, _ => h.moveUnmapped id file r (losesUnstored file)
  | .write content, _ => h.writeUnmapped id content file
  | .accept room flags, .socket s =>
    if mayAcceptWith flags then h.acceptUnmapped id s room flags else (h, fail Errno.invalid)
  | .accept .., _ => h.performOn id file r
  | .connect a, _ =>
    if 0 < a.length.toNat ∧ a.length.toNat ≤ SocketAddress.size then (h, fail Errno.badAddress)
    else h.performOn id file r
  | _, .socket _ => (h, fail Errno.badAddress)
  | _, _ => (h, fail Errno.notSocket)

/-- One attempt at a request on a file by its name. -/
def perform (h : Host) (id : FileId) (r : Request) : Host × Attempt :=
  match h.file? id with
  | none => (h, fail Errno.badDescriptor)
  | some file =>
    match r with
    | .unmapped r => h.performUnmapped id file r
    | r => h.performOn id file r

end Proactor.Host
