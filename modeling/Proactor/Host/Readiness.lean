import Proactor.Host.Perform
import Proactor.Port.Polling

/-!
# Readiness

Whether a file polls ready: for what is wanted of it, or because something is wrong with it,
which is always told.
-/

namespace Proactor

namespace Host

/-- A local socket polls ready. -/
def isUnixReady (h : Host) (id : FileId) (s : Socket) (i : Interest) : Bool :=
  let hungUp := s.noReceive && s.noSend ||
    s.type.isConnected && !s.established && !s.listening
  let peerFull := match s.type.isConnected, s.peer.bind h.socket? with
    | false, some other => isFull id other
    | _, _ => false
  s.error.isSome || hungUp ||
  match i with
  | .input => s.noReceive || !s.queue.isEmpty || !s.backlog.isEmpty
  | .output => !s.listening && !peerFull && decide (4 * h.chargeOf id < Message.maxCharge)

/-- An internet or kernel socket polls ready. -/
def isPlainReady (s : Socket) (i : Interest) : Bool :=
  match s.type with
  | .stream => !s.listening
  | _ =>
    match i with
    | .input => s.noReceive || !s.queue.isEmpty
    | .output => true

/-- A file polls ready. -/
def isReady (h : Host) (id : FileId) (i : Interest) : File → Bool
  | .pipeReader n =>
    let p := h.pipe n
    !p.writerOpen || i == .input && p.isReadable
  | .pipeWriter n =>
    let p := h.pipe n
    !p.readerOpen || i == .output && p.isWritable
  | .counter value => i == .output || value != 0
  | .socket s => if s.family = Family.unix then h.isUnixReady id s i else isPlainReady s i
  | .terminal => i == .output
  | .ring q => i == .output || !q.completions.isEmpty

/-- What polling tells of a descriptor. -/
def readiness (h : Host) (fd : Fd) (i : Interest) : Readiness :=
  match h.fileId? fd with
  | none => .invalid
  | some id =>
    match h.file? id with
    | none => .invalid
    | some file => if h.isReady id i file then .ready else .idle

end Host

end Proactor
