import Proactor.Host.Pipe
import Proactor.Host.Socket
import Proactor.Port
import Proactor.Request

/-!
# Hosts

A host keeps open files, the descriptors that name them, and a clock. Several descriptors may
name one file, and operations that a ring carries out hold the files they work on. A file that
nobody holds any more is gone: its other ends notice. New descriptors get the lowest number
that is free.
-/

namespace Proactor

/-- An operation that a ring carries out. -/
structure Running where
  token : Token
  file : FileId
  request : Request
  /-- What it received up to now. -/
  received : Bytes := []

/-- What a ring carries out, in order of arrival, and the completions it has posted. -/
structure RingQueue where
  /-- How many completions there is room for. -/
  room : Nat
  running : List Running := []
  completions : List (Completion × Transfer) := []
  /-- Completions that there was no room for. -/
  overflow : List (Completion × Transfer) := []

/-- What a descriptor can name. -/
inductive File where
  /-- A terminal: nothing to read, and room for everything. -/
  | terminal
  | counter (value : Nat)
  | pipeReader (pipe : Nat)
  | pipeWriter (pipe : Nat)
  | socket (s : Socket)
  | ring (q : RingQueue)

/-- A file, and how many descriptors and operations hold it. -/
structure OpenFile where
  file : File
  nonblocking : Bool := false
  holders : Nat := 0

/-- A host. -/
structure Host where
  /-- Nanoseconds since it started. -/
  clock : Nat := 0
  files : List OpenFile := []
  descriptors : List (Nat × FileId) := []
  pipes : List Pipe := []
  /-- The files that path names were given to. -/
  paths : List (String × FileId) := []
  /-- The next port to be given to a socket that asks for any. -/
  nextPort : Nat := 52817

namespace Host

/-- A host on which only the three standard descriptors are open. -/
def start : Host :=
  { files := [{ file := .terminal, holders := 3 }], descriptors := [(0, 0), (1, 0), (2, 0)] }

/-- Descriptors from this number on are never open. -/
def maxDescriptors : Nat := 1000000

/-- The file that a descriptor names. -/
def fileId? (h : Host) (fd : Fd) : Option FileId :=
  if fd.toInt < 0 then none else h.descriptors.lookup fd.toInt.toNat

/-- A file that somebody holds. -/
def file? (h : Host) (id : FileId) : Option File :=
  match h.files[id]? with
  | some f => if f.holders = 0 then none else some f.file
  | none => none

/-- A socket that somebody holds. -/
def socket? (h : Host) (id : FileId) : Option Socket :=
  match h.file? id with
  | some (.socket s) => some s
  | _ => none

/-- A pipe; one that never was is closed at both ends. -/
def pipe (h : Host) (n : Nat) : Pipe := (h.pipes[n]?).getD ⟨[], false, false⟩

/-- Waiting on the file is refused. -/
def isNonblocking (h : Host) (id : FileId) : Bool :=
  match h.files[id]? with
  | some f => f.nonblocking
  | none => false

/-- The host with an open file changed. -/
def modifyFile (h : Host) (id : FileId) (f : OpenFile → OpenFile) : Host :=
  { h with files := h.files.modify id f }

/-- The host with what an open file is replaced. -/
def setFile (h : Host) (id : FileId) (file : File) : Host :=
  h.modifyFile id fun f => { f with file }

/-- The host with a socket changed, whether or not somebody holds it. -/
def modifySocket (h : Host) (id : FileId) (g : Socket → Socket) : Host :=
  h.modifyFile id fun f =>
    match f.file with
    | .socket s => { f with file := .socket (g s) }
    | _ => f

/-- The host with a pipe changed. -/
def modifyPipe (h : Host) (n : Nat) (g : Pipe → Pipe) : Host :=
  { h with pipes := h.pipes.modify n g }

/-- The host with one more file, which nobody holds yet. -/
def addFile (h : Host) (file : File) : Host × FileId :=
  ({ h with files := h.files ++ [{ file }] }, h.files.length)

/-- The host with one more holder of a file. -/
def hold (h : Host) (id : FileId) : Host :=
  h.modifyFile id fun f => { f with holders := f.holders + 1 }

/-- The lowest number from `n` on that is no descriptor. -/
def freeNumber (h : Host) : Nat → Nat → Nat
  | 0, n => n
  | fuel + 1, n => if (h.descriptors.lookup n).isSome then h.freeNumber fuel (n + 1) else n

/-- Gives a file a new descriptor. -/
def addDescriptor (h : Host) (id : FileId) : Host × Fd :=
  let n := h.freeNumber h.descriptors.length 0
  ({ h.hold id with descriptors := (n, id) :: h.descriptors }, Int32.ofNat n)

/-- Opens a new file under a new descriptor. -/
def openFile (h : Host) (file : File) : Host × Fd :=
  let (h, id) := h.addFile file
  h.addDescriptor id

/-- What the other end of a connection notices when this end is gone: nothing can be sent or
received any more, and what was not read here is lost, which is reported there. -/
def hangUp (lost : Bool) (s : Socket) : Socket :=
  { s with
    noReceive := true
    noSend := true
    error := if lost then some Errno.reset else s.error }

/-- A socket is gone. -/
def releaseSocket (h : Host) (id : FileId) (s : Socket) (lost : Bool) : Host :=
  let h := h.modifySocket id fun s => { s with queue := [] }
  match s.type.isConnected, s.peer with
  | true, some peer => h.modifySocket peer (hangUp (lost || s.queue.any (!·.data.isEmpty)))
  | _, _ => h

/-- How much room the data takes up that a socket has under way. -/
def chargeOf (h : Host) (id : FileId) : Nat :=
  (h.files.map fun f => match f.file with
    | .socket s => s.chargeOf id
    | _ => 0).foldl (· + ·) 0

/-- A connection that waited to be accepted is gone. -/
def releaseWaiting (h : Host) (id : FileId) : Host :=
  match h.socket? id with
  | some s => (h.modifyFile id fun f => { f with holders := 0 }).releaseSocket id s true
  | none => h

/-- A file other than a ring is gone. -/
def releasePlain (h : Host) (id : FileId) : File → Host
  | .pipeReader n => h.modifyPipe n fun p => { p with readerOpen := false }
  | .pipeWriter n => h.modifyPipe n fun p => { p with writerOpen := false }
  | .socket s => (s.backlog.foldl releaseWaiting h).releaseSocket id s false
  | _ => h

/-- The host with one holder of a file less; `gone` says what happens when it was the last. -/
def unholdWith (gone : Host → FileId → File → Host) (h : Host) (id : FileId) : Host :=
  match h.files[id]? with
  | some f =>
    let h := h.modifyFile id fun f => { f with holders := f.holders - 1 }
    if f.holders = 1 then gone h id f.file else h
  | none => h

/-- A file is gone. A ring lets go of what its operations hold. -/
def release (h : Host) (id : FileId) : File → Host
  | .ring q => (q.running.map Running.file).foldl (unholdWith releasePlain) h
  | file => h.releasePlain id file

/-- The host with one holder of a file less. -/
def unhold (h : Host) (id : FileId) : Host := unholdWith release h id

/-- The host with a number taken from its descriptors. -/
def dropNumber (h : Host) (n : Nat) : Host :=
  { h with descriptors := h.descriptors.filter (·.1 != n) }

/-- Closes a descriptor. -/
def closeFd (h : Host) (fd : Fd) : Host × Except Errno Unit :=
  match h.fileId? fd with
  | some id => ((h.dropNumber fd.toInt.toNat).unhold id, .ok ())
  | none => (h, .error Errno.badDescriptor)

/-- Makes `new` another name for the file that `old` names, in place of what it named. -/
def duplicateFd (h : Host) (old new : Fd) : Host × Except Errno Unit :=
  if old = new then (h, .error Errno.invalid)
  else if new.toInt < 0 ∨ maxDescriptors ≤ new.toInt.toNat then (h, .error Errno.badDescriptor)
  else match h.fileId? old with
    | none => (h, .error Errno.badDescriptor)
    | some id =>
      let h := h.hold id
      let h := (h.closeFd new).1
      ({ h with descriptors := (new.toInt.toNat, id) :: h.descriptors }, .ok ())

end Host

end Proactor
