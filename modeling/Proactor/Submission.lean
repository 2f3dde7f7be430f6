import Proactor.Config
import Proactor.Context

/-!
# Submissions

What each kind of operation needs before it goes to a port. Preparing a submission checks its
arguments and lends it its buffers. If an argument is bad nothing is lent: preparation then has
no memory to give back, only the fault. The checks come in a fixed order, and the first one that
fails is reported.
-/

namespace Proactor

/-- An operation ready to be handed to a port. -/
structure Submission where
  kind : Kind
  opcode : Opcode
  fd : Fd
  fdWord : UInt64 := Entry.wordOfFd fd
  flagsWord : UInt64 := 0
  payload : Payload := .nothing
  pinned : Pinned := .nothing

/-- Where a message or a connection goes. -/
structure Destination where
  family : Int32 := 2
  host : String
  port : UInt16
  deriving DecidableEq, Repr

/-- The socket address of a destination. -/
def Destination.encode (d : Destination) : Except Fault SocketAddress :=
  SocketAddress.encode d.family d.host d.port

namespace Submission

/-- The entry that a port sees. -/
def entry (s : Submission) (token : Token) : Entry :=
  { token, opcode := s.opcode, fdWord := s.fdWord, flagsWord := s.flagsWord, payload := s.payload }

/-- How many bytes are transferred: `length`, or the whole buffer. -/
def transferLength (m : Memory) (buffer : StorageId) (length : Option Nat) : Except Fault Nat :=
  let capacity := m.capacity buffer
  let n := length.getD capacity
  if n = 0 then .error (.invalidArgument .lengthZero)
  else if capacity < n then .error (.invalidArgument .lengthExceedsCapacity)
  else if 0x100000000 ≤ n then .error (.invalidArgument .lengthTooWide)
  else .ok n

/-- Lends a buffer, which has to be idle. -/
def lend (m : Memory) (buffer : StorageId) : Except Fault Memory :=
  match m.lease? buffer with
  | some m => .ok m
  | none => .error (.invalidArgument .bufferInFlight)

/-- Writes the front of a buffer. -/
def write (m : Memory) (fd : Fd) (buffer : StorageId) (length : Option Nat) :
    Except Fault (Memory × Submission) := do
  let n ← transferLength m buffer length
  let m ← lend m buffer
  let data : Area := ⟨buffer, 0, n⟩
  return (m, { kind := .write, opcode := Opcode.write, fd
               payload := .data data, pinned := .writing data })

/-- Reads into the front of a buffer. -/
def read (m : Memory) (fd : Fd) (buffer : StorageId) (length : Option Nat) :
    Except Fault (Memory × Submission) := do
  let n ← transferLength m buffer length
  let m ← lend m buffer
  let data : Area := ⟨buffer, 0, n⟩
  return (m, { kind := .read, opcode := Opcode.read, fd
               payload := .data data, pinned := .reading data })

/-- Receives a message, and the name of its sender behind the header of `sender`. The room for a
name is a number of 32 bits. -/
def receiveFrom (m : Memory) (fd : Fd) (buffer sender : StorageId) (length : Option Nat)
    (flags : Int32) : Except Fault (Memory × Submission) := do
  let n ← transferLength m buffer length
  let room := m.capacity sender
  if room < Half.minSize then throw (.invalidArgument .addressBufferTooSmall)
  let m ← lend m buffer
  let m ← lend m sender
  let data : Area := ⟨buffer, 0, n⟩
  let name : Area := ⟨sender, Half.headerSize, min (room - Half.headerSize) 0xffffffff⟩
  return (m, { kind := .receiveFrom, opcode := Opcode.receiveMessage, fd
               flagsWord := Entry.wordOfFlags flags
               payload := .receive data (some name)
               pinned := .receiving data name name.length })

/-- Sends the front of a buffer to a destination. -/
def sendTo (m : Memory) (fd : Fd) (buffer : StorageId) (destination : Destination)
    (length : Option Nat) (flags : Int32) : Except Fault (Memory × Submission) := do
  let n ← transferLength m buffer length
  let address ← destination.encode
  let m ← lend m buffer
  let data : Area := ⟨buffer, 0, n⟩
  return (m, { kind := .sendTo, opcode := Opcode.sendMessage, fd
               flagsWord := Entry.wordOfFlags flags
               payload := .send data (some address), pinned := .sending data address })

/-- The flag that keeps an accepted descriptor from being inherited. -/
def closeOnExec : UInt64 := 0x80000

/-- Accepts a connection onto the descriptor `onto`; both of its ends go to `output`. -/
def accept (m : Memory) (opcode : Opcode) (fd onto : Fd) (output : StorageId) :
    Except Fault (Memory × Submission) := do
  if m.capacity output < Half.minAcceptSize then throw (.invalidArgument .acceptBufferTooSmall)
  if onto.toInt < 0 then throw (.invalidArgument .acceptHandleNegative)
  let m ← lend m output
  return (m, { kind := .accept, opcode, fd, flagsWord := closeOnExec
               payload := .peer SocketAddress.size
               pinned := .accepting SocketAddress.empty output onto })

/-- Connects to a destination. -/
def connect (m : Memory) (opcode : Opcode) (fd : Fd) (destination : Destination) :
    Except Fault (Memory × Submission) := do
  let address ← destination.encode
  return (m, { kind := .connect, opcode, fd, payload := .destination address
               pinned := .connecting address })

/-- An event without a descriptor; the port sees zero in its place. -/
def event (m : Memory) : Except Fault (Memory × Submission) :=
  .ok (m, { kind := .inject, opcode := Opcode.nop, fd := -1, fdWord := 0 })

/-- The engine's own read of its event counter, into all of a buffer. -/
def wake (m : Memory) (fd : Fd) (buffer : StorageId) : Except Fault (Memory × Submission) := do
  let m' ← lend m buffer
  let data : Area := ⟨buffer, 0, m.capacity buffer⟩
  return (m', { kind := .read, opcode := Opcode.read, fd
                payload := .data data, pinned := .reading data })

end Submission

end Proactor
