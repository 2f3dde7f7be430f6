import Proactor.Host.Basic

/-!
# Attempts

One attempt at carrying out a request, without waiting: either it is over, with a result and
what was stored, or it would have to wait. Flags say how a message is to be moved.
-/

namespace Proactor.Host

/-- The flag that leaves a received message in its queue. -/
def flagPeek : UInt32 := 2

/-- The flag for out-of-band data. -/
def flagOutOfBand : UInt32 := 1

/-- The flag that tells of a cut message, or asks for its full length. -/
def flagTruncate : UInt32 := 32

/-- The flag that refuses to wait. -/
def flagDontWait : UInt32 := 64

/-- The flag that waits for as much as there is room for. -/
def flagWaitAll : UInt32 := 0x100

/-- The flag that asks for failures of messages that were sent. -/
def flagErrorQueue : UInt32 := 0x2000

/-- The flag that opens a connection on the way. -/
def flagFastOpen : UInt32 := 0x20000000

/-- The flag that keeps received descriptors from being inherited; it is told back. -/
def flagKeepDescriptors : UInt32 := 0x40000000

/-- The flag for messages in the layout of narrower machines. -/
def flagNarrow : UInt32 := 0x80000000

/-- The flag that keeps an accepted descriptor from being inherited. -/
def flagCloseOnExec : UInt32 := 0x80000

/-- The flag that makes an accepted connection refuse to wait. -/
def flagNonblocking : UInt32 := 0x800

/-- A connection may be accepted with these flags. -/
def mayAcceptWith (flags : UInt32) : Bool :=
  flags &&& ~~~(flagCloseOnExec ||| flagNonblocking) == 0

/-- A flag is set. -/
def hasFlag (flags flag : UInt32) : Bool := flags &&& flag != 0

/-- The end of an attempt; absent if the request would have to wait. -/
abbrev Attempt := Option (Int64 × Transfer)

/-- A success that moved or made `n`. -/
def succeed (n : Nat) (t : Transfer) : Attempt := some (Int64.ofNat n, t)

/-- A success that stored nothing. -/
def succeedPlain (n : Nat) : Attempt := succeed n {}

/-- A failure. -/
def fail (e : Errno) : Attempt := some (Int64.ofInt (-e.toInt), {})

/-- Names are stored as far as there is room, and their full length is recorded. -/
def nameTransfer (t : Transfer) (name : Bytes) : Option Nat → Transfer
  | none => { t with nameLength := some 0 }
  | some 0 => { t with nameLength := some 0 }
  | some room => { t with name := some (name.take room), nameLength := some name.length }

/-- Takes the failure that a socket has yet to report. -/
def takeError (h : Host) (id : FileId) (s : Socket) : Option (Host × Errno) :=
  s.error.map fun e => (h.modifySocket id fun s => { s with error := none }, e)

end Proactor.Host
