import Proactor.Address.Socket
import Proactor.Memory
import Proactor.Operation

/-!
# Entries

One operation as it is handed to a port: its token and opcode, the descriptor and the flags as
full machine words, and the memory the operation works on.
-/

namespace Proactor

/-- The memory an operation works on. -/
inductive Payload where
  | nothing
  /-- What a write takes from and a read puts into. -/
  | data (area : Area)
  /-- Where a message goes, and where the name of its sender goes. -/
  | receive (data : Area) (name : Option Area)
  /-- What a message takes from, and the name of its receiver. -/
  | send (data : Area) (name : Option SocketAddress)
  /-- How many bytes there are for the name of an accepted peer. -/
  | peer (room : Nat)
  /-- Where a connection goes. -/
  | destination (address : SocketAddress)
  /-- The same at an address at which there is no memory. -/
  | unmapped (p : Payload)

/-- One operation as it is handed to a port. -/
structure Entry where
  token : Token
  opcode : Opcode
  /-- The descriptor, extended with its sign. -/
  fdWord : UInt64 := 0
  /-- The flags, of which the low 32 bits count. -/
  flagsWord : UInt64 := 0
  payload : Payload := .nothing

namespace Entry

/-- A descriptor as a machine word. -/
def wordOfFd (fd : Fd) : UInt64 := UInt64.ofNat (fd.toInt % 0x10000000000000000).toNat

/-- Flags as a machine word. -/
def wordOfFlags (flags : Int32) : UInt64 := flags.toUInt32.toUInt64

/-- The descriptor: the low 32 bits of its word, as a signed number. -/
def fd (e : Entry) : Fd := Int32.ofInt e.fdWord.toNat

/-- The flags: the low 32 bits of their word. -/
def flags (e : Entry) : UInt32 := UInt32.ofNat e.flagsWord.toNat

/-- The descriptor that a word was made from is read back. -/
theorem fd_wordOfFd (token : Token) (opcode : Opcode) (flags : UInt64) (payload : Payload)
    (fd : Fd) : (Entry.mk token opcode (wordOfFd fd) flags payload).fd = fd := by
  have h1 := fd.minValue_le_toInt
  have h2 := fd.toInt_lt
  have h3 : (UInt64.ofNat (fd.toInt % 0x10000000000000000).toNat).toNat = (fd.toInt % 0x10000000000000000).toNat := by
    rw [UInt64.toNat_ofNat']
    omega
  have h4 : Int32.minValue.toInt = -0x80000000 := rfl
  apply Int32.toInt_inj.mp
  simp only [Entry.fd, wordOfFd, h3, Int32.toInt_ofInt, Int32.size, Int.bmod_def]
  omega

end Entry

end Proactor
