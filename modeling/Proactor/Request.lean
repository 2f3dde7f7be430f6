import Proactor.Entry

/-!
# Requests

What an entry asks of a host, with the bytes to be written taken from memory: what remains of
an entry when it is carried out, away from the memory of the engine.
-/

namespace Proactor

/-- What is asked of a host. -/
inductive Request where
  | read (room : Nat)
  | write (content : Bytes)
  /-- With the room for the sender's name, if that is wanted. -/
  | receive (room : Nat) (nameRoom : Option Nat) (flags : UInt32)
  | send (content : Bytes) (destination : Option SocketAddress) (flags : UInt32)
  /-- With the room for the peer's name. -/
  | accept (room : Nat) (flags : UInt32)
  | connect (destination : SocketAddress)
  | event
  /-- The same on memory that is not there. -/
  | unmapped (r : Request)
  deriving Inhabited

/-- What an operation on a payload asks of a host. -/
def Payload.request (opcode : Opcode) (flags : UInt32) (m : Memory) : Payload → Request
  | .data area => if opcode = Opcode.write then .write (m.readArea area) else .read area.length
  | .receive area name => .receive area.length (name.map Area.length) flags
  | .send area name => .send (m.readArea area) name flags
  | .peer room => .accept room flags
  | .destination address => .connect address
  | .unmapped p => .unmapped (p.request opcode flags m)
  | .nothing => .unmapped .event

/-- What an entry asks of a host; nothing if its opcode is not known. -/
def Entry.request? (e : Entry) (m : Memory) : Option Request :=
  if e.opcode = Opcode.nop then some .event
  else if !Opcode.issued.contains e.opcode then none
  else some (e.payload.request e.opcode e.flags m)

end Proactor
