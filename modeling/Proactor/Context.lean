import Proactor.Address.Half
import Proactor.Port
import Proactor.World

/-!
# Contexts

Everything one operation in flight holds: its callback, the storages lent to it, and the
records its port works on. When its completion is retrieved, what the port stored lands in that
memory and the result is put right for the callback: a received message gets the length of its
sender's name, and an accepted connection moves to the descriptor chosen for it.
-/

namespace Proactor

/-- The memory an operation holds until its completion is retrieved. -/
inductive Pinned where
  | nothing
  | writing (data : Area)
  | reading (data : Area)
  /-- With the length recorded for the sender's name. -/
  | receiving (data name : Area) (nameLength : Nat)
  | sending (data : Area) (destination : SocketAddress)
  | accepting (peer : SocketAddress) (output : StorageId) (onto : Fd)
  | connecting (destination : SocketAddress)

namespace Pinned

/-- The storages lent to the operation. -/
def leases : Pinned → List StorageId
  | nothing => []
  | writing data => [data.storage]
  | reading data => [data.storage]
  | receiving data name _ => [data.storage, name.storage]
  | sending data _ => [data.storage]
  | accepting _ output _ => [output]
  | connecting _ => []

/-- The length recorded for a name after a transfer, if it was `before`. -/
def recordedLength (t : Transfer) (before : Nat) : Nat :=
  t.nameLength.getD ((t.name.map List.length).getD before)

/-- Lands what a port stored: each part is cut to the room it was given. -/
def land (p : Pinned) (m : Memory) (t : Transfer) : Memory × Pinned :=
  match p with
  | reading data => (m.writeArea data t.data, p)
  | receiving data name nameLength =>
    ((m.writeArea data t.data).writeArea name (t.name.getD []),
      receiving data name (recordedLength t nameLength))
  | accepting peer output onto =>
    (m, accepting
      { storage := Bytes.overwrite peer.storage (t.name.getD [])
        length := UInt32.ofNat (recordedLength t peer.length.toNat)
        length_storage := by simp [peer.length_storage] } output onto)
  | _ => (m, p)

end Pinned

/-- Everything one operation in flight holds. -/
structure Context where
  kind : Kind
  fd : Fd
  callback : Callback
  pinned : Pinned

namespace World

variable {H : Type} [Os H]

/-- The world with an accept buffer's halves written. -/
def writeHalves (w : World H) (output : StorageId) (near far : Option SocketAddress) : World H :=
  { w with memory := w.memory.modifyBytes output fun bytes => Half.writeAccept bytes near far }

/-- Moves an accepted connection to the descriptor chosen for it and records both of its ends;
the connection's own descriptor is closed in any case. If the move fails, both ends are
recorded as absent. -/
def moveAccepted (w : World H) (connection : Fd) (peer : SocketAddress) (output : StorageId)
    (onto : Fd) : World H × Int64 :=
  let (host, moved) := Os.duplicate w.host connection onto
  let w := { w with host := Os.close host connection }
  match moved with
  | .ok () => (w.writeHalves output (Os.socketName w.host onto) (some peer), 0)
  | .error e => (w.writeHalves output none none, Int64.ofInt (-e.toInt))

/-- Puts the memory and the result of an operation right for its callback. -/
def finish (w : World H) (p : Pinned) (result : Int64) : World H × Int64 :=
  match p with
  | .receiving _ name nameLength =>
    let n := if result.toInt < 0 then 0 else nameLength
    ({ w with memory := w.memory.modifyBytes name.storage fun bytes => Half.setLength bytes n },
      result)
  | .accepting peer output onto =>
    if result.toInt < 0 then (w.writeHalves output none none, result)
    else w.moveAccepted (Int32.ofInt result.toInt) peer output onto
  | _ => (w, result)

/-- Lands a transfer, puts the result right, and gives the storages back. -/
def settle (w : World H) (p : Pinned) (result : Int64) (t : Transfer) : World H × Int64 :=
  let (memory, p) := p.land w.memory t
  let (w, result) := { w with memory }.finish p result
  ({ w with memory := w.memory.releaseAll p.leases }, result)

end World

end Proactor
