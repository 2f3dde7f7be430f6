import Proactor.Config
import Proactor.Context
import Proactor.Slab

/-!
# Engines

An engine joins a port with a slab of contexts: what is submitted gets a context and a token,
and what the port hands back under that token is dispatched to the context's callback. Besides
the operations of its users it keeps one read of its own in flight, on the event counter of its
injector, so that a post can end a wait; that read never shows.
-/

namespace Proactor

/-- The opcodes of the operations that not every host offers. -/
structure Extensions where
  accept : Opcode
  connect : Opcode
  deriving DecidableEq, Repr

/-- What an engine has counted. -/
structure Stats where
  /-- Operations that the port accepted. -/
  submitted : Nat := 0
  /-- Operations that the port refused. -/
  refused : Nat := 0
  /-- Callbacks run for completions. -/
  dispatched : Nat := 0
  /-- Posted callbacks run. -/
  injected : Nat := 0
  /-- Pumps that ended at their time limit. -/
  timeouts : Nat := 0
  deriving DecidableEq, Repr

/-- An engine on a port of type `P` and a host of type `H`. -/
structure Engine (P H : Type) where
  port : P
  world : World H
  slab : Slab Context := {}
  /-- The descriptors registered with the port. -/
  associated : List Fd := []
  extensions : Extensions
  config : Config := {}
  /-- The storage that the event counter is read into. -/
  wakeBuffer : StorageId
  /-- The token of the engine's own read while that is in flight. -/
  wakeToken : Option Token := none
  stats : Stats := {}
  closed : Bool := false
  /-- Contexts given up at the end; what they hold stays lent for good. -/
  leaked : List Context := []

namespace Engine

variable {P H α : Type}

/-- The user operations in flight. -/
def outstanding (e : Engine P H) : Nat := e.slab.live - if e.wakeToken.isSome then 1 else 0

/-- The engine after a call on its port. -/
def absorb (e : Engine P H) (r : Reply P H α) : Engine P H :=
  { e with
    port := r.port
    world := { e.world with host := r.host, journal := e.world.journal ++ r.notices } }

/-- The engine with one more notice in its journal. -/
def note (e : Engine P H) (n : Notice) : Engine P H := { e with world := e.world.note n }

/-- The engine with storages given back. -/
def releaseAll (e : Engine P H) (ids : List StorageId) : Engine P H :=
  { e with world := { e.world with memory := e.world.memory.releaseAll ids } }

/-- The engine with other memory. -/
def withMemory (e : Engine P H) (memory : Memory) : Engine P H :=
  { e with world := { e.world with memory } }

/-- A new buffer for an address of any family. -/
def allocateAddressBuffer (m : Memory) : Memory × StorageId := m.alloc (Bytes.zeros Half.fullSize)

/-- A new buffer for both ends of an accepted connection. -/
def allocateAcceptBuffer (m : Memory) : Memory × StorageId :=
  m.alloc (Bytes.zeros (2 * Half.fullSize))

/-- A new address buffer that holds a destination. -/
def encodeAddress (m : Memory) (family : Int32) (host : String) (port : UInt16) :
    Except Fault (Memory × StorageId) :=
  (SocketAddress.encode family host port).map fun a =>
    m.alloc (Half.write (Bytes.zeros Half.fullSize) (some a))

/-- The address in a buffer; none while somebody holds it. -/
def decodeAddress (m : Memory) (buffer : StorageId) : Address :=
  ((m.read? buffer).map Half.read).getD .none

/-- Both addresses in an accept buffer; none while somebody holds it. -/
def acceptAddresses (m : Memory) (buffer : StorageId) : Address × Address :=
  ((m.read? buffer).map Half.readAccept).getD (.none, .none)

variable [CompletionPort P H]

/-- The name of the port. -/
def portName (e : Engine P H) : String := CompletionPort.name e.port

/-- Registers a descriptor with the port, unless it is registered already. -/
def associate (e : Engine P H) (fd : Fd) : Engine P H × Except Fault Unit :=
  if e.associated.contains fd then (e, .ok ())
  else
    let r := CompletionPort.associate e.port e.world.host fd
    match r.answer with
    | .ok () => ({ e.absorb r with associated := fd :: e.associated }, .ok ())
    | .error f => (e.absorb r, .error f)

/-- Forgets the registration of a descriptor; the answer is whether there was one. -/
def dissociate (e : Engine P H) (fd : Fd) : Engine P H × Bool :=
  ({ e with associated := e.associated.filter (· != fd) }, e.associated.contains fd)

end Engine

end Proactor
