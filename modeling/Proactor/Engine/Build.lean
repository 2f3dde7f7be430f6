import Proactor.Engine.Close

/-!
# Building

An engine is built in stages: its configuration is checked, its port is asked through a scratch
handle whether it offers accept and connect, the event counter is created, and the engine's own
read is put in flight. Each stage may fail, and then nothing is left open or in flight.
-/

namespace Proactor

variable {P H : Type} [CompletionPort P H] [Os H]

/-- The opcodes of a port's extensions. The scratch handle that is opened to ask for them is
closed in any case. -/
def Extensions.resolve (port : P) (host : H) : Reply P H (Except Fault Extensions) :=
  let r := CompletionPort.openScratch port host
  let name := CompletionPort.name port
  match r.answer with
  | .error f =>
    let fault := match f with
      | .systemResource .. => f
      | _ => .systemResource "scratch handle" f.errno
    { port := r.port, host := r.host, notices := r.notices ++ [.scratchFailed name f]
      answer := .error fault }
  | .ok () =>
    let (port, accept) := CompletionPort.supports r.port r.host Opcode.accept
    let (port, connect) := CompletionPort.supports port r.host Opcode.connect
    let (port, host) := CompletionPort.closeScratch port r.host
    let found := r.notices ++ [.extensionsFound name accept connect]
    let missing (extension : String) : Reply P H (Except Fault Extensions) :=
      { port, host, notices := found ++ [.extensionMissing name extension]
        answer := .error (.systemResource extension Errno.notImplemented) }
    if !accept then missing "accept extension"
    else if !connect then missing "connect extension"
    else { port, host, notices := found, answer := .ok ⟨Opcode.accept, Opcode.connect⟩ }

/-- What comes of building an engine; a failure leaves the port and the host behind, and the
descriptor of the event counter if there was one. -/
inductive Built (P H : Type) where
  | failed (fault : Fault) (port : P) (host : H) (wake : Option Fd) (journal : List Notice)
  | ready (e : Engine P H)

namespace Engine

/-- How many bytes reading an event counter takes. -/
def counterSize : Nat := 8

/-- The engine before its own read is in flight. -/
def fresh (config : Config) (extensions : Extensions) (port : P) (host : H) (wake : Fd)
    (journal : List Notice) : Engine P H :=
  let (memory, wakeBuffer) := Memory.alloc {} (Bytes.zeros counterSize)
  { port, world := { host, memory, injector := { wake }, journal }, extensions, config, wakeBuffer }

/-- Puts the read of a fresh engine in flight. If that fails the engine is closed again. -/
def start (e : Engine P H) : Built P H :=
  match e.armWake with
  | (e, .ok ()) =>
    .ready (e.note (.engineUp e.portName (CompletionPort.capacity e.port) e.config.eagerFlush))
  | (e, .error f) =>
    let e := e.drop
    .failed (.systemResource "injector wake read" f.errno) e.port
      (Os.close e.world.host e.world.injector.wake) (some e.world.injector.wake) e.world.journal

/-- Builds an engine on a port. -/
def build (config : Config) (port : P) (host : H) : Built P H :=
  match config.fault? with
  | some f => .failed (.config f) port host none []
  | none =>
    let r := Extensions.resolve port host
    match r.answer with
    | .error f => .failed f r.port r.host none r.notices
    | .ok extensions =>
      match Os.eventCreate r.host with
      | (host, .error e) => .failed (.systemResource "eventfd" e) r.port host none r.notices
      | (host, .ok wake) => (fresh config extensions r.port host wake r.notices).start

end Engine

end Proactor
