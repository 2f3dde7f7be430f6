import Proactor.Engine.Basic
import Proactor.Submission

/-!
# Submitting

A submission is all or nothing. Its arguments are checked first, and a bad one leaves no trace.
Then its descriptor is registered, it gets a context, and its entry is pushed. If the port
refuses, the context is taken back and its callback will never run; otherwise the operation is
in flight under the token that is returned, and its callback waits for a pump.
-/

namespace Proactor.Engine

variable {P H : Type} [CompletionPort P H]

/-- Registers the descriptor of a submission; a negative one stands for none. -/
def register (e : Engine P H) (fd : Fd) : Engine P H × Except Fault Unit :=
  if 0 ≤ fd.toInt then e.associate fd else (e, .ok ())

/-- Takes back the context under a token, and what it holds. -/
def withdraw (e : Engine P H) (token : Token) : Engine P H :=
  match e.slab.take token with
  | some (context, slab) => { e.releaseAll context.pinned.leases with slab }
  | none => e

/-- Flushes the port behind a submission. A failure is put off: the next pump tries again. -/
def flushBehind (e : Engine P H) (kind : Kind) : Engine P H :=
  let r := CompletionPort.flush e.port e.world.host e.world.memory
  match r.answer with
  | .ok _ => e.absorb r
  | .error f => (e.absorb r).note (.flushDeferred kind f)

/-- Flushes behind a submission if the engine is to do so. -/
def flushIfEager (e : Engine P H) (kind : Kind) : Engine P H :=
  if e.config.eagerFlush then e.flushBehind kind else e

/-- The engine and the token with a context for a submission. -/
def enroll (e : Engine P H) (s : Submission) (cb : Callback) : Engine P H × Token :=
  let (slab, token) := e.slab.insert ⟨s.kind, s.fd, cb, s.pinned⟩
  ({ e with slab }, token)

/-- Pushes the entry of a submission that has its context. -/
def pushEntry (e : Engine P H) (s : Submission) (token : Token) :
    Engine P H × Except Fault Token :=
  let r := CompletionPort.push e.port e.world.host e.world.memory (s.entry token)
  let e := e.absorb r
  match r.answer with
  | .error f =>
    ((e.withdraw token).note (.refused s.kind s.fd f.errno), .error (.systemCall s.kind f.errno))
  | .ok () => ((e.note (.submitted s.kind s.fd token)).flushIfEager s.kind, .ok token)

/-- Hands a submission, whose buffers are lent already, to the port. -/
def handOff (e : Engine P H) (s : Submission) (cb : Callback) : Engine P H × Except Fault Token :=
  match e.register s.fd with
  | (e, .error f) => (e.releaseAll s.pinned.leases, .error (.systemCall s.kind f.errno))
  | (e, .ok ()) =>
    let (e, token) := e.enroll s cb
    e.pushEntry s token

/-- The engine with one operation counted, as accepted or refused. -/
def count (e : Engine P H) (result : Except Fault Token) : Engine P H :=
  match result with
  | .ok _ => { e with stats := { e.stats with submitted := e.stats.submitted + 1 } }
  | .error (.systemCall ..) => { e with stats := { e.stats with refused := e.stats.refused + 1 } }
  | .error _ => e

/-- Submits what was prepared, unless that failed. -/
def submit (e : Engine P H) (prepared : Except Fault (Memory × Submission)) (cb : Callback) :
    Engine P H × Except Fault Token :=
  match prepared with
  | .error f => (e, .error f)
  | .ok (memory, s) =>
    let (e, result) := { e with world := { e.world with memory } }.handOff s cb
    (e.count result, result)

/-- Writes the front of a buffer, all of it unless a length is given. -/
def write (e : Engine P H) (fd : Fd) (buffer : StorageId) (length : Option Nat) (cb : Callback) :
    Engine P H × Except Fault Token :=
  e.submit (Submission.write e.world.memory fd buffer length) cb

/-- Reads into the front of a buffer, all of it unless a length is given. -/
def read (e : Engine P H) (fd : Fd) (buffer : StorageId) (length : Option Nat) (cb : Callback) :
    Engine P H × Except Fault Token :=
  e.submit (Submission.read e.world.memory fd buffer length) cb

/-- Receives a message into one buffer and the name of its sender into another. -/
def receiveFrom (e : Engine P H) (fd : Fd) (buffer sender : StorageId) (length : Option Nat)
    (flags : Int32) (cb : Callback) : Engine P H × Except Fault Token :=
  e.submit (Submission.receiveFrom e.world.memory fd buffer sender length flags) cb

/-- Sends the front of a buffer to a destination. -/
def sendTo (e : Engine P H) (fd : Fd) (buffer : StorageId) (destination : Destination)
    (length : Option Nat) (flags : Int32) (cb : Callback) : Engine P H × Except Fault Token :=
  e.submit (Submission.sendTo e.world.memory fd buffer destination length flags) cb

/-- Accepts one connection onto a descriptor that exists already. -/
def accept (e : Engine P H) (fd onto : Fd) (output : StorageId) (cb : Callback) :
    Engine P H × Except Fault Token :=
  e.submit (Submission.accept e.world.memory e.extensions.accept fd onto output) cb

/-- Connects to a destination. -/
def connect (e : Engine P H) (fd : Fd) (destination : Destination) (cb : Callback) :
    Engine P H × Except Fault Token :=
  e.submit (Submission.connect e.world.memory e.extensions.connect fd destination) cb

/-- Queues an event whose only effect is that its callback runs. -/
def injectEvent (e : Engine P H) (cb : Callback) : Engine P H × Except Fault Token :=
  e.submit (Submission.event e.world.memory) cb

/-- Puts the engine's own read of its event counter in flight. -/
def armWake (e : Engine P H) : Engine P H × Except Fault Unit :=
  match Submission.wake e.world.memory e.world.injector.wake e.wakeBuffer with
  | .error f => (e, .error f)
  | .ok (memory, s) =>
    match { e with world := { e.world with memory } }.handOff s .silent with
    | (e, .ok token) => ({ e with wakeToken := some token }, .ok ())
    | (e, .error f) => (e, .error f)

end Proactor.Engine
