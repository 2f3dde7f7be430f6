import Proactor.Os
import Proactor.Port
import Proactor.Request

/-!
# Polling ports

A port for hosts that offer no completions of their own. An operation is tried once when it is
pushed. What comes of it is queued, except that a request which can never work is refused.
An operation that would have to wait is parked; a wait polls the descriptors of all parked
operations and tries those again that polled ready.
-/

namespace Proactor

/-- What a descriptor is polled for. -/
inductive Interest where
  | input
  | output
  deriving DecidableEq, Repr

/-- What polling tells of a descriptor. -/
inductive Readiness where
  | idle
  | ready
  /-- The descriptor names nothing. -/
  | invalid
  deriving DecidableEq, Repr

/-- How polling several descriptors ends. -/
inductive Polled where
  /-- Some are not idle; they are told by their positions. -/
  | ready (at_ : Nat → Readiness)
  | timeout
  | failed (e : Errno)
  /-- Nothing that is under way can end it. -/
  | blocked

/-- The calls that a polling port makes. -/
class PollOs (H : Type) extends Os H where
  /-- Polls one descriptor, without waiting. -/
  pollNow : H → Fd → Interest → Readiness
  /-- Polls several, for so many milliseconds at most. -/
  poll : H → List (Fd × Interest) → Option Nat → H × Polled
  /-- Tries a request without waiting; there is no result if it would have to wait. -/
  attempt : H → Fd → Request → H × Option (Int64 × Transfer)
  connect : H → Fd → Request → H × Except Errno Unit
  /-- The failure that a socket has yet to report; zero if there is none. -/
  socketError : H → Fd → H × Errno
  sleep : H → Duration → H

namespace Polling

/-- An operation that waits for its descriptor. -/
structure Parked where
  entry : Entry
  /-- A connection is under way; its end is learnt from the socket. -/
  connecting : Bool := false

/-- A queued result. -/
abbrev Result := Completion × Transfer

end Polling

/-- A polling port: queued results and parked operations, the oldest first. -/
structure Polling where
  ready : List Polling.Result := []
  parked : List Polling.Parked := []
  capacity : Nat
  unsupported : List Opcode := []
  scratchFails : Bool := false
  /-- How many scratch handles have been opened and closed. -/
  scratchOpened : Nat := 0
  scratchClosed : Nat := 0

namespace Polling

/-- The port for a configuration: as large as its submission queue. -/
def ofConfig (submissions : UInt32) : Polling := { capacity := submissions.toNat }

/-- Failures that say that the request itself can never work. -/
def isRefusal (e : Errno) : Bool :=
  [Errno.badDescriptor, Errno.notSocket, Errno.invalid, Errno.badAddress, Errno.notSupported,
    Errno.familyNotSupported].contains e

/-- What an operation polls its descriptor for. -/
def interest (opcode : Opcode) : Interest :=
  if [Opcode.write, Opcode.sendMessage, Opcode.connect].contains opcode then .output else .input

/-- Whole milliseconds, rounded up, and no more than a poll can take. -/
def ceilMilliseconds (d : Duration) : Nat :=
  min ((d.nanoseconds + 999999) / 1000000) 2147483647

/-- The result of an operation for the queue. -/
def result (token : Token) (n : Int64) (t : Transfer) : Result := ({ token, result := n }, t)

/-- The port with a result queued, and the notice of that. -/
def complete (p : Polling) (token : Token) (n : Int64) (t : Transfer) : Polling × List Notice :=
  ({ p with ready := p.ready ++ [result token n t] }, [.completed token n])

/-- The port with an operation parked. -/
def park (p : Polling) (entry : Entry) (connecting : Bool) : Polling × List Notice :=
  ({ p with parked := p.parked ++ [⟨entry, connecting⟩] }, [])

/-- A failure as a result. -/
def failure (e : Errno) : Int64 := Int64.ofInt (-e.toInt)

variable {H : Type} [PollOs H]

/-- A reply to a push that was accepted. -/
def accepted (host : H) (p : Polling × List Notice) : Reply Polling H (Except Fault Unit) :=
  { port := p.1, host, notices := p.2, answer := .ok () }

/-- A reply to a push that was refused. -/
def refused (host : H) (p : Polling) (e : Errno) : Reply Polling H (Except Fault Unit) :=
  { port := p, host, answer := .error (.system e) }

/-- Starts a connection. -/
def startConnect (p : Polling) (host : H) (entry : Entry) (r : Request) :
    Reply Polling H (Except Fault Unit) :=
  match PollOs.connect host entry.fd r with
  | (host, .ok ()) => accepted host (p.complete entry.token 0 {})
  | (host, .error e) =>
    if e = Errno.inProgress ∨ e = Errno.again then accepted host (p.park entry true)
    else if isRefusal e then refused host p e
    else accepted host (p.complete entry.token (failure e) {})

/-- Tries an operation for the first time. -/
def firstAttempt (p : Polling) (host : H) (entry : Entry) (r : Request) :
    Reply Polling H (Except Fault Unit) :=
  match PollOs.attempt host entry.fd r with
  | (host, none) => accepted host (p.park entry false)
  | (host, some (n, t)) =>
    if n.toInt < 0 ∧ isRefusal (Int32.ofInt (-n.toInt)) then
      refused host p (Int32.ofInt (-n.toInt))
    else accepted host (p.complete entry.token n t)

/-- Takes an entry, tries it, and queues its result or parks it. -/
def push (p : Polling) (host : H) (m : Memory) (entry : Entry) :
    Reply Polling H (Except Fault Unit) :=
  match entry.request? m with
  | none => refused host p Errno.invalid
  | some r =>
    if entry.opcode = Opcode.nop then accepted host (p.complete entry.token 0 {})
    else if entry.fd.toInt < 0 then refused host p Errno.badDescriptor
    else if entry.opcode = Opcode.connect then p.startConnect host entry r
    else match PollOs.pollNow host entry.fd (interest entry.opcode) with
      | .invalid => refused host p Errno.badDescriptor
      | .idle => accepted host (p.park entry false)
      | .ready => p.firstAttempt host entry r

/-- What became of one parked operation: its result, or it is parked still. -/
def retry (host : H) (m : Memory) (parked : Parked) : Readiness → H × Option (Int64 × Transfer)
  | .idle => (host, none)
  | .invalid => (host, some (failure Errno.badDescriptor, {}))
  | .ready =>
    if parked.connecting then
      let (host, e) := PollOs.socketError host parked.entry.fd
      (host, some (failure e, {}))
    else PollOs.attempt host parked.entry.fd ((parked.entry.request? m).getD .event)

/-- Tries parked operations again, in order: those still parked, and the results. -/
def progress (m : Memory) (at_ : Nat → Readiness) :
    H → Nat → List Parked → H × List Parked × List Result
  | host, _, [] => (host, [], [])
  | host, i, parked :: rest =>
    let (host, a) := retry host m parked (at_ i)
    let (host, still, results) := progress m at_ host (i + 1) rest
    match a with
    | none => (host, parked :: still, results)
    | some (n, t) => (host, still, result parked.entry.token n t :: results)

/-- The port and host after polling, and notices of what was queued. -/
def advance (p : Polling) (host : H) (m : Memory) (at_ : Nat → Readiness) :
    Polling × H × List Notice :=
  let (host, parked, results) := progress m at_ host 0 p.parked
  ({ p with parked, ready := p.ready ++ results }, host,
    results.map fun (c, _) => .completed c.token c.result)

/-- What is polled for all parked operations. -/
def interests (p : Polling) : List (Fd × Interest) :=
  p.parked.map fun parked => (parked.entry.fd, interest parked.entry.opcode)

/-- A reply to a wait that brought no completion. -/
def ended (p : Polling) (host : H) (notices : List Notice) (w : Waited) : Reply Polling H Waited :=
  { port := p, host, notices, answer := w }

/-- Nothing is parked, so nothing can ever complete: sleeps out a time limit, and refuses to
wait without one. -/
def waitForNothing (p : Polling) (host : H) (notices : List Notice) :
    Option Duration → Reply Polling H Waited
  | some left => p.ended (PollOs.sleep host left) notices .timeout
  | none => p.ended host notices (.fault (.system Errno.deadlock))

/-- Hands back the first queued result, polling until there is one or the deadline is found to
be over, for so many rounds. -/
def waitUntil (m : Memory) (deadline : Option Nat) :
    Nat → Polling → H → List Notice → Reply Polling H Waited
  | 0, p, host, notices => p.ended host notices .unfinished
  | rounds + 1, p, host, notices =>
    match p.ready with
    | (c, t) :: ready => { p with ready }.ended host notices (.completion c t)
    | [] =>
      let (host, left) := Os.remaining host deadline
      if p.parked.isEmpty then p.waitForNothing host notices left
      else match PollOs.poll host p.interests (left.map ceilMilliseconds) with
        | (host, .blocked) => p.ended host notices .blocked
        | (host, .failed e) =>
          if e ≠ Errno.interrupted then p.ended host notices (.fault (.system e))
          else if deadline.isSome then p.ended host notices .timeout
          else waitUntil m deadline rounds p host notices
        | (host, .ready at_) =>
          let (p, host, more) := p.advance host m at_
          waitUntil m deadline rounds p host (notices ++ more)
        | (host, .timeout) =>
          match Os.isOver host deadline with
          | (host, true) => p.ended host notices .timeout
          | (host, false) => waitUntil m deadline rounds p host notices

/-- Waits for the next result. -/
def wait (rounds : Nat) (p : Polling) (host : H) (m : Memory) (timeout : Option Duration) :
    Reply Polling H Waited :=
  match Os.deadline host timeout with
  | (host, .error _) => p.ended host [] .panicked
  | (host, .ok deadline) => waitUntil m deadline rounds p host []

/-- The scratch handle knows all opcodes but those the port was made without. -/
def supports (p : Polling) (opcode : Opcode) : Bool :=
  Opcode.issued.contains opcode && !p.unsupported.contains opcode

/-- Opens a scratch handle, unless the port was made to fail at that. -/
def openScratch (p : Polling) (host : H) : Reply Polling H (Except Fault Unit) :=
  if p.scratchFails then
    { port := p, host, answer := .error (.systemResource "scratch handle" Errno.tooManyFiles) }
  else { port := { p with scratchOpened := p.scratchOpened + 1 }, host, answer := .ok () }

/-- How many accepted operations have not been handed back. -/
def inflight (p : Polling) : Nat := p.ready.length + p.parked.length

/-- A polling port as a completion port. -/
@[reducible]
def completionPort : CompletionPort Polling H where
  name _ := "inline"
  capacity := capacity
  inflight := inflight
  openScratch := openScratch
  supports p _ opcode := (p, p.supports opcode)
  closeScratch p host := ({ p with scratchClosed := p.scratchClosed + 1 }, host)
  associate p host _ := { port := p, host, answer := .ok () }
  push := push
  flush p host _ := { port := p, host, answer := .ok 0 }
  wait := wait
  shutdown p host := ({ p with ready := [], parked := [] }, host)

end Polling

end Proactor
