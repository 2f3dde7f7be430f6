import Proactor.Os
import Proactor.Port

/-!
# Ring ports

A port on a pair of queues shared with the host. Entries are queued until the host takes them;
the host carries them out and posts a completion for each, in the order in which they end.
Completions under bookkeeping names are swallowed.
-/

namespace Proactor

/-- How long entering a ring may take. -/
inductive Patience where
  | now
  | until_ (d : Duration)
  | forever
  deriving DecidableEq, Repr

/-- How entering a ring ends. -/
inductive Entered where
  /-- So many entries were taken. -/
  | taken (n : Nat)
  /-- No entry was taken. -/
  | failed (e : Errno)
  /-- So many entries were taken, and nothing that is under way can end the wait. -/
  | blocked (n : Nat)
  deriving DecidableEq, Repr

/-- A ring that was set up. -/
structure RingParameters where
  fd : Fd
  submissions : Nat
  completions : Nat
  deriving DecidableEq, Repr

/-- The calls that a ring port makes. -/
class RingOs (H : Type) extends Os H where
  /-- Sets up a ring for so many submissions, and for so many completions if that is said. -/
  setup : H → Nat → Option Nat → H × Except Errno RingParameters
  /-- Offers queued entries, and waits for a completion as long as that is said. -/
  enter : H → Fd → Memory → List Entry → Patience → H × Entered
  /-- Takes the oldest completion that was posted. -/
  reap : H → Fd → H × Option (Completion × Transfer)
  /-- Rings offer this operation. -/
  offers : H → Opcode → Bool

/-- A ring port. -/
structure Ring where
  parameters : RingParameters
  /-- Entries that the host has not taken. -/
  queued : List Entry := []
  /-- Entries accepted and not handed back. -/
  inflight : Nat := 0
  /-- Entries queued since the host last took some. -/
  pending : Nat := 0
  /-- The scratch ring, while there is one. -/
  scratch : Option Fd := none

namespace Ring

/-- The port with so many entries taken by the host. -/
def taken (p : Ring) (n : Nat) : Ring :=
  { p with queued := p.queued.drop n, pending := p.pending - n }

variable {H : Type} [RingOs H]

/-- Sets a ring up. -/
def setup (host : H) (submissions : UInt32) (completions : Option UInt32) :
    H × List Notice × Except Fault Ring :=
  match RingOs.setup host submissions.toNat (completions.map UInt32.toNat) with
  | (host, .ok parameters) =>
    (host, [.ringUp parameters.fd parameters.submissions parameters.completions],
      .ok { parameters })
  | (host, .error e) => (host, [], .error (.systemResource "io_uring_setup" e))

/-- Enters the ring with all queued entries. -/
def enter (p : Ring) (host : H) (m : Memory) (patience : Patience) : H × Entered :=
  RingOs.enter host p.parameters.fd m p.queued patience

/-- Offers queued entries to the host without waiting. That the host has no room for their
completions is no failure: the next wait tries again. -/
def flush (p : Ring) (host : H) (m : Memory) : Reply Ring H (Except Fault Nat) :=
  if p.pending = 0 then { port := p, host, answer := .ok 0 }
  else match p.enter host m .now with
    | (host, .taken n) => { port := p.taken n, host, answer := .ok n }
    | (host, .blocked n) => { port := p.taken n, host, answer := .ok n }
    | (host, .failed e) =>
      if [Errno.busy, Errno.again, Errno.interrupted].contains e then
        { port := p, host, answer := .ok 0 }
      else { port := p, host, answer := .error (.system e) }

/-- The queue has room for an entry. -/
def hasRoom (p : Ring) : Bool := decide (p.queued.length < p.parameters.submissions)

/-- The port with an entry queued. -/
def queue (p : Ring) (entry : Entry) : Ring :=
  { p with queued := p.queued ++ [entry], inflight := p.inflight + 1, pending := p.pending + 1 }

/-- A reply to a push that was accepted. -/
def accepted (p : Ring) (host : H) (entry : Entry) : Reply Ring H (Except Fault Unit) :=
  { port := p.queue entry, host, notices := [.queued entry.token entry.opcode], answer := .ok () }

/-- Queues an entry; a full queue is flushed first to make room. -/
def push (p : Ring) (host : H) (m : Memory) (entry : Entry) : Reply Ring H (Except Fault Unit) :=
  if !Opcode.issued.contains entry.opcode then
    { port := p, host, answer := .error (.system Errno.invalid) }
  else if p.hasRoom then p.accepted host entry
  else
    let r := p.flush host m
    match r.answer with
    | .error f => { port := r.port, host := r.host, answer := .error f }
    | .ok _ =>
      if r.port.hasRoom then r.port.accepted r.host entry
      else { port := r.port, host := r.host, answer := .error (.system Errno.busy) }

/-- Takes the next completion that is for a user, looking at so many. -/
def reap (p : Ring) (host : H) : Nat → Ring × H × Option (Completion × Transfer)
  | 0 => (p, host, none)
  | n + 1 =>
    match RingOs.reap host p.parameters.fd with
    | (host, none) => (p, host, none)
    | (host, some (c, t)) =>
      if c.token.isInternal then reap p host n
      else ({ p with inflight := p.inflight - 1 }, host, some (c, t))

/-- A reply to a wait whose time is up: a completion if there is one. -/
def lastReap (p : Ring) (host : H) (rounds : Nat) : Reply Ring H Waited :=
  match p.reap host rounds with
  | (port, host, some (c, t)) => { port, host, answer := .completion c t }
  | (port, host, none) => { port, host, answer := .timeout }

/-- A wait for which no time is left: what is queued is still offered to the host. -/
def lastFlush (p : Ring) (host : H) (m : Memory) (rounds : Nat) : Reply Ring H Waited :=
  let r := p.flush host m
  match r.answer with
  | .error f => { port := r.port, host := r.host, answer := .fault f }
  | .ok _ => r.port.lastReap r.host rounds

/-- What follows a timed wait in the ring: the last chance if its time is up. -/
def afterTimed (deadline : Nat) (rounds : Nat) (p : Ring) (host : H)
    (again : Ring → H → Reply Ring H Waited) : Reply Ring H Waited :=
  match Os.isOver host (some deadline) with
  | (host, true) => p.lastReap host rounds
  | (host, false) => again p host

/-- Enters the ring until a deadline, or forever. -/
def enterUntil (m : Memory) (deadline : Option Nat) (rounds : Nat) (p : Ring) (host : H)
    (again : Ring → H → Reply Ring H Waited) : Reply Ring H Waited :=
  match deadline with
  | none =>
    match p.enter host m .forever with
    | (host, .taken n) => again (p.taken n) host
    | (host, .blocked n) => { port := p.taken n, host, answer := .blocked }
    | (host, .failed e) =>
      if e = Errno.interrupted then again p host
      else { port := p, host, answer := .fault (.system e) }
  | some d =>
    let (host, now) := Os.now host
    if d ≤ now then p.lastFlush host m rounds
    else
      match p.enter host m (.until_ ⟨d - now⟩) with
      | (host, .blocked n) => { port := p.taken n, host, answer := .blocked }
      | (host, .taken n) => afterTimed d rounds (p.taken n) host again
      | (host, .failed e) =>
        if e = Errno.timedOut ∨ e = Errno.interrupted then afterTimed d rounds p host again
        else { port := p, host, answer := .fault (.system e) }

/-- Hands back the next completion, entering the ring until there is one or the deadline is
over, for so many rounds. -/
def waitUntil (m : Memory) (deadline : Option Nat) : Nat → Ring → H → Reply Ring H Waited
  | 0, p, host => { port := p, host, answer := .unfinished }
  | rounds + 1, p, host =>
    match p.reap host rounds with
    | (p, host, some (c, t)) => { port := p, host, answer := .completion c t }
    | (p, host, none) => enterUntil m deadline rounds p host (waitUntil m deadline rounds)

/-- Waits for the next completion. -/
def wait (rounds : Nat) (p : Ring) (host : H) (m : Memory) (timeout : Option Duration) :
    Reply Ring H Waited :=
  match Os.deadline host timeout with
  | (host, .error _) => { port := p, host, answer := .panicked }
  | (host, .ok deadline) => waitUntil m deadline rounds p host

/-- The size of the ring that serves as scratch handle. -/
def scratchSize : Nat := 2

/-- Opens a small ring of its own to ask for operations. -/
def openScratch (p : Ring) (host : H) : Reply Ring H (Except Fault Unit) :=
  match RingOs.setup host scratchSize none with
  | (host, .ok parameters) =>
    { port := { p with scratch := some parameters.fd }, host, answer := .ok () }
  | (host, .error e) =>
    { port := p, host, answer := .error (.systemResource "scratch io_uring_setup" e) }

/-- Closes the scratch ring. -/
def closeScratch (p : Ring) (host : H) : Ring × H :=
  match p.scratch with
  | some fd => ({ p with scratch := none }, Os.close host fd)
  | none => (p, host)

/-- Drops the completions that were posted, so many of them. -/
def discard (p : Ring) (host : H) : Nat → Ring × H
  | 0 => (p, host)
  | n + 1 =>
    match RingOs.reap host p.parameters.fd with
    | (host, some _) => discard p host n
    | (host, none) => (p, host)

/-- Drops what was posted, and counts nothing as in flight any more. -/
def shutdown (p : Ring) (host : H) : Ring × H :=
  let (p, host) := p.discard host p.parameters.completions
  ({ p with inflight := 0, pending := 0 }, host)

/-- A ring port as a completion port. -/
@[reducible]
def completionPort : CompletionPort Ring H where
  name _ := "io_uring"
  capacity p := p.parameters.submissions
  inflight := inflight
  openScratch := openScratch
  supports p host opcode := (p, RingOs.offers host opcode)
  closeScratch := closeScratch
  associate p host _ := { port := p, host, answer := .ok () }
  push := push
  flush := flush
  wait := wait
  shutdown := shutdown

end Ring

end Proactor
