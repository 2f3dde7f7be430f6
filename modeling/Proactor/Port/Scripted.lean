import Proactor.Port

/-!
# Scripted ports

A port whose answers are written down beforehand and which keeps a record of everything it is
asked. It accepts what it is not told to refuse, its waits never take time, and a wait without
an answer written for it ends at its time limit at once.
-/

namespace Proactor

namespace Scripted

/-- How long a wait may take. -/
inductive Patience where
  | forever
  | zero
  | timed
  deriving DecidableEq, Repr

/-- How long a wait with this time limit may take. -/
def Patience.ofTimeout : Option Duration → Patience
  | none => .forever
  | some d => if d.isZero then .zero else .timed

/-- One thing a port was asked. -/
inductive Event where
  | scratchOpen
  | supports (opcode : Opcode) (answer : Bool)
  | scratchClose
  | associate (fd : Fd)
  /-- With the bytes that could be read from the entry's memory then. -/
  | push (entry : Entry) (content : Bytes)
  | flush
  | wait (patience : Patience)
  | shutdown

/-- The descriptor that an event is about. -/
def Event.fd? : Event → Option Fd
  | .associate fd => some fd
  | .push entry _ => some entry.fd
  | _ => none

/-- Whom a completion is for. -/
inductive Target where
  /-- The read of the engine's own, as pushed last. -/
  | wake
  /-- The push with this number among those of users, from zero on. -/
  | user (n : Nat)
  | token (t : Token)
  deriving DecidableEq, Repr

/-- What a wait is to answer. -/
inductive Answer where
  | timeout
  | fault (f : Fault)
  | completion (target : Target) (result : Int64) (flags : UInt32) (moved : Transfer)

end Scripted

/-- A port that follows a script. The first descriptor registered is that of the engine's own
read. -/
structure Scripted where
  name : String := "mock"
  capacity : Nat := 64
  unsupported : List Opcode := []
  scratchFault : Option Fault := none
  /-- Refusals of the next pushes; an absent one accepts. -/
  pushes : List (Option Fault) := []
  flushes : List (Option Fault) := []
  associations : List (Option Fault) := []
  /-- Answers to the next waits. -/
  waits : List Scripted.Answer := []
  /-- Tokens accepted and not yet handed back. -/
  inFlight : List Token := []
  wake : Option Fd := none
  wakeToken : Token := ⟨0⟩
  /-- Tokens of all pushes but those of the engine's own read. -/
  users : List Token := []
  events : List Scripted.Event := []

namespace Scripted

/-- The port with one more event on record. -/
def record (p : Scripted) (e : Event) : Scripted := { p with events := p.events ++ [e] }

/-- The fault at the head of a list of answers. -/
def verdict : List (Option Fault) → Except Fault Unit
  | some f :: _ => .error f
  | _ => .ok ()

/-- The bytes that a port can read from the memory of an entry. -/
def content (m : Memory) (e : Entry) : Bytes :=
  match e.payload with
  | .data area => if e.opcode = Opcode.write then m.readArea area else []
  | .send area _ => m.readArea area
  | _ => []

/-- The token that a target stands for now; a push that has not happened stands for no slot
that there is. -/
def resolve (p : Scripted) : Target → Token
  | .wake => p.wakeToken
  | .user n => (p.users[n]?).getD ⟨4294967295⟩
  | .token t => t

/-- Registers a descriptor. -/
def associate (p : Scripted) (fd : Fd) : Scripted × Except Fault Unit :=
  ({ p with wake := some (p.wake.getD fd), associations := p.associations.drop 1 }.record
      (.associate fd),
    verdict p.associations)

/-- The port with a push noted under its token. -/
def notePush (p : Scripted) (m : Memory) (e : Entry) : Scripted :=
  let p := p.record (.push e (content m e))
  if p.wake = some e.fd ∧ e.opcode = Opcode.read then { p with wakeToken := e.token }
  else { p with users := p.users ++ [e.token] }

/-- Takes an entry, unless it is told to refuse it. -/
def push (p : Scripted) (m : Memory) (e : Entry) : Scripted × Except Fault Unit :=
  let p' := { p.notePush m e with pushes := p.pushes.drop 1 }
  match verdict p.pushes with
  | .ok () => ({ p' with inFlight := p'.inFlight ++ [e.token] }, .ok ())
  | .error f => (p', .error f)

/-- Flushes nothing. -/
def flush (p : Scripted) : Scripted × Except Fault Nat :=
  ({ p with flushes := p.flushes.drop 1 }.record .flush, (verdict p.flushes).map fun _ => 0)

/-- Hands back the next answer. -/
def wait (p : Scripted) (timeout : Option Duration) : Scripted × Waited :=
  let p := p.record (.wait (.ofTimeout timeout))
  match p.waits with
  | [] => (p, .timeout)
  | .timeout :: waits => ({ p with waits }, .timeout)
  | .fault f :: waits => ({ p with waits }, .fault f)
  | .completion target result flags moved :: waits =>
    let token := p.resolve target
    ({ p with waits, inFlight := p.inFlight.erase token }, .completion ⟨token, result, flags⟩ moved)

/-- A reply that leaves the host alone. -/
def reply {H α : Type} (host : H) (r : Scripted × α) : Reply Scripted H α :=
  { port := r.1, host, answer := r.2 }

/-- A scripted port on any host; it never calls it. -/
@[reducible]
def completionPort (H : Type) : CompletionPort Scripted H where
  name := Scripted.name
  capacity := Scripted.capacity
  inflight p := p.inFlight.length
  openScratch p host :=
    reply host (p.record .scratchOpen, match p.scratchFault with
      | some f => .error f
      | none => .ok ())
  supports p _ opcode :=
    let answer := !p.unsupported.contains opcode
    (p.record (.supports opcode answer), answer)
  closeScratch p host := (p.record .scratchClose, host)
  associate p host fd := reply host (p.associate fd)
  push p host m e := reply host (p.push m e)
  flush p host _ := reply host p.flush
  wait _ p host _ timeout := reply host (p.wait timeout)
  shutdown p host := (p.record .shutdown, host)

end Scripted

end Proactor
