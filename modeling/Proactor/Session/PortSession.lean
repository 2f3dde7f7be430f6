import Proactor.Engine.Build
import Proactor.Session.AnyPort
import Proactor.Session.Descriptors

/-!
# Sessions with a port

A session that pushes entries to a port itself, with memory of its own for each, and waits for
their completions. A completion is shown with what its operation stored. Several pushes may be
made under one token: then a completion under it is shown with the memory of the first of them
that none was shown with yet, whichever of them is over. To tell them apart the port sees each
push under a token of its own.
-/

namespace Proactor

/-- The memory of a push. -/
structure PushMemory where
  content : Bytes := []
  /-- How many zeros are where a name is or goes. -/
  nameRoom : Nat := 0
  /-- The port of this machine whose address is there instead. -/
  port : Option PortRef := none
  /-- The memory is not there. -/
  isUnmapped : Bool := false
  deriving Inhabited

/-- A step on a port. -/
inductive PortStep where
  | descriptor (s : DescriptorStep)
  | push (token : Token) (opcode : Opcode) (fd : FdRef) (flags : UInt32) (memory : PushMemory)
  /-- Waits; a connection that is accepted gets the name. -/
  | wait (timeout : Option Duration) (accepted : Option String)
  | flush
  | associate (fd : FdRef)
  | info
  | shutdown
  | scratch (opcodes : List Opcode)
  | resolve
  | counters
  deriving Inhabited

/-- What an operation stored, as far as its kind shows it. -/
inductive Stored where
  | nothing
  | data (b : Bytes)
  | message (b : Bytes) (nameLength : Nat) (flags : UInt32) (name : Address)
  | peer (length : Nat) (name : Address)

/-- The answer to a step on a port. -/
inductive PortAnswer where
  | nothing
  | done
  | descriptor (a : DescriptorAnswer)
  | fault (f : Fault)
  | timeout
  | stuck
  | panicked
  | completion (token : Token) (result : Int64) (stored : Stored)
  | count (n : Nat)
  | flag (b : Bool)
  | info (name : String) (capacity : Nat)
  | offers (l : List Bool)
  | extensions (x : Extensions)
  | counters (opened closed : Nat)

/-- A push that was accepted, and its memory as operations left it. -/
structure Pushed where
  /-- The token that the port sees. -/
  own : Token
  token : Token
  opcode : Opcode
  content : Bytes
  name : Bytes
  nameLength : Nat := name.length
  messageFlags : UInt32 := 0
  /-- A completion was shown with its memory. -/
  isShown : Bool := false

namespace Pushed

/-- The push after its operation stored something. -/
def store (p : Pushed) (t : Transfer) : Pushed :=
  { p with
    content := Bytes.overwrite p.content t.data
    name := Bytes.overwrite p.name (t.name.getD [])
    nameLength := t.nameLength.getD p.nameLength
    messageFlags := t.messageFlags }

/-- The address in the name area, as far as it was recorded. -/
def address (p : Pushed) : Address := Address.ofBytes (p.name.take p.nameLength)

/-- What is shown of the memory. -/
def stored (p : Pushed) : Stored :=
  if p.opcode = Opcode.read then .data p.content
  else if p.opcode = Opcode.receiveMessage then
    .message p.content p.nameLength p.messageFlags p.address
  else if p.opcode = Opcode.accept then .peer p.nameLength p.address
  else .nothing

end Pushed

/-- A port with its memory, and the pushes that it accepted, in order. -/
structure PortSession where
  port : AnyPort
  desk : Desk := {}
  memory : Memory := {}
  pushed : List Pushed := []

namespace PortSession

/-- How many rounds a wait is granted: more than any session lasts. A wait that does not end by
itself does not end. -/
def rounds : Nat := 1000000000000000000

/-- The payload of a push on new memory, with a name in it or room for one. -/
def payload (m : Memory) (opcode : Opcode) (content name : Bytes) : Memory × Payload :=
  let (m, contentId) := m.alloc content
  let (m, nameId) := m.alloc name
  let data : Area := ⟨contentId, 0, content.length⟩
  let address := SocketAddress.ofFront name (UInt32.ofNat name.length)
  (m,
    if opcode = Opcode.read ∨ opcode = Opcode.write then .data data
    else if opcode = Opcode.receiveMessage then
      .receive data (if name.isEmpty then none else some ⟨nameId, 0, name.length⟩)
    else if opcode = Opcode.sendMessage then
      .send data (if name.isEmpty then none else some address)
    else if opcode = Opcode.accept then .peer name.length
    else if opcode = Opcode.connect then .destination address
    else .nothing)

/-- The session after a call on its port. -/
def absorb {α : Type} (s : PortSession) (r : Reply AnyPort Host α) : PortSession :=
  { s with port := r.port, desk := { s.desk with host := r.host } }

/-- The answer to a call that answers nothing but success. -/
def unitAnswer : Except Fault Unit → PortAnswer
  | .ok () => .done
  | .error f => .fault f

/-- The token that the port sees for a push, the `n`th one; it is for bookkeeping if that of the
push is. -/
def ownToken (token : Token) (n : Nat) : Token :=
  if token.isInternal then Token.internal (UInt64.ofNat n) else Token.ofSlot (UInt32.ofNat n) 0

/-- Pushes an entry on new memory. -/
def push (s : PortSession) (token : Token) (opcode : Opcode) (fd : FdRef) (flags : UInt32)
    (p : PushMemory) : PortSession × PortAnswer :=
  let name := match p.port with
    | some r => Address.inetBytes Ipv4.loopback (s.desk.names.resolvePort s.desk.host r)
    | none => Bytes.zeros p.nameRoom
  let (memory, payload) := payload s.memory opcode p.content name
  let own := ownToken token s.pushed.length
  let entry : Entry :=
    { token := own, opcode, fdWord := Entry.wordOfFd (s.desk.names.resolve fd)
      flagsWord := flags.toUInt64
      payload := if p.isUnmapped then .unmapped payload else payload }
  let s := { s with memory }
  let r := CompletionPort.push s.port s.desk.host s.memory entry
  let s := s.absorb r
  match r.answer with
  | .ok () =>
    let pushed : Pushed := { own, token, opcode, content := p.content, name }
    ({ s with pushed := s.pushed ++ [pushed] }, .done)
  | .error f => (s, .fault f)

/-- The session after the operation of a push stored something. -/
def store (s : PortSession) (own : Token) (t : Transfer) : PortSession :=
  { s with pushed := s.pushed.map fun p => if p.own = own then p.store t else p }

/-- The session with everything in its memory that operations have stored, whether or not they
were waited for. -/
def storeUntaken (s : PortSession) : PortSession :=
  (s.port.untaken s.desk.host).foldl (fun s (c, t) => s.store c.token t) s

/-- The session after a completion was shown with the memory of a push. -/
def markShown (s : PortSession) (own : Token) : PortSession :=
  { s with pushed := s.pushed.map fun p => if p.own = own then { p with isShown := true } else p }

/-- A completion with the memory of a push; an accepted connection gets its name. -/
def shown (s : PortSession) (p : Pushed) (result : Int64) (accepted : Option String) :
    PortSession × PortAnswer :=
  let s := s.markShown p.own
  if result.toInt < 0 then (s, .completion p.token result .nothing)
  else
    let names := match p.opcode == Opcode.accept, accepted with
      | true, some name => s.desk.names.give name (Int32.ofInt result.toInt)
      | _, _ => s.desk.names
    ({ s with desk := { s.desk with names } }, .completion p.token result p.stored)

/-- The answer to a completion. -/
def completed (s : PortSession) (c : Completion) (t : Transfer) (accepted : Option String) :
    PortSession × PortAnswer :=
  let s := (s.store c.token t).storeUntaken
  let token := ((s.pushed.find? (·.own == c.token)).map Pushed.token).getD c.token
  match s.pushed.find? fun p => p.token == token && !p.isShown with
  | some p => s.shown p c.result accepted
  | none => (s, .completion token c.result .nothing)

/-- Waits for a completion. -/
def wait (s : PortSession) (timeout : Option Duration) (accepted : Option String) :
    PortSession × PortAnswer :=
  let r := CompletionPort.wait rounds s.port s.desk.host s.memory timeout
  let s := s.absorb r
  match r.answer with
  | .completion c t => s.completed c t accepted
  | .timeout => (s, .timeout)
  | .fault f => (s, .fault f)
  | .blocked | .unfinished => (s, .stuck)
  | .panicked => (s, .panicked)

/-- Asks a scratch handle for operations. -/
def scratch (s : PortSession) (opcodes : List Opcode) : PortSession × PortAnswer :=
  let r := CompletionPort.openScratch s.port s.desk.host
  let s := s.absorb r
  match r.answer with
  | .error f => (s, .fault f)
  | .ok () =>
    let offers := opcodes.map fun o => (CompletionPort.supports s.port s.desk.host o).2
    let (port, host) := CompletionPort.closeScratch s.port s.desk.host
    ({ s with port, desk := { s.desk with host } }, .offers offers)

/-- One step. -/
def step (s : PortSession) : PortStep → PortSession × PortAnswer
  | .descriptor step =>
    let (desk, a) := s.desk.run step
    ({ s with desk }, .descriptor a)
  | .push token opcode fd flags p => s.push token opcode fd flags p
  | .wait timeout accepted => s.wait timeout accepted
  | .flush =>
    let r := CompletionPort.flush s.port s.desk.host s.memory
    (s.absorb r, match r.answer with
      | .ok n => .count n
      | .error f => .fault f)
  | .associate fd =>
    let r := CompletionPort.associate s.port s.desk.host (s.desk.names.resolve fd)
    (s.absorb r, unitAnswer r.answer)
  | .info => (s, .info (CompletionPort.name s.port) (CompletionPort.capacity s.port))
  | .shutdown =>
    let s := s.storeUntaken
    let (port, host) := CompletionPort.shutdown s.port s.desk.host
    ({ s with port, desk := { s.desk with host } }, .nothing)
  | .scratch opcodes => s.scratch opcodes
  | .resolve =>
    let r := Extensions.resolve s.port s.desk.host
    (s.absorb r, match r.answer with
      | .ok x => .extensions x
      | .error f => .fault f)
  | .counters =>
    (s, match s.port with
      | .polling p => .counters p.scratchOpened p.scratchClosed
      | _ => .flag true)

/-- Steps one after the other: their answers, and what is in flight after each. -/
def run (s : PortSession) : List PortStep → List (PortAnswer × Nat)
  | [] => []
  | x :: xs =>
    let (s, a) := s.step x
    (a, CompletionPort.inflight s.port) :: s.run xs

/-- A session with a polling port. -/
def ofPolling (p : Polling) : PortSession := { port := .polling p }

/-- A session with a ring port, or the failure to set one up. -/
def ofRing (c : Config) : Except Fault PortSession :=
  match Ring.setup Host.start c.submissions c.completions with
  | (host, _, .ok ring) => .ok { port := .ring ring, desk := { host } }
  | (_, _, .error f) => .error f

end PortSession

end Proactor
