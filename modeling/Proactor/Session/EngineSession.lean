import Proactor.Session.EngineStep

/-!
# Sessions with an engine

A session builds an engine on a port and runs steps one after the other. Each step has a report:
its answer, what callbacks did, what a scripted port was asked, and what was noted meanwhile.
When the engine is gone, its buffers and its injector are still there.
-/

namespace Proactor

/-- An engine, the names of descriptors, and whether the engine is gone. -/
structure EngineSession where
  engine : Engine AnyPort Host
  names : FdNames := []
  gone : Bool := false

namespace EngineSession

/-- How many rounds pumps and shutdowns are granted: more than any session lasts. -/
def rounds : Nat := 1000000000000000000

/-- The buffers of a session. -/
def memory (s : EngineSession) : Memory := s.engine.world.memory

/-- The session with other memory. -/
def withMemory (s : EngineSession) (m : Memory) : EngineSession :=
  { s with engine := s.engine.withMemory m }

/-- The session with another world. -/
def withWorld (s : EngineSession) (world : World Host) : EngineSession :=
  { s with engine := { s.engine with world } }

/-- The session with a new buffer under a handle; the answer is its capacity. -/
def bind (s : EngineSession) (handle : String) (r : Memory × StorageId) :
    EngineSession × StepAnswer :=
  (s.withMemory (r.1.bind handle r.2), .count (r.1.capacity r.2))

/-- A step that needs the engine. -/
def onEngine (s : EngineSession)
    (k : Engine AnyPort Host → Engine AnyPort Host × StepAnswer) : EngineSession × StepAnswer :=
  if s.gone then (s, .noEngine)
  else
    let (engine, a) := k s.engine
    ({ s with engine }, a)

/-- A step that needs the engine and a buffer. -/
def onBuffer (s : EngineSession) (handle : String)
    (k : StorageId → Engine AnyPort Host → Engine AnyPort Host × StepAnswer) :
    EngineSession × StepAnswer :=
  s.onEngine fun e =>
    match e.world.memory.find? handle with
    | some id => k id e
    | none => (e, .nothing)

/-- The answer to a look at a buffer. -/
def lookAt (s : EngineSession) (handle : String) (k : StorageId → StepAnswer) : StepAnswer :=
  ((s.memory.find? handle).map k).getD .nothing

/-- The answer to a submission. -/
def tokenAnswer {P H : Type} : Engine P H × Except Fault Token → Engine P H × StepAnswer
  | (e, .ok t) => (e, .token t)
  | (e, .error f) => (e, .fault f)

/-- The answer to a call that answers nothing but success. -/
def unitAnswer {β : Type} : β × Except Fault Unit → β × StepAnswer
  | (x, .ok ()) => (x, .done)
  | (x, .error f) => (x, .fault f)

/-- An address with the name of the socket bound to its port, on ports that use the host. -/
def nameAddress (s : EngineSession) (a : Address) : NamedAddress :=
  match s.engine.port, a with
  | .scripted _, _ => { address := a }
  | _, .inet _ port => { address := a, portName := s.names.nameOfPort? s.engine.world.host port }
  | _, _ => { address := a }

/-- The result that a script gives a completion, and the names that are left. -/
def scriptedResult (names : FdNames) : ScriptedResult → Int64 × FdNames
  | .number n => (n, names)
  | .take name => (Int64.ofInt (names.fd name).toInt, names.forget name)
  | .same name => (Int64.ofInt (names.fd name).toInt, names)

/-- The session with one more answer for waits. -/
def addLine (s : EngineSession) (line : ScriptLine) : EngineSession :=
  let add (names : FdNames) (a : Scripted.Answer) : EngineSession :=
    { s with
      names
      engine := { s.engine with
        port := s.engine.port.modifyScript fun p => { p with waits := p.waits ++ [a] } } }
  match line with
  | .timeout => add s.names .timeout
  | .fault f => add s.names (.fault f)
  | .completion target result flags moved =>
    let (n, names) := scriptedResult s.names result
    add names (.completion target n flags moved)

/-- The session with answers appended to its script. -/
def addScript (s : EngineSession) (pushes flushes associations : List (Option Fault)) :
    EngineSession :=
  { s with engine := { s.engine with
      port := s.engine.port.modifyScript fun p =>
        { p with
          pushes := p.pushes ++ pushes
          flushes := p.flushes ++ flushes
          associations := p.associations ++ associations } } }

/-- The session without its engine. -/
def endEngine (s : EngineSession) (engine : Engine AnyPort Host) : EngineSession :=
  { s with
    engine := { engine with
      world := { engine.world with host := AnyPort.letGo engine.world.host engine.port } }
    gone := true }

/-- The answer of a shutdown. -/
def shutdown (s : EngineSession) : EngineSession × StepAnswer :=
  if s.gone then (s, .noEngine)
  else
    match s.engine.shutdown rounds with
    | (engine, .ok leaked) => (s.endEngine engine, .count leaked)
    | (engine, .error halt) => (s.endEngine engine, .halted halt)

/-- The answer of a drop. -/
def drop (s : EngineSession) : EngineSession × StepAnswer :=
  if s.gone then (s, .noEngine) else (s.endEngine s.engine.drop, .nothing)

/-- One step on buffers, the injector, or descriptors, which needs no engine. -/
def stepWithout (s : EngineSession) : EngineStep → EngineSession × StepAnswer
  | .descriptor step =>
    let (d, a) := Desk.run { host := s.engine.world.host, names := s.names } step
    ({ s.withWorld { s.engine.world with host := d.host } with names := d.names }, .descriptor a)
  | .buffer handle content => s.bind handle (s.memory.alloc content)
  | .clone handle of_ =>
    match s.memory.find? of_ with
    | some id => s.bind handle (s.memory, id)
    | none => (s, .nothing)
  | .peek b => (s, s.lookAt b fun id => .content (s.memory.isLent id) (s.memory.read? id))
  | .describeBuffer b => (s, s.lookAt b fun id => .text (s.memory.describe id))
  | .fill b content =>
    match (s.memory.find? b).bind (s.memory.fill? · content) with
    | some (m, n) => (s.withMemory m, .count n)
    | none => (s, .nothing)
  | .post cb =>
    let (world, a) := unitAnswer (s.engine.world.post cb)
    (s.withWorld world, a)
  | .pending => (s, .count s.engine.world.pending)
  | .describeInjector => (s, .text s.engine.world.injector.describe)
  | .script pushes flushes associations => (s.addScript pushes flushes associations, .nothing)
  | .complete line => (s.addLine line, .nothing)
  | .shutdown => s.shutdown
  | .drop => s.drop
  | _ => (s, .nothing)

/-- One step on the engine itself. -/
def stepWith (s : EngineSession) (step : EngineStep) : EngineSession × StepAnswer :=
  let port (e : Engine AnyPort Host) (p : PortRef) : UInt16 :=
    s.names.resolvePort e.world.host p
  let fd (r : FdRef) : Fd := s.names.resolve r
  match step with
  | .allocate handle size =>
    if s.gone then (s, .noEngine) else s.bind handle (s.memory.alloc (Bytes.zeros size))
  | .addressBuffer handle =>
    if s.gone then (s, .noEngine) else s.bind handle (Engine.allocateAddressBuffer s.memory)
  | .acceptBuffer handle =>
    if s.gone then (s, .noEngine) else s.bind handle (Engine.allocateAcceptBuffer s.memory)
  | .encode handle family host p =>
    if s.gone then (s, .noEngine)
    else match Engine.encodeAddress s.memory family host (port s.engine p) with
      | .ok r => s.bind handle r
      | .error f => (s, .fault f)
  | .write r b length cb => s.onBuffer b fun id e => tokenAnswer (e.write (fd r) id length cb)
  | .read r b length cb => s.onBuffer b fun id e => tokenAnswer (e.read (fd r) id length cb)
  | .receiveFrom r b sender length flags cb =>
    s.onBuffer sender fun senderId _ =>
      match s.memory.find? b with
      | some id => tokenAnswer (s.engine.receiveFrom (fd r) id senderId length flags cb)
      | none => (s.engine, .nothing)
  | .sendTo r b family host p length flags cb =>
    s.onBuffer b fun id e =>
      tokenAnswer (e.sendTo (fd r) id ⟨family, host, port e p⟩ length flags cb)
  | .accept r onto b cb => s.onBuffer b fun id e => tokenAnswer (e.accept (fd r) (fd onto) id cb)
  | .connect r family host p cb =>
    s.onEngine fun e => tokenAnswer (e.connect (fd r) ⟨family, host, port e p⟩ cb)
  | .inject cb => s.onEngine fun e => tokenAnswer (e.injectEvent cb)
  | .pump timeout =>
    s.onEngine fun e =>
      let (e, p) := e.pump timeout rounds
      (e, .pumped p)
  | .associate r => s.onEngine fun e => unitAnswer (e.associate (fd r))
  | .dissociate r =>
    s.onEngine fun e =>
      let (e, b) := e.dissociate (fd r)
      (e, .flag b)
  | .decode b =>
    s.onBuffer b fun id e =>
      (e, .addresses [s.nameAddress (Engine.decodeAddress e.world.memory id)])
  | .acceptAddresses b =>
    s.onBuffer b fun id e =>
      let (near, far) := Engine.acceptAddresses e.world.memory id
      (e, .addresses [s.nameAddress near, s.nameAddress far])
  | .socketInfo r =>
    s.onEngine fun e =>
      match SocketInfo.query e.world.host (fd r) with
      | .ok i => (e, .socketInfo i)
      | .error f => (e, .fault f)
  | .config => s.onEngine fun e => (e, .config e.config)
  | .portInfo =>
    s.onEngine fun e =>
      (e, .portInfo e.portName (CompletionPort.capacity e.port) (CompletionPort.inflight e.port))
  | .extensions => s.onEngine fun e => (e, .extensions e.extensions)
  | step => s.stepWithout step

/-- The label of a descriptor. -/
def label (s : EngineSession) (fd : Fd) : FdLabel :=
  if fd = s.engine.world.injector.wake then .wake
  else match s.names.nameOf? fd with
    | some name => .name name
    | none => .number fd

/-- An event with the label of its descriptor. -/
def labelled (s : EngineSession) (e : Scripted.Event) : LabelledEvent :=
  { event := e, label := s.label (e.fd?.getD (-1)) }

/-- The report of a step that has just been made; the session starts a new one. -/
def report (s : EngineSession) (a : StepAnswer) : EngineSession × StepReport :=
  let w := s.engine.world
  let stats := if s.gone then none else some (s.engine.outstanding, s.engine.stats)
  ({ s with engine := { s.engine with
      world := { w with journal := [], calls := [] }
      port := s.engine.port.forgetEvents } },
    .mk a w.calls (s.engine.port.events.map s.labelled) w.journal stats)

mutual

/-- One step. A borrowed buffer is given back after the steps made meanwhile. -/
def step (s : EngineSession) : EngineStep → EngineSession × StepAnswer
  | .borrow b steps =>
    match s.memory.find? b with
    | none => (s, .nothing)
    | some id =>
      match s.memory.borrow? id with
      | none => (s, .nothing)
      | some m =>
        let (s, reports) := run (s.withMemory m) steps
        (s.withMemory (s.memory.release id), .nested reports)
  | other => s.stepWith other

/-- Steps one after the other, with their reports. -/
def run (s : EngineSession) : List EngineStep → EngineSession × List StepReport
  | [] => (s, [])
  | x :: xs =>
    let (s, a) := step s x
    let (s, r) := s.report a
    let (s, rs) := run s xs
    (s, r :: rs)

end

/-- The port that a session asks for. -/
inductive PortChoice where
  | scripted (p : Scripted)
  /-- A polling port as large as the submission queue. -/
  | polling
  | pollingWith (p : Polling)
  | ring

/-- What comes of opening a session, and what was told on the way. -/
structure Opened where
  outcome : Except Fault EngineSession
  events : List LabelledEvent := []
  notices : List Notice := []
  wake : Option Fd := none

/-- The session with an engine, or the failure to build one, and what was told. -/
def ofBuilt : Built AnyPort Host → Opened
  | .failed f port _ wake notices =>
    let label (fd : Fd) : FdLabel := if wake = some fd then .wake else .number fd
    { outcome := .error f, notices, wake
      events := port.events.map fun e => { event := e, label := label (e.fd?.getD (-1)) } }
  | .ready e =>
    let s : EngineSession := { engine := e }
    let (s', .mk _ _ events notices _) := s.report .nothing
    { outcome := .ok s', events, notices, wake := some e.world.injector.wake }

/-- Opens a session. Ports that take their size from the configuration are made only if that is
sound. -/
def start (config : Config) (choice : PortChoice) : Opened :=
  let build (port : AnyPort) (h : Host) : Opened := ofBuilt (Engine.build config port h)
  match choice, config.fault? with
  | .scripted p, _ => build (.scripted p) Host.start
  | .pollingWith p, _ => build (.polling p) Host.start
  | _, some f => { outcome := .error (.config f) }
  | .polling, none => build (.polling (Polling.ofConfig config.submissions)) Host.start
  | .ring, none =>
    match Ring.setup Host.start config.submissions config.completions with
    | (_, notices, .error f) => { outcome := .error f, notices }
    | (h, notices, .ok ring) =>
      let o := build (.ring ring) h
      { o with notices := notices ++ o.notices }

end EngineSession

end Proactor
