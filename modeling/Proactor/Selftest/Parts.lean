import Proactor.Selftest.Trial

/-!
# Parts of the self test

Each part drives some kinds of operation through the engine under test and checks what came of
them. A check that fails does not end the part.
-/

namespace Proactor.Trial

/-- IPv4, as callers number it. -/
def inetFamily : Int32 := 2

/-- IPv6, as callers number it. -/
def inet6Family : Int32 := 10

/-- What was told, and whether a callback was told this. -/
def wasTold (calls : List (String × Outcome)) (tag : String) (o : Outcome) : Bool :=
  calls.contains (tag, o)

/-- Checks that a callback was told of a success with so many bytes. -/
def checkTold (name : String) (calls : List (String × Outcome)) (tag : String) (bytes : UInt32) :
    TrialM Unit :=
  check name (wasTold calls tag ⟨0, bytes⟩) (toldText calls)

/-- Checks that this machine's own socket is described as one for datagrams. -/
def checkSocketInfo : TrialM Unit := do
  arrange (.bound "probe" .datagram)
  match ← perform (.socketInfo (.name "probe")) with
  | .socketInfo i =>
    check "socket_info(udp)" (i.family == 2 && i.type == 2) "wrong family or type"
  | .fault f => fail "socket_info(udp)" f.message
  | _ => fail "socket_info(udp)" "no answer"
  closeAll ["probe"]

/-- A new engine has its extensions, nothing in flight, and describes sockets. -/
def initial : TrialM Unit := do
  heading ("Part A: Engine init (" ++ (← engine).portName ++ ")")
  check "extensions resolved" true "not resolved"
  check "outstanding == 0" ((← outstanding) == 0) (← outstanding).repr
  checkSocketInfo

/-- The text that goes through the pipe. -/
def greeting : Bytes := "hello, engine".toUTF8.toList

/-- A write and a read through a pipe. -/
def pipeline : TrialM Unit := do
  heading "Part B: File I/O (pipe)"
  arrange (.pipe "r" "w")
  prepare "out" greeting
  let _ ← perform (.allocate "in" 64)
  submit "write submitted" (.write (.name "w") "out" none { tag := "write" })
  submit "read submitted" (.read (.name "r") "in" none { tag := "read" })
  check "write buffer lent" ((← content? "out").isNone) "not lent"
  let done ← pumpUntil ["write", "read"] 2
  let calls ← told ["write", "read"]
  check "both completions dispatched" done (toldText calls)
  checkTold "write: 13 bytes" calls "write" 13
  checkTold "read: 13 bytes" calls "read" 13
  check "read data matches" (greeting.isPrefixOf ((← content? "in").getD [])) "mismatch"
  check "outstanding back to 0" ((← outstanding) == 0) (← outstanding).repr
  closeAll ["r", "w"]

/-- Checks that an encoded address reads back. -/
def checkAddressCodec : TrialM Unit := do
  match ← perform (.encode "destination" inetFamily "127.0.0.1" (.number 4000)) with
  | .fault f => fail "encode_address" f.message
  | _ =>
    let back ← decode "destination"
    check "encode → decode round trip" (back.hostPort? == some ("127.0.0.1", 4000)) back.text
  let _ ← perform (.allocate "empty" 0)
  check "decode(empty) is None" (← decode "empty").isNone "not None"

/-- A message from one socket to another, and the address codec. -/
def datagrams : TrialM Unit := do
  heading "Part C: Datagrams (send_to / recv_from)"
  arrange (.bound "a" .datagram)
  arrange (.bound "b" .datagram)
  let t ← get
  let sender := t.session.names.resolvePort t.session.engine.world.host (.of "b")
  let _ ← perform (.allocate "received" 64)
  let _ ← perform (.addressBuffer "sender")
  prepare "ping" "ping".toUTF8.toList
  submit "recv_from submitted"
    (.receiveFrom (.name "a") "received" "sender" none 0 { tag := "recv" })
  submit "send_to submitted"
    (.sendTo (.name "b") "ping" inetFamily "127.0.0.1" (.of "a") none 0 { tag := "send" })
  let _ ← pumpUntil ["recv", "send"] 2
  let calls ← told ["recv", "send"]
  checkTold "send_to: 4 bytes" calls "send" 4
  checkTold "recv_from: 4 bytes" calls "recv" 4
  let source ← decode "sender"
  check "source address decoded" (source == .inet Ipv4.loopback sender) source.text
  checkAddressCodec
  closeAll ["b", "a"]

/-- Both addresses in an accept buffer. -/
def acceptedAddresses (handle : String) : TrialM (Address × Address) := do
  match ← perform (.acceptAddresses handle) with
  | .addresses [near, far] => return (near.address, far.address)
  | _ => return (.none, .none)

/-- The address is an internet address. -/
def isInet : Address → Bool
  | .inet .. => true
  | _ => false

/-- Checks that a byte written to the client arrives at the accepted end. -/
def checkByteArrives : TrialM Unit := do
  let mark := "!".toUTF8.toList
  prepare "mark" mark
  let _ ← perform (.allocate "arrived" 1)
  let _ ← perform (.write (.name "client") "mark" none { tag := "c-write" })
  let _ ← perform (.read (.name "onto") "arrived" none { tag := "s-read" })
  let _ ← pumpUntil ["c-write", "s-read"] 2
  check "byte arrives on accept handle" ((← content? "arrived") == some mark)
    (toldText (← told ["c-write", "s-read"]))

/-- A connection from one socket to another. -/
def streams : TrialM Unit := do
  heading "Part D: Streams (accept / connect)"
  arrange (.bound "listener" .stream)
  arrange (.socket "onto" Family.inet .stream)
  arrange (.socket "client" Family.inet .stream)
  let t ← get
  let names := t.session.names
  let port := names.resolvePort t.session.engine.world.host (.of "listener")
  check "sockets created" (0 ≤ (names.fd "onto").toInt && 0 ≤ (names.fd "client").toInt)
    "socket() failed"
  let _ ← perform (.acceptBuffer "ends")
  submit "accept submitted" (.accept (.name "listener") (.name "onto") "ends" { tag := "accept" })
  submit "connect submitted"
    (.connect (.name "client") inetFamily "127.0.0.1" (.number port) { tag := "connect" })
  let _ ← pumpUntil ["accept", "connect"] 2
  let calls ← told ["accept", "connect"]
  checkTold "accept: (0, 0)" calls "accept" 0
  checkTold "connect: (0, 0)" calls "connect" 0
  let (near, far) ← acceptedAddresses "ends"
  check "accept local address" (near == .inet Ipv4.loopback port) near.text
  check "accept remote address" (isInet far) far.text
  checkByteArrives
  closeAll ["client", "onto", "listener"]

/-- Checks that an event is dispatched by the next pump. -/
def checkInject : TrialM Unit := do
  let name := "inject_event"
  match ← perform (.inject { tag := "inject" }) with
  | .token token =>
    let p ← pump (Duration.ofMilliseconds 1000)
    check (name ++ " dispatched by next pump") (p == .dispatched ⟨token, .done⟩) (pumpedText p)
  | .fault f => fail name f.message
  | _ => fail name "no answer"

/-- Checks that as many events as are queued are dispatched. -/
def checkBatch (n : Nat) : TrialM Unit := do
  (List.range n).forM fun _ => do
    let _ ← perform (.inject { tag := "batch" })
  (List.range n).forM fun _ => do
    let _ ← pump (Duration.ofMilliseconds 1000)
  let count := (← told ["batch"]).length
  check (n.repr ++ " injects → " ++ n.repr ++ " dispatches") (count == n) count.repr

/-- A callback was dispatched. -/
def isDispatched : Pumped → Bool
  | .dispatched _ => true
  | _ => false

/-- Checks that a post ends a pump that has no time limit. -/
def checkPost : TrialM Unit := do
  let (p, posted) ← pumpAwaitingPost { tag := "posted" }
  check "injector post from thread" posted "post failed"
  check "blocked pump woken by injector"
    (isDispatched p && (← told ["posted"]) == [("posted", .done)]) (pumpedText p)

/-- Checks that a pump with nothing to do ends at its time limit. -/
def checkIdle : TrialM Unit := do
  let start ← now
  let p ← pump (Duration.ofMilliseconds 50)
  let elapsed := (← now) - start
  check "idle pump times out"
    (p == .timeout && (Duration.ofMilliseconds 40).nanoseconds ≤ elapsed) (pumpedText p)

/-- Events, posts and time limits. -/
def dispatching : TrialM Unit := do
  heading "Part E: Dispatch"
  checkInject
  checkBatch 32
  checkPost
  checkIdle

/-- The answer of a step is a bad argument. -/
def isInvalidArgument : StepAnswer → Bool
  | .fault f => f.isInvalidArgument
  | _ => false

/-- The answer of a step is a family that is not supported. -/
def isUnsupportedFamily : StepAnswer → Bool
  | .fault (.unsupportedAddressFamily _) => true
  | _ => false

/-- Checks that a submission is refused in the way that is asked for. -/
def checkRefused (name : String) (refused : StepAnswer → Bool) (step : EngineStep) :
    TrialM Unit := do
  check name (refused (← perform step)) "accepted"

/-- Submissions with arguments that are refused. -/
def refusals : TrialM Unit := do
  heading "Part F: Submit-time errors"
  let before ← outstanding
  let _ ← perform (.allocate "small" 8)
  checkRefused "length 0 → InvalidArgument" isInvalidArgument
    (.write (.number 1) "small" (some 0) .silent)
  checkRefused "length > capacity → InvalidArgument" isInvalidArgument
    (.write (.number 1) "small" (some 9) .silent)
  checkRefused "AF_INET6 → UnsupportedAddressFamily" isUnsupportedFamily
    (.connect (.number 0) inet6Family "::1" (.number 80) .silent)
  checkRefused "bad host → InvalidArgument" isInvalidArgument
    (.sendTo (.number 0) "small" inetFamily "localhost" (.number 80) none 0 .silent)
  check "outstanding unchanged" ((← outstanding) == before) (← outstanding).repr

/-- The counts of the engine, and its end. -/
def ending : TrialM Unit := do
  heading "Part G: Shutdown"
  let s := (← engine).stats
  report (·.print ("       submitted=" ++ s.submitted.repr ++ " refused=" ++ s.refused.repr ++
    " dispatched=" ++ s.dispatched.repr ++ " injected=" ++ s.injected.repr ++ " timeouts=" ++
    s.timeouts.repr))
  match ← perform .shutdown with
  | .count leaked => check "nothing leaked" (leaked == 0) leaked.repr
  | _ => fail "nothing leaked" "no answer"

/-- All parts. -/
def allParts : TrialM Unit := do
  initial
  pipeline
  datagrams
  streams
  dispatching
  refusals
  ending

end Proactor.Trial
