import Proactor.Selftest.Checklist
import Proactor.Session.EngineSession

/-!
# Trials

A self test under way: a session, and the report on it. What callbacks were told stays on
record for the whole trial, so a part of the test looks at the calls with tags of its own.
-/

namespace Proactor

/-- A self test under way. -/
structure Trial where
  session : EngineSession
  checklist : Checklist := {}

/-- A piece of a self test. -/
abbrev TrialM := StateM Trial

namespace Trial

/-- Changes the report. -/
def report (f : Checklist → Checklist) : TrialM Unit :=
  modify fun t => { t with checklist := f t.checklist }

/-- Starts a part of the report. -/
def heading (text : String) : TrialM Unit := report (·.heading text)

/-- Reports a check. -/
def check (name : String) (ok : Bool) (reason : String) : TrialM Unit :=
  report (·.check name ok reason)

/-- Reports a check that failed. -/
def fail (name reason : String) : TrialM Unit := report (·.fail name reason)

/-- The engine under test. -/
def engine : TrialM (Engine AnyPort Host) := return (← get).session.engine

/-- Puts the engine under test into another state. -/
def setEngine (engine : Engine AnyPort Host) : TrialM Unit :=
  modify fun t => { t with session := { t.session with engine } }

/-- Makes one step of the session. -/
def perform (step : EngineStep) : TrialM StepAnswer := do
  let t ← get
  let (session, a) := t.session.step step
  set { t with session }
  return a

/-- Makes one step on descriptors. -/
def arrange (step : DescriptorStep) : TrialM Unit := do
  let _ ← perform (.descriptor step)

/-- Closes descriptors, in this order. -/
def closeAll (names : List String) : TrialM Unit :=
  names.forM fun name => arrange (.close (.name name))

/-- The answer of a step is that an operation is in flight. -/
def isAccepted : StepAnswer → Bool
  | .token _ => true
  | _ => false

/-- Checks that an operation is accepted. -/
def submit (name : String) (step : EngineStep) : TrialM Unit := do
  check name (isAccepted (← perform step)) "submit failed"

/-- A new buffer with this content. -/
def prepare (handle : String) (content : Bytes) : TrialM Unit := do
  let _ ← perform (.allocate handle content.length)
  let _ ← perform (.fill handle content)

/-- The content of a buffer; there is none while somebody holds it. -/
def content? (handle : String) : TrialM (Option Bytes) := do
  let m := (← engine).world.memory
  return (m.find? handle).bind m.read?

/-- The address in a buffer. -/
def decode (handle : String) : TrialM Address := do
  match ← perform (.decode handle) with
  | .addresses (a :: _) => return a.address
  | _ => return .none

/-- The user operations in flight. -/
def outstanding : TrialM Nat := return (← engine).outstanding

/-- What the callbacks with these tags were told, in order. -/
def told (tags : List String) : TrialM (List (String × Outcome)) := do
  return (← engine).world.calls.filterMap fun call =>
    match call with
    | .ran tag o => if tags.contains tag then some (tag, o) else none
    | _ => none

/-- The text of what callbacks were told. -/
def toldText (calls : List (String × Outcome)) : String :=
  let one : String × Outcome → String := fun (tag, o) =>
    "(\"" ++ tag ++ "\", " ++ o.error.toInt.repr ++ ", " ++ o.bytes.toNat.repr ++ ")"
  "[" ++ ", ".intercalate (calls.map one) ++ "]"

/-- The text of how a pump ended. -/
def pumpedText : Pumped → String
  | .dispatched d =>
    "Ok(Dispatched \x7b token: Token(" ++ d.token.raw.toNat.repr ++ "), error: " ++
      d.outcome.error.toInt.repr ++ ", bytes: " ++ d.outcome.bytes.toNat.repr ++ " \x7d)"
  | .timeout => "Ok(Timeout)"
  | .fault f => "Err(" ++ f.message ++ ")"
  | .blocked => "blocked"
  | .unfinished => "unfinished"
  | .panicked => "panicked"

/-- The time on the host. -/
def now : TrialM Nat := do
  let e ← engine
  let (host, now) := Os.now e.world.host
  setEngine (e.withHost host)
  return now

/-- Pumps once. -/
def pump (timeout : Duration) : TrialM Pumped := do
  let (e, p) := (← engine).pump (some timeout) EngineSession.rounds
  setEngine e
  return p

/-- Pumps without a time limit while somebody else is about to post a callback, and tells
whether the post was taken. The post comes when nothing else can end the pump, or after the
pump if something ends it before. -/
def pumpAwaitingPost (cb : Callback) : TrialM (Pumped × Bool) := do
  let (e, p) := (← engine).pump none EngineSession.rounds
  let (world, posted) := e.world.post cb
  let e := { e with world }
  let (e, p) := match p with
    | .blocked => e.await none EngineSession.rounds
    | p => (e, p)
  setEngine e
  return (p, posted.toBool)

/-- Pumps for a tenth of a second at a time, so many times at most, until `n` callbacks with
these tags were run or the deadline is over, and tells whether they were. -/
def pumpToDeadline (tags : List String) (n deadline : Nat) : Nat → TrialM Bool
  | 0 => return false
  | pumps + 1 => do
    if n ≤ (← told tags).length then return true
    else if deadline ≤ (← now) then return false
    else match ← pump (Duration.ofMilliseconds 100) with
      | .fault f =>
        report (·.print ("       pump error: " ++ f.message))
        return false
      | .dispatched _ | .timeout => pumpToDeadline tags n deadline pumps
      | .blocked | .unfinished | .panicked => return false

/-- Pumps until `n` callbacks with these tags were run, for two seconds at most. -/
def pumpUntil (tags : List String) (n : Nat) : TrialM Bool := do
  let start ← now
  pumpToDeadline tags n (start + (Duration.ofMilliseconds 2000).nanoseconds) 1000

end Trial

end Proactor
