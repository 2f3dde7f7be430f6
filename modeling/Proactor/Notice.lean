import Proactor.Completion
import Proactor.Fault
import Proactor.Level

/-!
# Notices

What an engine and its ports have to say while they work, by event, with the level and the
wording of each event in one place.
-/

namespace Proactor

/-- Something worth a line in the log. -/
inductive Notice where
  | scratchFailed (port : String) (fault : Fault)
  | extensionsFound (port : String) (accept connect : Bool)
  | extensionMissing (port extension : String)
  | engineUp (port : String) (capacity : Nat) (eagerFlush : Bool)
  | submitted (kind : Kind) (fd : Fd) (token : Token)
  | refused (kind : Kind) (fd : Fd) (errno : Errno)
  | flushDeferred (kind : Kind) (fault : Fault)
  | unknownToken (token : Token) (result : Int64)
  | dispatched (kind : Kind) (fd : Fd) (token : Token) (outcome : Outcome)
  | wakeReadFailed (result : Int64)
  | wakeNotArmed (fault : Fault)
  | wakeNotReleased (fault : Fault)
  | drainFault (fault : Fault)
  | drainAborted (fault : Fault)
  | leaked (port : String) (operations : Nat)
  | dropped (port : String) (callbacks : Nat)
  | engineClosed (port : String) (accepted done lost : Nat)
  /-- A polling port has the result of an operation. -/
  | completed (token : Token) (result : Int64)
  /-- A ring was set up. -/
  | ringUp (fd : Fd) (submissions completions : Nat)
  /-- A ring queued an operation. -/
  | queued (token : Token) (opcode : Opcode)
  deriving DecidableEq, Repr

namespace Notice

/-- How important an event is. -/
def level : Notice → Level
  | scratchFailed .. | extensionMissing .. => .error
  | flushDeferred .. | unknownToken .. | wakeReadFailed .. | wakeNotArmed .. | wakeNotReleased ..
  | drainFault .. | drainAborted .. | leaked .. | dropped .. => .warn
  | engineUp .. | engineClosed .. => .info
  | extensionsFound .. | refused .. | ringUp .. => .debug
  | submitted .. | dispatched .. | completed .. | queued .. => .trace

/-- A descriptor in a line about an operation; the one that an engine reads to be woken has a
name instead of a number. -/
def fdText (wake : Option Fd) (kind : Kind) (fd : Fd) : String :=
  if kind = .read ∧ wake = some fd then "wake" else fd.toInt.repr

/-- The wording of an event, where `wake` is the descriptor an engine is woken through. -/
def body (wake : Option Fd) : Notice → String
  | .scratchFailed port fault => port ++ ": cannot open scratch handle: " ++ fault.message
  | .extensionsFound port accept connect =>
    port ++ ": accept=" ++ Readable.write accept ++ " connect=" ++ Readable.write connect
  | .extensionMissing port extension => port ++ ": " ++ extension ++ " unavailable"
  | .engineUp port capacity eagerFlush =>
    "cport engine up: port=" ++ port ++ " capacity=" ++ capacity.repr ++ " eager_flush=" ++
      Readable.write eagerFlush
  | .submitted kind fd token =>
    "submit " ++ kind.name ++ " fd=" ++ fdText wake kind fd ++ " token=" ++ token.text
  | .refused kind fd errno =>
    kind.name ++ " on fd " ++ fdText wake kind fd ++ " refused: errno " ++ errno.toInt.repr
  | .flushDeferred kind fault => "flush after " ++ kind.name ++ " deferred: " ++ fault.message
  | .unknownToken token result =>
    "completion for unknown token " ++ token.text ++ " (result " ++ result.toInt.repr ++ ")"
  | .dispatched kind fd token outcome =>
    "dispatch " ++ kind.name ++ " fd=" ++ fdText wake kind fd ++ " token=" ++ token.text ++
      " error=" ++ outcome.error.toInt.repr ++ " bytes=" ++ outcome.bytes.toNat.repr
  | .wakeReadFailed result =>
    "injector wake read failed: errno " ++ (-result.toInt).repr ++ "; not re-armed"
  | .wakeNotArmed fault => "injector wake read not re-armed: " ++ fault.message
  | .wakeNotReleased fault => "drain: cannot release wake read: " ++ fault.message
  | .drainFault fault => "drain: " ++ fault.message
  | .drainAborted fault => "drain aborted: " ++ fault.message
  | .leaked port operations =>
    port ++ ": " ++ operations.repr ++ " operations outstanding at shutdown, leaking their memory"
  | .dropped port callbacks =>
    port ++ ": " ++ callbacks.repr ++ " posted callbacks dropped unrun"
  | .engineClosed port accepted done lost =>
    "cport engine closed: port=" ++ port ++ " submitted=" ++ accepted.repr ++ " dispatched=" ++
      done.repr ++ " leaked=" ++ lost.repr
  | .completed token result =>
    "inline complete token=" ++ token.text ++ " result=" ++ result.toInt.repr
  | .ringUp fd submissions completions =>
    "io_uring up: fd=" ++ fd.toInt.repr ++ " sq=" ++ submissions.repr ++ " cq=" ++
      completions.repr ++ " ext_arg=true"
  | .queued token opcode =>
    "uring push token=" ++ token.text ++ " opcode=" ++ opcode.toNat.repr

/-- The line that an event is written as. -/
def line (wake : Option Fd) (n : Notice) : LogLine := ⟨some n.level, n.body wake⟩

end Notice

end Proactor
