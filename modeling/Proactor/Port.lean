import Proactor.Duration
import Proactor.Entry
import Proactor.Notice

/-!
# Completion ports

A port takes entries and hands back one completion for each entry it accepted. Pushing and
flushing never wait. Waiting ends with a completion, at its time limit, or with a fault; it may
also be that nothing can end it. Whatever a port stores into the memory of an entry comes with
the completion and lands when the completion is retrieved: until then nobody may look.
-/

namespace Proactor

/-- What a port stored for an operation. -/
structure Transfer where
  data : Bytes := []
  /-- The name of a sender or of an accepted peer. -/
  name : Option Bytes := none
  /-- The length that was recorded for the name, if not that of `name`. -/
  nameLength : Option Nat := none
  /-- What was said about a received message. -/
  messageFlags : UInt32 := 0
  deriving DecidableEq, Repr, Inhabited

/-- How a wait ends. -/
inductive Waited where
  | completion (c : Completion) (moved : Transfer)
  | timeout
  | fault (f : Fault)
  /-- Nothing that is under way can end the wait. -/
  | blocked
  /-- The rounds granted to the wait were used up. -/
  | unfinished
  /-- The wait panicked, since no clock can tell when its time limit is over. -/
  | panicked

/-- What a call on a port leaves behind, and its answer. -/
structure Reply (P H α : Type) where
  port : P
  host : H
  notices : List Notice := []
  answer : α

/-- Ports of type `P` on hosts of type `H`. -/
class CompletionPort (P : Type) (H : outParam Type) where
  name : P → String
  /-- How many entries fit before a flush. -/
  capacity : P → Nat
  /-- How many accepted entries have not been retrieved. -/
  inflight : P → Nat
  /-- Opens the handle that can be asked which operations there are. -/
  openScratch : P → H → Reply P H (Except Fault Unit)
  supports : P → H → Opcode → P × Bool
  closeScratch : P → H → P × H
  associate : P → H → Fd → Reply P H (Except Fault Unit)
  push : P → H → Memory → Entry → Reply P H (Except Fault Unit)
  /-- Passes queued entries on; the answer is how many. -/
  flush : P → H → Memory → Reply P H (Except Fault Nat)
  /-- Waits for a completion, at most for the time given and for so many rounds. -/
  wait : Nat → P → H → Memory → Option Duration → Reply P H Waited
  shutdown : P → H → P × H

end Proactor
