import Proactor.Address.Socket
import Proactor.Duration

/-!
# Host calls

What an engine itself asks of its host, apart from its port: the time, an event counter to be
woken through, and what it takes to move an accepted connection to a descriptor chosen
beforehand. Any host will do; laws about engines hold for all of them.
-/

namespace Proactor

/-- Clocks count whole seconds in 64 bits with a sign, so they tell the moments before this one, at
`2 ^ 63` seconds. -/
def endOfTime : Nat := 9223372036854775808 * 1000000000

/-- What a clock shows after so many nanoseconds: it stays at the last moment that it can tell. -/
def clockAt (n : Nat) : Nat := min n (endOfTime - 1)

theorem clockAt_lt (n : Nat) : clockAt n < endOfTime :=
  Nat.lt_of_le_of_lt (Nat.min_le_right _ _) (by decide)

/-- A moment was asked for that no clock can tell. -/
structure Overflow where
  deriving DecidableEq, Repr

/-- What can be asked about a socket. -/
inductive SocketOption where
  | domain
  | type
  | protocol
  deriving DecidableEq, Repr

/-- The calls that an engine makes. -/
class Os (H : Type) where
  /-- Reads a clock in nanoseconds; that may take time. -/
  now : H → H × Nat
  now_lt (h : H) : (now h).2 < endOfTime
  /-- Creates an event counter at zero. -/
  eventCreate : H → H × Except Errno Fd
  /-- Adds one to an event counter. -/
  eventAdd : H → Fd → H × Except Errno Unit
  /-- Makes the second descriptor another name for what the first names. -/
  duplicate : H → Fd → Fd → H × Except Errno Unit
  close : H → Fd → H
  /-- The local address of a socket. -/
  socketName : H → Fd → Option SocketAddress
  socketOption : H → Fd → SocketOption → Except Errno Int32

namespace Os

variable {H : Type} [Os H]

/-- The moment that is so long after now. -/
def later (host : H) (d : Duration) : H × Except Overflow Nat :=
  let (host, now) := Os.now host
  (host, if now + d.nanoseconds < endOfTime then .ok (now + d.nanoseconds) else .error {})

/-- When a time limit that begins now is over, if there is one. -/
def deadline (host : H) : Option Duration → H × Except Overflow (Option Nat)
  | none => (host, .ok none)
  | some d => ((later host d).1, (later host d).2.map some)

/-- The clock can tell when a time limit that begins now is over. -/
def Tells (host : H) (timeout : Option Duration) : Prop :=
  ∀ d ∈ timeout, (Os.now host).2 + d.nanoseconds < endOfTime

instance (host : H) (timeout : Option Duration) : Decidable (Tells host timeout) :=
  inferInstanceAs (Decidable (∀ d ∈ timeout, (Os.now host).2 + d.nanoseconds < endOfTime))

@[simp] theorem tells_none (host : H) : Tells host none := nofun

theorem deadline_of_tells {host : H} {timeout : Option Duration} (h : Tells host timeout) :
    (deadline host timeout).2 = .ok (timeout.map fun d => (Os.now host).2 + d.nanoseconds) := by
  cases timeout with
  | none => rfl
  | some d => simp [deadline, later, h d rfl, Except.map]

theorem deadline_of_not_tells {host : H} {timeout : Option Duration} (h : ¬ Tells host timeout) :
    (deadline host timeout).2 = .error {} := by
  cases timeout with
  | none => exact absurd (tells_none host) h
  | some d =>
    have hlate : ¬ (Os.now host).2 + d.nanoseconds < endOfTime :=
      fun hd => h fun _ he => Option.some.inj he ▸ hd
    simp [deadline, later, hlate, Except.map]

/-- What is left now until a deadline, if there is one. -/
def remaining (host : H) : Option Nat → H × Option Duration
  | none => (host, none)
  | some d =>
    let (host, now) := Os.now host
    (host, some ⟨d - now⟩)

/-- The deadline is over now; there may be none. -/
def isOver (host : H) : Option Nat → H × Bool
  | none => (host, false)
  | some d =>
    let (host, now) := Os.now host
    (host, decide (d ≤ now))

end Os

/-- What a caller may want to know of a socket it did not create. -/
structure SocketInfo where
  /-- The size of the largest address of the family. -/
  maxAddressSize : Nat
  family : Int32
  type : Int32
  protocol : Int32
  deriving DecidableEq, Repr

namespace SocketInfo

/-- The size of the largest address of a family. -/
def sizeOfFamily (family : Int32) : Nat :=
  if family.toInt = Family.inet.toNat then 16
  else if family.toInt = Family.inet6.toNat then 28
  else if family.toInt = Family.unix.toNat then 110
  else SocketAddress.size

/-- Asks a host for one option of a socket. -/
def option {H : Type} [Os H] (host : H) (fd : Fd) (option : SocketOption) : Except Fault Int32 :=
  (Os.socketOption host fd option).mapError (.systemResource "getsockopt")

/-- Asks a host about a socket. -/
def query {H : Type} [Os H] (host : H) (fd : Fd) : Except Fault SocketInfo := do
  let family ← option host fd .domain
  let type ← option host fd .type
  let protocol ← option host fd .protocol
  return ⟨sizeOfFamily family, family, type, protocol⟩

end SocketInfo

end Proactor
