import Proactor.Host.Rings

/-!
# Services of a host

A host offers engines and ports the calls that they make.
-/

namespace Proactor.Host

/-- Polls several descriptors. -/
def pollAll (h : Host) (fds : List (Fd × Interest)) (milliseconds : Option Nat) : Host × Polled :=
  let at_ (i : Nat) : Readiness :=
    match fds[i]? with
    | some (fd, interest) => if fd.toInt < 0 then .idle else h.readiness fd interest
    | none => .idle
  if (List.range fds.length).any fun i => at_ i != .idle then (h, .ready at_)
  else match milliseconds with
    | some ms => ({ h with clock := h.clock + ms * 1000000 }, .timeout)
    | none => (h, .blocked)

/-- The failure that a socket has yet to report. -/
def takeSocketError (h : Host) (fd : Fd) : Host × Errno :=
  match h.socketAt fd with
  | .error e => (h, e)
  | .ok (id, s) => (h.takeError id s).getD (h, 0)

/-- How many nanoseconds reading the clock takes. -/
def clockReading : Nat := 100

instance : Os Host where
  now h := ({ h with clock := h.clock + clockReading }, clockAt (h.clock + clockReading))
  now_lt _ := clockAt_lt _
  eventCreate h :=
    let (h, fd) := h.makeCounter
    (h, .ok fd)
  eventAdd h fd :=
    let (h, r) := h.addToCounter fd
    (h.settle, r)
  duplicate h old new :=
    let (h, r) := h.duplicateFd old new
    (h.settle, r)
  close h fd := (h.closeFd fd).1.settle
  socketName := socketName
  socketOption := socketOption

instance : PollOs Host where
  pollNow := readiness
  poll := pollAll
  attempt h fd r :=
    let (h, a) := h.performFd fd r
    (h.settle, a)
  connect h fd r :=
    match h.performFd fd r with
    | (h, some (n, _)) => (h, if n.toInt < 0 then .error (Int32.ofInt (-n.toInt)) else .ok ())
    | (h, none) => (h, .error Errno.inProgress)
  socketError := takeSocketError
  sleep h d := { h with clock := h.clock + d.nanoseconds }

instance : RingOs Host where
  setup := setupRing
  enter := enterRing
  reap := reapRing
  offers _ opcode := decide (opcode.toNat < offeredOperations)

end Proactor.Host
