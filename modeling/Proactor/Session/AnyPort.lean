import Proactor.Host.Services
import Proactor.Port.Scripted

/-!
# Ports of a session

Any of the three kinds of port, on a host.
-/

namespace Proactor

/-- A port of any kind. -/
inductive AnyPort where
  | scripted (p : Scripted)
  | polling (p : Polling)
  | ring (p : Ring)

namespace AnyPort

instance : CompletionPort Scripted Host := Scripted.completionPort Host
instance : CompletionPort Polling Host := Polling.completionPort
instance : CompletionPort Ring Host := Ring.completionPort

variable {α β : Type}

/-- The reply of one kind of port as that of any kind. -/
def lift {P : Type} (f : P → AnyPort) (r : Reply P Host α) : Reply AnyPort Host α :=
  { port := f r.port, host := r.host, notices := r.notices, answer := r.answer }

/-- A pair with its port as one of any kind. -/
def liftFirst {P : Type} (f : P → AnyPort) (r : P × β) : AnyPort × β := (f r.1, r.2)

instance : CompletionPort AnyPort Host where
  name
    | scripted p => CompletionPort.name p
    | polling p => CompletionPort.name p
    | ring p => CompletionPort.name p
  capacity
    | scripted p => CompletionPort.capacity p
    | polling p => CompletionPort.capacity p
    | ring p => CompletionPort.capacity p
  inflight
    | scripted p => CompletionPort.inflight p
    | polling p => CompletionPort.inflight p
    | ring p => CompletionPort.inflight p
  openScratch
    | scripted p, h => lift scripted (CompletionPort.openScratch p h)
    | polling p, h => lift polling (CompletionPort.openScratch p h)
    | ring p, h => lift ring (CompletionPort.openScratch p h)
  supports
    | scripted p, h, o => liftFirst scripted (CompletionPort.supports p h o)
    | polling p, h, o => liftFirst polling (CompletionPort.supports p h o)
    | ring p, h, o => liftFirst ring (CompletionPort.supports p h o)
  closeScratch
    | scripted p, h => liftFirst scripted (CompletionPort.closeScratch p h)
    | polling p, h => liftFirst polling (CompletionPort.closeScratch p h)
    | ring p, h => liftFirst ring (CompletionPort.closeScratch p h)
  associate
    | scripted p, h, fd => lift scripted (CompletionPort.associate p h fd)
    | polling p, h, fd => lift polling (CompletionPort.associate p h fd)
    | ring p, h, fd => lift ring (CompletionPort.associate p h fd)
  push
    | scripted p, h, m, e => lift scripted (CompletionPort.push p h m e)
    | polling p, h, m, e => lift polling (CompletionPort.push p h m e)
    | ring p, h, m, e => lift ring (CompletionPort.push p h m e)
  flush
    | scripted p, h, m => lift scripted (CompletionPort.flush p h m)
    | polling p, h, m => lift polling (CompletionPort.flush p h m)
    | ring p, h, m => lift ring (CompletionPort.flush p h m)
  wait
    | n, scripted p, h, m, t => lift scripted (CompletionPort.wait n p h m t)
    | n, polling p, h, m, t => lift polling (CompletionPort.wait n p h m t)
    | n, ring p, h, m, t => lift ring (CompletionPort.wait n p h m t)
  shutdown
    | scripted p, h => liftFirst scripted (CompletionPort.shutdown p h)
    | polling p, h => liftFirst polling (CompletionPort.shutdown p h)
    | ring p, h => liftFirst ring (CompletionPort.shutdown p h)

/-- What a scripted port was asked since its record was last taken. -/
def events : AnyPort → List Scripted.Event
  | scripted p => p.events
  | _ => []

/-- The port with an empty record. -/
def forgetEvents : AnyPort → AnyPort
  | scripted p => scripted { p with events := [] }
  | p => p

/-- The port with its script continued. -/
def modifyScript (f : Scripted → Scripted) : AnyPort → AnyPort
  | scripted p => scripted (f p)
  | p => p

/-- What has come of operations on the host and was not handed back yet. -/
def untaken (h : Host) : AnyPort → List (Completion × Transfer)
  | polling p => p.ready
  | ring p => h.untaken p.parameters.fd
  | scripted _ => []

/-- The host after the port let go of what it holds there. -/
def letGo (h : Host) : AnyPort → Host
  | ring p => (h.closeFd p.parameters.fd).1.settle
  | _ => h

end AnyPort

end Proactor
