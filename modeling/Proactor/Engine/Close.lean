import Proactor.Engine.Pump

/-!
# Closing

A closed engine takes no more posts. A shutdown first drains the engine: for a limited time it
retrieves completions and dispatches them as a pump would, and then it runs all callbacks still
posted. What is in flight after that is given up, and what it holds stays lent for good. An
engine that is dropped is closed without draining.
-/

namespace Proactor

/-- Why a call does not return. -/
inductive Halt where
  /-- It goes on: nothing that is under way can end it, or the rounds granted to it were used
  up. -/
  | unfinished
  | panicked
  deriving DecidableEq, Repr

namespace Engine

variable {P H : Type} [CompletionPort P H] [Os H]

/-- Runs posted callbacks, `n` at most. -/
def runAllPosted (e : Engine P H) : Nat → Engine P H
  | 0 => e
  | n + 1 =>
    match e.runPosted with
    | some (e, _) => e.runAllPosted n
    | none => e

/-- Retrieves completions until nothing is in flight, the deadline is over, or the port has no
more to give, for so many rounds. -/
def drainPort (e : Engine P H) (deadline : Nat) : Nat → Engine P H × Except Halt Unit
  | 0 => (e, if e.slab.live = 0 then .ok () else .error .unfinished)
  | rounds + 1 =>
    if e.slab.live = 0 then (e, .ok ())
    else
      let (host, now) := Os.now e.world.host
      let e := e.withHost host
      if deadline ≤ now then (e, .ok ())
      else
        let r := CompletionPort.wait rounds e.port host e.world.memory (some ⟨deadline - now⟩)
        let e := e.absorb r
        match r.answer with
        | .blocked => (e, .error .unfinished)
        | .unfinished => (e, .error .unfinished)
        | .panicked => (e, .error .panicked)
        | .timeout => (e, .ok ())
        | .fault f => (e.note (.drainAborted f), .ok ())
        | .completion c moved =>
          match e.complete c moved with
          | (e, .ok _) => e.drainPort deadline rounds
          | (e, .error f) => (e.note (.drainFault f)).drainPort deadline rounds

/-- Adds to the event counter, so that the engine's own read can complete. -/
def releaseWake (e : Engine P H) : Engine P H :=
  if e.wakeToken.isSome then
    match e.world.wake with
    | (world, .ok ()) => { e with world }
    | (world, .error f) => { e with world }.note (.wakeNotReleased f)
  else e

/-- Drains an engine. There is no drain, and no posted callback is run, if no clock can tell when
the time for it is over. -/
def drain (e : Engine P H) (rounds : Nat) : Engine P H × Except Halt Unit :=
  let e := e.releaseWake
  match Os.later e.world.host e.config.drainTimeout with
  | (host, .error _) => (e.withHost host, .error .panicked)
  | (host, .ok deadline) =>
    match (e.withHost host).drainPort deadline rounds with
    | (e, .error halt) => (e, .error halt)
    | (e, .ok ()) => (e.runAllPosted e.world.injector.queue.length, .ok ())

/-- The engine closed to posts. -/
def closeToPosts (e : Engine P H) : Engine P H :=
  { e with
    closed := true
    world := { e.world with injector := { e.world.injector with closed := true } } }

/-- Gives up what is in flight and what is posted, and shuts the port down. The answer is how
many user operations were given up. -/
def abandon (e : Engine P H) : Engine P H × Nat :=
  let leaked := e.outstanding
  let dropped := e.world.injector.queue.length
  let e := { e with
    wakeToken := none
    leaked := e.leaked ++ e.slab.occupants
    slab := e.slab.abandon
    world := { e.world with injector := { e.world.injector with queue := [] } } }
  let e := if 0 < leaked then e.note (.leaked e.portName leaked) else e
  let e := if 0 < dropped then e.note (.dropped e.portName dropped) else e
  let (port, host) := CompletionPort.shutdown e.port e.world.host
  let e := { e with port, world := { e.world with host } }
  (e.note (.engineClosed e.portName e.stats.submitted e.stats.dispatched leaked), leaked)

/-- Drains and closes an engine. The answer is how many user operations were given up. An engine
whose drain panics stays as the drain leaves it: closed, with its port open and its operations in
flight. -/
def shutdown (e : Engine P H) (rounds : Nat) : Engine P H × Except Halt Nat :=
  if e.closed then (e, .ok 0)
  else match e.closeToPosts.drain rounds with
    | (e, .error halt) => (e, .error halt)
    | (e, .ok ()) =>
      let (e, leaked) := e.abandon
      (e, .ok leaked)

/-- Closes an engine without draining it. -/
def drop (e : Engine P H) : Engine P H := if e.closed then e else e.closeToPosts.abandon.1

end Engine

end Proactor
