import Proactor.Engine.Submit

/-!
# Pumping

A pump runs at most one callback: the first of the posted ones if there is any, else the one of
the next completion. Completions of the engine's own read are consumed on the way, and the read
is put in flight again. A completion whose token names no context is a fault, and runs nothing.
-/

namespace Proactor

/-- A callback was run: the token it ran under, and what it was told. -/
structure Dispatch where
  token : Token
  outcome : Outcome
  deriving DecidableEq, Repr

/-- How a pump ends. -/
inductive Pumped where
  | dispatched (d : Dispatch)
  | timeout
  | fault (f : Fault)
  /-- Nothing that is under way can end the pump. -/
  | blocked
  /-- The rounds granted to the pump were used up. -/
  | unfinished
  /-- The pump panicked, since no clock can tell when a time limit is over: its own, or that of a
  wait. -/
  | panicked
  deriving DecidableEq, Repr

namespace Engine

variable {P H : Type} [CompletionPort P H] [Os H]

/-- Runs the first posted callback. It goes under a bookkeeping name, numbered in order. -/
def runPosted (e : Engine P H) : Option (Engine P H × Dispatch) :=
  match e.world.pop with
  | none => none
  | some (cb, world) =>
    let token := Token.internal (UInt64.ofNat e.stats.injected)
    some ({ e with
            world := world.run cb .done
            stats := { e.stats with injected := e.stats.injected + 1 } }, ⟨token, .done⟩)

/-- What follows a completion of the engine's own read: it is put in flight again, unless the
engine is closed or the read failed. An engine without it still runs posted callbacks at every
pump, but a post no longer ends a wait. -/
def rearmWake (e : Engine P H) (result : Int64) : Engine P H :=
  if e.closed then e
  else if result.toInt < 0 then e.note (.wakeReadFailed result)
  else match e.armWake with
    | (e, .ok ()) => e
    | (e, .error f) => e.note (.wakeNotArmed f)

/-- Runs the callback of a context whose result is final. -/
def dispatch (e : Engine P H) (token : Token) (context : Context) (result : Int64) :
    Engine P H × Dispatch :=
  let o := Outcome.ofResult result
  let e := e.note (.dispatched context.kind context.fd token o)
  ({ e with
     world := e.world.run context.callback o
     stats := { e.stats with dispatched := e.stats.dispatched + 1 } }, ⟨token, o⟩)

/-- Finishes one completion. There is no dispatch for the engine's own read. -/
def complete (e : Engine P H) (c : Completion) (moved : Transfer) :
    Engine P H × Except Fault (Option Dispatch) :=
  match e.slab.take c.token with
  | none => (e.note (.unknownToken c.token c.result), .error (.unknownToken c.token))
  | some (context, slab) =>
    let (world, result) := e.world.settle context.pinned c.result moved
    let e := { e with slab, world }
    if e.wakeToken = some c.token then
      ({ e with wakeToken := none }.rearmWake result, .ok none)
    else
      let (e, d) := e.dispatch c.token context result
      (e, .ok (some d))

/-- The engine with one more pump counted that ended at its time limit. -/
def countTimeout (e : Engine P H) : Engine P H :=
  { e with stats := { e.stats with timeouts := e.stats.timeouts + 1 } }

/-- The engine with another host. -/
def withHost (e : Engine P H) (host : H) : Engine P H :=
  { e with world := { e.world with host } }

/-- Waits for one completion, at most until a deadline. -/
def waitPort (e : Engine P H) (deadline : Option Nat) (rounds : Nat) : Engine P H × Waited :=
  let (host, left) := Os.remaining e.world.host deadline
  let r := CompletionPort.wait rounds e.port host e.world.memory left
  (e.absorb r, r.answer)

/-- Waits for completions until one is dispatched, for so many rounds. -/
def await (e : Engine P H) (deadline : Option Nat) : Nat → Engine P H × Pumped
  | 0 => (e, .unfinished)
  | rounds + 1 =>
    match e.waitPort deadline rounds with
    | (e, .blocked) => (e, .blocked)
    | (e, .unfinished) => (e, .unfinished)
    | (e, .panicked) => (e, .panicked)
    | (e, .fault f) => (e, .fault f)
    | (e, .timeout) => (e.countTimeout, .timeout)
    | (e, .completion c moved) =>
      match e.complete c moved with
      | (e, .error f) => (e, .fault f)
      | (e, .ok (some d)) => (e, .dispatched d)
      | (e, .ok none) =>
        match e.runPosted with
        | some (e, d) => (e, .dispatched d)
        | none => await e deadline rounds

/-- Waits, at most for `timeout` if there is one, until one callback has been run. -/
def pump (e : Engine P H) (timeout : Option Duration) (rounds : Nat) : Engine P H × Pumped :=
  match Os.deadline e.world.host timeout with
  | (host, .error _) => (e.withHost host, .panicked)
  | (host, .ok deadline) =>
    match (e.withHost host).runPosted with
    | some (e, d) => (e, .dispatched d)
    | none => (e.withHost host).await deadline rounds

end Engine

end Proactor
