import Proactor.Proofs.Built
import Proactor.Proofs.Moments
import Proactor.Proofs.Turnover

/-!
# Clients

A program that owns an engine and buffers, one step at a time. A step is one call: on the engine,
on its injector, on a buffer, or on a borrow that is running, so that engine calls made while a
buffer is borrowed are steps between the beginning and the end of the borrow. Buffers go by
handles. An engine that was shut down or dropped is gone, and only its buffers and its injector
are left. So it is when the shutdown panics: the engine is told as it stands then, and not what the
unwinding of the panic does to its buffers.
-/

namespace Proactor

/-- One call of a program. -/
inductive Step (H : Type) where
  /-- Calls one of the seven submitters. -/
  | place (o : Order String) (cb : Callback)
  | pump (timeout : Option Duration) (rounds : Nat)
  | post (cb : Callback)
  | associate (fd : Fd)
  | dissociate (fd : Fd)
  /-- Makes a new buffer. -/
  | buffer (handle : String) (content : Bytes)
  /-- Makes another handle of a buffer. -/
  | clone (handle of_ : String)
  | fill (handle : String) (content : Bytes)
  | peek (handle : String)
  /-- Begins to borrow a buffer, and overwrites its front. -/
  | borrow (handle : String) (content : Bytes)
  /-- Writes to a buffer while it is borrowed. -/
  | scribble (id : StorageId) (content : Bytes)
  /-- Ends a borrow. -/
  | giveBack (id : StorageId)
  /-- Whatever others do to the host. -/
  | outside (host : H)
  | shutdown (rounds : Nat)
  | drop

/-- The time limit that a call is given, if it has one. -/
def Step.limit? {H : Type} : Step H → Option Duration
  | .pump timeout _ => timeout
  | _ => none

/-- What a call returns. -/
inductive Answer where
  | submitted (r : Except Fault Token)
  | pumped (p : Pumped)
  | done (r : Except Fault Unit)
  | flag (b : Bool)
  | content (bytes : Option Bytes)
  | count (n : Option Nat)
  /-- A shutdown tells how many operations were given up, if it returns. -/
  | shut (r : Except Halt Nat)
  /-- The call returns nothing, or cannot be made. -/
  | nothing
  deriving DecidableEq

/-- A program with its engine and the borrows that are running. -/
structure Client (P H : Type) where
  engine : Engine P H
  borrows : List StorageId := []
  /-- The engine was shut down or dropped. -/
  gone : Bool := false

namespace Client

variable {P H : Type}

/-- A client that has just got its engine. -/
def own (e : Engine P H) : Client P H := { engine := e }

/-- What user code can tell apart between two calls. -/
def scene (c : Client P H) : Scene P H := { engine := c.engine, borrows := c.borrows }

/-- The order on the storages that its handles name. -/
def resolve (c : Client P H) (o : Order String) : Option (Order StorageId) :=
  o.mapBuffers? c.engine.world.memory.find?

variable [CompletionPort P H] [Os H]

/-- One call. -/
def step (c : Client P H) : Step H → Client P H × Answer
  | .place o cb =>
    match c.gone, c.resolve o with
    | false, some o =>
      ({ c with engine := (c.engine.place o cb).1 }, .submitted (c.engine.place o cb).2)
    | _, _ => (c, .nothing)
  | .pump timeout rounds =>
    if c.gone then (c, .nothing)
    else
      ({ c with engine := (c.engine.pump timeout rounds).1 },
        .pumped (c.engine.pump timeout rounds).2)
  | .post cb =>
    ({ c with engine := c.engine.withWorld (c.engine.world.post cb).1 },
      .done (c.engine.world.post cb).2)
  | .associate fd =>
    if c.gone then (c, .nothing)
    else ({ c with engine := (c.engine.associate fd).1 }, .done (c.engine.associate fd).2)
  | .dissociate fd =>
    if c.gone then (c, .nothing)
    else ({ c with engine := (c.engine.dissociate fd).1 }, .flag (c.engine.dissociate fd).2)
  | .buffer handle content =>
    let (m, id) := c.engine.world.memory.alloc content
    ({ c with engine := c.engine.withMemory (m.bind handle id) }, .nothing)
  | .clone handle of_ =>
    match c.engine.world.memory.find? of_ with
    | some id =>
      ({ c with engine := c.engine.withMemory (c.engine.world.memory.bind handle id) }, .nothing)
    | none => (c, .nothing)
  | .fill handle content =>
    ({ c with engine := c.engine.withWorld (c.engine.world.fill handle content) },
      .count (((c.engine.world.memory.find? handle).bind
        (c.engine.world.memory.fill? · content)).map Prod.snd))
  | .peek handle =>
    (c, .content ((c.engine.world.memory.find? handle).bind c.engine.world.memory.read?))
  | .borrow handle content =>
    match c.engine.world.borrow? handle content with
    | some (id, world) =>
      ({ c with engine := c.engine.withWorld world, borrows := id :: c.borrows }, .flag true)
    | none => (c, .flag false)
  | .scribble id content =>
    if id ∈ c.borrows then
      let memory := c.engine.world.memory.modifyBytes id (Bytes.overwrite · content)
      ({ c with engine := c.engine.withMemory memory }, .nothing)
    else (c, .nothing)
  | .giveBack id =>
    if id ∈ c.borrows then
      ({ c with
          engine := c.engine.withWorld (c.engine.world.release id)
          borrows := c.borrows.erase id }, .nothing)
    else (c, .nothing)
  | .outside host => ({ c with engine := c.engine.withHost host }, .nothing)
  | .shutdown rounds =>
    if c.gone then (c, .nothing)
    else
      ({ c with engine := (c.engine.shutdown rounds).1, gone := true },
        .shut (c.engine.shutdown rounds).2)
  | .drop =>
    if c.gone then (c, .nothing) else ({ c with engine := c.engine.drop, gone := true }, .nothing)

/-- The client after calls, one after the other. -/
def after (c : Client P H) : List (Step H) → Client P H
  | [] => c
  | s :: steps => (c.step s).1.after steps

/-- What calls return, one after the other. -/
def answers (c : Client P H) : List (Step H) → List Answer
  | [] => []
  | s :: steps => (c.step s).2 :: (c.step s).1.answers steps

/-- The clock can tell when each time limit of the calls is over, as it goes when they are made. -/
def InTime (c : Client P H) : List (Step H) → Prop
  | [] => True
  | s :: steps => Os.Tells c.engine.world.host s.limit? ∧ (c.step s).1.InTime steps

instance decidableInTime (c : Client P H) : (steps : List (Step H)) → Decidable (c.InTime steps)
  | [] => .isTrue trivial
  | s :: steps => @instDecidableAnd _ _ _ ((c.step s).1.decidableInTime steps)

/-! ### Histories of clients -/

/-- What happens during one call. -/
def moments (c : Client P H) (s : Step H) : List (Moment P H) :=
  match s with
  | .place o cb =>
    match c.gone, c.resolve o with
    | false, some o => [(.submitted cb (c.engine.place o cb).2, (c.step s).1.scene)]
    | _, _ => []
  | .pump timeout rounds => if c.gone then [] else c.engine.pumpMoments c.borrows timeout rounds
  | .shutdown rounds => if c.gone then [] else c.engine.shutdownMoments c.borrows rounds
  | .drop => if c.gone then [] else c.engine.dropMoments c.borrows
  | .buffer _ content =>
    let memory := (c.engine.world.memory.alloc content).1
    [(.quiet, { c.scene with engine := c.engine.withMemory memory }),
      (.quiet, (c.step s).1.scene)]
  | _ => [(.quiet, (c.step s).1.scene)]

/-- What happens during calls, one after the other. -/
def history (c : Client P H) : List (Step H) → List (Moment P H)
  | [] => []
  | s :: steps => c.moments s ++ (c.step s).1.history steps

/-- It may be that nothing happens. -/
theorem happens_nothing (s : Scene P H) : Happens s .quiet s :=
  .aside s.engine s.borrows s.running s.engine.world.host s.engine.world.journal
    s.engine.stats.timeouts

/-- A call is a path. -/
theorem path_moments (c : Client P H) (s : Step H) :
    Path c.scene (c.moments s) (c.step s).1.scene := by
  obtain ⟨e, b, gone⟩ := c
  cases s with
  | place o cb =>
    cases gone with
    | true => exact .refl
    | false =>
      cases ho : (Client.mk e b false).resolve o with
      | none =>
        simp only [moments, step, ho]
        exact .refl
      | some o' =>
        simp only [moments, step, ho]
        exact .single (.place e b o' cb)
  | pump timeout rounds =>
    cases gone with
    | true => exact .refl
    | false => exact e.path_pump b timeout rounds
  | post cb => exact .single (.post e b none cb)
  | associate fd =>
    cases gone with
    | true => exact .single (happens_nothing _)
    | false => exact .single (.associate e b fd)
  | dissociate fd =>
    cases gone with
    | true => exact .single (happens_nothing _)
    | false => exact .single (.dissociate e b fd)
  | buffer handle content =>
    refine .cons (.alloc e b none content) (.single ?_)
    exact .bind (e.withMemory (e.world.memory.alloc content).1) b none handle _
  | clone handle of_ =>
    cases h : e.world.memory.find? of_ with
    | none =>
      simp only [moments, step, h]
      exact .single (happens_nothing _)
    | some id =>
      simp only [moments, step, h]
      exact .single (.bind e b none handle id)
  | fill handle content => exact .single (.act e b none (.fill handle content) (by simp))
  | peek handle => exact .single (happens_nothing _)
  | borrow handle content =>
    cases h : e.world.borrow? handle content with
    | none =>
      simp only [moments, step, h]
      exact .single (happens_nothing _)
    | some x =>
      simp only [moments, step, h]
      exact .single (.borrow e b none handle content x.1 x.2 h)
  | scribble id content =>
    by_cases h : id ∈ b
    · simp only [moments, step, if_pos h]
      exact .single (.scribble e b none id content h)
    · simp only [moments, step, if_neg h]
      exact .single (happens_nothing _)
  | giveBack id =>
    by_cases h : id ∈ b
    · simp only [moments, step, if_pos h]
      exact .single (.giveBack e b none id h)
    · simp only [moments, step, if_neg h]
      exact .single (happens_nothing _)
  | outside host => exact .single (.aside e b none host e.world.journal e.stats.timeouts)
  | shutdown rounds =>
    cases gone with
    | true => exact .refl
    | false => exact e.path_shutdown b rounds
  | drop =>
    cases gone with
    | true => exact .refl
    | false => exact e.path_drop b

/-- Calls, one after the other, are a path. -/
theorem path_history (c : Client P H) (steps : List (Step H)) :
    Path c.scene (c.history steps) (c.after steps).scene := by
  induction steps generalizing c with
  | nil => exact .refl
  | cons s steps ih => exact (c.path_moments s).trans (ih (c.step s).1)

/-- Until `2 ^ 32` operations were submitted there is an index for every slot. -/
theorem room_of_history {config : Config} {port : P} {host : H} {e : Engine P H}
    (h : Engine.build config port host = .ready e) (steps : List (Step H))
    (hfew : ((own e).history steps).countP (fun m => m.1.isSubmission) < 2 ^ 32) :
    ((own e).after steps).engine.slab.slots.length ≤ 2 ^ 32 := by
  obtain ⟨context, _, hslab, _⟩ := (Engine.isNew_of_build h).slab
  have hfirst : (own e).scene.engine.slab.slots.length = 1 := congrArg (·.slots.length) hslab
  have hadd := ((own e).path_history steps).length_slots_le_add
  rw [hfirst] at hadd
  exact Nat.le_trans hadd (by omega)

end Client

end Proactor
