import Mathlib.Logic.Relation
import Proactor.Proofs.Closing
import Proactor.Proofs.Posters

/-!
# Late posts

An engine that is shut down while others post to it. The thread that shuts it down closes the
injector, retrieves completions one after the other, runs what is posted until nothing is left, and
then discards what is posted, counting, until nothing is left. Between any two of its steps posts
may take steps of theirs.

A post that has looked at the injector before it was closed may put its callback into the queue at
any time after. Up to the end of the discarding the callback is run or counted all the same. After
that nobody looks at the queue any more: the post succeeds, and its callback is neither run nor
counted. Nor is any other callback if the shutdown panics before it looks at the queue, which it
does if no clock can tell when its drain is over, or if the port panics in a wait.
-/

namespace Proactor

variable {P H : Type} [CompletionPort P H] [Os H]

/-! ### A shutdown among posts -/

namespace Engine

/-- Gives up what is in flight and shuts the port down, after so many posted callbacks were
discarded. -/
def endClosing (e : Engine P H) (dropped : Nat) : Engine P H :=
  let leaked := e.outstanding
  let e := { e with
    wakeToken := none
    leaked := e.leaked ++ e.slab.occupants
    slab := e.slab.abandon }
  let e := if 0 < leaked then e.note (.leaked e.portName leaked) else e
  let e := if 0 < dropped then e.note (.dropped e.portName dropped) else e
  let (port, host) := CompletionPort.shutdown e.port e.world.host
  let e := { e with port, world := { e.world with host } }
  e.note (.engineClosed e.portName e.stats.submitted e.stats.dispatched leaked)

/-- One round of retrieving completions, and whether there is another one. -/
def retrieve (e : Engine P H) (deadline rounds : Nat) : Engine P H × Except Halt Bool :=
  if e.slab.live = 0 then (e, .ok false)
  else if deadline ≤ (Os.now e.world.host).2 then
    (e.withHost (Os.now e.world.host).1, .ok false)
  else match e.waitPort (some deadline) rounds with
    | (e, .blocked) => (e, .error .unfinished)
    | (e, .unfinished) => (e, .error .unfinished)
    | (e, .panicked) => (e, .error .panicked)
    | (e, .timeout) => (e, .ok false)
    | (e, .fault f) => (e.note (.drainAborted f), .ok false)
    | (e, .completion c moved) =>
      match e.complete c moved with
      | (e, .ok _) => (e, .ok true)
      | (e, .error f) => (e.note (.drainFault f), .ok true)

/-- Completions are retrieved round by round. -/
theorem drainPort_succ (e : Engine P H) (deadline rounds : Nat) :
    e.drainPort deadline (rounds + 1) =
      match e.retrieve deadline rounds with
      | (e, .ok true) => e.drainPort deadline rounds
      | (e, .ok false) => (e, .ok ())
      | (e, .error halt) => (e, .error halt) := by
  unfold retrieve
  by_cases hlive : e.slab.live = 0
  · simp only [drainPort, if_pos hlive]
  by_cases hover : deadline ≤ (Os.now e.world.host).2
  · simp only [drainPort, if_neg hlive, if_pos hover]
  simp only [if_neg hlive, if_neg hover]
  cases hwait : e.waitPort (some deadline) rounds with
  | mk e₁ w =>
    rw [drainPort_of_waits ⟨hlive, Nat.lt_of_not_le hover, hwait⟩]
    cases w with
    | completion c moved =>
      simp only [drainOn]
      cases hc : e₁.complete c moved with
      | mk e₂ r => cases r <;> rfl
    | _ => rfl

/-- The engine with nothing posted. -/
def discardAll (e : Engine P H) : Engine P H :=
  e.withWorld { e.world with injector := { e.world.injector with queue := [] } }

omit [Os H] in
/-- Giving up an engine is discarding what is posted, and then giving up the rest. -/
theorem abandon_eq_endClosing (e : Engine P H) :
    e.abandon.1 = e.discardAll.endClosing e.world.injector.queue.length := rfl

end Engine

/-- Where the thread that shuts an engine down is. -/
inductive Shutting where
  | live
  /-- The injector is closed. -/
  | marked
  /-- Completions are retrieved until the deadline. -/
  | retrieving (deadline : Nat)
  /-- Posted callbacks are run as long as there are any. -/
  | draining
  /-- Posted callbacks are discarded as long as there are any, so many up to now. -/
  | discarding (dropped : Nat)
  | ended (dropped : Nat)
  /-- It has panicked. -/
  | broken
  deriving DecidableEq

namespace Shutting

/-- How many posted callbacks were counted as discarded. -/
def discarded : Shutting → Nat
  | .discarding n => n
  | .ended n => n
  | _ => 0

/-- No posted callback was run so far. -/
def isEarly : Shutting → Bool
  | .live | .marked | .retrieving _ | .broken => true
  | _ => false

/-- The shutdown takes no step any more. -/
def isOver : Shutting → Bool
  | .ended _ | .broken => true
  | _ => false

end Shutting

/-- An engine that is shut down, and the posts that other threads make. Posts go by their place in
the list. -/
structure Closedown (P H : Type) where
  engine : Engine P H
  stage : Shutting := .live
  posters : List Poster
  /-- The posts whose callbacks are in the queue, one after the other. -/
  waiting : List Nat := []
  /-- The posts whose callbacks were run. -/
  ran : List Nat := []
  /-- The posts whose callbacks were discarded and counted. -/
  dropped : List Nat := []

/-- One step of somebody. -/
inductive Races : Closedown P H → Closedown P H → Prop
  /-- A post takes its next step. -/
  | posts (s : Closedown P H) (i : Nat) (p : Poster) (hp : s.posters[i]? = some p) :
    Races s { s with
      engine := s.engine.withWorld (p.step s.engine.world).1
      posters := s.posters.set i (p.step s.engine.world).2
      waiting := s.waiting ++ p.entering.map fun _ => i }
  /-- A shutdown closes the injector. -/
  | marks (s : Closedown P H) (h : s.stage = .live) :
    Races s { s with engine := s.engine.closeToPosts, stage := .marked }
  /-- It begins its drain. -/
  | begins (s : Closedown P H) (h : s.stage = .marked)
    (hfits : s.engine.drainStart.2 < endOfTime) :
    Races s { s with
      engine := s.engine.drainStart.1
      stage := .retrieving s.engine.drainStart.2 }
  /-- No clock can tell when the drain would be over. -/
  | breaksOff (s : Closedown P H) (h : s.stage = .marked)
    (hlate : endOfTime ≤ s.engine.drainStart.2) :
    Races s { s with engine := s.engine.drainStart.1, stage := .broken }
  /-- It retrieves a completion, or finds that there are no more to wait for. A wait that does not
  end is no step: the shutdown stays where it is. -/
  | retrieves (s : Closedown P H) (deadline rounds : Nat) (more : Bool)
    (h : s.stage = .retrieving deadline)
    (hends : (s.engine.retrieve deadline rounds).2 = .ok more) :
    Races s { s with
      engine := (s.engine.retrieve deadline rounds).1
      stage := if more then .retrieving deadline else .draining }
  /-- The port panics in a wait. -/
  | breaks (s : Closedown P H) (deadline rounds : Nat) (h : s.stage = .retrieving deadline)
    (hbreaks : (s.engine.retrieve deadline rounds).2 = .error .panicked) :
    Races s { s with engine := (s.engine.retrieve deadline rounds).1, stage := .broken }
  | runs (s : Closedown P H) (e' : Engine P H) (d : Dispatch) (h : s.stage = .draining)
    (hran : s.engine.runPosted = some (e', d)) :
    Races s { s with
      engine := e'
      ran := s.ran ++ s.waiting.take 1
      waiting := s.waiting.drop 1 }
  | drains (s : Closedown P H) (h : s.stage = .draining) (hempty : s.engine.runPosted = none) :
    Races s { s with stage := .discarding 0 }
  /-- An engine that is dropped is closed without draining. -/
  | drops (s : Closedown P H) (h : s.stage = .live) :
    Races s { s with engine := s.engine.closeToPosts, stage := .discarding 0 }
  | discards (s : Closedown P H) (n : Nat) (cb : Callback) (w : World H)
    (h : s.stage = .discarding n) (hpop : s.engine.world.pop = some (cb, w)) :
    Races s { s with
      engine := s.engine.withWorld w
      stage := .discarding (n + 1)
      dropped := s.dropped ++ s.waiting.take 1
      waiting := s.waiting.drop 1 }
  | ends (s : Closedown P H) (n : Nat) (h : s.stage = .discarding n)
    (hempty : s.engine.world.pop = none) :
    Races s { s with engine := s.engine.endClosing n, stage := .ended n }

/-- Steps of anybody, in any order. -/
def RacesOn : Closedown P H → Closedown P H → Prop := Relation.ReflTransGen Races

namespace Closedown

/-- A live engine with nothing posted, and posts that are about to be made. -/
structure Begins (s : Closedown P H) : Prop where
  live : s.engine.closed = false
  stage : s.stage = .live
  queue : s.engine.world.injector.queue = []
  posters : ∀ p ∈ s.posters, p.stage = .called
  waiting : s.waiting = []
  ran : s.ran = []
  dropped : s.dropped = []

/-- The callback of a post. -/
def callback? (s : Closedown P H) (i : Nat) : Option Callback := s.posters[i]?.map Poster.callback

/-- The callback of a post was put into the queue. -/
def hasEntered (s : Closedown P H) (i : Nat) : Bool := s.posters[i]?.any Poster.hasEntered

/-- What the callbacks of posts that were run are called with. -/
def outcomes (s : Closedown P H) : List (String × Outcome) :=
  s.ran.filterMap fun i => (s.callback? i).map fun cb => (cb.tag, .done)

/-- The callbacks that were put into the queue are in the queue, were run, or were discarded, each
of them once, and those discarded were counted. Those run are the last that the engine ran. -/
structure Accounts (s : Closedown P H) : Prop where
  early : s.stage.isEarly = true → s.ran = []
  told : ∃ before, s.engine.world.calls.filterMap Call.ran? = before ++ s.outcomes
  closed : s.stage ≠ .live → s.engine.world.injector.closed = true
  queue : s.waiting.map s.callback? = s.engine.world.injector.queue.map some
  once : ∀ i, (s.ran ++ s.dropped ++ s.waiting).count i = (s.hasEntered i).toNat
  counted : s.dropped.length = s.stage.discarded

end Closedown

/-! ### What one step does to the queue -/

namespace Engine

omit [Os H] in
/-- What is posted while an engine is given up stays in the queue. -/
@[simp] theorem injector_endClosing (e : Engine P H) (dropped : Nat) :
    (e.endClosing dropped).world.injector = e.world.injector := by
  unfold endClosing
  dsimp only
  split <;> split <;> rfl

omit [Os H] in
/-- Giving up an engine runs no callback. -/
@[simp] theorem calls_endClosing (e : Engine P H) (dropped : Nat) :
    (e.endClosing dropped).world.calls = e.world.calls := by
  unfold endClosing
  dsimp only
  split <;> split <;> rfl

omit [Os H] in
/-- How many posted callbacks were discarded is reported, if any. -/
theorem dropped_mem_endClosing (e : Engine P H) {dropped : Nat} (h : 0 < dropped) :
    .dropped e.portName dropped ∈ (e.endClosing dropped).world.journal := by
  unfold endClosing
  dsimp only
  rw [if_pos h]
  split <;> simp [note, World.note, portName]

omit [CompletionPort P H] in
/-- Beginning a drain leaves the injector alone. -/
theorem injector_drainStart (e : Engine P H) :
    e.drainStart.1.world.injector = e.world.injector := by
  obtain ⟨host, journal, hstart⟩ := e.drainStart_eq_beside
  rw [hstart]
  rfl

/-- Retrieving completions leaves the queue of a closed injector alone. -/
theorem injector_retrieve {e : Engine P H} (hclosed : e.world.injector.closed = true)
    (deadline rounds : Nat) :
    (e.retrieve deadline rounds).1.world.injector.queue = e.world.injector.queue ∧
      (e.retrieve deadline rounds).1.world.injector.closed = true := by
  unfold retrieve
  by_cases hlive : e.slab.live = 0
  · rw [if_pos hlive]
    exact ⟨rfl, hclosed⟩
  by_cases hover : deadline ≤ (Os.now e.world.host).2
  · rw [if_neg hlive, if_pos hover]
    exact ⟨rfl, hclosed⟩
  rw [if_neg hlive, if_neg hover]
  cases hwait : e.waitPort (some deadline) rounds with
  | mk e₁ w =>
    have hsame : e₁.world.injector = e.world.injector := (undisturbed_waitPort hwait).injector
    rw [← hsame] at hclosed ⊢
    cases w with
    | completion c moved =>
      have hcompleted : (e₁.complete c moved).1.world.injector.queue = e₁.world.injector.queue ∧
          (e₁.complete c moved).1.world.injector.closed = true := by
        obtain ⟨_, hundisturbed, _⟩ | ⟨hpopped, _, hserves⟩ := serves_complete e₁ [] c moved
        · rw [hundisturbed.injector]
          exact ⟨rfl, hclosed⟩
        · have hqueue := hserves.queue_of_closed hclosed
          rw [hpopped] at hqueue
          exact ⟨hqueue.symm, hserves.shut.trans hclosed⟩
      dsimp only
      cases hc : e₁.complete c moved with
      | mk e₂ r =>
        rw [hc] at hcompleted
        cases r <;> exact hcompleted
    | _ => exact ⟨rfl, hclosed⟩

end Engine

namespace Closedown

variable {s s' : Closedown P H}

omit [CompletionPort P H] [Os H] in
/-- The first callback in the queue is that of the first post that waits. -/
theorem Accounts.first {cb : Callback} {queue : List Callback} (hs : s.Accounts)
    (hqueue : s.engine.world.injector.queue = cb :: queue) :
    ∃ i rest, s.waiting = i :: rest ∧ s.callback? i = some cb ∧
      rest.map s.callback? = queue.map some := by
  have hwaiting := hs.queue
  rw [hqueue] at hwaiting
  obtain ⟨i, rest, hcons, hfirst, hrest⟩ := List.map_eq_cons_iff.mp hwaiting
  exact ⟨i, rest, hcons, hfirst, hrest⟩

omit [CompletionPort P H] [Os H] in
/-- Before a shutdown nothing is posted. -/
theorem Begins.accounts (h : s.Begins) : s.Accounts where
  early _ := h.ran
  told := ⟨_, by rw [outcomes, h.ran]; exact (List.append_nil _).symm⟩
  closed hstage := absurd h.stage hstage
  queue := by rw [h.waiting, h.queue]; rfl
  once := by
    intro i
    rw [h.ran, h.dropped, h.waiting, hasEntered]
    cases hp : s.posters[i]? with
    | none => rfl
    | some p =>
      have hcalled := h.posters p (List.mem_of_getElem? hp)
      simp [Poster.hasEntered, hcalled]
  counted := by rw [h.dropped, h.stage]; rfl

omit [CompletionPort P H] in
/-- A step of a post puts its own callback into the queue, if any, and under its own place. -/
theorem Accounts.posts (hs : s.Accounts) {i : Nat} {p : Poster} (hp : s.posters[i]? = some p) :
    Accounts { s with
      engine := s.engine.withWorld (p.step s.engine.world).1
      posters := s.posters.set i (p.step s.engine.world).2
      waiting := s.waiting ++ p.entering.map fun _ => i } := by
  obtain ⟨host, hstep⟩ := p.step_eq s.engine.world
  let s' : Closedown P H := { s with
    engine := s.engine.withWorld (p.step s.engine.world).1
    posters := s.posters.set i (p.step s.engine.world).2
    waiting := s.waiting ++ p.entering.map fun _ => i }
  have hself : s'.posters[i]? = some (p.step s.engine.world).2 :=
    List.getElem?_set_self (List.getElem?_eq_some_iff.mp hp).1
  have hother (j : Nat) (hj : i ≠ j) : s'.posters[j]? = s.posters[j]? := List.getElem?_set_ne hj
  have hcallback : s'.callback? = s.callback? := by
    funext j
    unfold callback?
    by_cases hj : i = j
    · subst hj
      rw [hself, hp]
      simp [Poster.callback_step]
    · rw [hother j hj]
  constructor
  case early => exact hs.early
  case told =>
    obtain ⟨before, htold⟩ := hs.told
    refine ⟨before, ?_⟩
    have hsame : s'.outcomes = s.outcomes := by
      unfold outcomes
      rw [hcallback]
    change s'.engine.world.calls.filterMap Call.ran? = before ++ s'.outcomes
    simp only [s', Engine.world_withWorld, hstep] at hsame ⊢
    rw [htold, hsame]
  case closed =>
    intro hstage
    simp only [Engine.world_withWorld, hstep]
    exact hs.closed hstage
  case queue =>
    have hentering : (p.entering.map fun _ => i).map s.callback? = p.entering.map some := by
      unfold Poster.entering
      split
      · simp [callback?, hp]
      · rfl
    have hqueue : s'.engine.world.injector.queue =
        s.engine.world.injector.queue ++ p.entering := by
      simp only [s', Engine.world_withWorld, hstep]
    change s'.waiting.map s'.callback? = s'.engine.world.injector.queue.map some
    rw [hcallback, hqueue, List.map_append, List.map_append, hs.queue, hentering]
  case once =>
    intro j
    have honce := hs.once j
    have hentered : (s'.hasEntered j).toNat =
        (s.hasEntered j).toNat + (p.entering.map fun _ => i).count j := by
      unfold hasEntered
      by_cases hj : i = j
      · subst hj
        rw [hself, hp, List.map_const', List.count_replicate_self]
        exact p.toNat_hasEntered_step s.engine.world
      · rw [hother j hj, List.map_const', List.count_replicate]
        simp [hj]
    change (s.ran ++ s.dropped ++ (s.waiting ++ _)).count j = (s'.hasEntered j).toNat
    rw [hentered, ← honce, ← List.append_assoc, List.count_append]
  case counted => exact hs.counted

omit [CompletionPort P H] [Os H] in
/-- The callback at the front of the queue is still accounted for when it leaves the queue. -/
theorem count_first (s : Closedown P H) (j : Nat) :
    (s.waiting.take 1).count j + (s.waiting.drop 1).count j = s.waiting.count j := by
  rw [← List.count_append, List.take_append_drop]

omit [CompletionPort P H] in
/-- Running the first callback leaves the others where they are. -/
theorem Accounts.runs (hs : s.Accounts) {e' : Engine P H} {d : Dispatch}
    (h : s.stage = .draining) (hran : s.engine.runPosted = some (e', d)) :
    Accounts { s with
      engine := e'
      ran := s.ran ++ s.waiting.take 1
      waiting := s.waiting.drop 1 } := by
  have hclosed : s.engine.world.injector.closed = true := hs.closed (by simp [h])
  obtain ⟨cb, hqueue, hclosed', hruns⟩ := Engine.runPosted_of_closed hclosed hran
  obtain ⟨i, rest, hwaiting, hfirst, hrest⟩ := hs.first hqueue
  constructor
  case early =>
    intro hearly
    rw [h] at hearly
    cases hearly
  case told =>
    obtain ⟨before, htold⟩ := hs.told
    refine ⟨before, ?_⟩
    change e'.world.calls.filterMap Call.ran? =
      before ++ (s.ran ++ s.waiting.take 1).filterMap fun j =>
        (s.callback? j).map fun cb => (cb.tag, .done)
    rw [hruns, htold, List.append_assoc, hwaiting, List.filterMap_append]
    simp [outcomes, hfirst]
  case closed => exact fun _ => hclosed'
  case queue =>
    rw [hwaiting]
    exact hrest
  case once =>
    intro j
    have honce := hs.once j
    have hfirst := s.count_first j
    change _ = (s.hasEntered j).toNat
    simp only [List.count_append] at honce ⊢
    omega
  case counted => exact hs.counted

omit [CompletionPort P H] [Os H] in
/-- Discarding the first callback leaves the others where they are. -/
theorem Accounts.discards (hs : s.Accounts) {n : Nat} {cb : Callback} {w : World H}
    (h : s.stage = .discarding n) (hpop : s.engine.world.pop = some (cb, w)) :
    Accounts { s with
      engine := s.engine.withWorld w
      stage := .discarding (n + 1)
      dropped := s.dropped ++ s.waiting.take 1
      waiting := s.waiting.drop 1 } := by
  have hclosed : s.engine.world.injector.closed = true := hs.closed (by simp [h])
  obtain ⟨queue, hqueue, rfl⟩ := World.pop_eq_some hpop
  obtain ⟨i, rest, hwaiting, _, hrest⟩ := hs.first hqueue
  constructor
  case early => exact nofun
  case told => exact hs.told
  case closed => exact fun _ => hclosed
  case queue =>
    rw [hwaiting]
    exact hrest
  case once =>
    intro j
    have honce := hs.once j
    have hfirst := s.count_first j
    change _ = (s.hasEntered j).toNat
    simp only [List.count_append] at honce ⊢
    omega
  case counted =>
    have hcounted := hs.counted
    rw [h] at hcounted
    rw [hwaiting, List.length_append, hcounted]
    rfl

omit [CompletionPort P H] [Os H] in
/-- A step of a shutdown before any posted callback is run keeps account if it leaves the queue
alone. -/
theorem Accounts.early_step (hs : s.Accounts) (hearly : s.stage.isEarly = true) {e' : Engine P H}
    {stage : Shutting} (hclosed : e'.world.injector.closed = true)
    (hqueue : e'.world.injector.queue = s.engine.world.injector.queue)
    (hdiscarded : stage.discarded = 0) :
    Accounts { s with engine := e', stage } where
  early _ := hs.early hearly
  told := ⟨_, by rw [outcomes, hs.early hearly]; exact (List.append_nil _).symm⟩
  closed _ := hclosed
  queue := hs.queue.trans (congrArg _ hqueue.symm)
  once := hs.once
  counted := by
    have hnone : s.stage.discarded = 0 := by
      cases hstage : s.stage with
      | discarding n => rw [hstage] at hearly; cases hearly
      | ended n => rw [hstage] at hearly; cases hearly
      | _ => rfl
    exact hs.counted.trans (hnone.trans hdiscarded.symm)

end Closedown

variable {s s' : Closedown P H}

/-- A step of anybody keeps account of the callbacks that were posted. -/
theorem Races.accounts (h : Races s s') (hs : s.Accounts) : s'.Accounts := by
  cases h with
  | posts i p hp => exact hs.posts hp
  | marks h => exact hs.early_step (by rw [h]; rfl) rfl rfl rfl
  | drops h => exact hs.early_step (by rw [h]; rfl) rfl rfl rfl
  | begins h =>
    have hsame := s.engine.injector_drainStart
    have hclosed : s.engine.world.injector.closed = true := hs.closed (by simp [h])
    exact hs.early_step (by rw [h]; rfl) (hsame ▸ hclosed) (by rw [hsame]) rfl
  | breaksOff h =>
    have hsame := s.engine.injector_drainStart
    have hclosed : s.engine.world.injector.closed = true := hs.closed (by simp [h])
    exact hs.early_step (by rw [h]; rfl) (hsame ▸ hclosed) (by rw [hsame]) rfl
  | retrieves deadline rounds more h =>
    obtain ⟨hqueue, hclosed⟩ := Engine.injector_retrieve (hs.closed (by simp [h])) deadline rounds
    exact hs.early_step (by rw [h]; rfl) hclosed hqueue (by cases more <;> rfl)
  | breaks deadline rounds h =>
    obtain ⟨hqueue, hclosed⟩ := Engine.injector_retrieve (hs.closed (by simp [h])) deadline rounds
    exact hs.early_step (by rw [h]; rfl) hclosed hqueue rfl
  | runs e' d h hran => exact hs.runs h hran
  | drains h hempty =>
    exact ⟨nofun, hs.told, fun _ => hs.closed (by simp [h]), hs.queue, hs.once,
      by rw [hs.counted, h]; rfl⟩
  | discards n cb w h hpop => exact hs.discards h hpop
  | ends n h hempty =>
    refine ⟨nofun, ?_, fun _ => ?_, ?_, hs.once, by rw [hs.counted, h]; rfl⟩
    · rw [Engine.calls_endClosing]
      exact hs.told
    · rw [Engine.injector_endClosing]
      exact hs.closed (by simp [h])
    · rw [Engine.injector_endClosing]
      exact hs.queue

/-- Whatever order the steps are taken in, the callbacks that were posted are accounted for. -/
theorem RacesOn.accounts (h : RacesOn s s') (hs : s.Accounts) : s'.Accounts := by
  induction h with
  | refl => exact hs
  | tail _ hstep ih => exact hstep.accounts ih

/-! ### A shutdown and a post that nobody comes between -/

/-- The last step of a shutdown leads from `s₁` to `s₂`, and the posts are where they were. -/
structure Closedown.ShutsAlone (s s₁ s₂ : Closedown P H) (e' : Engine P H) (n : Nat) : Prop where
  before : RacesOn s s₁
  discarding : s₁.stage = .discarding n
  ends : Races s₁ s₂
  engine : s₂.engine = e'
  ended : s₂.stage = .ended n
  posters : s₂.posters = s.posters

/-- Running what is posted takes steps of a shutdown. -/
theorem Engine.RunsOut.racesOn {e served : Engine P H} (h : e.RunsOut served) (s : Closedown P H)
    (he : s.engine = e) (hs : s.stage = .draining) :
    ∃ s', RacesOn s s' ∧ s'.engine = served ∧ s'.stage = .discarding 0 ∧
      s'.posters = s.posters := by
  induction h generalizing s with
  | done hnone =>
    refine ⟨_, .single (.drains s hs ?_), he, rfl, rfl⟩
    rw [he]
    exact hnone
  | next hran _ ih =>
    rw [← he] at hran
    obtain ⟨s', hruns, hends⟩ := ih
      { s with engine := _, ran := s.ran ++ s.waiting.take 1, waiting := s.waiting.drop 1 } rfl hs
    exact ⟨s', .head (.runs s _ _ hs hran) hruns, hends⟩

omit [CompletionPort P H] [Os H] in
/-- An engine with nothing posted has nothing to discard. -/
theorem Engine.discardAll_of_empty {e : Engine P H} (h : e.world.injector.queue = []) :
    e.discardAll = e := by
  unfold discardAll
  rw [← h]
  rfl

/-- Discarding what is posted takes steps of a shutdown. -/
theorem racesOn_discards (s : Closedown P H) {n : Nat} (hs : s.stage = .discarding n) :
    ∃ s', RacesOn s s' ∧ s'.engine = s.engine.discardAll ∧
      s'.stage = .discarding (n + s.engine.world.injector.queue.length) ∧
      s'.posters = s.posters := by
  generalize hqueue : s.engine.world.injector.queue = queue
  induction queue generalizing s n with
  | nil => exact ⟨s, .refl, (Engine.discardAll_of_empty hqueue).symm, hs, rfl⟩
  | cons cb queue ih =>
    let w : World H := { s.engine.world with injector.queue := queue }
    obtain ⟨s', hruns, hengine, hstage, hposters⟩ := ih { s with
      engine := s.engine.withWorld w
      stage := .discarding (n + 1)
      dropped := s.dropped ++ s.waiting.take 1
      waiting := s.waiting.drop 1 } rfl rfl
    have hdiscards := Races.discards s n cb w hs (World.pop_of_queue hqueue)
    refine ⟨s', .head hdiscards hruns, hengine, hstage.trans ?_, hposters⟩
    rw [List.length_cons, Nat.add_assoc, Nat.add_comm 1]

/-- Retrieving completions takes steps of a shutdown, and breaks it off if it panics. -/
theorem racesOn_drainPort (s : Closedown P H) {e' : Engine P H} {deadline rounds : Nat}
    (hs : s.stage = .retrieving deadline) :
    (s.engine.drainPort deadline rounds = (e', .ok ()) →
      RacesOn s { s with engine := e', stage := .draining }) ∧
    (s.engine.drainPort deadline rounds = (e', .error .panicked) →
      RacesOn s { s with engine := e', stage := .broken }) := by
  induction rounds generalizing s with
  | zero =>
    by_cases hlive : s.engine.slab.live = 0
    · have hnone : s.engine.retrieve deadline 0 = (s.engine, .ok false) := if_pos hlive
      have hstep := Races.retrieves s deadline 0 false hs (by rw [hnone])
      rw [hnone] at hstep
      simp only [Engine.drainPort, if_pos hlive]
      refine ⟨fun h => ?_, fun h => by cases h⟩
      obtain ⟨rfl, _⟩ := Prod.mk.inj h
      exact .single hstep
    · simp only [Engine.drainPort, if_neg hlive]
      constructor <;> (intro h; cases h)
  | succ rounds ih =>
    rw [Engine.drainPort_succ]
    have hretrieves := fun more => Races.retrieves s deadline rounds more hs
    have hbreaks := Races.breaks s deadline rounds hs
    cases hr : s.engine.retrieve deadline rounds with
    | mk e₁ r =>
      rw [hr] at hretrieves hbreaks
      cases r with
      | error halt =>
        refine ⟨fun h => (by cases h), fun h => ?_⟩
        obtain ⟨rfl, hhalt⟩ := Prod.mk.inj h
        obtain rfl := Except.error.inj hhalt
        exact .single (hbreaks rfl)
      | ok more =>
        cases more with
        | false =>
          refine ⟨fun h => ?_, fun h => by cases h⟩
          obtain ⟨rfl, _⟩ := Prod.mk.inj h
          exact .single (hretrieves false rfl)
        | true =>
          obtain ⟨hends, hpanics⟩ := ih { s with engine := e₁, stage := .retrieving deadline } rfl
          exact ⟨fun h => .head (hretrieves true rfl) (hends h),
            fun h => .head (hretrieves true rfl) (hpanics h)⟩

/-- A shutdown begins with closing the injector and beginning its drain, or breaks off. -/
theorem racesOn_drainStart (s : Closedown P H) (hs : s.stage = .live) :
    (s.engine.closeToPosts.drainStart.2 < endOfTime → RacesOn s { s with
      engine := s.engine.closeToPosts.drainStart.1
      stage := .retrieving s.engine.closeToPosts.drainStart.2 }) ∧
    (¬ s.engine.closeToPosts.drainStart.2 < endOfTime → RacesOn s { s with
      engine := s.engine.closeToPosts.drainStart.1
      stage := .broken }) := by
  let marked : Closedown P H := { s with engine := s.engine.closeToPosts, stage := .marked }
  have hmarks : Races s marked := .marks s hs
  refine ⟨fun hfits => ?_, fun hlate => ?_⟩
  · exact .head hmarks (.single (.begins marked rfl hfits))
  · exact .head hmarks (.single (.breaksOff marked rfl (Nat.le_of_not_lt hlate)))

/-- A shutdown that no post races with takes the steps of a shutdown. -/
theorem racesOn_shutdown (s : Closedown P H) (hs : s.stage = .live) {rounds n : Nat}
    (hlive : s.engine.closed = false) (h : (s.engine.shutdown rounds).2 = .ok n) :
    ∃ s₁ s₂, s.ShutsAlone s₁ s₂ (s.engine.shutdown rounds).1 0 := by
  have hfits : s.engine.closeToPosts.drainStart.2 < endOfTime := by
    by_contra hlate
    have hbroken := (Engine.shutdown_breaksOff hlive (Nat.le_of_not_lt hlate) rounds).1
    rw [h] at hbroken
    cases hbroken
  obtain ⟨drained, served, hport, hout, hgiven, _⟩ :=
    Engine.shutdown_eq_ok hlive (Prod.ext rfl h)
  have hretrieves := ((racesOn_drainStart s hs).1 hfits).trans ((racesOn_drainPort _ rfl).1 hport)
  obtain ⟨s₁, hruns, hengine, hstage, hposters⟩ := hout.racesOn
    { s with engine := drained, stage := .draining } rfl rfl
  have hqueue : served.world.injector.queue = [] := hout.queue
  have hempty : s₁.engine.world.pop = none := by
    rw [hengine]
    exact (World.pop_eq_none_iff _).mpr hqueue
  refine ⟨s₁, _, hretrieves.trans hruns, hstage, .ends s₁ 0 hstage hempty,
    Eq.trans ?_ hgiven.symm, rfl, hposters⟩
  rw [hengine, Engine.abandon_eq_endClosing, hqueue, Engine.discardAll_of_empty hqueue]
  rfl

/-- A shutdown that panics while no post races with it takes the steps of one that breaks off. -/
theorem racesOn_shutdown_of_panicked (s : Closedown P H) (hs : s.stage = .live) {rounds : Nat}
    (hlive : s.engine.closed = false) (h : (s.engine.shutdown rounds).2 = .error .panicked) :
    RacesOn s { s with engine := (s.engine.shutdown rounds).1, stage := .broken } := by
  obtain ⟨hbegins, hbreaksOff⟩ := racesOn_drainStart s hs
  simp only [Engine.shutdown, hlive, Bool.false_eq_true, if_false, Engine.drain_eq] at h ⊢
  by_cases hfits : s.engine.closeToPosts.drainStart.2 < endOfTime
  · simp only [if_pos hfits] at h ⊢
    cases hd : s.engine.closeToPosts.drainStart.1.drainPort s.engine.closeToPosts.drainStart.2
        rounds with
    | mk drained ended =>
      rw [hd] at h
      cases ended with
      | ok u => cases h
      | error halt =>
        obtain rfl := Except.error.inj h
        exact (hbegins hfits).trans ((racesOn_drainPort _ rfl).2 hd)
  · simp only [if_neg hfits]
    exact hbreaksOff hfits

/-- An engine that is dropped while nobody posts takes the steps of a shutdown without draining. -/
theorem racesOn_drop (s : Closedown P H) (hs : s.stage = .live) (hlive : s.engine.closed = false) :
    ∃ s₁ s₂, s.ShutsAlone s₁ s₂ s.engine.drop s.engine.world.injector.queue.length := by
  have hdrop : s.engine.drop = s.engine.closeToPosts.abandon.1 := by simp [Engine.drop, hlive]
  obtain ⟨s₁, hruns, hengine, hstage, hposters⟩ := racesOn_discards
    { s with engine := s.engine.closeToPosts, stage := .discarding 0 } rfl
  rw [Nat.zero_add] at hstage
  have hempty : s₁.engine.world.pop = none := by
    rw [hengine]
    rfl
  refine ⟨s₁, _, .head (.drops s hs) hruns, hstage, .ends s₁ _ hstage hempty, ?_, rfl, hposters⟩
  rw [hengine, hdrop, Engine.abandon_eq_endClosing]

/-- Steps that a post takes one after the other. -/
theorem racesOn_steps (s : Closedown P H) {i : Nat} {p : Poster} (hp : s.posters[i]? = some p)
    (n : Nat) : ∃ waiting, RacesOn s { s with
      engine := s.engine.withWorld (p.steps s.engine.world n).1
      posters := s.posters.set i (p.steps s.engine.world n).2
      waiting } := by
  induction n generalizing s p with
  | zero =>
    obtain ⟨hi, rfl⟩ := List.getElem?_eq_some_iff.mp hp
    refine ⟨s.waiting, ?_⟩
    simp only [Poster.steps, List.set_getElem_self]
    exact .refl
  | succ n ih =>
    have hstep := Races.posts s i p hp
    obtain ⟨waiting, hrest⟩ := ih { s with
      engine := s.engine.withWorld (p.step s.engine.world).1
      posters := s.posters.set i (p.step s.engine.world).2
      waiting := s.waiting ++ p.entering.map fun _ => i }
      (List.getElem?_set_self (List.getElem?_eq_some_iff.mp hp).1)
    simp only [List.set_set] at hrest
    exact ⟨waiting, .head hstep hrest⟩

/-- A post in one go. -/
theorem racesOn_post (s : Closedown P H) {i : Nat} {cb : Callback}
    (hp : s.posters[i]? = some ⟨cb, .called⟩) : ∃ waiting, RacesOn s { s with
      engine := s.engine.withWorld (s.engine.world.post cb).1
      posters := s.posters.set i ⟨cb, .returned (s.engine.world.post cb).2⟩
      waiting } := by
  obtain ⟨waiting, hsteps⟩ := racesOn_steps s hp 3
  rw [Poster.steps_eq_post] at hsteps
  exact ⟨waiting, hsteps⟩

/-! ### After the end -/

/-- A post has looked at the injector, and its callback is not in the queue yet. -/
def Closedown.IsBetween (s : Closedown P H) (i : Nat) : Prop :=
  ∃ p, s.posters[i]? = some p ∧ p.stage = .admitted

/-- Nothing is run or discarded any more, and only the posts that were admitted before can still
put a callback into the queue. -/
structure Closedown.StaysOver (s s' : Closedown P H) : Prop where
  stage : s'.stage = s.stage
  ran : s'.ran = s.ran
  dropped : s'.dropped = s.dropped
  journal : s'.engine.world.journal = s.engine.world.journal
  closed : s'.engine.world.injector.closed = s.engine.world.injector.closed
  entered : ∀ i, ¬ s.IsBetween i → ¬ s'.IsBetween i ∧ s'.hasEntered i = s.hasEntered i

/-- When a shutdown is over only posts take steps. -/
theorem Races.staysOver (h : Races s s') (hover : s.stage.isOver = true)
    (hclosed : s.engine.world.injector.closed = true) : s.StaysOver s' := by
  cases h with
  | posts i p hp =>
    obtain ⟨host, hstep⟩ := p.step_eq s.engine.world
    refine ⟨rfl, rfl, rfl, by simp only [Engine.world_withWorld, hstep],
      by simp only [Engine.world_withWorld, hstep], fun j hbetween => ?_⟩
    by_cases hj : i = j
    · subst hj
      have hself : (s.posters.set i (p.step s.engine.world).2)[i]? =
          some (p.step s.engine.world).2 :=
        List.getElem?_set_self (List.getElem?_eq_some_iff.mp hp).1
      have hnot : p.stage ≠ .admitted := fun hstage => hbetween ⟨p, hp, hstage⟩
      obtain ⟨hstill, hentered⟩ := Poster.step_of_closed hclosed hnot
      constructor
      · rintro ⟨q, hq, hstage⟩
        obtain rfl := Option.some.inj (hself.symm.trans hq)
        exact hstill hstage
      · simp only [Closedown.hasEntered, hself, hp]
        exact hentered
    · have hother : (s.posters.set i (p.step s.engine.world).2)[j]? = s.posters[j]? :=
        List.getElem?_set_ne hj
      constructor
      · rintro ⟨q, hq, hstage⟩
        exact hbetween ⟨q, hother.symm.trans hq, hstage⟩
      · simp only [Closedown.hasEntered, hother]
  | _ => simp_all [Shutting.isOver]

/-- When a shutdown is over it stays so. -/
theorem RacesOn.staysOver (h : RacesOn s s') (hover : s.stage.isOver = true)
    (hclosed : s.engine.world.injector.closed = true) : s.StaysOver s' := by
  induction h with
  | refl => exact ⟨rfl, rfl, rfl, rfl, rfl, fun i hbetween => ⟨hbetween, rfl⟩⟩
  | tail _ hstep ih =>
    have h := hstep.staysOver (by rw [ih.stage]; exact hover) (ih.closed.trans hclosed)
    refine ⟨h.stage.trans ih.stage, h.ran.trans ih.ran, h.dropped.trans ih.dropped,
      h.journal.trans ih.journal, h.closed.trans ih.closed, fun i hbetween => ?_⟩
    obtain ⟨hbetween', hentered⟩ := ih.entered i hbetween
    obtain ⟨hbetween'', hentered'⟩ := h.entered i hbetween'
    exact ⟨hbetween'', hentered'.trans hentered⟩

/-- A shutdown ends when nothing is in the queue, and then gives the engine up. -/
theorem Races.of_ended {n : Nat} (h : Races s s') (hs : s.Accounts)
    (hbefore : s.stage.isOver = false) (hended : s'.stage = .ended n) :
    s'.waiting = [] ∧ s'.engine = s.engine.endClosing n := by
  cases h with
  | posts i p hp =>
    have hstill : s.stage = .ended n := hended
    rw [hstill] at hbefore
    cases hbefore
  | ends k h hempty =>
    obtain rfl : k = n := Shutting.ended.inj hended
    have hqueue := (World.pop_eq_none_iff _).mp hempty
    have hwaiting := hs.queue
    rw [hqueue] at hwaiting
    exact ⟨List.map_eq_nil_iff.mp hwaiting, rfl⟩
  | retrieves deadline rounds more => cases more <;> cases hended
  | runs e' d h => cases h.symm.trans hended
  | _ => cases hended

/-- What was run or discarded when a shutdown is over is what had been put into the queue, or
nothing if it has panicked. -/
theorem Races.count_of_over (h : Races s s') (hs : s.Accounts) (hbefore : s.stage.isOver = false)
    (hover : s'.stage.isOver = true) (i : Nat) :
    (s'.ran ++ s'.dropped).count i = if s'.stage = .broken then 0 else (s'.hasEntered i).toNat := by
  have hs' := h.accounts hs
  cases hstage : s'.stage with
  | ended n =>
    have hall := hs'.once i
    rw [(h.of_ended hs hbefore hstage).1, List.append_nil] at hall
    exact hall
  | broken =>
    have hcounted := hs'.counted
    rw [hstage] at hcounted
    rw [hs'.early (by rw [hstage]; rfl), List.eq_nil_of_length_eq_zero hcounted]
    rfl
  | _ => rw [hstage] at hover; cases hover

/-! ### Posts that are lost -/

omit [CompletionPort P H] in
/-- The event counter is added to alike whatever is in the queue. -/
theorem World.wake_enqueue (w : World H) (cb : Callback) : (w.enqueue cb).wake.2 = w.wake.2 := by
  unfold World.wake World.enqueue
  dsimp only
  cases Os.eventAdd w.host w.injector.wake with
  | mk host r => cases r <;> rfl

/-- A post succeeds while an engine is shut down, and whatever happens after that its callback is
neither run nor counted. -/
def Closedown.CanLose (s₀ : Closedown P H) (i : Nat) (stage : Shutting) : Prop :=
  ∃ s p, RacesOn s₀ s ∧ s.stage = stage ∧ s.posters[i]? = some p ∧ p.stage = .returned (.ok ()) ∧
    ∀ s', RacesOn s s' → (s'.ran ++ s'.dropped).count i = 0

section

variable {s₀ : Closedown P H} (hbegins : s₀.Begins) {i : Nat} {cb : Callback}
  (hp : s₀.posters[i]? = some ⟨cb, .called⟩) (rounds : Nat)
include hbegins hp

/-- A post can be lost to any shutdown that returns. -/
theorem canLose_of_shutdown {n : Nat} (hopen : s₀.engine.world.injector.closed = false)
    (h : (s₀.engine.shutdown rounds).2 = .ok n)
    (hwake : (s₀.engine.shutdown rounds).1.world.wake.2 = .ok ()) :
    s₀.CanLose i (.ended 0) := by
  have hi : i < s₀.posters.length := (List.getElem?_eq_some_iff.mp hp).1
  -- It looks at the injector, and goes on when the shutdown has ended.
  obtain ⟨waiting, hadmitted⟩ := racesOn_steps s₀ hp 1
  have hstep : Poster.steps ⟨cb, .called⟩ s₀.engine.world 1 =
      (s₀.engine.world, ⟨cb, .admitted⟩) := by
    simp [Poster.steps, Poster.step, hopen]
  rw [hstep] at hadmitted
  obtain ⟨s₁, s₂, hshuts⟩ := racesOn_shutdown { s₀ with
    engine := s₀.engine.withWorld s₀.engine.world
    posters := s₀.posters.set i ⟨cb, .admitted⟩
    waiting } hbegins.stage hbegins.live h
  have hp₂ : s₂.posters[i]? = some ⟨cb, .admitted⟩ := by
    rw [hshuts.posters]
    exact List.getElem?_set_self hi
  obtain ⟨waiting', hlate⟩ := racesOn_steps s₂ hp₂ 2
  have hbefore : RacesOn s₀ s₁ := hadmitted.trans hshuts.before
  have hs₁ := hbefore.accounts hbegins.accounts
  have hnone : (s₂.ran ++ s₂.dropped).count i = 0 := by
    rw [hshuts.ends.count_of_over hs₁ (by rw [hshuts.discarding]; rfl) (by rw [hshuts.ended]; rfl)]
    simp [Closedown.hasEntered, hp₂, Poster.hasEntered]
  refine ⟨_, _, (hbefore.tail hshuts.ends).trans hlate, hshuts.ended,
    List.getElem?_set_self (List.getElem?_eq_some_iff.mp hp₂).1, ?_, fun s' hafter => ?_⟩
  · have hengine : s₂.engine = (s₀.engine.shutdown rounds).1 := hshuts.engine
    rw [← hengine, ← World.wake_enqueue _ cb] at hwake
    exact congrArg PostStage.returned hwake
  · have hclosed := (hshuts.ends.accounts hs₁).closed (by simp [hshuts.ended])
    have hstays := RacesOn.staysOver (hlate.trans hafter) (by rw [hshuts.ended]; rfl) hclosed
    rw [hstays.ran, hstays.dropped]
    exact hnone

/-- A post is lost to a shutdown that panics. -/
theorem canLose_of_panicked (hok : (s₀.engine.world.post cb).2 = .ok ())
    (h : ((s₀.engine.withWorld (s₀.engine.world.post cb).1).shutdown rounds).2 =
      .error .panicked) : s₀.CanLose i .broken := by
  have hi : i < s₀.posters.length := (List.getElem?_eq_some_iff.mp hp).1
  obtain ⟨waiting, hposted⟩ := racesOn_post s₀ hp
  let posted : Closedown P H := { s₀ with
    engine := s₀.engine.withWorld (s₀.engine.world.post cb).1
    posters := s₀.posters.set i ⟨cb, .returned (s₀.engine.world.post cb).2⟩
    waiting }
  have hbroken : RacesOn s₀
      { posted with engine := (posted.engine.shutdown rounds).1, stage := .broken } :=
    hposted.trans (racesOn_shutdown_of_panicked posted hbegins.stage hbegins.live h)
  have hs := hbroken.accounts hbegins.accounts
  refine ⟨_, _, hbroken, rfl, List.getElem?_set_self hi, congrArg PostStage.returned hok,
    fun s' hafter => ?_⟩
  have hstays := hafter.staysOver rfl (hs.closed nofun)
  rw [hstays.ran, hstays.dropped]
  change (s₀.ran ++ s₀.dropped).count i = 0
  rw [hbegins.ran, hbegins.dropped]
  rfl

end

/-- An engine, and a post that is about to be made. -/
def Closedown.start (e : Engine P H) (cb : Callback) : Closedown P H :=
  { engine := e, posters := [⟨cb, .called⟩] }

section start

variable {e : Engine P H} (hlive : e.closed = false)
include hlive

omit [CompletionPort P H] [Os H] in
theorem Closedown.begins_start (hempty : e.world.injector.queue = []) (cb : Callback) :
    (Closedown.start e cb).Begins where
  live := hlive
  stage := rfl
  queue := hempty
  posters := List.forall_mem_singleton.mpr rfl
  waiting := rfl
  ran := rfl
  dropped := rfl

/-- A callback can be posted before a shutdown that returns. -/
theorem exists_shutsAlone {cb : Callback} {rounds n : Nat} (hok : (e.world.post cb).2 = .ok ())
    (h : ((e.withWorld (e.world.post cb).1).shutdown rounds).2 = .ok n) :
    ∃ s₁ s₂, RacesOn (Closedown.start e cb) s₁ ∧ Races s₁ s₂ ∧ s₁.stage = .discarding 0 ∧
      s₂.stage = .ended 0 ∧ s₂.posters = [⟨cb, .returned (.ok ())⟩] := by
  obtain ⟨waiting, hposted⟩ := racesOn_post (Closedown.start e cb) (i := 0) rfl
  obtain ⟨s₁, s₂, hshuts⟩ := racesOn_shutdown { Closedown.start e cb with
    engine := e.withWorld (e.world.post cb).1
    posters := [⟨cb, .returned (e.world.post cb).2⟩]
    waiting } rfl hlive h
  exact ⟨s₁, s₂, hposted.trans hshuts.before, hshuts.ends, hshuts.discarding, hshuts.ended,
    hok ▸ hshuts.posters⟩

end start

/-! ### What becomes of a post -/

/-- The callback of a post does not leave the queue any more, or does not reach it before the
shutdown is over. -/
def Closedown.Loses (s : Closedown P H) (i : Nat) : Prop := s.stage = .broken ∨ s.IsBetween i

/-- What has become of a post that has returned, when a step from `s₁` to `s₂` has ended the
shutdown that it raced with. -/
structure Closedown.Answers (s₁ s₂ s : Closedown P H) (i : Nat) (answer : Except Fault Unit) :
    Prop where
  /-- A post that is refused leaves nothing behind. -/
  refused : answer = Posting.refusal → (s.ran ++ s.dropped ++ s.waiting).count i = 0
  kept : answer = .ok () → ¬ s₂.Loses i → (s.ran ++ s.dropped).count i = 1
  lost : answer = .ok () → s₂.Loses i →
    (s.ran ++ s.dropped).count i = 0 ∧ s.waiting.count i = 1
  counted : s.dropped.length = s₂.stage.discarded
  reported : ∀ n, 0 < n → s₂.stage = .ended n →
    .dropped s₁.engine.portName n ∈ s.engine.world.journal
  outcomes : ∃ before, s.engine.world.calls.filterMap Call.ran? = before ++ s.outcomes

/-- A post that succeeds has its callback run, or discarded and counted, and that once, in whatever
order it and others take their steps among those of a shutdown. There are two exceptions: the
shutdown has panicked, and it came to its end while the post had looked at the injector and not yet
put the callback into the queue. Then the callback stays in the queue for good, and is neither run
nor counted. -/
theorem posts_are_accounted_for_unless_lost {s₀ s₁ s₂ : Closedown P H} (hbegins : s₀.Begins)
    (hbefore : RacesOn s₀ s₁) (hends : Races s₁ s₂) (hlive : s₁.stage.isOver = false)
    (hover : s₂.stage.isOver = true) (hafter : RacesOn s₂ s) {i : Nat} {p : Poster}
    (hp : s.posters[i]? = some p) {answer : Except Fault Unit}
    (hreturned : p.stage = .returned answer) : s₁.Answers s₂ s i answer := by
  have hs₁ := hbefore.accounts hbegins.accounts
  have hs₂ := hends.accounts hs₁
  have hs := hafter.accounts hs₂
  have hnotLive : s₂.stage ≠ .live := fun h => by rw [h] at hover; cases hover
  have hstays := hafter.staysOver hover (hs₂.closed hnotLive)
  have honce := hs.once i
  have hentered : s.hasEntered i = (Posting.queued? ⟨p.callback, answer⟩).isSome := by
    simp [Closedown.hasEntered, hp, Poster.hasEntered, hreturned]
  have hthen := hends.count_of_over hs₁ hlive hover i
  rw [← hstays.ran, ← hstays.dropped] at hthen
  constructor
  case refused =>
    intro hrefused
    rw [honce, hentered, hrefused]
    rfl
  case kept =>
    intro hok hkept
    obtain ⟨hbroken, hbetween⟩ := not_or.mp hkept
    rw [hthen, if_neg hbroken, ← (hstays.entered i hbetween).2, hentered, hok]
    rfl
  case lost =>
    intro hok hloses
    have hnone : (s.ran ++ s.dropped).count i = 0 := by
      rw [hthen]
      split
      · rfl
      · next hbroken =>
        obtain ⟨q, hq, hstage⟩ := hloses.resolve_left hbroken
        simp [Closedown.hasEntered, hq, Poster.hasEntered, hstage]
    rw [hentered, hok, List.count_append, hnone, Nat.zero_add] at honce
    exact ⟨hnone, honce⟩
  case counted => rw [hs.counted, hstays.stage]
  case reported =>
    intro n hpos hended
    rw [hstays.journal, (hends.of_ended hs₁ hlive hended).2]
    exact Engine.dropped_mem_endClosing _ hpos
  case outcomes => exact hs.told

/-- A callback is posted, and then run in the drain. -/
theorem posts_are_accounted_for_unless_lost_of_drained : ∃ e : Engine Scripted Host,
    Engine.build {} {} Host.start = .ready e ∧
    ∃ s₁ s₂ p, (Closedown.start e ⟨"posted", []⟩).Begins ∧
      RacesOn (.start e ⟨"posted", []⟩) s₁ ∧ Races s₁ s₂ ∧ s₁.stage.isOver = false ∧
      s₂.stage.isOver = true ∧ RacesOn s₂ s₂ ∧ s₂.posters[0]? = some p ∧
      p.stage = .returned (.ok ()) ∧ s₁.Answers s₂ s₂ 0 (.ok ()) ∧ ¬ s₂.Loses 0 := by
  let cb : Callback := ⟨"posted", []⟩
  obtain ⟨e, hbuilt, hlive, hempty, hok, h⟩ : ∃ e : Engine Scripted Host,
      Engine.build {} {} Host.start = .ready e ∧ e.closed = false ∧
      e.world.injector.queue = [] ∧ (e.world.post cb).2 = .ok () ∧
      ((e.withWorld (e.world.post cb).1).shutdown 9).2 = .ok 0 :=
    ⟨_, rfl, rfl, rfl, by decide +kernel, by decide +kernel⟩
  obtain ⟨s₁, s₂, hbefore, hends, hdiscarding, hended, hposters⟩ := exists_shutsAlone hlive hok h
  have hbegins := Closedown.begins_start hlive hempty cb
  have hgoing : s₁.stage.isOver = false := by rw [hdiscarding]; rfl
  have hover : s₂.stage.isOver = true := by rw [hended]; rfl
  have hp : s₂.posters[0]? = some ⟨cb, .returned (.ok ())⟩ := by rw [hposters]; rfl
  refine ⟨e, hbuilt, s₁, s₂, _, hbegins, hbefore, hends, hgoing, hover, .refl, hp, rfl,
    posts_are_accounted_for_unless_lost hbegins hbefore hends hgoing hover .refl hp rfl, ?_⟩
  rintro (hbroken | ⟨q, hq, hbetween⟩)
  · rw [hended] at hbroken
    cases hbroken
  · obtain rfl := Option.some.inj (hp.symm.trans hq)
    cases hbetween

/-- A post is lost that goes on when the shutdown is over, and so is each post that is made before a
shutdown with the longest time for its drain that there is. -/
theorem posts_get_lost : ∃ e e' : Engine Scripted Host,
    Engine.build {} {} Host.start = .ready e ∧
    Engine.build { drainTimeout := ⟨2 ^ 64 * 1000000000 - 1⟩ } {} Host.start = .ready e' ∧
    (Closedown.start e ⟨"posted", []⟩).CanLose 0 (.ended 0) ∧
    (Closedown.start e' ⟨"posted", []⟩).CanLose 0 .broken := by
  let cb : Callback := ⟨"posted", []⟩
  obtain ⟨e, hbuilt, hlive, hempty, hopen, h, hwake⟩ : ∃ e : Engine Scripted Host,
      Engine.build {} {} Host.start = .ready e ∧ e.closed = false ∧
      e.world.injector.queue = [] ∧ e.world.injector.closed = false ∧
      (e.shutdown 9).2 = .ok 0 ∧ (e.shutdown 9).1.world.wake.2 = .ok () :=
    ⟨_, rfl, rfl, rfl, rfl, by decide +kernel, by decide +kernel⟩
  obtain ⟨e', hbuilt', hlive', hempty', hok, hpanicked⟩ : ∃ e : Engine Scripted Host,
      Engine.build { drainTimeout := ⟨2 ^ 64 * 1000000000 - 1⟩ } {} Host.start = .ready e ∧
      e.closed = false ∧ e.world.injector.queue = [] ∧ (e.world.post cb).2 = .ok () ∧
      ((e.withWorld (e.world.post cb).1).shutdown 9).2 = .error .panicked :=
    ⟨_, rfl, rfl, rfl, by decide +kernel, by decide +kernel⟩
  have hbegins := Closedown.begins_start hlive hempty cb
  have hbegins' := Closedown.begins_start hlive' hempty' cb
  exact ⟨e, e', hbuilt, hbuilt', canLose_of_shutdown hbegins rfl 9 hopen h hwake,
    canLose_of_panicked hbegins' rfl 9 hok hpanicked⟩

end Proactor
