import Proactor.Proofs.History

/-!
# The moments of a call

What happens inside each call on an engine, moment by moment, down to the actions of the
callbacks that it runs. The moments of a call are a path from where it starts to where it ends.
-/

namespace Proactor

variable {P H : Type} [CompletionPort P H] [Os H]

/-! ### Inside a callback -/

namespace World

mutual

/-- The worlds and the running borrows that one action of a callback goes through. -/
def actMoments (w : World H) (b : List StorageId) : Action → List (World H × List StorageId)
  | .borrow handle content actions =>
    match w.borrow? handle content with
    | some (id, w) =>
      (w, id :: b) :: (actsMoments w (id :: b) actions ++ [((acts w actions).release id, b)])
    | none => []
  | a => [(act w a, b)]

/-- The worlds and the running borrows that actions of a callback go through. -/
def actsMoments (w : World H) (b : List StorageId) :
    List Action → List (World H × List StorageId)
  | [] => []
  | a :: as => actMoments w b a ++ actsMoments (act w a) b as

end

end World

namespace Engine

/-- The worlds and borrows that a callback goes through, as moments of an engine. -/
def quietMoments (e : Engine P H) (r : Option Context)
    (l : List (World H × List StorageId)) : List (Moment P H) :=
  l.map fun x => (.quiet, ⟨e.withWorld x.1, x.2, r⟩)

omit [CompletionPort P H] [Os H] in
@[simp] theorem world_withWorld (e : Engine P H) (w : World H) : (e.withWorld w).world = w := rfl

omit [CompletionPort P H] [Os H] in
theorem withWorld_withWorld (e : Engine P H) (w w' : World H) :
    (e.withWorld w).withWorld w' = e.withWorld w' := rfl

omit [CompletionPort P H] [Os H] in
@[simp] theorem quietMoments_append (e : Engine P H) (r : Option Context)
    (l l' : List (World H × List StorageId)) :
    e.quietMoments r (l ++ l') = e.quietMoments r l ++ e.quietMoments r l' := List.map_append

mutual

/-- An action of a callback is a path. -/
theorem path_act (e : Engine P H) (b : List StorageId) (r : Option Context) (a : Action) :
    Path ⟨e, b, r⟩ (e.quietMoments r (e.world.actMoments b a))
      ⟨e.withWorld (e.world.act a), b, r⟩ := by
  cases a with
  | post tag actions => exact .single (.act e b r _ (by simp))
  | peek handle => exact .single (.act e b r _ (by simp))
  | pending => exact .single (.act e b r _ (by simp))
  | fill handle content => exact .single (.act e b r _ (by simp))
  | borrow handle content actions =>
    cases h : e.world.borrow? handle content with
    | none =>
      simp only [World.actMoments, World.act, h]
      exact .refl
    | some x =>
      obtain ⟨id, w⟩ := x
      have hin := path_acts (e.withWorld w) (id :: b) r actions
      have hback := Happens.giveBack (e.withWorld (w.acts actions)) (id :: b) r id
        List.mem_cons_self
      rw [List.erase_cons_head] at hback
      have hpath := Path.cons (.borrow e b r handle content id w h) (hin.trans (.single hback))
      simpa [World.actMoments, World.act, h, quietMoments, withWorld_withWorld] using hpath

/-- Actions of a callback are a path. -/
theorem path_acts (e : Engine P H) (b : List StorageId) (r : Option Context)
    (as : List Action) :
    Path ⟨e, b, r⟩ (e.quietMoments r (e.world.actsMoments b as))
      ⟨e.withWorld (e.world.acts as), b, r⟩ := by
  cases as with
  | nil => exact .refl
  | cons a as =>
    rw [World.actsMoments, World.acts, quietMoments_append]
    exact .trans (path_act e b r a) (path_acts (e.withWorld (e.world.act a)) b r as)

end

/-! ### Callbacks and completions -/

/-- The moments of a posted callback. -/
def postedMoments (e : Engine P H) (b : List StorageId) : List (Moment P H) :=
  match e.world.pop with
  | none => []
  | some (cb, world) =>
    let e' := e.withWorld (world.record (.ran cb.tag .done))
    (.popped cb, ⟨e', b, none⟩) ::
      (e'.quietMoments none (e'.world.actsMoments b cb.actions) ++
        [(.quiet, ⟨(e'.withWorld (e'.world.acts cb.actions)).countInjected, b, none⟩)])

/-- Running a posted callback is a path. -/
theorem path_posted {e e' : Engine P H} {d : Dispatch} (b : List StorageId)
    (h : e.runPosted = some (e', d)) : Path ⟨e, b, none⟩ (e.postedMoments b) ⟨e', b, none⟩ := by
  unfold runPosted at h
  split at h
  · cases h
  · next cb world hpop =>
    obtain ⟨rfl, _⟩ := Prod.mk.inj (Option.some.inj h)
    simp only [postedMoments, hpop]
    refine .cons (.popped e b cb world hpop) ?_
    refine .trans (path_acts (e.withWorld (world.record (.ran cb.tag .done))) b none cb.actions) ?_
    exact .single (.injected _ b)

/-- The moments of a completion that a wait returned to the engine. -/
def completeMoments (e : Engine P H) (b : List StorageId) (c : Completion) (moved : Transfer) :
    List (Moment P H) :=
  let quiet := [(.completed e c moved none, ⟨(e.complete c moved).1, b, none⟩)]
  match e.slab.take c.token with
  | none => quiet
  | some (context, slab) =>
    if e.wakeToken = some c.token then quiet
    else
      let o := Outcome.ofResult (e.world.settle context.pinned c.result moved).2
      let e' := (e.settled slab (e.world.settle context.pinned c.result moved).1).calling
        c.token context o
      (.completed e c moved (some (context.callback, o)), ⟨e', b, some context⟩) ::
        (e'.quietMoments (some context) (e'.world.actsMoments b context.callback.actions) ++
          [(.quiet, ⟨(e.complete c moved).1, b, none⟩)])

/-- Finishing a completion is a path from before the wait. -/
theorem path_complete {e₀ e : Engine P H} {deadline : Option Nat} {rounds : Nat} {c : Completion}
    {moved : Transfer} (b : List StorageId)
    (h : e₀.waitPort deadline rounds = (e, .completion c moved)) :
    Path ⟨e₀, b, none⟩ (e.completeMoments b c moved) ⟨(e.complete c moved).1, b, none⟩ := by
  cases ht : e.slab.take c.token with
  | none =>
    have hstep := Happens.unknown e₀ e b deadline rounds c moved h ht
    simp only [completeMoments, complete, ht]
    exact .single hstep
  | some x =>
    obtain ⟨context, slab⟩ := x
    by_cases hwake : e.wakeToken = some c.token
    · have hstep := Happens.woken e₀ e b deadline rounds c moved context slab h ht hwake
      simp only [completeMoments, complete, ht, if_pos hwake]
      exact .single hstep
    · have hstep := Happens.called e₀ e b deadline rounds c moved context slab _ h ht hwake rfl
      simp only [completeMoments, complete, ht, if_neg hwake]
      refine .cons hstep ?_
      refine .trans (path_acts _ b (some context) context.callback.actions) ?_
      exact .single (.returned _ b context)

/-! ### Pumps -/

/-- The moments of waiting for completions until one is dispatched. -/
def awaitMoments (e : Engine P H) (b : List StorageId) (deadline : Option Nat) :
    Nat → List (Moment P H)
  | 0 => []
  | rounds + 1 =>
    match e.waitPort deadline rounds with
    | (e, .completion c moved) =>
      e.completeMoments b c moved ++
        match e.complete c moved with
        | (e, .ok none) =>
          if e.runPosted.isSome then e.postedMoments b else e.awaitMoments b deadline rounds
        | _ => []
    | (e, .timeout) => [(.quiet, ⟨e, b, none⟩), (.quiet, ⟨e.countTimeout, b, none⟩)]
    | (e, _) => [(.quiet, ⟨e, b, none⟩)]

/-- Waiting for completions is a path. -/
theorem path_await (e : Engine P H) (b : List StorageId) (deadline : Option Nat)
    (rounds : Nat) :
    Path ⟨e, b, none⟩ (e.awaitMoments b deadline rounds)
      ⟨(e.await deadline rounds).1, b, none⟩ := by
  induction rounds generalizing e with
  | zero => exact .refl
  | succ rounds ih =>
    cases h : e.waitPort deadline rounds with
    | mk e' w =>
      cases w with
      | blocked =>
        simp only [awaitMoments, await, h]
        exact .single (.waited e e' b deadline rounds _ (by simp) h)
      | unfinished =>
        simp only [awaitMoments, await, h]
        exact .single (.waited e e' b deadline rounds _ (by simp) h)
      | panicked =>
        simp only [awaitMoments, await, h]
        exact .single (.waited e e' b deadline rounds _ (by simp) h)
      | fault f =>
        simp only [awaitMoments, await, h]
        exact .single (.waited e e' b deadline rounds _ (by simp) h)
      | timeout =>
        simp only [awaitMoments, await, h]
        refine .cons (.waited e e' b deadline rounds _ (by simp) h) ?_
        exact .single (.aside e' b none e'.world.host e'.world.journal (e'.stats.timeouts + 1))
      | completion c moved =>
        have hc := path_complete b h
        cases hr : e'.complete c moved with
        | mk e₂ r =>
          rw [hr] at hc
          match r with
          | .error f => simpa [awaitMoments, await, h, hr] using hc
          | .ok (some d) => simpa [awaitMoments, await, h, hr] using hc
          | .ok none =>
            cases hp : e₂.runPosted with
            | some x => simpa [awaitMoments, await, h, hr, hp] using hc.trans (path_posted b hp)
            | none => simpa [awaitMoments, await, h, hr, hp] using hc.trans (ih e₂)

theorem pump_of_tells {e : Engine P H} {timeout : Option Duration} {rounds : Nat}
    (h : Os.Tells e.world.host timeout) :
    e.pump timeout rounds =
      match (e.withHost (Os.deadline e.world.host timeout).1).runPosted with
      | some (e, d) => (e, .dispatched d)
      | none => (e.withHost (Os.deadline e.world.host timeout).1).await
          (timeout.map fun d => (Os.now e.world.host).2 + d.nanoseconds) rounds := by
  have hd := Os.deadline_of_tells h
  unfold pump
  generalize Os.deadline e.world.host timeout = start at hd ⊢
  obtain ⟨host, limit⟩ := start
  obtain rfl := hd
  rfl

/-- A pump panics, and does nothing but read the clock, if that cannot tell its time limit. -/
theorem pump_of_not_tells {e : Engine P H} {timeout : Option Duration} {rounds : Nat}
    (h : ¬ Os.Tells e.world.host timeout) :
    e.pump timeout rounds = (e.withHost (Os.deadline e.world.host timeout).1, .panicked) := by
  have hd := Os.deadline_of_not_tells h
  unfold pump
  generalize Os.deadline e.world.host timeout = start at hd ⊢
  obtain ⟨host, limit⟩ := start
  obtain rfl := hd
  rfl

/-- The moments of a pump. -/
def pumpMoments (e : Engine P H) (b : List StorageId) (timeout : Option Duration)
    (rounds : Nat) : List (Moment P H) :=
  match Os.deadline e.world.host timeout with
  | (host, .error _) => [(.quiet, ⟨e.withHost host, b, none⟩)]
  | (host, .ok deadline) =>
    let e' := e.withHost host
    (.quiet, ⟨e', b, none⟩) ::
      if e'.runPosted.isSome then e'.postedMoments b else e'.awaitMoments b deadline rounds

/-- A pump is a path. -/
theorem path_pump (e : Engine P H) (b : List StorageId) (timeout : Option Duration)
    (rounds : Nat) :
    Path ⟨e, b, none⟩ (e.pumpMoments b timeout rounds) ⟨(e.pump timeout rounds).1, b, none⟩ := by
  cases hd : Os.deadline e.world.host timeout with
  | mk host limit =>
    have hstart : Happens ⟨e, b, none⟩ .quiet ⟨e.withHost host, b, none⟩ :=
      .aside e b none host e.world.journal e.stats.timeouts
    cases limit with
    | error _ => simpa [pumpMoments, pump, hd] using Path.single hstart
    | ok deadline =>
      cases hp : (e.withHost host).runPosted with
      | some x =>
        have hpath := Path.cons hstart (path_posted b hp)
        simpa [pumpMoments, pump, hd, hp] using hpath
      | none =>
        have hpath := Path.cons hstart (path_await (e.withHost host) b deadline rounds)
        simpa [pumpMoments, pump, hd, hp] using hpath

/-! ### Closing -/

/-- The moments of running posted callbacks, `n` at most. -/
def allPostedMoments (e : Engine P H) (b : List StorageId) : Nat → List (Moment P H)
  | 0 => []
  | n + 1 =>
    match e.runPosted with
    | some (e', _) => e.postedMoments b ++ e'.allPostedMoments b n
    | none => []

/-- Running posted callbacks is a path. -/
theorem path_runAllPosted (e : Engine P H) (b : List StorageId) (n : Nat) :
    Path ⟨e, b, none⟩ (e.allPostedMoments b n) ⟨e.runAllPosted n, b, none⟩ := by
  induction n generalizing e with
  | zero => exact .refl
  | succ n ih =>
    cases hp : e.runPosted with
    | none =>
      simp only [allPostedMoments, runAllPosted, hp]
      exact .refl
    | some x =>
      simp only [allPostedMoments, runAllPosted, hp]
      exact (path_posted b hp).trans (ih x.1)

/-- The moments of retrieving completions while an engine is drained. -/
def drainPortMoments (e : Engine P H) (b : List StorageId) (deadline : Nat) :
    Nat → List (Moment P H)
  | 0 => []
  | rounds + 1 =>
    if e.slab.live = 0 then []
    else
      let (host, now) := Os.now e.world.host
      if deadline ≤ now then [(.quiet, ⟨e.withHost host, b, none⟩)]
      else match e.waitPort (some deadline) rounds with
        | (e, .completion c moved) =>
          e.completeMoments b c moved ++
            match e.complete c moved with
            | (e, .ok _) => e.drainPortMoments b deadline rounds
            | (e, .error f) =>
              let e := e.note (.drainFault f)
              (.quiet, ⟨e, b, none⟩) :: e.drainPortMoments b deadline rounds
        | (e, .fault f) =>
          [(.quiet, ⟨e, b, none⟩), (.quiet, ⟨e.note (.drainAborted f), b, none⟩)]
        | (e, _) => [(.quiet, ⟨e, b, none⟩)]

/-- Reading the clock before a wait is part of the wait. -/
theorem waitPort_some (e : Engine P H) (deadline rounds : Nat) :
    e.waitPort (some deadline) rounds =
      let r := CompletionPort.wait rounds e.port (Os.now e.world.host).1 e.world.memory
        (some ⟨deadline - (Os.now e.world.host).2⟩)
      ((e.withHost (Os.now e.world.host).1).absorb r, r.answer) := rfl

/-- Retrieving completions while an engine is drained is a path. -/
theorem path_drainPort (e : Engine P H) (b : List StorageId) (deadline rounds : Nat) :
    Path ⟨e, b, none⟩ (e.drainPortMoments b deadline rounds)
      ⟨(e.drainPort deadline rounds).1, b, none⟩ := by
  induction rounds generalizing e with
  | zero => exact .refl
  | succ rounds ih =>
    by_cases hlive : e.slab.live = 0
    · simp only [drainPortMoments, drainPort, if_pos hlive]
      exact .refl
    by_cases hover : deadline ≤ (Os.now e.world.host).2
    · simp only [drainPortMoments, drainPort, if_neg hlive, if_pos hover]
      exact .single (.aside e b none (Os.now e.world.host).1 e.world.journal e.stats.timeouts)
    cases h : e.waitPort (some deadline) rounds with
    | mk e' w =>
      obtain ⟨he, hw⟩ := Prod.mk.inj ((waitPort_some e deadline rounds).symm.trans h)
      simp only [drainPortMoments, drainPort, if_neg hlive, if_neg hover, h, withHost] at he hw ⊢
      simp only [he, hw]
      cases w with
      | blocked => exact .single (.waited e e' b (some deadline) rounds _ (by simp) h)
      | unfinished => exact .single (.waited e e' b (some deadline) rounds _ (by simp) h)
      | panicked => exact .single (.waited e e' b (some deadline) rounds _ (by simp) h)
      | timeout => exact .single (.waited e e' b (some deadline) rounds _ (by simp) h)
      | fault f =>
        refine .cons (.waited e e' b (some deadline) rounds _ (by simp) h) ?_
        exact .single (.aside e' b none e'.world.host _ e'.stats.timeouts)
      | completion c moved =>
        have hc := path_complete b h
        cases hr : e'.complete c moved with
        | mk e₂ r =>
          rw [hr] at hc
          cases r with
          | ok d => simpa [hr] using hc.trans (ih e₂)
          | error f =>
            have hnote : Happens ⟨e₂, b, none⟩ .quiet ⟨e₂.note (.drainFault f), b, none⟩ :=
              .aside e₂ b none e₂.world.host _ e₂.stats.timeouts
            simpa [hr] using hc.trans (.cons hnote (ih (e₂.note (.drainFault f))))

/-- The engine and the deadline with which a drain begins to retrieve completions. -/
def drainStart (e : Engine P H) : Engine P H × Nat :=
  (e.releaseWake.withHost (Os.now e.releaseWake.world.host).1,
    (Os.now e.releaseWake.world.host).2 + e.releaseWake.config.drainTimeout.nanoseconds)

/-- A drain panics at once if no clock can tell its deadline. -/
theorem drain_eq (e : Engine P H) (rounds : Nat) :
    e.drain rounds =
      if e.drainStart.2 < endOfTime then
        match e.drainStart.1.drainPort e.drainStart.2 rounds with
        | (e, .error halt) => (e, .error halt)
        | (e, .ok ()) => (e.runAllPosted e.world.injector.queue.length, .ok ())
      else (e.drainStart.1, .error .panicked) := by
  by_cases h : e.drainStart.2 < endOfTime
  · simp only [if_pos h, drain, Os.later]
    rw [if_pos (by exact h)]
    rfl
  · simp only [if_neg h, drain, Os.later]
    rw [if_neg (by exact h)]
    rfl

/-- The moments of draining an engine. -/
def drainMoments (e : Engine P H) (b : List StorageId) (rounds : Nat) : List (Moment P H) :=
  (.quiet, ⟨e.releaseWake, b, none⟩) :: (.quiet, ⟨e.drainStart.1, b, none⟩) ::
    if e.drainStart.2 < endOfTime then
      e.drainStart.1.drainPortMoments b e.drainStart.2 rounds ++
        match e.drainStart.1.drainPort e.drainStart.2 rounds with
        | (_, .error _) => []
        | (e, .ok ()) => e.allPostedMoments b e.world.injector.queue.length
    else []

/-- Adding to the event counter changes the host, or is noted. -/
theorem happens_releaseWake (e : Engine P H) (b : List StorageId) :
    Happens ⟨e, b, none⟩ .quiet ⟨e.releaseWake, b, none⟩ := by
  unfold releaseWake World.wake
  split
  · cases h : Os.eventAdd e.world.host e.world.injector.wake with
    | mk host r =>
      cases r with
      | ok u => exact .aside e b none host e.world.journal e.stats.timeouts
      | error f =>
        by_cases hf : f = Errno.again
        · simp only [if_pos hf]
          exact .aside e b none host e.world.journal e.stats.timeouts
        · simp only [if_neg hf]
          exact .aside e b none host _ e.stats.timeouts
  · exact .aside e b none e.world.host e.world.journal e.stats.timeouts

/-- Draining an engine is a path. -/
theorem path_drain (e : Engine P H) (b : List StorageId) (rounds : Nat) :
    Path ⟨e, b, none⟩ (e.drainMoments b rounds) ⟨(e.drain rounds).1, b, none⟩ := by
  have hclock : Happens ⟨e.releaseWake, b, none⟩ .quiet ⟨e.drainStart.1, b, none⟩ :=
    .aside e.releaseWake b none _ e.releaseWake.world.journal e.releaseWake.stats.timeouts
  have hstart := fun τ s (hτ : Path ⟨e.drainStart.1, b, none⟩ τ s) =>
    Path.cons (happens_releaseWake e b) (.cons hclock hτ)
  rw [drain_eq]
  by_cases hfits : e.drainStart.2 < endOfTime
  · have hport := path_drainPort e.drainStart.1 b e.drainStart.2 rounds
    cases hd : e.drainStart.1.drainPort e.drainStart.2 rounds with
    | mk e₂ ended =>
      rw [hd] at hport
      cases ended with
      | error halt => simpa [drainMoments, hfits, hd] using hstart _ _ hport
      | ok u =>
        have hposted := path_runAllPosted e₂ b e₂.world.injector.queue.length
        simpa [drainMoments, hfits, hd] using hstart _ _ (hport.trans hposted)
  · simpa [drainMoments, hfits] using hstart _ _ .refl

/-- The moments of a shutdown. -/
def shutdownMoments (e : Engine P H) (b : List StorageId) (rounds : Nat) : List (Moment P H) :=
  if e.closed then []
  else
    let e' := e.closeToPosts
    (.quiet, ⟨e', b, none⟩) ::
      (e'.drainMoments b rounds ++
        match e'.drain rounds with
        | (_, .error _) => []
        | (e, .ok ()) => [(.abandoned, ⟨e.abandon.1, b, none⟩)])

/-- A shutdown is a path. -/
theorem path_shutdown (e : Engine P H) (b : List StorageId) (rounds : Nat) :
    Path ⟨e, b, none⟩ (e.shutdownMoments b rounds) ⟨(e.shutdown rounds).1, b, none⟩ := by
  by_cases hclosed : e.closed = true
  · simp only [shutdownMoments, shutdown, if_pos hclosed]
    exact .refl
  have hdrain := path_drain e.closeToPosts b rounds
  cases hd : e.closeToPosts.drain rounds with
  | mk e' ended =>
    rw [hd] at hdrain
    cases ended with
    | error halt =>
      simpa [shutdownMoments, shutdown, hclosed, hd] using
        Path.cons (.closeToPosts e b) hdrain
    | ok u =>
      simpa [shutdownMoments, shutdown, hclosed, hd] using
        Path.cons (.closeToPosts e b) (hdrain.trans (.single (.abandon e' b)))

/-- The moments of a drop. -/
def dropMoments (e : Engine P H) (b : List StorageId) : List (Moment P H) :=
  if e.closed then []
  else [(.quiet, ⟨e.closeToPosts, b, none⟩), (.abandoned, ⟨e.closeToPosts.abandon.1, b, none⟩)]

/-- A drop is a path. -/
theorem path_drop (e : Engine P H) (b : List StorageId) :
    Path ⟨e, b, none⟩ (e.dropMoments b) ⟨e.drop, b, none⟩ := by
  by_cases hclosed : e.closed = true
  · simp only [dropMoments, drop, if_pos hclosed]
    exact .refl
  · simp only [dropMoments, drop, if_neg hclosed]
    exact .cons (.closeToPosts e b) (.single (.abandon e.closeToPosts b))

end Engine

end Proactor
