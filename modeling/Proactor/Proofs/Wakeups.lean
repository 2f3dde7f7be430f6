import Mathlib.Logic.Relation
import Proactor.Proofs.Backlog
import Proactor.Proofs.Posters

/-!
# No wake-up is lost

An engine that one thread pumps while others post to it. The pumping thread takes posted callbacks
as long as there are any, waits in the port when there are none, and after a completion of the
engine's own read puts the next one in flight and looks at the queue again. Between any two of its
steps posts may take steps of theirs, and the host may end the engine's own read, which takes the
event counter back to zero.

A wait begins with nothing posted, and whatever is posted meanwhile is followed by an addition to
the event counter. So a callback in the queue is never without a sign that ends the wait: the
counter is positive, or the own read has ended already, or the addition is still to come.
-/

namespace Proactor

variable {P H : Type} [CompletionPort P H] [Os H]

/-! ### The steps of the pumping thread -/

/-- Where the thread that pumps an engine is. -/
inductive Pumping where
  /-- It is about to take a posted callback. -/
  | popping
  /-- It is in a wait of the port. -/
  | waiting
  /-- A wait returned a completion, which it has yet to finish. -/
  | finishing (c : Completion) (moved : Transfer)

namespace Engine

/-- One step of the pumping thread. A wait may return whatever it likes, and the thread begins the
next pump when one is over. -/
inductive Pumps : Engine P H × Pumping → Engine P H × Pumping → Prop
  | popped (e e' : Engine P H) (d : Dispatch) (h : e.runPosted = some (e', d)) :
    Pumps (e, .popping) (e', .popping)
  | empty (e : Engine P H) (h : e.runPosted = none) : Pumps (e, .popping) (e, .waiting)
  | returned (e : Engine P H) (r : Reply P H Waited) (c : Completion) (moved : Transfer)
    (h : r.answer = .completion c moved) : Pumps (e, .waiting) (e.absorb r, .finishing c moved)
  | timedOut (e : Engine P H) (r : Reply P H Waited) (h : r.answer = .timeout) :
    Pumps (e, .waiting) ((e.absorb r).countTimeout, .popping)
  | failed (e : Engine P H) (r : Reply P H Waited) (f : Fault) (h : r.answer = .fault f) :
    Pumps (e, .waiting) (e.absorb r, .popping)
  | finished (e : Engine P H) (c : Completion) (moved : Transfer) :
    Pumps (e, .finishing c moved) ((e.complete c moved).1, .popping)

/-- Waiting for completions takes steps of the pumping thread, up to the beginning of the next
pump. -/
theorem steps_await (e : Engine P H) (deadline : Option Nat) (rounds : Nat)
    (hblocked : (e.await deadline rounds).2 ≠ .blocked)
    (hpanicked : (e.await deadline rounds).2 ≠ .panicked)
    (hfinished : (e.await deadline rounds).2 ≠ .unfinished) :
    Relation.ReflTransGen Pumps (e, .waiting) ((e.await deadline rounds).1, .popping) := by
  induction rounds generalizing e with
  | zero => exact absurd rfl hfinished
  | succ rounds ih =>
    let x := Os.remaining e.world.host deadline
    let r := CompletionPort.wait rounds e.port x.1 e.world.memory x.2
    have hwait : e.waitPort deadline rounds = (e.absorb r, r.answer) := rfl
    cases hr : r.answer with
    | blocked => exact absurd (by simp only [await, hwait, hr]) hblocked
    | unfinished => exact absurd (by simp only [await, hwait, hr]) hfinished
    | panicked => exact absurd (by simp only [await, hwait, hr]) hpanicked
    | fault f =>
      simp only [await, hwait, hr]
      exact .single (.failed e r f hr)
    | timeout =>
      simp only [await, hwait, hr]
      exact .single (.timedOut e r hr)
    | completion c moved =>
      have hreturned := Pumps.returned e r c moved hr
      have hstep := Pumps.finished (e.absorb r) c moved
      cases hc : (e.absorb r).complete c moved with
      | mk e' answer =>
        rw [hc] at hstep
        have hhead := (Relation.ReflTransGen.single hreturned).tail hstep
        cases answer with
        | error f => simpa only [await, hwait, hr, hc] using hhead
        | ok dispatched =>
          cases dispatched with
          | some d => simpa only [await, hwait, hr, hc] using hhead
          | none =>
            cases hp : e'.runPosted with
            | some y =>
              simp only [await, hwait, hr, hc, hp]
              exact hhead.tail (.popped e' y.1 y.2 hp)
            | none =>
              have hagain : e.await deadline (rounds + 1) = e'.await deadline rounds := by
                simp only [await, hwait, hr, hc, hp]
              rw [hagain] at hblocked hpanicked hfinished ⊢
              exact (hhead.tail (.empty e' hp)).trans (ih e' hblocked hpanicked hfinished)

/-- A pump that ends takes steps of the pumping thread, from where it has looked at the clock to
the beginning of the next pump. -/
theorem steps_pump (e : Engine P H) (timeout : Option Duration) (rounds : Nat)
    (hblocked : (e.pump timeout rounds).2 ≠ .blocked)
    (hpanicked : (e.pump timeout rounds).2 ≠ .panicked)
    (hfinished : (e.pump timeout rounds).2 ≠ .unfinished) :
    Relation.ReflTransGen Pumps (e.withHost (Os.deadline e.world.host timeout).1, .popping)
      ((e.pump timeout rounds).1, .popping) := by
  cases hd : Os.deadline e.world.host timeout with
  | mk host limit =>
    cases limit with
    | error _ => exact absurd (by simp only [pump, hd]) hpanicked
    | ok deadline =>
      cases hp : (e.withHost host).runPosted with
      | some x =>
        simp only [pump, hd, hp]
        exact .single (.popped (e.withHost host) x.1 x.2 hp)
      | none =>
        have hawait : e.pump timeout rounds = (e.withHost host).await deadline rounds := by
          simp only [pump, hd, hp]
        rw [hawait] at hblocked hpanicked hfinished ⊢
        exact .head (.empty (e.withHost host) hp)
          (steps_await _ deadline rounds hblocked hpanicked hfinished)

end Engine

/-! ### A pump among posts -/

/-- What has become of the engine's own read. -/
inductive OwnRead where
  | inFlight
  /-- It has ended, and its completion waits in the port. -/
  | landed
  /-- Its completion was retrieved, and the next one is not in flight yet. -/
  | retrieved

/-- An engine, the thread that pumps it, and the posts that other threads make. -/
structure Shared (P H : Type) where
  engine : Engine P H
  pumping : Pumping := .popping
  ownRead : OwnRead := .inFlight
  posters : List Poster

variable (count : H → Fd → Nat)

/-- What the event counter of the injector stands at. -/
def World.counter (w : World H) : Nat := count w.host w.injector.wake

/-- The event counter takes an addition. If it can take no more it stays as it is. -/
def World.Counts (w : World H) : Prop :=
  w.wake.2 = .ok () ∧
    (w.wake.1.counter count = w.counter count + 1 ∨
      w.wake.1.counter count = w.counter count ∧ 0 < w.counter count)

instance (w : World H) : Decidable (w.Counts count) := inferInstanceAs (Decidable (_ ∧ _))

/-- One step of somebody, while the engine's own reads succeed and are put in flight again. -/
inductive Moves : Shared P H → Shared P H → Prop
  /-- A post takes its next step. -/
  | posts (s : Shared P H) (i : Nat) (p : Poster) (hp : s.posters[i]? = some p)
    (hcounts : p.stage = .queued → s.engine.world.Counts count) :
    Moves s { s with
      engine := s.engine.withWorld (p.step s.engine.world).1
      posters := s.posters.set i (p.step s.engine.world).2 }
  /-- The host ends the engine's own read, which takes the event counter back to zero. -/
  | ends (s : Shared P H) (port : P) (host : H) (hread : s.ownRead = .inFlight)
    (hpositive : 0 < s.engine.world.counter count)
    (hzero : count host s.engine.world.injector.wake = 0) :
    Moves s { s with
      engine := s.engine.beside port host s.engine.world.journal s.engine.associated
      ownRead := .landed }
  /-- Something else happens in the port or on the host. -/
  | passes (s : Shared P H) (port : P) (host : H)
    (hsame : count host s.engine.world.injector.wake = s.engine.world.counter count) :
    Moves s { s with
      engine := s.engine.beside port host s.engine.world.journal s.engine.associated }
  /-- The pumping thread takes a step that has nothing to do with the engine's own read. -/
  | pumps (s : Shared P H) (e' : Engine P H) (pumping' : Pumping)
    (h : Engine.Pumps (s.engine, s.pumping) (e', pumping'))
    (hother : ∀ c moved, s.pumping = .finishing c moved ∨ pumping' = .finishing c moved →
      s.engine.wakeToken ≠ some c.token) :
    Moves s { s with engine := e', pumping := pumping' }
  /-- A wait returns the completion of the engine's own read. -/
  | hears (s : Shared P H) (r : Reply P H Waited) (c : Completion) (moved : Transfer)
    (hwaits : s.pumping = .waiting) (hlanded : s.ownRead = .landed)
    (hr : r.answer = .completion c moved) (hown : s.engine.wakeToken = some c.token) :
    Moves s { s with
      engine := s.engine.absorb r
      pumping := .finishing c moved
      ownRead := .retrieved }
  /-- The completion of the engine's own read is finished, and the next one is in flight. -/
  | rearms (s : Shared P H) (e' : Engine P H) (c : Completion) (moved : Transfer)
    (hpumping : s.pumping = .finishing c moved)
    (hfinished : s.engine.complete c moved = (e', .ok none)) (harmed : e'.wakeToken ≠ none) :
    Moves s { s with engine := e', pumping := .popping, ownRead := .inFlight }

/-- Steps of anybody, in any order. -/
def Runs : Shared P H → Shared P H → Prop := Relation.ReflTransGen (Moves count)

/-- Steps of anybody during which the pumping thread stays in its wait. -/
def RunsInWait : Shared P H → Shared P H → Prop :=
  Relation.ReflTransGen fun s s' => Moves count s s' ∧ s'.pumping = .waiting

namespace Shared

/-- Once the engine's own read has ended, its completion has been returned and the next one is in
flight, the pumping thread takes a posted callback. -/
def WakesUp (s : Shared P H) : Prop :=
  ∀ (host : H) (r : Reply P H Waited) (c : Completion) (moved : Transfer) (e' : Engine P H),
    count host s.engine.world.injector.wake = 0 → r.answer = .completion c moved →
    s.engine.wakeToken = some c.token → (s.engine.absorb r).complete c moved = (e', .ok none) →
    e'.wakeToken ≠ none →
    Runs count s { s with engine := e', pumping := .popping, ownRead := .inFlight } ∧
      ∃ e'' d, e'.runPosted = some (e'', d)

/-- The engine's own read can end the wait of the pumping thread, whatever others do: it has ended
already, or it is in flight and the event counter is positive. -/
def IsDue (s : Shared P H) : Prop :=
  s.ownRead = .landed ∨ s.ownRead = .inFlight ∧ 0 < s.engine.world.counter count

/-- A pump is about to begin, and the engine's own read is in flight or has ended. -/
structure Begins (s : Shared P H) : Prop where
  pumping : s.pumping = .popping
  ownRead : s.ownRead ≠ .retrieved
  armed : s.engine.wakeToken ≠ none

/-- There is a sign of every callback that was posted during a wait. -/
structure Attentive (s : Shared P H) : Prop where
  armed : s.engine.wakeToken ≠ none
  retrieved : s.ownRead = .retrieved →
    ∃ c moved, s.pumping = .finishing c moved ∧ s.engine.wakeToken = some c.token
  noticed : s.pumping = .waiting → s.engine.world.injector.queue ≠ [] →
    0 < s.engine.world.counter count ∨ s.ownRead = .landed ∨ ∃ p ∈ s.posters, p.stage = .queued

end Shared

/-! ### What one step keeps -/

/-- A step of one post leaves the posts at other stages as they are. -/
theorem Poster.mem_set {posters : List Poster} {i : Nat} {p q p' : Poster}
    (hp : posters[i]? = some p) (hq : q ∈ posters) (hne : q.stage ≠ p.stage) :
    q ∈ posters.set i p' := by
  obtain ⟨j, hj⟩ := List.mem_iff_getElem?.mp hq
  apply List.mem_iff_getElem?.mpr
  use j
  rw [List.getElem?_set_ne, hj]
  rintro rfl
  exact hne (congrArg Poster.stage (Option.some.inj (hj.symm.trans hp)))

section

variable {count} {s s' : Shared P H}

/-- Posts and the host leave the pumping thread where it is, and that thread takes its own steps. -/
theorem Moves.pumping (h : Moves count s s') : s'.pumping = s.pumping ∨
    Engine.Pumps (s.engine, s.pumping) (s'.engine, s'.pumping) := by
  cases h with
  | posts => exact .inl rfl
  | ends => exact .inl rfl
  | passes => exact .inl rfl
  | pumps e' pumping' h hother => exact .inr h
  | hears r c moved hwaits hlanded hr hown =>
    rw [hwaits]
    exact .inr (.returned s.engine r c moved hr)
  | rearms e' c moved hpumping hfinished harmed =>
    have hfinishes := Engine.Pumps.finished s.engine c moved
    rw [hfinished] at hfinishes
    rw [hpumping]
    exact .inr hfinishes

omit [CompletionPort P H] in
/-- The event counter is positive after it took an addition. -/
theorem World.Counts.positive {w : World H} (h : w.Counts count) : 0 < w.wake.1.counter count := by
  rcases h.2 with hadded | ⟨hsame, hpositive⟩
  · omega
  · omega

omit [CompletionPort P H] [Os H] in
/-- What the event counter stands at belongs to the host. -/
theorem Engine.counter_beside (e : Engine P H) (p : P) (host : H) (j : List Notice) (a : List Fd) :
    (e.beside p host j a).world.counter count = count host e.world.injector.wake := rfl

/-- Only what is finished of the engine's own read can change which token that read has. -/
theorem Engine.Pumps.wakeToken {e e' : Engine P H} {pumping pumping' : Pumping}
    (h : Engine.Pumps (e, pumping) (e', pumping'))
    (hother : ∀ c moved, pumping = .finishing c moved → e.wakeToken ≠ some c.token) :
    e'.wakeToken = e.wakeToken := by
  cases h with
  | popped _ _ d h => rw [Engine.runPosted_eq_some h]
  | empty => rfl
  | returned => rfl
  | timedOut => rfl
  | failed => rfl
  | finished _ c moved =>
    cases htake : e.slab.take c.token with
    | none =>
      have hnone := (Slab.take_eq_none_iff _ _).mp htake
      rw [Engine.complete_of_get?_eq_none moved hnone]
      rfl
    | some x =>
      rw [Engine.complete_of_user moved htake (hother c moved rfl)]
      rfl

/-- A wait begins with nothing posted. -/
theorem Engine.Pumps.queue {e e' : Engine P H} {pumping : Pumping}
    (h : Engine.Pumps (e, pumping) (e', .waiting)) : e'.world.injector.queue = [] := by
  cases h with
  | empty _ h => exact (Engine.runPosted_eq_none_iff e).mp h

omit [CompletionPort P H] in
/-- A callback that a post puts into the queue is followed by an addition to the event counter,
and meanwhile there is a post that will make it. -/
theorem Shared.Attentive.noticed_of_post (hs : s.Attentive count) {i : Nat} {p : Poster}
    (hp : s.posters[i]? = some p) (hcounts : p.stage = .queued → s.engine.world.Counts count)
    (hwaits : s.pumping = .waiting)
    (hqueue : (p.step s.engine.world).1.injector.queue ≠ []) :
    0 < (p.step s.engine.world).1.counter count ∨ s.ownRead = .landed ∨
      ∃ q ∈ s.posters.set i (p.step s.engine.world).2, q.stage = .queued := by
  have hlt : i < s.posters.length := (List.getElem?_eq_some_iff.mp hp).1
  -- What was noticed before still is, as long as the post does not add to the counter.
  have hkept (hstage : p.stage ≠ .queued) (hqueue : s.engine.world.injector.queue ≠ [])
      (hcounter : (p.step s.engine.world).1.counter count = s.engine.world.counter count) :
      0 < (p.step s.engine.world).1.counter count ∨ s.ownRead = .landed ∨
        ∃ q ∈ s.posters.set i (p.step s.engine.world).2, q.stage = .queued := by
    rw [hcounter]
    rcases hs.noticed hwaits hqueue with hpositive | hlanded | ⟨q, hq, hqueued⟩
    · exact .inl hpositive
    · exact .inr (.inl hlanded)
    · exact .inr (.inr ⟨q, Poster.mem_set hp hq (hqueued.trans_ne hstage.symm), hqueued⟩)
  obtain ⟨callback, stage⟩ := p
  cases stage with
  | called => exact hkept (by simp) hqueue rfl
  | admitted => exact .inr (.inr ⟨_, List.mem_set hlt _, rfl⟩)
  | queued => exact .inl (hcounts rfl).positive
  | returned answer => exact hkept (by simp) hqueue rfl

/-- A step of anybody leaves a sign of every callback posted during a wait. -/
theorem Moves.attentive (h : Moves count s s') (hs : s.Attentive count) : s'.Attentive count := by
  cases h with
  | posts i p hp hcounts =>
    exact ⟨hs.armed, hs.retrieved, fun hwaits hqueue => hs.noticed_of_post hp hcounts hwaits hqueue⟩
  | ends port host hread hpositive hzero =>
    exact ⟨hs.armed, nofun, fun _ _ => .inr (.inl rfl)⟩
  | passes port host hsame =>
    refine ⟨hs.armed, hs.retrieved, fun hwaits hqueue => ?_⟩
    simp only [Engine.counter_beside, hsame]
    exact hs.noticed hwaits hqueue
  | pumps e' pumping' h hother =>
    have htoken := h.wakeToken fun c moved hc => hother c moved (.inl hc)
    refine ⟨?_, ?_, ?_⟩
    · rw [htoken]
      exact hs.armed
    · intro hretrieved
      obtain ⟨c, moved, hpumping, hown⟩ := hs.retrieved hretrieved
      exact absurd hown (hother c moved (.inl hpumping))
    · intro hwaits hqueue
      obtain rfl : pumping' = .waiting := hwaits
      exact absurd h.queue hqueue
  | hears r c moved hwaits hlanded hr hown =>
    exact ⟨hs.armed, fun _ => ⟨c, moved, rfl, hown⟩, nofun⟩
  | rearms e' c moved hpumping hfinished harmed => exact ⟨harmed, nofun, nofun⟩

/-- What is about to end a wait does so in the end: nobody takes it back. -/
theorem Moves.isDue (h : Moves count s s') (hwaits : s.pumping = .waiting)
    (hstill : s'.pumping = .waiting) (hs : s.IsDue count) : s'.IsDue count := by
  cases h with
  | posts i p hp hcounts =>
    rcases hs with hlanded | ⟨hread, hpositive⟩
    · exact .inl hlanded
    refine .inr ⟨hread, ?_⟩
    obtain ⟨callback, stage⟩ := p
    cases stage with
    | queued => exact (hcounts rfl).positive
    | _ => exact hpositive
  | ends port host hread hpositive hzero => exact .inl rfl
  | passes port host hsame =>
    rcases hs with hlanded | ⟨hread, hpositive⟩
    · exact .inl hlanded
    · refine .inr ⟨hread, ?_⟩
      simp only [Engine.counter_beside, hsame]
      exact hpositive
  | pumps e' pumping' h hother =>
    obtain rfl : pumping' = .waiting := hstill
    rw [hwaits] at h
    cases h
  | hears => cases hstill
  | rearms => cases hstill

omit [CompletionPort P H] in
/-- A post leaves the callbacks that are in the queue where they are. -/
theorem Poster.prefix_queue (p : Poster) (w : World H) :
    w.injector.queue <+: (p.step w).1.injector.queue := by
  obtain ⟨host, hstep⟩ := p.step_eq w
  rw [hstep]
  exact List.prefix_append _ _

/-- During a wait no callback leaves the queue. -/
theorem Moves.prefix_queue (h : Moves count s s') (hwaits : s.pumping = .waiting)
    (hstill : s'.pumping = .waiting) :
    s.engine.world.injector.queue <+: s'.engine.world.injector.queue := by
  cases h with
  | posts i p hp hcounts => exact p.prefix_queue s.engine.world
  | ends => exact List.prefix_rfl
  | passes => exact List.prefix_rfl
  | pumps e' pumping' h hother =>
    obtain rfl : pumping' = .waiting := hstill
    rw [hwaits] at h
    cases h
  | hears => cases hstill
  | rearms => cases hstill

/-- Finishing the completion of the engine's own read leaves posted callbacks alone. -/
theorem Engine.undisturbed_of_own {e e' : Engine P H} {c : Completion} {moved : Transfer}
    (h : e.complete c moved = (e', .ok none)) : Undisturbed e e' := by
  rcases e.serves_complete [] c moved with ⟨_, hsame, _⟩ | ⟨_, ⟨d, hd, _⟩, _⟩
  · rw [h] at hsame
    exact hsame
  · rw [h] at hd
    cases hd

/-- What is due in a wait over a posted callback wakes the pumping thread up. -/
theorem Shared.IsDue.wakesUp (hs : s.IsDue count) (hwaits : s.pumping = .waiting)
    (hqueue : s.engine.world.injector.queue ≠ []) : s.WakesUp count := by
  intro host r c moved e' hzero hr hown hfinished harmed
  -- The completion is returned once the read has ended, and its next one is in flight then.
  have hheard (s₁ : Shared P H) (hwaits : s₁.pumping = .waiting) (hlanded : s₁.ownRead = .landed)
      (hown : s₁.engine.wakeToken = some c.token)
      (hfinished : (s₁.engine.absorb r).complete c moved = (e', .ok none)) :
      Runs count s₁ { s₁ with engine := e', pumping := .popping, ownRead := .inFlight } :=
    .head (.hears s₁ r c moved hwaits hlanded hr hown)
      (.single (.rearms _ e' c moved rfl hfinished harmed))
  constructor
  · rcases hs with hlanded | ⟨hread, hpositive⟩
    · exact hheard s hwaits hlanded hown hfinished
    · exact .head (.ends s s.engine.port host hread hpositive hzero)
        (hheard _ hwaits rfl hown hfinished)
  · cases hposted : e'.runPosted with
    | some x => exact ⟨x.1, x.2, rfl⟩
    | none =>
      have hsame : e'.world.injector = s.engine.world.injector :=
        (Engine.undisturbed_of_own hfinished).injector
      have hempty := (Engine.runPosted_eq_none_iff e').mp hposted
      rw [hsame] at hempty
      exact absurd hempty hqueue

/-! ### What runs keep -/

omit [CompletionPort P H] [Os H] in
/-- Before a pump there is nothing to notice. -/
theorem Shared.Begins.attentive (h : s.Begins) : s.Attentive count where
  armed := h.armed
  retrieved hretrieved := absurd hretrieved h.ownRead
  noticed hwaits := nomatch h.pumping.symm.trans hwaits

/-- There is a sign of every callback posted during a wait, whatever order the steps of the posts
and of the pumping thread are taken in. -/
theorem Runs.attentive (h : Runs count s s') (hs : s.Attentive count) : s'.Attentive count := by
  induction h with
  | refl => exact hs
  | tail _ hstep ih => exact hstep.attentive ih

/-- What is about to end a wait over a posted callback stays so for as long as that wait lasts. -/
theorem RunsInWait.isDue (h : RunsInWait count s s') (hwaits : s.pumping = .waiting)
    (hqueue : s.engine.world.injector.queue ≠ []) (hs : s.IsDue count) :
    s'.pumping = .waiting ∧ s'.engine.world.injector.queue ≠ [] ∧ s'.IsDue count := by
  induction h with
  | refl => exact ⟨hwaits, hqueue, hs⟩
  | tail _ hstep ih =>
    obtain ⟨hwaits, hqueue, hs⟩ := ih
    have hprefix := hstep.1.prefix_queue hwaits hstep.2
    refine ⟨hstep.2, fun hempty => ?_, hstep.1.isDue hwaits hstep.2 hs⟩
    rw [hempty] at hprefix
    exact hqueue (List.prefix_nil.mp hprefix)

/-- Whenever the pumping thread waits although callbacks are posted, the engine's own read is in
flight and the event counter is positive, or that read has ended already, or some post has put its
callback into the queue and not added to the event counter yet. When there is no such post the wait
is as good as over: as long as it lasts the engine's own read has ended or can end, and once the
next one is in flight the pumping thread takes a posted callback. -/
theorem no_wakeup_is_lost {s₀ : Shared P H} (hbegins : s₀.Begins) (hruns : Runs count s₀ s)
    (hwaits : s.pumping = .waiting) (hqueue : s.engine.world.injector.queue ≠ []) :
    s.engine.wakeToken ≠ none ∧
    (s.ownRead = .inFlight ∧ 0 < s.engine.world.counter count ∨ s.ownRead = .landed ∨
      ∃ p ∈ s.posters, p.stage = .queued) ∧
    ((∀ p ∈ s.posters, p.stage ≠ .queued) →
      ∀ s', RunsInWait count s s' → s'.IsDue count ∧ s'.WakesUp count) := by
  have hattentive := hruns.attentive hbegins.attentive
  have hnoticed : s.ownRead = .inFlight ∧ 0 < s.engine.world.counter count ∨
      s.ownRead = .landed ∨ ∃ p ∈ s.posters, p.stage = .queued := by
    rcases hattentive.noticed hwaits hqueue with hpositive | hlanded | hpost
    · cases hread : s.ownRead with
      | inFlight => exact .inl ⟨rfl, hpositive⟩
      | landed => exact .inr (.inl rfl)
      | retrieved =>
        obtain ⟨c, moved, hpumping, _⟩ := hattentive.retrieved hread
        cases hwaits.symm.trans hpumping
    · exact .inr (.inl hlanded)
    · exact .inr (.inr hpost)
  refine ⟨hattentive.armed, hnoticed, fun hnone s' hlater => ?_⟩
  have hdue : s.IsDue count := by
    rcases hnoticed with hpositive | hlanded | ⟨p, hp, hqueued⟩
    · exact .inr hpositive
    · exact .inl hlanded
    · exact absurd hqueued (hnone p hp)
  obtain ⟨hwaits', hqueue', hdue'⟩ := hlater.isDue hwaits hqueue hdue
  exact ⟨hdue', hdue'.wakesUp hwaits' hqueue'⟩

end

/-- What the event counter that a descriptor names stands at. -/
def Host.countAt (h : Host) (fd : Fd) : Nat :=
  match (h.fileId? fd).bind h.file? with
  | some (.counter value) => value
  | _ => 0

/-- An engine that is about to be pumped, and posts that are about to be made. -/
def Shared.start (e : Engine P H) (callbacks : List Callback) : Shared P H :=
  { engine := e, posters := callbacks.map (⟨·, .called⟩) }

/-- A new engine can be pumped while others post to it. -/
theorem Shared.begins_of_build {config : Config} {port : P} {host : H} {e : Engine P H}
    (h : Engine.build config port host = .ready e) (callbacks : List Callback) :
    (Shared.start e callbacks).Begins := by
  obtain ⟨t, _, ht, _⟩ := (Engine.isNew_of_build h).exists_wake
  refine ⟨rfl, nofun, ?_⟩
  change e.wakeToken ≠ none
  rw [ht]
  exact Option.some_ne_none t

/-- Two posts are noticed by the wait that they fall into, one of them made while the engine's own
read is in flight and the other one after that has ended. -/
theorem no_wakeup_is_lost_of_coalescing : ∃ e : Engine Scripted Host,
    Engine.build {} {} Host.start = .ready e ∧
    let s₀ := Shared.start e [⟨"a", []⟩, ⟨"b", []⟩]
    ∃ s, s₀.Begins ∧ Runs Host.countAt s₀ s ∧ s.pumping = .waiting ∧
      s.engine.world.injector.queue ≠ [] ∧ (∀ p ∈ s.posters, p.stage ≠ .queued) ∧
      s.engine.wakeToken ≠ none ∧
      (s.ownRead = .inFlight ∧ 0 < s.engine.world.counter Host.countAt ∨ s.ownRead = .landed ∨
        ∃ p ∈ s.posters, p.stage = .queued) ∧
      ((∀ p ∈ s.posters, p.stage ≠ .queued) →
        ∀ s', RunsInWait Host.countAt s s' → s'.IsDue Host.countAt ∧ s'.WakesUp Host.countAt) := by
  refine ⟨_, rfl, ?_⟩
  intro s₀
  have hbegins : s₀.Begins :=
    @Shared.begins_of_build Scripted Host _ _ {} {} Host.start _ rfl [⟨"a", []⟩, ⟨"b", []⟩]
  have hwait : Runs Host.countAt s₀ _ :=
    .single (.pumps s₀ _ _ (.empty _ rfl) (by simp [s₀, Shared.start]))
  have hfirst := ((hwait.tail (.posts _ 0 _ rfl nofun)).tail (.posts _ 0 _ rfl nofun)).tail
    (.posts _ 0 _ rfl fun _ => by decide +kernel)
  -- The engine's own read ends with the event counter where it was in the beginning.
  have hended := hfirst.tail
    (.ends _ s₀.engine.port s₀.engine.world.host rfl (by decide +kernel) rfl)
  have hsecond := ((hended.tail (.posts _ 1 _ rfl nofun)).tail (.posts _ 1 _ rfl nofun)).tail
    (.posts _ 1 _ rfl fun _ => by decide +kernel)
  exact ⟨_, hbegins, hsecond, rfl, List.cons_ne_nil _ _,
    List.forall_mem_cons.mpr ⟨nofun, List.forall_mem_cons.mpr ⟨nofun, nofun⟩⟩,
    no_wakeup_is_lost hbegins hsecond rfl (List.cons_ne_nil _ _)⟩

end Proactor
