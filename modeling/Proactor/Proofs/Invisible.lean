import Proactor.Proofs.Abreast
import Proactor.Proofs.Replay

/-!
# The invisible read

How often the engine's own read completes in between does not show. Programs that submit, pump,
post and work on buffers are told the same, whether their waits are interrupted by it or not.
-/

namespace Proactor

variable {P P' H : Type} {wake : Fd} {hidden : StorageId} {index : UInt32}
  {R : Station P H → Station P' H → Prop} {left : Station P' H → Nat} [CompletionPort P H]
  [CompletionPort P' H] [Os H]

/-- Whatever an order is on, some name stands for it. -/
theorem Order.exists_of_mapBuffers? {B C : Type} {f : B → Option C} {o : Order B} {o' : Order C}
    (h : o.mapBuffers? f = some o') {c : C} (hc : c ∈ o'.buffers) : ∃ b, f b = some c := by
  cases o with
  | write fd b n =>
    obtain ⟨c', hb, rfl⟩ := Option.map_eq_some_iff.mp h
    obtain rfl := List.mem_singleton.mp hc
    exact ⟨b, hb⟩
  | read fd b n =>
    obtain ⟨c', hb, rfl⟩ := Option.map_eq_some_iff.mp h
    obtain rfl := List.mem_singleton.mp hc
    exact ⟨b, hb⟩
  | receiveFrom fd b s n flags =>
    obtain ⟨c', hb, h⟩ := Option.bind_eq_some_iff.mp h
    obtain ⟨s', hs, h⟩ := Option.bind_eq_some_iff.mp h
    obtain rfl := Option.some.inj h
    rcases List.mem_pair.mp hc with rfl | rfl
    · exact ⟨b, hb⟩
    · exact ⟨s, hs⟩
  | sendTo fd b d n flags =>
    obtain ⟨c', hb, rfl⟩ := Option.map_eq_some_iff.mp h
    obtain rfl := List.mem_singleton.mp hc
    exact ⟨b, hb⟩
  | accept fd onto b =>
    obtain ⟨c', hb, rfl⟩ := Option.map_eq_some_iff.mp h
    obtain rfl := List.mem_singleton.mp hc
    exact ⟨b, hb⟩
  | connect fd d =>
    obtain rfl := Option.some.inj h
    cases hc
  | event =>
    obtain rfl := Option.some.inj h
    cases hc

namespace Step

/-- A submission, a pump, a post, or a call on a buffer. -/
def isUse : Step H → Bool
  | .place .. | .pump .. | .post .. | .buffer .. | .clone .. | .fill .. | .peek .. | .borrow ..
  | .scribble .. | .giveBack .. => true
  | _ => false

/-- The same call, where a pump may be granted another number of rounds. -/
inductive Same : Step H → Step H → Prop where
  | refl (s : Step H) : Same s s
  | pump (timeout : Option Duration) (rounds rounds' : Nat) :
    Same (.pump timeout rounds) (.pump timeout rounds')

omit [Os H] in
theorem Same.limit?_eq {s s' : Step H} (h : s.Same s') : s'.limit? = s.limit? := by
  cases h <;> rfl

end Step

namespace Client

/-- The programs have engines abreast, and have borrowed the same. -/
structure Abreast (wake : Fd) (hidden : StorageId) (index : UInt32)
    (R : Station P H → Station P' H → Prop) (c : Client P H) (c' : Client P' H) : Prop where
  engines : c.engine.Abreast wake hidden index R c'.engine
  borrows : c'.borrows = c.borrows
  /-- No borrow is of the storage of the engine's own read. -/
  others : hidden ∉ c.borrows
  here : c.gone = false
  here' : c'.gone = false

/-- Two calls come to the same. -/
structure CallsAlike (wake : Fd) (hidden : StorageId) (index : UInt32)
    (R : Station P H → Station P' H → Prop) (r : Client P H × Answer) (r' : Client P' H × Answer) :
    Prop where
  answer : r'.2 = r.2
  /-- What is dispatched is not the engine's own read. -/
  others : ∀ d, r.2 = .pumped (.dispatched d) → ¬ d.token.Names index
  clients : Abreast wake hidden index R r.1 r'.1

variable {c : Client P H} {c' : Client P' H}

namespace Abreast

omit [CompletionPort P H] [CompletionPort P' H] [Os H] in
theorem withEngine (h : Abreast wake hidden index R c c') {e : Engine P H} {e' : Engine P' H}
    (he : e.Abreast wake hidden index R e') :
    Abreast wake hidden index R { c with engine := e } { c' with engine := e' } :=
  ⟨he, h.borrows, h.others, h.here, h.here'⟩

omit [CompletionPort P H] [CompletionPort P' H] [Os H] in
theorem withMemory (h : Abreast wake hidden index R c c') {m m' : Memory}
    (hm : m.Alike hidden m') :
    Abreast wake hidden index R { c with engine := c.engine.withMemory m }
      { c' with engine := c'.engine.withMemory m' } :=
  h.withEngine (h.engines.withWorld (h.engines.world.withMemory hm))

variable (hR : Interrupts wake hidden index R left)

include hR

theorem place (h : Abreast wake hidden index R c c') (o : Order String) (cb : Callback)
    (hroom : (c.step (.place o cb)).1.engine.slab.slots.length ≤ 2 ^ 32) :
    CallsAlike wake hidden index R (c.step (.place o cb)) (c'.step (.place o cb)) := by
  have hresolve : c'.resolve o = c.resolve o :=
    congrArg o.mapBuffers? (funext h.engines.memory.find?)
  obtain ⟨e, b, gone⟩ := c
  obtain ⟨e', b', gone'⟩ := c'
  obtain rfl : gone = false := h.here
  obtain rfl : gone' = false := h.here'
  cases ho : (Client.mk e b false).resolve o with
  | none =>
    simp only [step, hresolve, ho]
    exact ⟨rfl, fun _ hd => (by cases hd), h⟩
  | some o' =>
    simp only [step, hresolve, ho] at hroom ⊢
    have hb : hidden ∉ o'.buffers := by
      intro hmem
      obtain ⟨handle, hhandle⟩ := Order.exists_of_mapBuffers? ho hmem
      exact h.engines.memory.ne_of_find? hhandle rfl
    obtain ⟨hanswer, hnext⟩ := h.engines.place hR hb hroom
    exact ⟨congrArg Answer.submitted hanswer, fun _ hd => (by cases hd), h.withEngine hnext⟩

theorem pump (h : Abreast wake hidden index R c c') {timeout : Option Duration}
    (htells : Os.Tells c.engine.world.host timeout)
    (htells' : Os.Tells c'.engine.world.host timeout)
    {rounds rounds' : Nat} (hends : (c.step (.pump timeout rounds)).2 ≠ .pumped .unfinished)
    (hends' : (c'.step (.pump timeout rounds')).2 ≠ .pumped .unfinished ∨
      rounds + left c'.engine.station ≤ rounds') :
    CallsAlike wake hidden index R (c.step (.pump timeout rounds))
      (c'.step (.pump timeout rounds')) := by
  obtain ⟨e, b, gone⟩ := c
  obtain ⟨e', b', gone'⟩ := c'
  obtain rfl : gone = false := h.here
  obtain rfl : gone' = false := h.here'
  have hpump := h.engines.pump hR htells htells' (fun he => hends (congrArg Answer.pumped he))
    (hends'.imp_left fun hends' he => hends' (congrArg Answer.pumped he))
  exact ⟨congrArg Answer.pumped hpump.answer, fun d hd => hpump.others d (Answer.pumped.inj hd),
    h.withEngine hpump.engines⟩

/-- A call on the injector or on a buffer returns the same in both programs. -/
theorem aside (h : Abreast wake hidden index R c c') {s : Step H} (huse : s.isUse = true)
    (hplace : ∀ o cb, s ≠ .place o cb) (hpump : ∀ timeout rounds, s ≠ .pump timeout rounds) :
    CallsAlike wake hidden index R (c.step s) (c'.step s) := by
  have hworld := h.engines.world
  have hmemory := h.engines.memory
  cases s with
  | place o cb => exact absurd rfl (hplace o cb)
  | pump timeout rounds => exact absurd rfl (hpump timeout rounds)
  | post cb =>
    obtain ⟨hanswer, hnext⟩ := World.alike_post (hR.host _ _) hworld cb
    exact ⟨congrArg Answer.done hanswer, fun _ hd => (by cases hd),
      h.withEngine (h.engines.withWorld hnext)⟩
  | buffer handle content =>
    refine ⟨rfl, fun _ hd => (by cases hd), h.withMemory ?_⟩
    have hbound := (hmemory.alloc content).bind handle hmemory.length_ne
    simp only [Memory.alloc, hmemory.length_eq] at hbound ⊢
    exact hbound
  | clone handle of_ =>
    simp only [Client.step, hmemory.find?]
    cases hfind : c.engine.world.memory.find? of_ with
    | none => exact ⟨rfl, fun _ hd => (by cases hd), h⟩
    | some id =>
      exact ⟨rfl, fun _ hd => (by cases hd),
        h.withMemory (hmemory.bind handle (hmemory.ne_of_find? hfind))⟩
  | fill handle content =>
    refine ⟨?_, fun _ hd => (by cases hd),
      h.withEngine (h.engines.withWorld (World.alike_fill hworld handle content))⟩
    simp only [Client.step, hmemory.find?]
    cases hfind : c.engine.world.memory.find? handle with
    | none => rfl
    | some id =>
      simp only [Option.bind_some, Memory.fill?, hmemory.isIdle,
        hmemory.capacity (hmemory.ne_of_find? hfind)]
      split <;> rfl
  | peek handle =>
    refine ⟨?_, fun _ hd => (by cases hd), h⟩
    simp only [Client.step, hmemory.find?]
    cases hfind : c.engine.world.memory.find? handle with
    | none => rfl
    | some id => exact congrArg Answer.content (hmemory.read? (hmemory.ne_of_find? hfind))
  | borrow handle content =>
    rcases World.alike_borrow? hworld handle content with
      ⟨hw, hw'⟩ | ⟨id, w, w', hw, hw', hid, hnext⟩
    · simp only [Client.step, hw, hw']
      exact ⟨rfl, fun _ hd => (by cases hd), h⟩
    · simp only [Client.step, hw, hw']
      refine ⟨rfl, fun _ hd => (by cases hd), h.engines.withWorld hnext,
        congrArg (id :: ·) h.borrows, ?_, h.here, h.here'⟩
      exact List.not_mem_cons_of_ne_of_not_mem (Ne.symm hid) h.others
  | scribble id content =>
    have hsame : id ∈ c'.borrows ↔ id ∈ c.borrows := by rw [h.borrows]
    by_cases hmem : id ∈ c.borrows
    · simp only [Client.step, if_pos hmem, if_pos (hsame.mpr hmem)]
      exact ⟨rfl, fun _ hd => (by cases hd), h.withMemory (hmemory.modifyBytes id _)⟩
    · simp only [Client.step, if_neg hmem, if_neg (hsame.not.mpr hmem)]
      exact ⟨rfl, fun _ hd => (by cases hd), h⟩
  | giveBack id =>
    simp only [Client.step, h.borrows]
    split
    · next hmem =>
      have hid : id ≠ hidden := fun he => h.others (he ▸ hmem)
      refine ⟨rfl, fun _ hd => (by cases hd), h.engines.withWorld (hworld.release hid), rfl, ?_,
        h.here, h.here'⟩
      exact fun herase => h.others (List.mem_of_mem_erase herase)
    · exact ⟨rfl, fun _ hd => (by cases hd), h⟩
  | _ => cases huse

/-- The same call returns the same in both programs. -/
theorem step (h : Abreast wake hidden index R c c') {s s' : Step H} (huse : s.isUse = true)
    (hsame : s.Same s') (hroom : (c.step s).1.engine.slab.slots.length ≤ 2 ^ 32)
    (htells : Os.Tells c.engine.world.host s.limit?)
    (htells' : Os.Tells c'.engine.world.host s'.limit?)
    (hends : (c.step s).2 ≠ .pumped .unfinished) (hends' : (c'.step s').2 ≠ .pumped .unfinished) :
    CallsAlike wake hidden index R (c.step s) (c'.step s') := by
  cases hsame with
  | pump timeout rounds rounds' => exact h.pump hR htells htells' hends (.inl hends')
  | refl =>
    cases s with
    | place o cb => exact h.place hR o cb hroom
    | pump timeout rounds => exact h.pump hR htells htells' hends (.inl hends')
    | _ => exact h.aside hR huse nofun nofun

/-- A pump can be granted enough rounds that it is not cut off. -/
theorem exists_step (h : Abreast wake hidden index R c c') {s : Step H} (huse : s.isUse = true)
    (hroom : (c.step s).1.engine.slab.slots.length ≤ 2 ^ 32)
    (htells : Os.Tells c.engine.world.host s.limit?)
    (htells' : Os.Tells c'.engine.world.host s.limit?)
    (hends : (c.step s).2 ≠ .pumped .unfinished) :
    ∃ s', s.Same s' ∧ CallsAlike wake hidden index R (c.step s) (c'.step s') := by
  cases s with
  | place o cb => exact ⟨_, .refl _, h.place hR o cb hroom⟩
  | pump timeout rounds =>
    exact ⟨_, .pump timeout rounds _, h.pump hR htells htells' hends (.inr (Nat.le_refl _))⟩
  | _ => exact ⟨_, .refl _, h.aside hR huse nofun nofun⟩

/-- Calls, one after the other, return the same in both programs. -/
theorem run (h : Abreast wake hidden index R c c') {steps steps' : List (Step H)}
    (hsame : List.Forall₂ Step.Same steps steps') (huse : ∀ s ∈ steps, s.isUse = true)
    (hroom : (c.after steps).engine.slab.slots.length ≤ 2 ^ 32) (hlimits : c.InTime steps)
    (hlimits' : c'.InTime steps') (hends : .pumped .unfinished ∉ c.answers steps)
    (hends' : .pumped .unfinished ∉ c'.answers steps') :
    c'.answers steps' = c.answers steps ∧
      (∀ d, .pumped (.dispatched d) ∈ c.answers steps → ¬ d.token.Names index) ∧
      Abreast wake hidden index R (c.after steps) (c'.after steps') := by
  induction hsame generalizing c c' with
  | nil => exact ⟨rfl, nofun, h⟩
  | @cons s s' steps steps' hs hrest ih =>
    obtain ⟨hfirst, hends⟩ := not_or.mp (mt List.mem_cons.mpr hends)
    obtain ⟨hfirst', hends'⟩ := not_or.mp (mt List.mem_cons.mpr hends')
    obtain ⟨huse₁, huse⟩ := List.forall_mem_cons.mp huse
    have hslots := ((c.step s).1.path_history steps).length_slots_le
    obtain ⟨hanswer, hothers, hnext⟩ := h.step hR huse₁ hs (Nat.le_trans hslots hroom) hlimits.1
      hlimits'.1 (Ne.symm hfirst) (Ne.symm hfirst')
    obtain ⟨hanswers, hothers', hlast⟩ :=
      ih hnext huse hroom hlimits.2 hlimits'.2 hends hends'
    refine ⟨congrArg₂ List.cons hanswer hanswers, fun d hd => ?_, hlast⟩
    rcases List.mem_cons.mp hd with hd | hd
    · exact hothers d hd.symm
    · exact hothers' d hd

/-- The pumps of a program can be granted enough rounds that none of them is cut off. -/
theorem exists_run (h : Abreast wake hidden index R c c') {steps : List (Step H)}
    (huse : ∀ s ∈ steps, s.isUse = true)
    (hroom : (c.after steps).engine.slab.slots.length ≤ 2 ^ 32) (hlimits : c.InTime steps)
    (hlimits' : ∀ steps', List.Forall₂ Step.Same steps steps' → c'.InTime steps')
    (hends : .pumped .unfinished ∉ c.answers steps) :
    ∃ steps', List.Forall₂ Step.Same steps steps' ∧ .pumped .unfinished ∉ c'.answers steps' := by
  induction steps generalizing c c' with
  | nil => exact ⟨[], .nil, List.not_mem_nil⟩
  | cons s steps ih =>
    obtain ⟨hfirst, hends⟩ := not_or.mp (mt List.mem_cons.mpr hends)
    obtain ⟨huse₁, huse⟩ := List.forall_mem_cons.mp huse
    have hslots := ((c.step s).1.path_history steps).length_slots_le
    have htells' := (hlimits' _ (.cons (.refl s) (List.forall₂_same.mpr fun s _ => .refl s))).1
    obtain ⟨s', hs, hcall⟩ :=
      h.exists_step hR huse₁ (Nat.le_trans hslots hroom) hlimits.1 htells' (Ne.symm hfirst)
    have hlater := fun steps' hsteps => (hlimits' (s' :: steps') (.cons hs hsteps)).2
    obtain ⟨steps', hsteps, hends'⟩ := ih hcall.clients huse hroom hlimits.2 hlater hends
    refine ⟨s' :: steps', .cons hs hsteps, List.not_mem_cons_of_ne_of_not_mem ?_ hends'⟩
    exact hcall.answer ▸ hfirst

end Abreast

omit [CompletionPort P' H] in
/-- Limits that the clock can always tell are in time, however many rounds the pumps are granted. -/
theorem inTime_of_same {steps steps' : List (Step H)} (h : List.Forall₂ Step.Same steps steps')
    (htells : ∀ s ∈ steps, ∀ host : H, Os.Tells host s.limit?) (c : Client P H) :
    c.InTime steps' := by
  induction h generalizing c with
  | nil => trivial
  | cons hs hrest ih =>
    obtain ⟨hfirst, hlater⟩ := List.forall_mem_cons.mp htells
    exact ⟨hs.limit?_eq ▸ hfirst c.engine.world.host, ih hlater _⟩

/-- What two programs can tell of their runs is the same. -/
structure RunAlike (hidden : StorageId) (index : UInt32) (c : Client P H) (steps : List (Step H))
    (c' : Client P' H) (steps' : List (Step H)) : Prop where
  /-- Submissions are answered with the same tokens and faults, pumps end alike. -/
  answers : c'.answers steps' = c.answers steps
  /-- What pumps dispatch is not the engine's own read. -/
  others : ∀ d, .pumped (.dispatched d) ∈ c.answers steps → ¬ d.token.Names index
  /-- The same callbacks ran, in the same order, and were told the same. -/
  calls : (c'.after steps').engine.world.calls = (c.after steps).engine.world.calls
  stats : (c'.after steps').engine.stats = (c.after steps).engine.stats
  outstanding : (c'.after steps').engine.outstanding = (c.after steps).engine.outstanding
  pending : (c'.after steps').engine.world.pending = (c.after steps).engine.world.pending
  handles : (c'.after steps').engine.world.memory.handles =
    (c.after steps).engine.world.memory.handles
  /-- All buffers but that of the engine's own read are in the same state and hold the same. -/
  buffers : ∀ id, id ≠ hidden →
    (c'.after steps').engine.world.memory.lend? id = (c.after steps).engine.world.memory.lend? id ∧
    (c'.after steps').engine.world.memory.bytes id = (c.after steps).engine.world.memory.bytes id

end Client

/-! ### Engines on two ports -/

namespace Engine

/-- The engine on another port. -/
def onPort (e : Engine P H) (port : P') : Engine P' H := { e with port }

omit [CompletionPort P' H] in
/-- An engine that was built matches itself on any port. -/
theorem matches_of_build {config : Config} {port : P} {host : H} {e : Engine P H}
    (h : build config port host = .ready e) {t : Token} (ht : e.wakeToken = some t) (port' : P') :
    e.Matches e.world.injector.wake t.index (e.onPort port') := by
  have hnew := isNew_of_build h
  obtain ⟨harmed, hbuffer⟩ : e.Armed e.world.injector.wake t.index ∧ e.wakeBuffer = 0 := by
    obtain ⟨x, host', wake, journal, e', n, harm, rfl⟩ := armWake_of_build h
    obtain ⟨m, s, _, _, _, _, p, host'', j, a, rfl⟩ := armWake_eq_ok harm
    obtain ⟨t', ht', harmed⟩ := armed_of_armWake rfl Slab.sound_empty (room_of_first _) harm
    obtain rfl := Option.some.inj (ht'.symm.trans ht)
    exact ⟨⟨harmed.live, rfl, harmed.registered, harmed.read⟩, rfl⟩
  obtain ⟨u, context, n, hu, hindex, hget, _⟩ := harmed.read
  obtain ⟨_, hoccupied⟩ := Slab.names_of_get? hget
  rw [hindex] at hoccupied
  exact {
    armed := harmed
    armed' := ⟨harmed.live, harmed.counter, harmed.registered, harmed.read⟩
    memory := {
      handles := rfl
      lend? _ := rfl
      bytes _ _ := rfl
      lent := by rw [hnew.lend?, hbuffer, if_pos rfl]
      unnamed := by rw [hnew.handles]; exact List.forall_mem_nil _ }
    injector := rfl
    calls := rfl
    slab := ⟨hnew.sound, hnew.sound, rfl, rfl, rfl, fun _ _ => rfl, hoccupied, hoccupied⟩
    associated := rfl
    extensions := rfl
    config := rfl
    wakeBuffer := rfl
    stats := rfl
    users := fun t' c hc hother => by
      -- Nothing but the engine's own read is in flight.
      have hne : e.wakeToken ≠ some t' := by
        intro he
        obtain rfl := Option.some.inj (hu.symm.trans he)
        exact hother (hindex ▸ (Slab.names_of_get? hget).1)
      rw [hnew.get?_eq_none hne] at hc
      cases hc }

end Engine

/-- Take any run of a program that submits, pumps, posts and works on buffers, and the same program
on a port that answers alike, except that waits also return additional completions of the engine's
own read, finitely many. That run can be gone through too, and whenever it is, the program cannot
tell it from the first one. The clocks of the two runs need not agree, and each of them must be able
to tell when the time limits of the pumps are over. A token has `2 ^ 32` indices; with more slots
than that two operations would share one. -/
theorem own_read_is_invisible {config : Config} {port : P} {host : H} {e : Engine P H}
    (h : Engine.build config port host = .ready e) {t : Token} (ht : e.wakeToken = some t)
    (port' : P') (hR : Interrupts e.world.injector.wake e.wakeBuffer t.index R left)
    (hfirst : R e.station (e.onPort port').station) {steps : List (Step H)}
    (huse : ∀ s ∈ steps, s.isUse = true)
    (hroom : ((Client.own e).after steps).engine.slab.slots.length ≤ 2 ^ 32)
    (hlimits : (Client.own e).InTime steps)
    (hlimits' : ∀ steps', List.Forall₂ Step.Same steps steps' →
      (Client.own (e.onPort port')).InTime steps')
    (hends : .pumped .unfinished ∉ (Client.own e).answers steps) :
    (∃ steps', List.Forall₂ Step.Same steps steps' ∧
      .pumped .unfinished ∉ (Client.own (e.onPort port')).answers steps') ∧
    ∀ steps', List.Forall₂ Step.Same steps steps' →
      .pumped .unfinished ∉ (Client.own (e.onPort port')).answers steps' →
        Client.RunAlike e.wakeBuffer t.index (Client.own e) steps (Client.own (e.onPort port'))
          steps' := by
  have hmatch := Engine.matches_of_build h ht port'
  have habreast : (Client.own e).Abreast e.world.injector.wake e.wakeBuffer t.index R
      (Client.own (e.onPort port')) :=
    ⟨⟨hmatch, hfirst, rfl⟩, rfl, List.not_mem_nil, rfl, rfl⟩
  refine ⟨habreast.exists_run hR huse hroom hlimits hlimits' hends, fun steps' hsame hends' => ?_⟩
  obtain ⟨hanswers, hothers, hlast⟩ :=
    habreast.run hR hsame huse hroom hlimits (hlimits' steps' hsame) hends hends'
  have hengines := hlast.engines.engines
  exact {
    answers := hanswers
    others := hothers
    calls := hengines.calls
    stats := hengines.stats
    outstanding := hengines.outstanding
    pending := congrArg (fun i => i.queue.length) hengines.injector
    handles := hlast.engines.memory.handles
    buffers := fun id hid =>
      ⟨hlast.engines.memory.lend? id, hlast.engines.memory.bytes id hid⟩ }

/-- A read is submitted and a callback is posted; three pumps. -/
def readAndPost (rounds : Nat) : List (Step Timekeeper) :=
  [.buffer "b" [1, 2, 3, 4], .place (.read 3 "b" none) ⟨"got", [.peek "b"]⟩,
    .post ⟨"posted", []⟩, .pump none rounds, .pump none rounds, .pump (some ⟨5⟩) rounds]

theorem tells_readAndPost {rounds : Nat} :
    ∀ s ∈ readAndPost rounds, ∀ host : Timekeeper, Os.Tells host s.limit? := by
  simp only [readAndPost, List.forall_mem_cons, Step.limit?, Os.tells_none, implies_true, true_and]
  exact ⟨fun host => host.tells (by decide), List.forall_mem_nil _⟩

/-- The post is noticed, then the read is over, and then nothing happens until the time limit. -/
def Replay.calm : List Replay.Line :=
  [.own {}, .other (.completion ⟨Token.ofSlot 1 0, 2, 0⟩ { data := [9, 9] }), .other .timeout]

/-- The same with three more completions of the engine's own read. -/
def Replay.busy : List Replay.Line :=
  [.own { data := [7] }, .own {}, .own {},
    .other (.completion ⟨Token.ofSlot 1 0, 2, 0⟩ { data := [9, 9] }), .own {}, .other .timeout]

theorem Replay.inserts_calm_busy : Inserts (Token.ofSlot 0 0).index calm busy := by
  refine .additional _ (.own _ _ (.additional _ (.other _ ?_ (.additional _ (.other _ ?_ .nil)))))
  · intro c moved h
    obtain ⟨rfl, _⟩ := Waited.completion.inj h
    rintro ⟨_, hindex⟩
    rw [Token.index_ofSlot, Token.index_ofSlot] at hindex
    cases hindex
  · intro c moved h
    cases h

theorem own_read_is_invisible_of_replayed : ∃ e : Engine Replay Timekeeper,
    Engine.build {} ({ script := Replay.calm } : Replay) {} = .ready e ∧
    Client.RunAlike e.wakeBuffer (Token.ofSlot 0 0).index (Client.own e) (readAndPost 2)
      (Client.own (e.onPort { e.port with script := Replay.busy })) (readAndPost 4) ∧
    ((Client.own e).after (readAndPost 2)).engine.stats =
      { submitted := 1, dispatched := 1, injected := 1, timeouts := 1 } ∧
    ((Client.own e).after (readAndPost 2)).engine.wakeToken = some (Token.ofSlot 0 1) ∧
    ((Client.own (e.onPort { e.port with script := Replay.busy })).after
      (readAndPost 4)).engine.wakeToken = some (Token.ofSlot 0 4) := by
  refine ⟨_, rfl, ?_, by decide +kernel, by decide +kernel, by decide +kernel⟩
  have hindex : (0 : UInt32) = (Token.ofSlot 0 0).index := (Token.index_ofSlot 0 0).symm
  refine (@own_read_is_invisible Replay Replay Timekeeper _ _ _ _ _ {} { script := Replay.calm }
    {} _ rfl (Token.ofSlot 0 0) rfl _ (Replay.interrupts _ _ _) ?_ (readAndPost 2)
    (by decide +kernel) (by decide +kernel)
    (Client.inTime_of_same (List.forall₂_same.mpr fun s _ => .refl s) tells_readAndPost _)
    (fun _ hsame => Client.inTime_of_same hsame tells_readAndPost _) (by decide +kernel)).2 _ ?_
    (by decide +kernel)
  · exact ⟨⟨hindex, rfl⟩, ⟨hindex, rfl⟩, Replay.inserts_calm_busy⟩
  · exact .cons (.refl _) (.cons (.refl _) (.cons (.refl _) (.cons (.pump _ _ _)
      (.cons (.pump _ _ _) (.cons (.pump _ _ _) .nil)))))

end Proactor
