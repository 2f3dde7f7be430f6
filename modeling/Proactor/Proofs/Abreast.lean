import Proactor.Proofs.Interrupts

/-!
# Engines abreast

Two engines that match, on ports that answer alike but for interrupted waits. They stay so, and
give the same answers, when an operation is submitted, when one of a user is completed, and when
a posted callback is run. A wait that is interrupted goes on until it comes to what it would have
come to anyway, so that pumps end alike.
-/

namespace Proactor.Engine

variable {P P' H : Type} {wake : Fd} {hidden : StorageId} {index : UInt32}
  {R : Station P H → Station P' H → Prop} {left : Station P' H → Nat} {e : Engine P H}
  {e' : Engine P' H}

/-- The engines differ in nothing that users can tell, and their ports answer alike. -/
structure Abreast (wake : Fd) (hidden : StorageId) (index : UInt32)
    (R : Station P H → Station P' H → Prop) (e : Engine P H) (e' : Engine P' H) : Prop where
  engines : e.Matches wake index e'
  stations : R e.station e'.station
  buffer : e.wakeBuffer = hidden

namespace Abreast

theorem symm (h : Abreast wake hidden index R e e') :
    Abreast wake hidden index (fun y x => R x y) e' e where
  engines := h.engines.symm
  stations := h.stations
  buffer := h.engines.wakeBuffer.trans h.buffer

/-! ### What is changed -/

theorem memory (h : Abreast wake hidden index R e e') :
    e.world.memory.Alike hidden e'.world.memory :=
  h.buffer ▸ h.engines.memory

/-- The hosts of the two engines, beside their ports as they are. -/
abbrev Hosts (R : Station P H → Station P' H → Prop) (e : Engine P H) (e' : Engine P' H)
    (host host' : H) : Prop :=
  R (e.station.withHost host) (e'.station.withHost host')

theorem world (h : Abreast wake hidden index R e e') :
    World.Alike (Hosts R e e') hidden wake e.world e'.world where
  host := h.stations
  memory := h.memory
  injector := h.engines.injector
  wake := h.engines.armed.counter
  calls := h.engines.calls

theorem withWorld (h : Abreast wake hidden index R e e') {w w' : World H}
    (hw : World.Alike (Hosts R e e') hidden wake w w') :
    Abreast wake hidden index R (e.withWorld w) (e'.withWorld w') where
  engines := h.engines.withWorld (h.buffer ▸ hw)
  stations := hw.host
  buffer := h.buffer

theorem withStats (h : Abreast wake hidden index R e e') (stats : Stats) :
    Abreast wake hidden index R { e with stats } { e' with stats } where
  engines := h.engines.withStats stats
  stations := h.stations
  buffer := h.buffer

theorem countTimeout (h : Abreast wake hidden index R e e') :
    Abreast wake hidden index R e.countTimeout e'.countTimeout := by
  unfold Engine.countTimeout
  rw [h.engines.stats]
  exact h.withStats _

theorem countDispatched (h : Abreast wake hidden index R e e') :
    Abreast wake hidden index R e.countDispatched e'.countDispatched := by
  unfold Engine.countDispatched
  rw [h.engines.stats]
  exact h.withStats _

/-- The engines after calls on their ports. -/
theorem beside (h : Abreast wake hidden index R e e') {p : P} {host : H} {p' : P'} {host' : H}
    (hR : R ⟨p, host, e.wakeToken⟩ ⟨p', host', e'.wakeToken⟩) (j j' : List Notice)
    {a a' : List Fd} (ha : wake ∈ e.associated → wake ∈ a) (ha' : a' = a) :
    Abreast wake hidden index R (e.beside p host j a) (e'.beside p' host' j' a') where
  engines := h.engines.beside p host j p' host' j' ha ha'
  stations := hR
  buffer := h.buffer

theorem note (h : Abreast wake hidden index R e e') (n n' : Notice) :
    Abreast wake hidden index R (e.note n) (e'.note n') :=
  h.beside h.stations (e.world.journal ++ [n]) (e'.world.journal ++ [n']) id h.engines.associated

/-! ### Contexts of users -/

/-- An operation of a user gets the same token in both engines. -/
theorem insert (h : Abreast wake hidden index R e e') (context : Context)
    (hp : hidden ∉ context.pinned.leases)
    (hroom : (e.slab.insert context).1.slots.length ≤ 2 ^ 32) :
    (e'.slab.insert context).2 = (e.slab.insert context).2 ∧
      ¬ (e.slab.insert context).2.Names index ∧
      Abreast wake hidden index R (e.withSlab (e.slab.insert context).1)
        (e'.withSlab (e'.slab.insert context).1) := by
  obtain ⟨htoken, hother, halike⟩ := h.engines.slab.insert context hroom
  have hroom' := (h.engines.slab.length_insert context).symm ▸ hroom
  have hget := h.engines.slab.sound.get?_insert context hroom
  have hget' := h.engines.slab.sound'.get?_insert context hroom'
  refine ⟨htoken, hother, h.engines.withSlab halike (fun t ht => ?_) ?_, h.stations, h.buffer⟩
  · have hne : t ≠ (e.slab.insert context).2 := fun he => hother (he ▸ ht)
    rw [hget, hget', htoken, if_neg hne, if_neg hne]
    exact ⟨rfl, rfl⟩
  · intro t c hc ht
    rw [hget] at hc
    split at hc
    · obtain rfl := Option.some.inj hc
      exact h.buffer ▸ hp
    · exact h.engines.users t c hc ht

/-- An operation of a user is taken out of both engines, and does not hold the hidden storage. -/
theorem take (h : Abreast wake hidden index R e e') {t : Token} (ht : ¬ t.Names index)
    {context : Context} {slab : Slab Context} (htake : e.slab.take t = some (context, slab)) :
    hidden ∉ context.pinned.leases ∧ ∃ slab', e'.slab.take t = some (context, slab') ∧
      Abreast wake hidden index R (e.withSlab slab) (e'.withSlab slab') := by
  obtain ⟨slab', htake', halike⟩ := h.engines.slab.take ht htake
  have hget := Slab.get?_take htake
  have hget' := Slab.get?_take htake'
  refine ⟨h.buffer ▸ h.engines.users t context (Slab.get?_of_take htake) ht, slab', htake',
    h.engines.withSlab halike (fun u hu => ?_) ?_, h.stations, h.buffer⟩
  · have hne : u ≠ t := fun he => ht (he ▸ hu)
    rw [hget, hget', if_neg hne, if_neg hne]
    exact ⟨rfl, rfl⟩
  · intro u c hc hu
    rw [hget] at hc
    split at hc
    · cases hc
    · exact h.engines.users u c hc hu

/-- The read that is in flight is in the slot that is not of users. -/
theorem wakeToken_ne (h : Abreast wake hidden index R e e') {t : Token} (ht : ¬ t.Names index) :
    e.wakeToken ≠ some t ∧ e'.wakeToken ≠ some t := by
  obtain ⟨u, context, _, htoken, hindex, hget, _⟩ := h.engines.armed.read
  obtain ⟨u', context', _, htoken', hindex', hget', _⟩ := h.engines.armed'.read
  have hnames := hindex ▸ (Slab.names_of_get? hget).1
  have hnames' := hindex' ▸ (Slab.names_of_get? hget').1
  constructor
  · intro he
    exact ht (Option.some.inj (htoken.symm.trans he) ▸ hnames)
  · intro he
    exact ht (Option.some.inj (htoken'.symm.trans he) ▸ hnames')

/-- An operation is withdrawn from both engines. -/
theorem withdraw (h : Abreast wake hidden index R e e') {t : Token} (ht : ¬ t.Names index) :
    Abreast wake hidden index R (e.withdraw t) (e'.withdraw t) := by
  unfold Engine.withdraw
  cases htake : e.slab.take t with
  | none =>
    have htake' : e'.slab.take t = none := by
      rw [Slab.take_eq_none_iff, h.engines.slab.get?_eq ht, ← Slab.take_eq_none_iff]
      exact htake
    rw [htake']
    exact h
  | some r =>
    obtain ⟨context, slab⟩ := r
    obtain ⟨hp, slab', htake', hnext⟩ := h.take ht htake
    rw [htake']
    exact hnext.withWorld (hnext.world.withMemory (hnext.memory.releaseAll hp))

/-! ### Submitting -/

section submit

variable [CompletionPort P H] [CompletionPort P' H] [Os H]
  (hR : Interrupts wake hidden index R left)

include hR

/-- A descriptor is registered in both or in none. -/
theorem register (h : Abreast wake hidden index R e e') (fd : Fd) :
    (e'.register fd).2 = (e.register fd).2 ∧
      Abreast wake hidden index R (e.register fd).1 (e'.register fd).1 := by
  have hassociated := h.engines.associated
  by_cases hask : fd.toInt < 0 ∨ fd ∈ e.associated
  · rw [e.register_of_not_asked hask, e'.register_of_not_asked (hassociated ▸ hask)]
    exact ⟨rfl, h⟩
  · obtain ⟨hneg, hnew⟩ := not_or.mp hask
    have hpos : 0 ≤ fd.toInt := Int.not_lt.mp hneg
    obtain ⟨hanswer, hnext⟩ := hR.associate h.stations fd
    rw [e.register_of_asked hpos hnew, e'.register_of_asked hpos (hassociated ▸ hnew)]
    simp only [station] at hanswer
    rw [hanswer]
    cases (CompletionPort.associate e.port e.world.host fd).answer with
    | ok u =>
      exact ⟨rfl, h.beside hnext _ _ (List.mem_cons_of_mem fd) (congrArg (fd :: ·) hassociated)⟩
    | error f => exact ⟨rfl, h.beside hnext _ _ id hassociated⟩

/-- An entry is taken by both ports or by none. -/
theorem pushed (h : Abreast wake hidden index R e e') {s : Submission} (cb : Callback)
    (hs : hidden ∉ s.pinned.leases)
    (hroom : (e.slab.insert (contextOf s cb)).1.slots.length ≤ 2 ^ 32) :
    (e'.slab.insert (contextOf s cb)).2 = (e.slab.insert (contextOf s cb)).2 ∧
      ¬ (e.slab.insert (contextOf s cb)).2.Names index ∧
      (e'.pushReply s cb).answer = (e.pushReply s cb).answer ∧
      Abreast wake hidden index R (e.pushed s cb) (e'.pushed s cb) := by
  obtain ⟨htoken, hother, hinsert⟩ := h.insert (contextOf s cb) hs hroom
  have hpush := hR.push h.stations h.memory (s.entry (e.slab.insert (contextOf s cb)).2) hother
  have htoken' : e'.pushReply s cb = CompletionPort.push e'.port e'.world.host e'.world.memory
      (s.entry (e.slab.insert (contextOf s cb)).2) := by
    rw [pushReply, htoken]
  refine ⟨htoken, hother, htoken' ▸ hpush.1, ?_⟩
  exact hinsert.beside (htoken' ▸ hpush.2) _ _ id h.engines.associated

/-- Behind a submission both ports are flushed or none. -/
theorem flushIfEager (h : Abreast wake hidden index R e e') (kind : Kind) :
    Abreast wake hidden index R (e.flushIfEager kind) (e'.flushIfEager kind) := by
  have hflushed := hR.flush h.stations h.memory
  unfold Engine.flushIfEager flushBehind
  rw [h.engines.config]
  split
  · dsimp only
    split <;> split <;> exact h.beside hflushed _ _ id h.engines.associated
  · exact h

/-- What was prepared is handed off alike. -/
theorem handOff (h : Abreast wake hidden index R e e') {s : Submission} (cb : Callback)
    (hs : hidden ∉ s.pinned.leases)
    (hroom : (e.handOff s cb).1.slab.slots.length ≤ 2 ^ 32) :
    (e'.handOff s cb).2 = (e.handOff s cb).2 ∧
      Abreast wake hidden index R (e.handOff s cb).1 (e'.handOff s cb).1 := by
  obtain ⟨hanswer, hnext⟩ := register hR h s.fd
  cases hr : e.register s.fd with
  | mk e₁ r =>
    cases hr' : e'.register s.fd with
    | mk e₁' r' =>
      rw [hr, hr'] at hanswer hnext
      obtain rfl : r' = r := hanswer
      have hnext : Abreast wake hidden index R e₁ e₁' := hnext
      cases r' with
      | error f =>
        rw [handOff_of_register_error cb hr, handOff_of_register_error cb hr']
        exact ⟨rfl, hnext.withWorld (hnext.world.withMemory (hnext.memory.releaseAll hs))⟩
      | ok u =>
        cases hp : (e₁.pushReply s cb).answer with
        | error f =>
          rw [handOff_of_push_error hr hp] at hroom
          have hlen : (e₁.slab.insert (contextOf s cb)).1.slots.length ≤ 2 ^ 32 :=
            (length_slots_withdraw (e₁.pushed s cb) _).symm ▸ hroom
          obtain ⟨htoken, hother, hp', hpushed⟩ := pushed hR hnext cb hs hlen
          rw [handOff_of_push_error hr hp, handOff_of_push_error hr' (hp'.trans hp), htoken]
          exact ⟨rfl, (hpushed.withdraw hother).note _ _⟩
        | ok u =>
          rw [handOff_of_push_ok hr hp] at hroom
          obtain ⟨p, host, j, a, hflush⟩ := flushIfEager_eq_beside ((e₁.pushed s cb).note
            (.submitted s.kind s.fd (e₁.slab.insert (contextOf s cb)).2)) s.kind
          rw [hflush] at hroom
          obtain ⟨htoken, hother, hp', hpushed⟩ := pushed hR hnext cb hs hroom
          rw [handOff_of_push_ok hr hp, handOff_of_push_ok hr' (hp'.trans hp), htoken]
          exact ⟨rfl, flushIfEager hR (hpushed.note _ _) s.kind⟩

omit [CompletionPort P H] [CompletionPort P' H] [Os H] hR in
theorem count (h : Abreast wake hidden index R e e') (r : Except Fault Token) :
    Abreast wake hidden index R (e.count r) (e'.count r) := by
  unfold Engine.count
  rw [h.engines.stats]
  split
  · exact h.withStats _
  · exact h.withStats _
  · exact h

/-- The submitters give the same answers, with the same tokens. -/
theorem place (h : Abreast wake hidden index R e e') {o : Order StorageId} {cb : Callback}
    (hb : hidden ∉ o.buffers) (hroom : (e.place o cb).1.slab.slots.length ≤ 2 ^ 32) :
    (e'.place o cb).2 = (e.place o cb).2 ∧
      Abreast wake hidden index R (e.place o cb).1 (e'.place o cb).1 := by
  have hprepared := Order.prepare_alike h.memory e.extensions o hb
  rw [place_eq_submit] at hroom
  rw [place_eq_submit, place_eq_submit, h.engines.extensions]
  generalize hp : o.prepare e.world.memory e.extensions = r at hprepared hroom ⊢
  generalize o.prepare e'.world.memory e.extensions = r' at hprepared ⊢
  cases hprepared with
  | error f => exact ⟨rfl, h⟩
  | @ok m m' hm s =>
    rw [submit_ok, slab_count] at hroom
    have hs : hidden ∉ s.pinned.leases := by
      rw [(Order.prepare_eq_ok hp).2.2.1]
      exact hb
    obtain ⟨hanswer, hnext⟩ := handOff hR (h.withWorld (h.world.withMemory hm)) cb hs hroom
    rw [submit_ok, submit_ok]
    exact ⟨hanswer, hanswer ▸ hnext.count _⟩

end submit

/-! ### Completions and posted callbacks -/

section run

variable [CompletionPort P H] [CompletionPort P' H] [Os H]
  (hR : Interrupts wake hidden index R left)

include hR

/-- A completion that does not name the slot of the engine's own read is finished alike. -/
theorem complete (h : Abreast wake hidden index R e e') {c : Completion} (moved : Transfer)
    (hc : ¬ c.token.Names index) :
    ∃ e₁ e₁' r, e.complete c moved = (e₁, r) ∧ e'.complete c moved = (e₁', r) ∧
      Abreast wake hidden index R e₁ e₁' ∧
      ((∃ f, r = .error f) ∨ ∃ o, r = .ok (some ⟨c.token, o⟩)) := by
  obtain ⟨hne, hne'⟩ := h.wakeToken_ne hc
  cases htake : e.slab.take c.token with
  | none =>
    have hget := (Slab.take_eq_none_iff _ _).mp htake
    have hget' := (h.engines.slab.get?_eq hc).trans hget
    exact ⟨_, _, _, complete_of_get?_eq_none moved hget, complete_of_get?_eq_none moved hget',
      h.note _ _, .inl ⟨_, rfl⟩⟩
  | some r =>
    obtain ⟨context, slab⟩ := r
    obtain ⟨hp, slab', htake', hnext⟩ := h.take hc htake
    obtain ⟨hresult, hsettled⟩ := World.alike_settle (hR.host _ _) h.world context.pinned c.result
      moved hp
    have hcomplete' := complete_of_user moved htake' hne'
    rw [hresult] at hcomplete'
    refine ⟨_, _, _, complete_of_user moved htake hne, hcomplete', ?_, .inr ⟨_, rfl⟩⟩
    unfold called
    rw [hresult]
    let o := Outcome.ofResult (e.world.settle context.pinned c.result moved).2
    let n : Notice := .dispatched context.kind context.fd c.token o
    have hnoted := (hnext.withWorld (w := (e.world.settle context.pinned c.result moved).1)
      hsettled).note n n
    have hran := World.alike_run (hR.host _ _) hnoted.world context.callback o
    exact (hnoted.withWorld hran).countDispatched

/-- The first posted callback is run in both. -/
theorem runPosted (h : Abreast wake hidden index R e e') :
    (e.runPosted = none ∧ e'.runPosted = none) ∨
      ∃ e₁ e₁' d, e.runPosted = some (e₁, d) ∧ e'.runPosted = some (e₁', d) ∧
        ¬ d.token.Names index ∧ Abreast wake hidden index R e₁ e₁' := by
  unfold Engine.runPosted
  rw [h.engines.stats]
  rcases h.world.pop with ⟨hpop, hpop'⟩ | ⟨cb, w, w', hpop, hpop', hw⟩
  · simp only [hpop, hpop']
    exact .inl ⟨trivial, trivial⟩
  · simp only [hpop, hpop']
    have hran := h.withWorld (World.alike_run (hR.host _ _) hw cb .done)
    refine .inr ⟨_, _, _, rfl, rfl, ?_, hran.withStats _⟩
    intro hnames
    have hinternal := Token.isInternal_internal (UInt64.ofNat e.stats.injected)
    rw [hnames.1] at hinternal
    cases hinternal

end run

end Abreast

/-! ### Waiting -/

section waiting

variable [CompletionPort P H] [Os H]

/-- The answer of an engine's port to a wait. -/
def waitReply (e : Engine P H) (deadline : Option Nat) (rounds : Nat) : Reply P H Waited :=
  let (host, left) := Os.remaining e.world.host deadline
  CompletionPort.wait rounds e.port host e.world.memory left

theorem waitPort_eq (e : Engine P H) (deadline : Option Nat) (rounds : Nat) :
    e.waitPort deadline rounds =
      (e.absorb (e.waitReply deadline rounds), (e.waitReply deadline rounds).answer) := rfl

/-- A wait goes on after a completion of the engine's own read. -/
theorem await_of_ownRead {e₂ : Engine P H} {deadline : Option Nat} {rounds : Nat} {c : Completion}
    {moved : Transfer} (hw : (e.waitReply deadline rounds).answer = .completion c moved)
    (hc : (e.absorb (e.waitReply deadline rounds)).complete c moved = (e₂, .ok none))
    (hqueue : e₂.runPosted = none) :
    e.await deadline (rounds + 1) = e₂.await deadline rounds := by
  simp only [await, waitPort_eq, hw, hc, hqueue]

/-- A wait may read the clock. -/
def clocked (e : Engine P H) (deadline : Option Nat) : Station P H :=
  e.station.withHost (Os.remaining e.world.host deadline).1

end waiting

/-- Two pumps come to the same. -/
structure PumpsAlike (wake : Fd) (hidden : StorageId) (index : UInt32)
    (R : Station P H → Station P' H → Prop) (r : Engine P H × Pumped) (r' : Engine P' H × Pumped) :
    Prop where
  answer : r'.2 = r.2
  /-- What is dispatched is not the engine's own read. -/
  others : ∀ d, r.2 = .dispatched d → ¬ d.token.Names index
  engines : Abreast wake hidden index R r.1 r'.1

namespace Abreast

section pump

variable [CompletionPort P H] [CompletionPort P' H] [Os H]

omit [CompletionPort P' H] in
/-- An engine that takes a completion of its own read still matches itself. -/
theorem taken (h : Abreast wake hidden index R e e') {Q : Station P H → Prop}
    (hrearm : ∀ {x}, Q x → x.armed = none → x.Accepts wake hidden index ∧
      ∀ x', x.Rearms wake hidden index x' → Q x')
    {r : Reply P H Waited} {c : Completion} (moved : Transfer) (hc : e.wakeToken = some c.token)
    (hok : 0 ≤ c.result.toInt) (hQ : Q (e.absorb r).station.disarm) :
    ∃ e₂, (e.absorb r).complete c moved = (e₂, .ok none) ∧ Q e₂.station ∧
      e.Matches wake index e₂ := by
  have hself := h.engines.trans h.engines.symm
  have habsorbed := hself.beside e.port e.world.host e.world.journal r.port r.host
    (e.world.journal ++ r.notices) id rfl
  obtain rfl := h.buffer
  obtain ⟨e₂, hcomplete, hst, hmatch⟩ := (habsorbed.symm.trans habsorbed).complete_ownRead
    hrearm moved hc hok hQ
  exact ⟨e₂, hcomplete, hst, habsorbed.trans hmatch⟩

variable (hR : Interrupts wake hidden index R left)

include hR

/-- It does not matter whether a wait reads the clock. -/
theorem clocked_iff {x : Station P' H} (deadline : Option Nat) :
    R (e.clocked deadline) x ↔ R e.station x := by
  cases deadline with
  | none => exact Iff.rfl
  | some d => exact hR.clock (x := e.station)

theorem clocked_iff' {x : Station P H} (deadline : Option Nat) :
    R x (e'.clocked deadline) ↔ R x e'.station := by
  cases deadline with
  | none => exact Iff.rfl
  | some d => exact hR.clock' (y := e'.station)

omit hR in
theorem left_clocked_le (hR : Interrupts wake hidden index R left) (e' : Engine P' H)
    (deadline : Option Nat) : left (e'.clocked deadline) ≤ left e'.station := by
  cases deadline with
  | none => exact Nat.le_refl _
  | some d => exact hR.left_clock e'.station

/-- How the answers to the waits of two engines compare. -/
theorem waitReply (h : Abreast wake hidden index R e e') {deadline deadline' : Option Nat}
    (hsome : deadline.isSome = deadline'.isSome) (rounds rounds' : Nat) :
    WaitsAlike index R left (e.clocked deadline) (e'.clocked deadline') rounds rounds'
      (e.waitReply deadline rounds) (e'.waitReply deadline' rounds') := by
  have harmed : e.wakeToken ≠ none := by
    obtain ⟨t, _, _, ht, _⟩ := h.engines.armed.read
    simp [ht]
  have harmed' : e'.wakeToken ≠ none := by
    obtain ⟨t, _, _, ht, _⟩ := h.engines.armed'.read
    simp [ht]
  have hstations : R (e.clocked deadline) (e'.clocked deadline') :=
    (clocked_iff hR deadline).mpr ((clocked_iff' hR deadline').mpr h.stations)
  have hleft : (Os.remaining e.world.host deadline).2.isSome =
      (Os.remaining e'.world.host deadline').2.isSome := by
    cases deadline <;> cases deadline' <;> first | rfl | cases hsome
  exact hR.wait hstations harmed harmed' h.memory hleft rounds rounds'

/-- A wait that both ports answer the same ends alike. -/
theorem await_of_same {deadline deadline' : Option Nat} {rounds rounds' : Nat}
    (h : Abreast wake hidden index R (e.absorb (e.waitReply deadline rounds))
      (e'.absorb (e'.waitReply deadline' rounds')))
    (hanswer : (e'.waitReply deadline' rounds').answer = (e.waitReply deadline rounds).answer)
    (hc : ∀ c moved, (e.waitReply deadline rounds).answer = .completion c moved →
      ¬ c.token.Names index) :
    PumpsAlike wake hidden index R (e.await deadline (rounds + 1))
      (e'.await deadline' (rounds' + 1)) := by
  cases hw : (e.waitReply deadline rounds).answer with
  | completion c moved =>
    have hother := hc c moved hw
    obtain ⟨e₁, e₁', r, hcomplete, hcomplete', h₁, hr⟩ := complete hR h moved hother
    simp only [Engine.await, waitPort_eq, hanswer, hw, hcomplete, hcomplete']
    rcases hr with ⟨f, rfl⟩ | ⟨o, rfl⟩
    · exact ⟨rfl, fun _ hd => (by cases hd), h₁⟩
    · refine ⟨rfl, fun d hd => ?_, h₁⟩
      exact Pumped.dispatched.inj hd ▸ hother
  | timeout =>
    simp only [Engine.await, waitPort_eq, hanswer, hw]
    exact ⟨rfl, fun _ hd => (by cases hd), h.countTimeout⟩
  | fault f =>
    simp only [Engine.await, waitPort_eq, hanswer, hw]
    exact ⟨rfl, fun _ hd => (by cases hd), h⟩
  | blocked =>
    simp only [Engine.await, waitPort_eq, hanswer, hw]
    exact ⟨rfl, fun _ hd => (by cases hd), h⟩
  | unfinished =>
    simp only [Engine.await, waitPort_eq, hanswer, hw]
    exact ⟨rfl, fun _ hd => (by cases hd), h⟩
  | panicked =>
    simp only [Engine.await, waitPort_eq, hanswer, hw]
    exact ⟨rfl, fun _ hd => (by cases hd), h⟩

omit [CompletionPort P H] [CompletionPort P' H] hR in
/-- Nothing is posted in one engine if nothing is in the other. -/
theorem runPosted_eq_none_iff (h : Abreast wake hidden index R e e') :
    e'.runPosted = none ↔ e.runPosted = none := by
  rw [Engine.runPosted_eq_none_iff, Engine.runPosted_eq_none_iff, h.engines.injector]

/-- The second engine takes a completion of its own read, and no more interruptions are left than
there were. -/
theorem taken' (h : Abreast wake hidden index R e e') {x : Station P H} {r : Reply P' H Waited}
    {c : Completion} (moved : Transfer) (hc : e'.wakeToken = some c.token)
    (hok : 0 ≤ c.result.toInt) (hx : R x (e'.absorb r).station.disarm) :
    ∃ e₂, (e'.absorb r).complete c moved = (e₂, .ok none) ∧ R x e₂.station ∧
      left e₂.station ≤ left (e'.absorb r).station.disarm ∧ e'.Matches wake index e₂ := by
  let Q (y : Station P' H) : Prop := R x y ∧ left y ≤ left (e'.absorb r).station.disarm
  obtain ⟨e₂, hcomplete, ⟨hst, hleft⟩, hmatch⟩ := h.symm.taken (Q := Q)
    (fun hy harmed => (hR.rearm' hy.1 harmed).imp_right fun hrearms y' hy' =>
      (hrearms y' hy').imp_right (Nat.le_trans · hy.2)) moved hc hok ⟨hx, Nat.le_refl _⟩
  exact ⟨e₂, hcomplete, hst, hleft, hmatch⟩

/-- A wait that is interrupted by completions of the engine's own read comes to the same, unless
it is granted too few rounds. -/
theorem await (h : Abreast wake hidden index R e e') (hqueue : e.runPosted = none)
    {deadline deadline' : Option Nat} (hsome : deadline.isSome = deadline'.isSome)
    {rounds rounds' : Nat} (hends : (e.await deadline rounds).2 ≠ .unfinished)
    (hends' : (e'.await deadline' rounds').2 ≠ .unfinished ∨ rounds + left e'.station ≤ rounds') :
    PumpsAlike wake hidden index R (e.await deadline rounds) (e'.await deadline' rounds') := by
  -- The second engine makes a round of its own whenever it is interrupted.
  induction rounds' generalizing e e' rounds with
  | zero =>
    rcases hends' with hends' | hmany
    · exact absurd rfl hends'
    · obtain rfl : rounds = 0 := by omega
      exact absurd rfl hends
  | succ rounds' ih =>
    cases rounds with
    | zero => exact absurd rfl hends
    | succ rounds =>
      have hclock := left_clocked_le hR e' deadline'
      cases waitReply hR h hsome rounds rounds' with
      | interrupted c moved hw' hc' hok' hst hleft =>
        obtain ⟨e₂', hcomplete', hst₂, hleft₂, hmatch'⟩ := taken' hR h moved hc' hok' hst
        have h₂ : Abreast wake hidden index R e e₂' :=
          ⟨h.engines.trans hmatch', (clocked_iff hR deadline).mp hst₂, h.buffer⟩
        have hless : left e₂'.station < left e'.station :=
          Nat.lt_of_le_of_lt hleft₂ (Nat.lt_of_lt_of_le hleft hclock)
        rw [await_of_ownRead hw' hcomplete' (h₂.runPosted_eq_none_iff.mpr hqueue)] at hends' ⊢
        exact ih h₂ hqueue hends (hends'.imp_right (by omega))
      | woken c c' moved moved' hw hw' hc hc' hok hok' hst hleft =>
        obtain ⟨e₂, hcomplete, hst₂, hmatch⟩ := h.taken (Q := fun x => R x _) hR.rearm moved hc
          hok hst
        obtain ⟨e₂', hcomplete', hst₂', hleft₂, hmatch'⟩ := taken' hR h moved' hc' hok' hst₂
        have h₂ : Abreast wake hidden index R e₂ e₂' :=
          ⟨hmatch.symm.trans (h.engines.trans hmatch'), hst₂', hmatch.wakeBuffer.trans h.buffer⟩
        have hqueue₂ : e₂.runPosted = none := by
          rw [Engine.runPosted_eq_none_iff] at hqueue ⊢
          rw [hmatch.injector, hqueue]
        have hno_more : left e₂'.station ≤ left e'.station :=
          Nat.le_trans hleft₂ (Nat.le_trans hleft hclock)
        rw [await_of_ownRead hw hcomplete hqueue₂] at hends ⊢
        rw [await_of_ownRead hw' hcomplete' (h₂.runPosted_eq_none_iff.mpr hqueue₂)] at hends' ⊢
        exact ih h₂ hqueue₂ hends (hends'.imp_right (by omega))
      | same hanswer hc hst =>
        have h₁ := h.beside hst (e.world.journal ++ (e.waitReply deadline rounds).notices)
          (e'.world.journal ++ (e'.waitReply deadline' rounds').notices) id h.engines.associated
        exact await_of_same hR h₁ hanswer hc
      | unfinished hw =>
        rcases hw with hw | ⟨hw', hfew⟩
        · simp only [Engine.await, waitPort_eq, hw] at hends
          exact absurd rfl hends
        · rcases hends' with hends' | hmany
          · simp only [Engine.await, waitPort_eq, hw'] at hends'
            exact absurd rfl hends'
          · omega

/-- A pump that is interrupted by completions of the engine's own read comes to the same, unless
it is granted too few rounds or a clock cannot tell its time limit. -/
theorem pump (h : Abreast wake hidden index R e e') {timeout : Option Duration}
    (htells : Os.Tells e.world.host timeout) (htells' : Os.Tells e'.world.host timeout)
    {rounds rounds' : Nat} (hends : (e.pump timeout rounds).2 ≠ .unfinished)
    (hends' : (e'.pump timeout rounds').2 ≠ .unfinished ∨ rounds + left e'.station ≤ rounds') :
    PumpsAlike wake hidden index R (e.pump timeout rounds) (e'.pump timeout rounds') := by
  have hst : R (e.station.withHost (Os.deadline e.world.host timeout).1)
      (e'.station.withHost (Os.deadline e'.world.host timeout).1) := by
    cases timeout with
    | none => exact h.stations
    | some d => exact hR.clock.mpr (hR.clock'.mpr h.stations)
  have hleft : left (e'.withHost (Os.deadline e'.world.host timeout).1).station ≤
      left e'.station := by
    cases timeout with
    | none => exact Nat.le_refl _
    | some d => exact hR.left_clock e'.station
  have hsome : (timeout.map fun d => (Os.now e.world.host).2 + d.nanoseconds).isSome =
      (timeout.map fun d => (Os.now e'.world.host).2 + d.nanoseconds).isSome := by
    rw [Option.isSome_map, Option.isSome_map]
  have h₁ : Abreast wake hidden index R (e.withHost (Os.deadline e.world.host timeout).1)
      (e'.withHost (Os.deadline e'.world.host timeout).1) :=
    h.beside hst e.world.journal e'.world.journal id h.engines.associated
  rw [Engine.pump_of_tells htells] at hends ⊢
  rw [Engine.pump_of_tells htells'] at hends' ⊢
  rcases runPosted hR h₁ with ⟨hnone, hnone'⟩ | ⟨e₁, e₁', d, hsome₁, hsome₁', hd, h₂⟩
  · rw [hnone] at hends ⊢
    rw [hnone'] at hends' ⊢
    exact await hR h₁ hnone hsome hends (hends'.imp_right (by omega))
  · rw [hsome₁, hsome₁']
    exact ⟨rfl, fun d' hd' => Pumped.dispatched.inj hd' ▸ hd, h₂⟩

end pump

end Abreast

end Proactor.Engine
