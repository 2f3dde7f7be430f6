import Proactor.Proofs.Drain
import Proactor.Proofs.Hidden
import Proactor.Proofs.Reoccupied

/-!
# Interrupted waits

Two engines on ports that answer alike, except that the waits of the second port also return
completions of the engine's own read. Such a completion changes the port, the bytes that the read
goes to, and the generation of the slot that the read is in, and nothing else. All that users do
comes to the same in both engines.
-/

namespace Proactor

variable {P P' P'' H α : Type}

/-! ### Ports that answer alike -/

/-- A port and its host, and the token under which the engine's own read is armed, if it is. -/
structure Station (P H : Type) where
  port : P
  host : H
  armed : Option Token

namespace Station

def withHost (x : Station P H) (host : H) : Station P H := { x with host }

/-- The station after a call on its port. -/
def absorb (x : Station P H) (r : Reply P H α) : Station P H :=
  { x with port := r.port, host := r.host }

/-- The station when the engine's own read is over. -/
def disarm (x : Station P H) : Station P H := { x with armed := none }

/-- The station when the engine's own read is in flight. -/
def arm (x : Station P H) (t : Token) : Station P H := { x with armed := some t }

end Station

namespace Station

variable [CompletionPort P H]

/-- The station when its port was flushed. -/
def flush (x : Station P H) (m : Memory) : Station P H :=
  x.absorb (CompletionPort.flush x.port x.host m)

variable (wake : Fd) (hidden : StorageId) (index : UInt32)

/-- The answer of the port to the entry of the engine's own read. -/
def ownReply (x : Station P H) (m : Memory) (n : Nat) (t : Token) :
    Reply P H (Except Fault Unit) :=
  CompletionPort.push x.port x.host m ((Submission.ownRead wake hidden n).entry t)

/-- The port takes the engine's own read. -/
def Accepts (x : Station P H) : Prop :=
  ∀ m n t, t.Names index → (x.ownReply wake hidden m n t).answer = .ok ()

/-- The station when the engine's own read was pushed under a token. -/
def pushOwnRead (x : Station P H) (m : Memory) (n : Nat) (t : Token) : Station P H :=
  (x.absorb (x.ownReply wake hidden m n t)).arm t

/-- The engine's own read is in flight again, and the port may have been flushed behind it. -/
inductive Rearms (x : Station P H) : Station P H → Prop where
  | pushed (m : Memory) (n : Nat) (t : Token) (ht : t.Names index) :
    Rearms x (x.pushOwnRead wake hidden m n t)
  | flushed (m m' : Memory) (n : Nat) (t : Token) (ht : t.Names index) :
    Rearms x ((x.pushOwnRead wake hidden m n t).flush m')

end Station

/-- How the answers to a wait on either port compare. Whatever names the slot of the engine's own
read is the completion of that read, and it succeeded. -/
inductive WaitsAlike (index : UInt32) (R : Station P H → Station P' H → Prop)
    (left : Station P' H → Nat) (x : Station P H) (y : Station P' H) (rounds rounds' : Nat)
    (r : Reply P H Waited) (r' : Reply P' H Waited) : Prop where
  /-- The second wait returns an additional completion, and the first one is yet to come. -/
  | interrupted (c : Completion) (moved : Transfer) (h : r'.answer = .completion c moved)
    (hc : y.armed = some c.token) (hok : 0 ≤ c.result.toInt) (hR : R x (y.absorb r').disarm)
    (hleft : left (y.absorb r').disarm < left y)
  /-- Both return completions of the engine's own read. -/
  | woken (c c' : Completion) (moved moved' : Transfer) (h : r.answer = .completion c moved)
    (h' : r'.answer = .completion c' moved') (hc : x.armed = some c.token)
    (hc' : y.armed = some c'.token) (hok : 0 ≤ c.result.toInt) (hok' : 0 ≤ c'.result.toInt)
    (hR : R (x.absorb r).disarm (y.absorb r').disarm)
    (hleft : left (y.absorb r').disarm ≤ left y)
  | same (h : r'.answer = r.answer)
    (hc : ∀ c moved, r.answer = .completion c moved → ¬ c.token.Names index)
    (hR : R (x.absorb r) (y.absorb r'))
  /-- One of them was given too few rounds, and the second one only if it was given fewer. -/
  | unfinished (h : r.answer = .unfinished ∨ r'.answer = .unfinished ∧ rounds' < rounds)

/-- Stations that are related so answer alike, but for additional completions of the engine's own
read, of which there are only so many left. That read is in the slot `index`, goes from the
counter `wake` to the storage `hidden`, and can always be armed again. -/
structure Interrupts [CompletionPort P H] [CompletionPort P' H] [Os H] (wake : Fd)
    (hidden : StorageId) (index : UInt32) (R : Station P H → Station P' H → Prop)
    (left : Station P' H → Nat) : Prop where
  /-- It does not matter how often the clock is read. -/
  clock : ∀ {x y}, R (x.withHost (Os.now x.host).1) y ↔ R x y
  clock' : ∀ {x y}, R x (y.withHost (Os.now y.host).1) ↔ R x y
  left_clock : ∀ y, left (y.withHost (Os.now y.host).1) ≤ left y
  host : ∀ (x : Station P H) (y : Station P' H),
    Os.Agree fun h h' => R (x.withHost h) (y.withHost h')
  associate : ∀ {x y}, R x y → ∀ fd,
    (CompletionPort.associate y.port y.host fd).answer =
        (CompletionPort.associate x.port x.host fd).answer ∧
      R (x.absorb (CompletionPort.associate x.port x.host fd))
        (y.absorb (CompletionPort.associate y.port y.host fd))
  push : ∀ {x y}, R x y → ∀ {m m' : Memory}, m.Alike hidden m' → ∀ entry : Entry,
    ¬ entry.token.Names index →
      (CompletionPort.push y.port y.host m' entry).answer =
          (CompletionPort.push x.port x.host m entry).answer ∧
        R (x.absorb (CompletionPort.push x.port x.host m entry))
          (y.absorb (CompletionPort.push y.port y.host m' entry))
  flush : ∀ {x y}, R x y → ∀ {m m' : Memory}, m.Alike hidden m' →
    R (x.flush m) (y.flush m')
  rearm : ∀ {x y}, R x y → x.armed = none → x.Accepts wake hidden index ∧
    ∀ x', x.Rearms wake hidden index x' → R x' y
  rearm' : ∀ {x y}, R x y → y.armed = none → y.Accepts wake hidden index ∧
    ∀ y', y.Rearms wake hidden index y' → R x y' ∧ left y' ≤ left y
  wait : ∀ {x y}, R x y → x.armed ≠ none → y.armed ≠ none → ∀ {m m' : Memory},
    m.Alike hidden m' → ∀ {limit limit' : Option Duration}, limit.isSome = limit'.isSome →
      ∀ rounds rounds', WaitsAlike index R left x y rounds rounds'
        (CompletionPort.wait rounds x.port x.host m limit)
        (CompletionPort.wait rounds' y.port y.host m' limit')

/-! ### Engines that match -/

namespace Engine

/-- The port of an engine, as far as it is related to another one. -/
def station (e : Engine P H) : Station P H := ⟨e.port, e.world.host, e.wakeToken⟩

/-- The engine's own read is in flight, in the slot `index`, on the counter `wake`. -/
structure Armed (wake : Fd) (index : UInt32) (e : Engine P H) : Prop where
  live : e.closed = false
  counter : e.world.injector.wake = wake
  /-- The counter need not be registered any more. -/
  registered : wake.toInt < 0 ∨ wake ∈ e.associated
  read : ∃ t context n, e.wakeToken = some t ∧ t.index = index ∧ e.slab.get? t = some context ∧
    context.pinned = .reading ⟨e.wakeBuffer, 0, n⟩

/-- The engines differ in nothing that users can tell. -/
structure Matches (wake : Fd) (index : UInt32) (e : Engine P H) (e' : Engine P' H) : Prop where
  armed : e.Armed wake index
  armed' : e'.Armed wake index
  memory : e.world.memory.Alike e.wakeBuffer e'.world.memory
  injector : e'.world.injector = e.world.injector
  calls : e'.world.calls = e.world.calls
  slab : e.slab.Alike index e'.slab
  associated : e'.associated = e.associated
  extensions : e'.extensions = e.extensions
  config : e'.config = e.config
  wakeBuffer : e'.wakeBuffer = e.wakeBuffer
  stats : e'.stats = e.stats
  /-- Operations of users do not hold the storage of the engine's own read. -/
  users : ∀ t context, e.slab.get? t = some context → ¬ t.Names index →
    e.wakeBuffer ∉ context.pinned.leases

variable {wake : Fd} {index : UInt32} {e : Engine P H} {e' : Engine P' H} {e'' : Engine P'' H}

theorem Matches.symm (h : Matches wake index e e') : Matches wake index e' e where
  armed := h.armed'
  armed' := h.armed
  memory := h.wakeBuffer ▸ h.memory.symm
  injector := h.injector.symm
  calls := h.calls.symm
  slab := h.slab.symm
  associated := h.associated.symm
  extensions := h.extensions.symm
  config := h.config.symm
  wakeBuffer := h.wakeBuffer.symm
  stats := h.stats.symm
  users t context hget ht := by
    rw [h.wakeBuffer]
    exact h.users t context ((h.slab.get?_eq ht).symm.trans hget) ht

theorem Matches.trans (h : Matches wake index e e') (h' : Matches wake index e' e'') :
    Matches wake index e e'' where
  armed := h.armed
  armed' := h'.armed'
  memory := h.memory.trans (h.wakeBuffer ▸ h'.memory)
  injector := h'.injector.trans h.injector
  calls := h'.calls.trans h.calls
  slab := h.slab.trans h'.slab
  associated := h'.associated.trans h.associated
  extensions := h'.extensions.trans h.extensions
  config := h'.config.trans h.config
  wakeBuffer := h'.wakeBuffer.trans h.wakeBuffer
  stats := h'.stats.trans h.stats
  users := h.users

/-- As many operations of users are in flight. -/
theorem Matches.outstanding (h : Matches wake index e e') : e'.outstanding = e.outstanding := by
  obtain ⟨t, _, _, ht, _⟩ := h.armed.read
  obtain ⟨t', _, _, ht', _⟩ := h.armed'.read
  simp only [Engine.outstanding, h.slab.live, ht, ht', Option.isSome_some]

/-- The port and the host do not matter, as long as the event counter stays registered. -/
theorem Matches.beside (h : Matches wake index e e') (p : P) (host : H) (j : List Notice) (p' : P')
    (host' : H) (j' : List Notice) {a a' : List Fd} (ha : wake ∈ e.associated → wake ∈ a)
    (ha' : a' = a) : Matches wake index (e.beside p host j a) (e'.beside p' host' j' a') where
  armed := ⟨h.armed.live, h.armed.counter, h.armed.registered.imp_right ha, h.armed.read⟩
  armed' := ⟨h.armed'.live, h.armed'.counter,
    h.armed.registered.imp_right fun hmem => ha' ▸ ha hmem, h.armed'.read⟩
  memory := h.memory
  injector := h.injector
  calls := h.calls
  slab := h.slab
  associated := ha'
  extensions := h.extensions
  config := h.config
  wakeBuffer := h.wakeBuffer
  stats := h.stats
  users := h.users

theorem Matches.withStats (h : Matches wake index e e') (stats : Stats) :
    Matches wake index { e with stats } { e' with stats } where
  armed := ⟨h.armed.live, h.armed.counter, h.armed.registered, h.armed.read⟩
  armed' := ⟨h.armed'.live, h.armed'.counter, h.armed'.registered, h.armed'.read⟩
  memory := h.memory
  injector := h.injector
  calls := h.calls
  slab := h.slab
  associated := h.associated
  extensions := h.extensions
  config := h.config
  wakeBuffer := h.wakeBuffer
  stats := rfl
  users := h.users

/-- Nothing but what user code can tell apart matters of the worlds. -/
theorem Matches.withWorld (h : Matches wake index e e') {S : H → H → Prop} {w w' : World H}
    (hw : w.Alike S e.wakeBuffer wake w') :
    Matches wake index (e.withWorld w) (e'.withWorld w') where
  armed := ⟨h.armed.live, hw.wake, h.armed.registered, h.armed.read⟩
  armed' := ⟨h.armed'.live, (congrArg Injector.wake hw.injector).trans hw.wake,
    h.armed'.registered, h.armed'.read⟩
  memory := hw.memory
  injector := hw.injector
  calls := hw.calls
  slab := h.slab
  associated := h.associated
  extensions := h.extensions
  config := h.config
  wakeBuffer := h.wakeBuffer
  stats := h.stats
  users := h.users

/-- The slabs stay alike when operations of users come and go. -/
theorem Matches.withSlab (h : Matches wake index e e') {s : Slab Context} {s' : Slab Context}
    (hs : s.Alike index s')
    (hread : ∀ t, t.Names index → s.get? t = e.slab.get? t ∧ s'.get? t = e'.slab.get? t)
    (husers : ∀ t context, s.get? t = some context → ¬ t.Names index →
      e.wakeBuffer ∉ context.pinned.leases) :
    Matches wake index (e.withSlab s) (e'.withSlab s') where
  armed := by
    obtain ⟨t, context, n, htoken, hindex, hget, hpinned⟩ := h.armed.read
    obtain ⟨hnames, _⟩ := Slab.names_of_get? hget
    refine ⟨h.armed.live, h.armed.counter, h.armed.registered, t, context, n, htoken, hindex, ?_,
      hpinned⟩
    exact ((hread t (hindex ▸ hnames)).1).trans hget
  armed' := by
    obtain ⟨t, context, n, htoken, hindex, hget, hpinned⟩ := h.armed'.read
    obtain ⟨hnames, _⟩ := Slab.names_of_get? hget
    refine ⟨h.armed'.live, h.armed'.counter, h.armed'.registered, t, context, n, htoken, hindex, ?_,
      hpinned⟩
    exact ((hread t (hindex ▸ hnames)).2).trans hget
  memory := h.memory
  injector := h.injector
  calls := h.calls
  slab := hs
  associated := h.associated
  extensions := h.extensions
  config := h.config
  wakeBuffer := h.wakeBuffer
  stats := h.stats
  users := husers

/-! ### An additional completion -/

section rearm

variable [CompletionPort P H] {Q : Station P H → Prop}

/-- Behind a submission a port is flushed or not. -/
theorem flushIfEager_station (armed : Option Token) (hQ : Q ⟨e.port, e.world.host, armed⟩)
    (hflushed : ∀ m, Q (Station.flush ⟨e.port, e.world.host, armed⟩ m)) (kind : Kind) :
    ∃ p host j, e.flushIfEager kind = e.beside p host j e.associated ∧ Q ⟨p, host, armed⟩ := by
  unfold flushIfEager flushBehind
  split
  · dsimp only
    split <;> exact ⟨_, _, _, rfl, hflushed e.world.memory⟩
  · exact ⟨_, _, _, rfl, hQ⟩

/-- What the engine's own read will hold in flight. -/
def ownContext (e : Engine P H) : Context :=
  contextOf (.ownRead e.world.injector.wake e.wakeBuffer (e.world.memory.capacity e.wakeBuffer))
    .silent

/-- The engine's own read is put in flight once its descriptor is registered, if its buffer is idle
and the port takes its entry. -/
theorem armWake_of_registered {m : Memory} {p : P} {host : H} {j : List Notice} {a : List Fd}
    {x : Station P H} (hlease : e.world.memory.lease? e.wakeBuffer = some m)
    (hregister : (e.withMemory m).register e.world.injector.wake =
      ((e.withMemory m).beside p host j a, .ok ()))
    (hx : x = (⟨p, host, none⟩ : Station P H).pushOwnRead e.world.injector.wake e.wakeBuffer m
      (e.world.memory.capacity e.wakeBuffer) (e.slab.insert e.ownContext).2)
    (haccepted : ((⟨p, host, none⟩ : Station P H).ownReply e.world.injector.wake e.wakeBuffer m
      (e.world.memory.capacity e.wakeBuffer) (e.slab.insert e.ownContext).2).answer = .ok ())
    (hpushed : Q x) (hflushed : ∀ m', Q (x.flush m')) :
    ∃ p' host' j', e.armWake =
        ({ ((e.withSlab (e.slab.insert e.ownContext).1).withMemory m).beside p' host' j' a with
          wakeToken := some (e.slab.insert e.ownContext).2 }, .ok ()) ∧
      Q ⟨p', host', some (e.slab.insert e.ownContext).2⟩ := by
  subst hx
  let s : Submission :=
    .ownRead e.world.injector.wake e.wakeBuffer (e.world.memory.capacity e.wakeBuffer)
  let t := (e.slab.insert e.ownContext).2
  have hprepared : Submission.wake e.world.memory e.world.injector.wake e.wakeBuffer = .ok (m, s) :=
    Submission.wake_eq_ok_iff.mpr ⟨hlease, rfl⟩
  have hhanded : (e.withMemory m).handOff s .silent = _ := handOff_of_push_ok hregister haccepted
  let pushed := (((e.withMemory m).beside p host j a).pushed s .silent).note
    (.submitted s.kind s.fd t)
  obtain ⟨p', host', j', hflush, hQ⟩ :=
    flushIfEager_station (e := pushed) (some t) hpushed hflushed s.kind
  refine ⟨p', host', j', armWake_of_handOff hprepared (hhanded.trans ?_), hQ⟩
  exact congrArg (·, Except.ok t) hflush

/-- The engine's own read is put in flight if its buffer is idle and the port takes it. -/
theorem exists_armWake {m : Memory}
    (hregistered : e.world.injector.wake.toInt < 0 ∨ e.world.injector.wake ∈ e.associated)
    (hlease : e.world.memory.lease? e.wakeBuffer = some m)
    (hnames : (e.slab.insert e.ownContext).2.Names index)
    (haccepts : e.station.Accepts e.world.injector.wake e.wakeBuffer index)
    (hrearms : ∀ x, e.station.Rearms e.world.injector.wake e.wakeBuffer index x → Q x) :
    ∃ p host j, e.armWake = ({ ((e.withSlab (e.slab.insert e.ownContext).1).withMemory m).beside
        p host j e.associated with wakeToken := some (e.slab.insert e.ownContext).2 }, .ok ()) ∧
      Q ⟨p, host, some (e.slab.insert e.ownContext).2⟩ := by
  let n := e.world.memory.capacity e.wakeBuffer
  let t := (e.slab.insert e.ownContext).2
  have hregister : (e.withMemory m).register e.world.injector.wake = (e.withMemory m, .ok ()) :=
    (e.withMemory m).register_of_not_asked hregistered
  exact armWake_of_registered (j := e.world.journal) hlease hregister rfl (haccepts m n t hnames)
    (hrearms _ (.pushed m n t hnames)) fun m' => hrearms _ (.flushed m m' n t hnames)

/-- The descriptor of an operation in flight need not be registered any more. -/
theorem registered_of_handOff {e e' : Engine P H} {s : Submission} {cb : Callback} {t : Token}
    (h : e.handOff s cb = (e', .ok t)) : s.fd.toInt < 0 ∨ s.fd ∈ e'.associated := by
  rcases handOff_cases e s cb with ⟨e₁, f, hr⟩ | ⟨e₁, f, hr, hp⟩ | ⟨e₁, hr, hp⟩
  · rw [handOff_of_register_error cb hr] at h
    cases h
  · rw [handOff_of_push_error hr hp] at h
    cases h
  · obtain ⟨p, host, j, hflush, _⟩ := flushIfEager_station (Q := fun _ => True)
      (e := (e₁.pushed s cb).note (.submitted s.kind s.fd (e₁.slab.insert (contextOf s cb)).2))
      none trivial (fun _ => trivial) s.kind
    rw [handOff_of_push_ok hr hp, hflush] at h
    obtain rfl := (Prod.mk.inj h).1
    by_cases hask : s.fd.toInt < 0 ∨ s.fd ∈ e.associated
    · rw [e.register_of_not_asked hask] at hr
      obtain rfl := (Prod.mk.inj hr).1
      exact hask
    · obtain ⟨hneg, hnew⟩ := not_or.mp hask
      rw [e.register_of_asked (Int.not_lt.mp hneg) hnew] at hr
      split at hr
      · obtain rfl := (Prod.mk.inj hr).1
        exact .inr List.mem_cons_self
      · cases hr

/-- The engine's own read, once it was put in flight, is in some slot. -/
theorem armed_of_armWake {e e' : Engine P H} (hlive : e.closed = false) (hs : e.slab.Sound)
    (hroom : e'.slab.slots.length ≤ 2 ^ 32) (h : e.armWake = (e', .ok ())) :
    ∃ t, e'.wakeToken = some t ∧ e'.Armed e.world.injector.wake t.index := by
  unfold armWake at h
  cases hw : Submission.wake e.world.memory e.world.injector.wake e.wakeBuffer with
  | error f =>
    rw [hw] at h
    cases h
  | ok r =>
    obtain ⟨m, s⟩ := r
    rw [hw] at h
    dsimp only at h
    split at h
    · next e₁ t hh =>
      obtain ⟨_, rfl⟩ := Submission.wake_eq_ok_iff.mp hw
      have hregistered := registered_of_handOff hh
      obtain ⟨rfl, p, host, j, a, rfl⟩ := handOff_eq_ok hh
      obtain rfl := (Prod.mk.inj h).1
      have hget := hs.get?_insert e.ownContext hroom (e.slab.insert e.ownContext).2
      rw [if_pos rfl] at hget
      exact ⟨_, rfl, hlive, rfl, hregistered, _, _, _, rfl, rfl, hget, rfl⟩
    · cases h

variable [Os H]

/-- A completion of the engine's own read ends with the read armed again, and does not show. -/
theorem Matches.complete_ownRead (hself : e.Matches wake index e)
    (hrearm : ∀ {x}, Q x → x.armed = none → x.Accepts wake e.wakeBuffer index ∧
      ∀ x', x.Rearms wake e.wakeBuffer index x' → Q x')
    {c : Completion} (moved : Transfer) (hc : e.wakeToken = some c.token)
    (hok : 0 ≤ c.result.toInt) (hQ : Q e.station.disarm) :
    ∃ e₂, e.complete c moved = (e₂, .ok none) ∧ Q e₂.station ∧ e.Matches wake index e₂ := by
  obtain rfl : e.world.injector.wake = wake := hself.armed.counter
  obtain ⟨t, context, n, htoken, hindex, hget, hpinned⟩ := hself.armed.read
  obtain rfl := Option.some.inj (htoken.symm.trans hc)
  obtain ⟨slab, htake⟩ := Slab.exists_take hget
  -- The storage of the read is given back, and is idle for the next one.
  let m := (e.world.memory.writeArea ⟨e.wakeBuffer, 0, n⟩ moved.data).release e.wakeBuffer
  have hsettle : e.world.settle context.pinned c.result moved =
      ({ e.world with memory := m }, c.result) := by
    rw [hpinned]
    rfl
  obtain ⟨hlease, hmemory⟩ := hself.memory.relend ⟨e.wakeBuffer, 0, n⟩ moved.data rfl
  -- The next one takes the slot that was just vacated.
  let e₁ : Engine P H := { e with slab, world := { e.world with memory := m }, wakeToken := none }
  obtain ⟨hnames, hreached, halike⟩ := hself.slab.sound.alike_take_insert htake e₁.ownContext
  rw [hindex] at hnames halike
  obtain ⟨haccepts, hrearms⟩ := hrearm hQ rfl
  obtain ⟨p, host, j, harmed, hstation⟩ := exists_armWake (e := e₁) hself.armed.registered hlease
    hnames haccepts hrearms
  let e₂ : Engine P H :=
    { ((e₁.withSlab (slab.insert e₁.ownContext).1).withMemory (m.setLend e.wakeBuffer .lent)).beside
        p host j e.associated with wakeToken := some (slab.insert e₁.ownContext).2 }
  have hrearmed : e₁.rearmWake c.result = e₂ := by
    have hlive : ¬ e₁.closed = true := by simp [e₁, hself.armed.live]
    simp only [rearmWake, if_neg hlive, if_neg (Int.not_lt.mpr hok), harmed]
    rfl
  have hcomplete : e.complete c moved = (e₂, .ok none) := by
    simp only [complete, htake, hsettle, if_pos hc]
    exact congrArg (·, Except.ok none) hrearmed
  refine ⟨e₂, hcomplete, hstation, ?_⟩
  exact {
    armed := hself.armed
    armed' := ⟨hself.armed.live, rfl, hself.armed.registered, _, _, m.capacity e.wakeBuffer, rfl,
      hnames.2, hreached, rfl⟩
    memory := hmemory
    injector := rfl
    calls := rfl
    slab := halike
    associated := rfl
    extensions := rfl
    config := rfl
    wakeBuffer := rfl
    stats := rfl
    users := hself.users }

end rearm

end Engine

end Proactor
