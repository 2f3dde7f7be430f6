import Proactor.Proofs.Slab
import Proactor.Proofs.Submission

/-!
# Handing off

What a submission can come to, and what else it can touch. Either the port takes the entry, and
then there is one context more, or it refuses, and then slab and memory are as they were. Apart
from that only the port, the host, the journal and the registered descriptors are changed.
-/

namespace Proactor.Engine

variable {P H : Type}

/-- The engine with all that calls on its port can change. -/
def beside (e : Engine P H) (port : P) (host : H) (journal : List Notice)
    (associated : List Fd) : Engine P H :=
  { e with port, associated, world := { e.world with host, journal } }

/-- The engine with another slab. -/
def withSlab (e : Engine P H) (slab : Slab Context) : Engine P H := { e with slab }

section beside

variable (e : Engine P H) (p : P) (h : H) (j : List Notice) (a : List Fd)

@[simp] theorem slab_beside : (e.beside p h j a).slab = e.slab := rfl
@[simp] theorem wakeToken_beside : (e.beside p h j a).wakeToken = e.wakeToken := rfl

end beside

variable [CompletionPort P H]

/-- Registering changes nothing but what belongs to the port. -/
theorem register_eq_beside (e : Engine P H) (fd : Fd) :
    ∃ p h j a, (e.register fd).1 = e.beside p h j a := by
  unfold register associate
  split
  · split
    · exact ⟨_, _, _, _, rfl⟩
    · dsimp only
      split <;> exact ⟨_, _, _, _, rfl⟩
  · exact ⟨_, _, _, _, rfl⟩

/-- Flushing changes nothing but what belongs to the port. -/
theorem flushIfEager_eq_beside (e : Engine P H) (kind : Kind) :
    ∃ p h j a, e.flushIfEager kind = e.beside p h j a := by
  unfold flushIfEager flushBehind
  split
  · dsimp only
    split <;> exact ⟨_, _, _, _, rfl⟩
  · exact ⟨_, _, _, _, rfl⟩

/-- The context that a submission puts in flight. -/
def contextOf (s : Submission) (cb : Callback) : Context := ⟨s.kind, s.fd, cb, s.pinned⟩

/-- The port's answer to the entry of a submission that has its context. -/
def pushReply (e : Engine P H) (s : Submission) (cb : Callback) :
    Reply P H (Except Fault Unit) :=
  CompletionPort.push e.port e.world.host e.world.memory
    (s.entry (e.slab.insert (contextOf s cb)).2)

/-- The engine with a context in flight and the port's answer to its entry taken in. -/
def pushed (e : Engine P H) (s : Submission) (cb : Callback) : Engine P H :=
  (e.withSlab (e.slab.insert (contextOf s cb)).1).absorb (e.pushReply s cb)

/-- A submission whose descriptor is refused gives its buffers back. -/
theorem handOff_of_register_error {e e₁ : Engine P H} {s : Submission} {f : Fault}
    (cb : Callback) (h : e.register s.fd = (e₁, .error f)) :
    e.handOff s cb =
      (e₁.releaseAll s.pinned.leases, .error (.systemCall s.kind f.errno)) := by
  simp [handOff, h]

/-- A submission that the port refuses is withdrawn. -/
theorem handOff_of_push_error {e e₁ : Engine P H} {s : Submission} {cb : Callback} {f : Fault}
    (h : e.register s.fd = (e₁, .ok ())) (hp : (e₁.pushReply s cb).answer = .error f) :
    e.handOff s cb =
      (((e₁.pushed s cb).withdraw (e₁.slab.insert (contextOf s cb)).2).note
        (.refused s.kind s.fd f.errno), .error (.systemCall s.kind f.errno)) := by
  simp only [pushReply, contextOf] at hp
  simp [handOff, h, enroll, pushEntry, hp, pushed, pushReply, contextOf, withSlab]

/-- A submission that the port takes is in flight. -/
theorem handOff_of_push_ok {e e₁ : Engine P H} {s : Submission} {cb : Callback}
    (h : e.register s.fd = (e₁, .ok ())) (hp : (e₁.pushReply s cb).answer = .ok ()) :
    e.handOff s cb =
      (((e₁.pushed s cb).note
        (.submitted s.kind s.fd (e₁.slab.insert (contextOf s cb)).2)).flushIfEager s.kind,
        .ok (e₁.slab.insert (contextOf s cb)).2) := by
  simp only [pushReply, contextOf] at hp
  simp [handOff, h, enroll, pushEntry, hp, pushed, pushReply, contextOf, withSlab]

/-- The three things that a submission can come to. -/
theorem handOff_cases (e : Engine P H) (s : Submission) (cb : Callback) :
    (∃ e₁ f, e.register s.fd = (e₁, .error f)) ∨
    (∃ e₁ f, e.register s.fd = (e₁, .ok ()) ∧ (e₁.pushReply s cb).answer = .error f) ∨
    (∃ e₁, e.register s.fd = (e₁, .ok ()) ∧ (e₁.pushReply s cb).answer = .ok ()) := by
  cases h : e.register s.fd with
  | mk e₁ r =>
    cases r with
    | error f => exact .inl ⟨e₁, f, rfl⟩
    | ok u =>
      cases hp : (e₁.pushReply s cb).answer with
      | error f => exact .inr (.inl ⟨e₁, f, rfl, hp⟩)
      | ok u => exact .inr (.inr ⟨e₁, rfl, hp⟩)

/-- An operation in flight has a context of its own under its token; all else is the port's. -/
theorem handOff_eq_ok {e e' : Engine P H} {s : Submission} {cb : Callback} {t : Token}
    (h : e.handOff s cb = (e', .ok t)) :
    t = (e.slab.insert (contextOf s cb)).2 ∧ ∃ p host j a,
      e' = (e.withSlab (e.slab.insert (contextOf s cb)).1).beside p host j a := by
  rcases handOff_cases e s cb with ⟨e₁, f, hr⟩ | ⟨e₁, f, hr, hp⟩ | ⟨e₁, hr, hp⟩
  · rw [handOff_of_register_error cb hr] at h
    cases h
  · rw [handOff_of_push_error hr hp] at h
    cases h
  · rw [handOff_of_push_ok hr hp] at h
    obtain ⟨rfl, ht⟩ := Prod.mk.inj h
    obtain rfl := Except.ok.inj ht
    obtain ⟨p, host, j, a, h₁⟩ := register_eq_beside e s.fd
    rw [hr] at h₁
    obtain rfl : e₁ = e.beside p host j a := h₁
    obtain ⟨p', host', j', a', h₂⟩ := flushIfEager_eq_beside
      (((e.beside p host j a).pushed s cb).note
        (.submitted s.kind s.fd (e.slab.insert (contextOf s cb)).2)) s.kind
    exact ⟨rfl, p', host', j', a', h₂⟩

/-- A refused operation leaves no context and gives its buffers back; all else is the port's. -/
theorem handOff_eq_error {e e' : Engine P H} {s : Submission} {cb : Callback} {f : Fault}
    (hs : e.slab.Sound) (hroom : e'.slab.slots.length ≤ 2 ^ 32)
    (h : e.handOff s cb = (e', .error f)) :
    (∃ n, f = .systemCall s.kind n) ∧ ∃ slab p host j a, e.slab.Keeps slab ∧
      e' = ((e.withSlab slab).releaseAll s.pinned.leases).beside p host j a := by
  rcases handOff_cases e s cb with ⟨e₁, g, hr⟩ | ⟨e₁, g, hr, hp⟩ | ⟨e₁, hr, hp⟩
  · rw [handOff_of_register_error cb hr] at h
    obtain ⟨rfl, hf⟩ := Prod.mk.inj h
    obtain rfl := Except.error.inj hf
    obtain ⟨p, host, j, a, h₁⟩ := register_eq_beside e s.fd
    rw [hr] at h₁
    obtain rfl : e₁ = e.beside p host j a := h₁
    exact ⟨⟨g.errno, rfl⟩, e.slab, p, host, j, a, hs.keeps_self, rfl⟩
  · rw [handOff_of_push_error hr hp] at h
    obtain ⟨he, hf⟩ := Prod.mk.inj h
    obtain rfl := Except.error.inj hf
    obtain ⟨p, host, j, a, h₁⟩ := register_eq_beside e s.fd
    rw [hr] at h₁
    obtain rfl : e₁ = e.beside p host j a := h₁
    have hlen : (e.slab.insert (contextOf s cb)).1.slots.length ≤ 2 ^ 32 := by
      rw [← he] at hroom
      simp only [withdraw] at hroom
      split at hroom
      · next context slab ht =>
        have hl := Slab.length_slots_take ht
        exact hl ▸ hroom
      · exact hroom
    obtain ⟨slab, ht, hk⟩ := hs.take_insert (contextOf s cb) hlen
    have hw : ((e.beside p host j a).pushed s cb).slab.take
        (e.slab.insert (contextOf s cb)).2 = some (contextOf s cb, slab) := ht
    let r := (e.beside p host j a).pushReply s cb
    refine ⟨⟨g.errno, rfl⟩, slab, r.port, r.host,
      j ++ r.notices ++ [.refused s.kind s.fd g.errno], a, hk, ?_⟩
    rw [← he]
    simp only [slab_beside, withdraw, hw]
    rfl
  · rw [handOff_of_push_ok hr hp] at h
    cases h

/-! ### Submitters -/

/-- What was prepared is handed off with its buffers lent, and counted. -/
theorem submit_ok (e : Engine P H) (m : Memory) (s : Submission) (cb : Callback) :
    e.submit (.ok (m, s)) cb =
      (((e.withMemory m).handOff s cb).1.count ((e.withMemory m).handOff s cb).2,
        ((e.withMemory m).handOff s cb).2) := rfl

omit [CompletionPort P H] in
/-- Counting touches no context. -/
@[simp] theorem slab_count (e : Engine P H) (r : Except Fault Token) :
    (e.count r).slab = e.slab := by
  unfold count
  split <;> rfl

/-- An accepted order has a context of its own under its token, and its buffers are lent. -/
theorem place_eq_ok {e e' : Engine P H} {o : Order StorageId} {cb : Callback} {t : Token}
    (h : e.place o cb = (e', .ok t)) :
    ∃ m s, o.prepare e.world.memory e.extensions = .ok (m, s) ∧
      t = (e.slab.insert (contextOf s cb)).2 ∧ ∃ p host j a,
      e' = { ((e.withSlab (e.slab.insert (contextOf s cb)).1).withMemory m).beside p host j a with
        stats := { e.stats with submitted := e.stats.submitted + 1 } } := by
  rw [place_eq_submit] at h
  cases hp : o.prepare e.world.memory e.extensions with
  | error f =>
    rw [hp] at h
    cases h
  | ok r =>
    obtain ⟨m, s⟩ := r
    rw [hp, submit_ok] at h
    obtain ⟨rfl, hr⟩ := Prod.mk.inj h
    cases hh : (e.withMemory m).handOff s cb with
    | mk e₁ r =>
      rw [hh] at hr
      obtain rfl : r = .ok t := hr
      obtain ⟨ht, p, host, j, a, he⟩ := handOff_eq_ok hh
      exact ⟨m, s, rfl, ht, p, host, j, a, by rw [he]; rfl⟩

/-- An order that is refused leaves contexts and memory as they were; if an argument is bad it
leaves everything as it was. -/
theorem place_eq_error {e e' : Engine P H} {o : Order StorageId} {cb : Callback} {f : Fault}
    (hs : e.slab.Sound) (hroom : e'.slab.slots.length ≤ 2 ^ 32)
    (h : e.place o cb = (e', .error f)) :
    (f.isArgument = true ∧ e' = e) ∨
    ((∃ n, f = .systemCall o.kind n) ∧ ∃ slab p host j a, e.slab.Keeps slab ∧
      e' = { (e.withSlab slab).beside p host j a with
        stats := { e.stats with refused := e.stats.refused + 1 } }) := by
  rw [place_eq_submit] at h
  cases hp : o.prepare e.world.memory e.extensions with
  | error g =>
    rw [hp] at h
    obtain ⟨rfl, hf⟩ := Prod.mk.inj h
    obtain rfl := Except.error.inj hf
    exact .inl ⟨Order.isArgument_of_prepare hp, rfl⟩
  | ok r =>
    obtain ⟨m, s⟩ := r
    obtain ⟨hkind, _, _, hlease⟩ := Order.prepare_eq_ok hp
    rw [hp, submit_ok] at h
    obtain ⟨rfl, hr⟩ := Prod.mk.inj h
    cases hh : (e.withMemory m).handOff s cb with
    | mk e₁ r =>
      rw [hh] at hr
      obtain rfl : r = .error f := hr
      rw [hh, slab_count] at hroom
      obtain ⟨⟨n, rfl⟩, slab, p, host, j, a, hk, he⟩ :=
        handOff_eq_error (e := e.withMemory m) hs hroom hh
      have hm : m.releaseAll s.pinned.leases = e.world.memory := Memory.releaseAll_leaseAll? hlease
      obtain rfl : e₁ = (((e.withMemory m).withSlab slab).releaseAll s.pinned.leases).beside
        p host j a := he
      refine .inr ⟨⟨n, by rw [hkind]⟩, slab, p, host, j, a, hk, ?_⟩
      simp only [count, releaseAll, withMemory, withSlab, beside, hm]

/-! ### The engine's own read -/

/-- The engine's own read is in flight when it was handed off. -/
theorem armWake_of_handOff {e e' : Engine P H} {m : Memory} {s : Submission} {t : Token}
    (hprepared : Submission.wake e.world.memory e.world.injector.wake e.wakeBuffer = .ok (m, s))
    (hhanded : (e.withMemory m).handOff s .silent = (e', .ok t)) :
    e.armWake = ({ e' with wakeToken := some t }, .ok ()) := by
  simp only [withMemory] at hhanded
  simp only [armWake, hprepared, hhanded]

/-- The engine's own read is not in flight when its hand-off failed. -/
theorem armWake_of_handOff_error {e e' : Engine P H} {m : Memory} {s : Submission} {f : Fault}
    (hprepared : Submission.wake e.world.memory e.world.injector.wake e.wakeBuffer = .ok (m, s))
    (hhanded : (e.withMemory m).handOff s .silent = (e', .error f)) :
    e.armWake = (e', .error f) := by
  simp only [withMemory] at hhanded
  simp only [armWake, hprepared, hhanded]

/-- The engine's own read, once in flight, has a context that holds its buffer. -/
theorem armWake_eq_ok {e e' : Engine P H} (h : e.armWake = (e', .ok ())) :
    ∃ m s, s.kind = .read ∧ s.fd = e.world.injector.wake ∧
      s.pinned.leases = [e.wakeBuffer] ∧ e.world.memory.leaseAll? s.pinned.leases = some m ∧
      ∃ p host j a,
      e' = { ((e.withSlab (e.slab.insert (contextOf s .silent)).1).withMemory m).beside
          p host j a with wakeToken := some (e.slab.insert (contextOf s .silent)).2 } := by
  unfold armWake at h
  split at h
  · cases h
  · next memory s hw =>
    obtain ⟨hkind, hfd, hleases, hlease⟩ := Submission.wake_eq_ok hw
    split at h
    · next e₁ t hh =>
      obtain ⟨rfl, _⟩ := Prod.mk.inj h
      obtain ⟨rfl, p, host, j, a, rfl⟩ := handOff_eq_ok hh
      exact ⟨memory, s, hkind, hfd, hleases, hlease, p, host, j, a, rfl⟩
    · cases h

/-- The engine's own read, if it is refused, leaves contexts and memory as they were. -/
theorem armWake_eq_error {e e' : Engine P H} {f : Fault} (hs : e.slab.Sound)
    (hroom : e'.slab.slots.length ≤ 2 ^ 32) (h : e.armWake = (e', .error f)) :
    ∃ slab p host j a, e.slab.Keeps slab ∧ e' = (e.withSlab slab).beside p host j a := by
  unfold armWake at h
  split at h
  · obtain ⟨rfl, _⟩ := Prod.mk.inj h
    exact ⟨e.slab, e.port, e.world.host, e.world.journal, e.associated, hs.keeps_self, rfl⟩
  · next memory s hw =>
    obtain ⟨_, _, _, hlease⟩ := Submission.wake_eq_ok hw
    split at h
    · cases h
    · next e₁ g hh =>
      obtain ⟨rfl, _⟩ := Prod.mk.inj h
      obtain ⟨_, slab, p, host, j, a, hk, he⟩ :=
        handOff_eq_error (e := e.withMemory memory) hs hroom hh
      have hm := Memory.releaseAll_leaseAll? hlease
      refine ⟨slab, p, host, j, a, hk, ?_⟩
      rw [he]
      simp only [releaseAll, withSlab, withMemory, beside, hm]

/-! ### How many slots there are -/

omit [CompletionPort P H] in
/-- Taking a context back neither adds a slot nor gives one up. -/
theorem length_slots_withdraw (e : Engine P H) (t : Token) :
    (e.withdraw t).slab.slots.length = e.slab.slots.length := by
  unfold withdraw
  split
  · next context slab ht => exact Slab.length_slots_take ht
  · rfl

/-- Handing off adds one slot at most. -/
theorem grows_handOff (e : Engine P H) (s : Submission) (cb : Callback) :
    e.slab.Grows (e.handOff s cb).1.slab := by
  obtain ⟨p, host, j, a, hb⟩ := register_eq_beside e s.fd
  have hinsert := e.slab.grows_insert (contextOf s cb)
  rcases handOff_cases e s cb with ⟨e₁, f, hr⟩ | ⟨e₁, f, hr, hp⟩ | ⟨e₁, hr, hp⟩
  · rw [handOff_of_register_error cb hr]
    rw [hr] at hb
    obtain rfl : e₁ = e.beside p host j a := hb
    exact .refl e.slab
  · rw [handOff_of_push_error hr hp]
    rw [hr] at hb
    obtain rfl : e₁ = e.beside p host j a := hb
    exact hinsert.of_length_eq (length_slots_withdraw ((e.beside p host j a).pushed s cb) _)
  · rw [handOff_of_push_ok hr hp]
    rw [hr] at hb
    obtain rfl : e₁ = e.beside p host j a := hb
    obtain ⟨p', host', j', a', hf⟩ := flushIfEager_eq_beside
      (((e.beside p host j a).pushed s cb).note
        (.submitted s.kind s.fd (e.slab.insert (contextOf s cb)).2)) s.kind
    exact hf.symm ▸ hinsert

/-- Submitting adds one slot at most. -/
theorem grows_place (e : Engine P H) (o : Order StorageId) (cb : Callback) :
    e.slab.Grows (e.place o cb).1.slab := by
  rw [place_eq_submit]
  cases hp : o.prepare e.world.memory e.extensions with
  | error f => exact .refl e.slab
  | ok r =>
    rw [submit_ok, slab_count]
    exact grows_handOff (e.withMemory r.1) r.2 cb

/-- Putting the engine's own read in flight adds one slot at most. -/
theorem grows_armWake (e : Engine P H) : e.slab.Grows e.armWake.1.slab := by
  unfold armWake
  split
  · exact .refl e.slab
  · next memory s hw =>
    have h := grows_handOff (e.withMemory memory) s .silent
    split
    · next e₁ t hh =>
      have he : ((e.withMemory memory).handOff s .silent).1 = e₁ := congrArg Prod.fst hh
      rw [he] at h
      exact h
    · next e₁ f hh =>
      have he : ((e.withMemory memory).handOff s .silent).1 = e₁ := congrArg Prod.fst hh
      rw [he] at h
      exact h

end Proactor.Engine
