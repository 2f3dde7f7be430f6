import Proactor.Engine.Build
import Proactor.Proofs.HandOff

/-!
# Built engines

What an engine is like right after it was built: its own read is in flight, and nothing else has
happened to it.
-/

namespace Proactor.Engine

variable {P H : Type} [CompletionPort P H] [Os H]

/-- An engine that was built is a fresh one whose own read was put in flight. -/
theorem armWake_of_build {config : Config} {port : P} {host : H} {e : Engine P H}
    (h : build config port host = .ready e) :
    ∃ extensions host' wake journal e' n,
      (fresh config extensions (Extensions.resolve port host).port host' wake journal).armWake =
        (e', .ok ()) ∧ e = e'.note n := by
  unfold build at h
  split at h
  · cases h
  dsimp only at h
  split at h
  · cases h
  next extensions hext =>
  split at h
  · cases h
  next host' wake hos =>
  unfold start at h
  split at h
  · next e' harm =>
    cases h
    exact ⟨extensions, host', wake, _, e', _, harm, rfl⟩
  · cases h

/-- There is room for the engine's own read. -/
theorem room_of_first (context : Context) :
    (({} : Slab Context).insert context).1.slots.length ≤ 2 ^ 32 :=
  Nat.one_le_two_pow

/-- What holds of an engine right after it was built. -/
structure IsNew (e : Engine P H) : Prop where
  /-- Its own read is the only operation in flight. -/
  slab : ∃ context, context.pinned.leases = [0] ∧
    e.slab = (({} : Slab Context).insert context).1 ∧
    e.wakeToken = some (({} : Slab Context).insert context).2
  /-- The buffer of that read is the only storage. -/
  lend? : ∀ id, e.world.memory.lend? id = if id = 0 then some .lent else none
  handles : e.world.memory.handles = []
  leaked : e.leaked = []
  calls : e.world.calls = []
  stats : e.stats = {}
  closed : e.closed = false

/-- An engine that was built is new. -/
theorem isNew_of_build {config : Config} {port : P} {host : H} {e : Engine P H}
    (h : build config port host = .ready e) : e.IsNew := by
  obtain ⟨x, host', wake, journal, e', n, harm, rfl⟩ := armWake_of_build h
  obtain ⟨m, s, _, _, hleases, hlease, p, host'', j, a, rfl⟩ := armWake_eq_ok harm
  have hzero : s.pinned.leases = [0] := hleases
  obtain ⟨_, hhandles⟩ := Memory.bytes_leaseAll? hlease
  refine ⟨⟨contextOf s .silent, hzero, rfl, rfl⟩, fun id => ?_, hhandles, rfl, rfl, rfl, rfl⟩
  have hid := Memory.lend?_leaseAll? hlease id
  rw [hzero] at hid
  simp only [List.mem_singleton] at hid
  apply hid.trans
  by_cases h0 : id = 0
  · simp [h0]
  · obtain ⟨k, rfl⟩ := Nat.exists_eq_succ_of_ne_zero h0
    rfl

variable {e : Engine P H}

omit [CompletionPort P H] [Os H] in
/-- The slab of a new engine is sound. -/
theorem IsNew.sound (h : e.IsNew) : e.slab.Sound := by
  obtain ⟨context, _, hslab, _⟩ := h.slab
  rw [hslab]
  exact Slab.sound_empty.insert context (room_of_first context)

omit [CompletionPort P H] [Os H] in
/-- Only the engine's own read is in flight in a new engine. -/
theorem IsNew.get?_eq_none (h : e.IsNew) {t : Token} (ht : e.wakeToken ≠ some t) :
    e.slab.get? t = none := by
  obtain ⟨context, _, hslab, hwake⟩ := h.slab
  rw [hslab, Slab.sound_empty.get?_insert context (room_of_first context)]
  rw [hwake] at ht
  have hne : t ≠ (({} : Slab Context).insert context).2 := fun he => ht (congrArg some he.symm)
  rw [if_neg hne]
  simp [Slab.get?]

omit [CompletionPort P H] [Os H] in
/-- The engine's own read is in flight in a new engine. -/
theorem IsNew.exists_wake (h : e.IsNew) :
    ∃ t context, e.wakeToken = some t ∧ e.slab.get? t = some context := by
  obtain ⟨context, _, hslab, hwake⟩ := h.slab
  refine ⟨_, context, hwake, ?_⟩
  rw [hslab, Slab.sound_empty.get?_insert context (room_of_first context), if_pos rfl]

end Proactor.Engine
