import Proactor.Proofs.Posting

/-!
# What lasts

What an engine was built with, which no step changes: its event counter, the storage of its own
read, and the opcodes that its port offered.
-/

namespace Proactor

variable {P H : Type} [CompletionPort P H] [Os H]

/-- What an engine was built with stays, and an engine that lives has always lived. -/
structure Engine.Lasts (e e' : Engine P H) : Prop where
  counter : e'.world.injector.wake = e.world.injector.wake
  wakeBuffer : e'.wakeBuffer = e.wakeBuffer
  extensions : e'.extensions = e.extensions
  closed : e'.closed = false → e.closed = false

omit [CompletionPort P H] [Os H] in
theorem Engine.Lasts.trans {e e' e'' : Engine P H} (h : e.Lasts e') (h' : e'.Lasts e'') :
    e.Lasts e'' where
  counter := h'.counter.trans h.counter
  wakeBuffer := h'.wakeBuffer.trans h.wakeBuffer
  extensions := h'.extensions.trans h.extensions
  closed hlive := h.closed (h'.closed hlive)

omit [CompletionPort P H] in
/-- Nothing that user code does outside borrows changes the event counter. -/
theorem World.wake_act (w : World H) {a : Action}
    (ha : ∀ handle content actions, a ≠ .borrow handle content actions) :
    (w.act a).injector.wake = w.injector.wake := by
  cases a with
  | post tag actions =>
    simp only [act, post]
    split
    · rfl
    · unfold wake
      split <;> rfl
  | peek handle =>
    simp only [act]
    split <;> rfl
  | pending => rfl
  | fill handle content =>
    simp only [act, fill]
    split <;> rfl
  | borrow handle content actions => exact absurd rfl (ha handle content actions)

/-- No step changes what an engine was built with. -/
theorem Happens.lasts {s s' : Scene P H} {ev : Event P H} (h : Happens s ev s')
    (hs : s.engine.slab.Sound) (hroom : s'.engine.slab.slots.length ≤ 2 ^ 32) :
    s.engine.Lasts s'.engine := by
  cases h with
  | place e b o cb =>
    cases hp : e.place o cb with
    | mk e' r =>
      rw [hp] at hroom
      cases r with
      | ok t =>
        obtain ⟨m, sub, _, _, p, host, j, a, rfl⟩ := Engine.place_eq_ok hp
        exact ⟨rfl, rfl, rfl, id⟩
      | error f =>
        rcases Engine.place_eq_error hs hroom hp with ⟨_, rfl⟩ | ⟨_, slab, p, host, j, a, _, rfl⟩
        · exact ⟨rfl, rfl, rfl, id⟩
        · exact ⟨rfl, rfl, rfl, id⟩
  | associate e b fd =>
    obtain ⟨p, host, j, a, he⟩ := e.associate_eq_beside fd
    rw [he]
    exact ⟨rfl, rfl, rfl, id⟩
  | waited e e' b deadline rounds w hw h =>
    obtain ⟨p, host, j, rfl⟩ := Engine.waitPort_eq_beside h
    exact ⟨rfl, rfl, rfl, id⟩
  | unknown e e' b deadline rounds c moved h ht =>
    obtain ⟨p, host, j, rfl⟩ := Engine.waitPort_eq_beside h
    exact ⟨rfl, rfl, rfl, id⟩
  | woken e e' b deadline rounds c moved context slab h ht hwake =>
    obtain ⟨p, host, j, rfl⟩ := Engine.waitPort_eq_beside h
    have hinjector := World.injector_settle (e.beside p host j e.associated).world context.pinned
      c.result moved
    have htaken : slab.Sound := Slab.Sound.take (s := e.slab) hs ht
    rcases Engine.rearmWake_cases _ htaken hroom with
      ⟨slab', p', host', j', a', _, he⟩ | ⟨next, m, _, _, p', host', j', a', he⟩
    · rw [he]
      exact ⟨congrArg Injector.wake hinjector, rfl, rfl, id⟩
    · rw [he]
      exact ⟨congrArg Injector.wake hinjector, rfl, rfl, id⟩
  | called e e' b deadline rounds c moved context slab o h ht hwake ho =>
    obtain ⟨p, host, j, rfl⟩ := Engine.waitPort_eq_beside h
    have hinjector := World.injector_settle (e.beside p host j e.associated).world context.pinned
      c.result moved
    exact ⟨congrArg Injector.wake hinjector, rfl, rfl, id⟩
  | popped e b cb world h =>
    obtain ⟨queue, _, rfl⟩ := World.pop_eq_some h
    exact ⟨rfl, rfl, rfl, id⟩
  | act e b r a ha => exact ⟨e.world.wake_act ha, rfl, rfl, id⟩
  | post e b r cb => exact ⟨e.world.wake_act (a := .post cb.tag cb.actions) (by simp), rfl, rfl, id⟩
  | borrow e b r handle content id world h =>
    obtain ⟨memory, rfl⟩ := World.borrow?_eq_some h
    exact ⟨rfl, rfl, rfl, fun hlive => hlive⟩
  | closeToPosts e b => exact ⟨rfl, rfl, rfl, nofun⟩
  | abandon e b =>
    unfold Engine.abandon
    dsimp only
    split <;> split <;> exact ⟨rfl, rfl, rfl, id⟩
  | _ => exact ⟨rfl, rfl, rfl, fun hlive => hlive⟩

omit [CompletionPort P H] in
/-- What was given up stays given up. -/
theorem Turnover.leaked_prefix {s s' : Scene P H} {ev : Event P H} (h : Turnover s ev s') :
    s.engine.leaked <+: s'.engine.leaked := by
  have hsame : s'.engine.leaked = s.engine.leaked → s.engine.leaked <+: s'.engine.leaked :=
    fun hleaked => hleaked ▸ List.prefix_rfl
  cases h with
  | kept hev hk => exact hsame hk.leaked
  | allocated id hk => exact hsame hk.leaked
  | borrowed id hk => exact hsame hk.leaked
  | gaveBack id hk => exact hsame hk.leaked
  | entered context hcb hslab hwake hleaked => exact hsame hleaked
  | woken context slab hseen htake hwas hslab hwake hleaked => exact hsame hleaked
  | rearmed context next slab between hseen htake hwas hslab hwake hleaked => exact hsame hleaked
  | called context slab hseen htake hwas hslab hwake hleaked => exact hsame hleaked
  | abandoned hslab hwake hleaked => exact ⟨_, hleaked.symm⟩

/-- An engine in the end is made like the one at first, and if it lives or has given up nothing
then that one did so too. -/
theorem Path.lasts {s₀ s : Scene P H} {τ : List (Moment P H)} (h : Path s₀ τ s)
    (hs : s₀.engine.slab.Sound) (hroom : s.engine.slab.slots.length ≤ 2 ^ 32) :
    s₀.engine.Lasts s.engine ∧ s₀.engine.leaked <+: s.engine.leaked := by
  refine (h.induct (I := fun _ s => s₀.engine.Lasts s.engine ∧
    s₀.engine.leaked <+: s.engine.leaked) hs hroom
    ⟨⟨rfl, rfl, rfl, id⟩, List.prefix_rfl⟩ ?_).2
  rintro τ s ev s' hs hroom hstep hturn ⟨hlasts, hleaked⟩
  exact ⟨hlasts.trans (hstep.lasts hs hroom), hleaked.trans hturn.leaked_prefix⟩

/-! ### The opcodes of the extensions -/

omit [Os H] in
/-- A port offers its extensions under the opcodes that every port has for them. -/
theorem Extensions.eq_of_resolve {port : P} {host : H} {x : Extensions}
    (h : (Extensions.resolve port host).answer = .ok x) :
    x = ⟨Opcode.accept, Opcode.connect⟩ := by
  unfold Extensions.resolve at h
  dsimp only at h
  split at h
  · cases h
  · split at h
    · cases h
    · split at h
      · cases h
      · exact (Except.ok.inj h).symm

/-- An engine that was built has these opcodes. -/
theorem Engine.extensions_of_build {config : Config} {port : P} {host : H} {e : Engine P H}
    (h : Engine.build config port host = .ready e) :
    e.extensions = ⟨Opcode.accept, Opcode.connect⟩ := by
  unfold build at h
  split at h
  · cases h
  dsimp only at h
  split at h
  · cases h
  next x hx =>
  split at h
  · cases h
  unfold start at h
  split at h
  · next e' harm =>
    cases h
    obtain ⟨m, s, _, _, _, _, p, host', j, a, rfl⟩ := armWake_eq_ok harm
    exact Extensions.eq_of_resolve hx
  · cases h

end Proactor
