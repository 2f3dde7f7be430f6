import Proactor.Proofs.HandOff
import Proactor.Proofs.History

/-!
# Turnover

All that one step can do to what is in flight and to who holds which storage. An operation is
put in flight with its storages, or retrieved with them, or everything is given up; apart from
that only borrows change who holds a storage.
-/

namespace Proactor

variable {P H : Type}

/-! ### The pieces of a step -/

namespace World

variable [Os H]

/-- What was landed is held by whoever held it. -/
@[simp] theorem lend?_land (p : Pinned) (m : Memory) (t : Transfer) (id : StorageId) :
    (p.land m t).1.lend? id = m.lend? id := by
  cases p <;> simp [Pinned.land, Memory.writeArea]

/-- Landing leaves an operation the storages it was lent. -/
@[simp] theorem leases_land (p : Pinned) (m : Memory) (t : Transfer) :
    (p.land m t).2.leases = p.leases := by
  cases p <;> rfl

/-- Putting a result right changes no holder. -/
theorem lend?_finish (w : World H) (p : Pinned) (result : Int64) (id : StorageId) :
    (w.finish p result).1.memory.lend? id = w.memory.lend? id := by
  unfold finish
  split
  · simp
  · split
    · simp [writeHalves]
    · unfold moveAccepted
      split
      simp only
      split <;> simp [writeHalves]
  · rfl

/-- Settling gives back the storages that were lent to the operation, and no others. -/
theorem lend?_settle (w : World H) (p : Pinned) (result : Int64) (t : Transfer)
    (id : StorageId) :
    (w.settle p result t).1.memory.lend? id =
      if id ∈ p.leases then (w.memory.lend? id).map fun _ => .idle else w.memory.lend? id := by
  simp only [settle, Memory.lend?_releaseAll, leases_land, lend?_finish, lend?_land]

/-- An action that is no borrow changes no holder. -/
theorem lend?_act (w : World H) {a : Action} (id : StorageId)
    (ha : ∀ handle content actions, a ≠ .borrow handle content actions) :
    (w.act a).memory.lend? id = w.memory.lend? id := by
  cases a with
  | post tag actions =>
    simp only [act, post, record]
    split
    · rfl
    · unfold wake
      split <;> rfl
  | peek handle =>
    simp only [act]
    split <;> rfl
  | pending => rfl
  | fill handle content =>
    simp only [act, fill]
    split
    · next memory n h =>
      obtain ⟨other, _, hfill⟩ := Option.bind_eq_some_iff.mp h
      exact Memory.lend?_fill? hfill id
    · rfl
  | borrow handle content actions => exact absurd rfl (ha handle content actions)

omit [Os H] in
/-- Taking the first of the posted callbacks changes the queue only. -/
theorem pop_eq_some {w w' : World H} {cb : Callback} (h : w.pop = some (cb, w')) :
    ∃ queue, w.injector.queue = cb :: queue ∧
      w' = { w with injector := { w.injector with queue } } := by
  unfold pop at h
  split at h
  · next cb' queue hqueue =>
    obtain ⟨rfl, rfl⟩ := Prod.mk.inj (Option.some.inj h)
    exact ⟨queue, hqueue, rfl⟩
  · cases h

omit [Os H] in
theorem pop_of_queue {w : World H} {cb : Callback} {queue : List Callback}
    (h : w.injector.queue = cb :: queue) :
    w.pop = some (cb, { w with injector.queue := queue }) := by
  simp only [pop, h]

omit [Os H] in
/-- There is no callback to take if none is posted. -/
theorem pop_eq_none_iff (w : World H) : w.pop = none ↔ w.injector.queue = [] := by
  unfold pop
  cases w.injector.queue <;> simp

omit [Os H] in
/-- A borrow takes an idle storage. -/
theorem lend?_borrow? {w w' : World H} {handle : String} {content : Bytes} {id : StorageId}
    (h : w.borrow? handle content = some (id, w')) :
    w.memory.lend? id = some .idle ∧ ∀ other,
      w'.memory.lend? other = if other = id then some .borrowed else w.memory.lend? other := by
  simp only [borrow?, Option.bind_eq_bind, Option.bind_eq_some_iff] at h
  obtain ⟨id', _, m, hm, h⟩ := h
  obtain ⟨rfl, rfl⟩ := Prod.mk.inj (Option.some.inj h)
  obtain ⟨hidle, rfl⟩ := (Memory.borrow?_eq_some_iff _ _ _).mp hm
  refine ⟨hidle, fun other => ?_⟩
  simp only [Memory.lend?_modifyBytes, Memory.lend?_setLend]
  by_cases he : other = id'
  · simp [he, hidle]
  · simp [he, Ne.symm he]

end World

namespace Engine

variable [CompletionPort P H]

/-- Registering a descriptor changes nothing but what belongs to the port. -/
theorem associate_eq_beside (e : Engine P H) (fd : Fd) :
    ∃ p h j a, (e.associate fd).1 = e.beside p h j a := by
  unfold associate
  split
  · exact ⟨_, _, _, _, rfl⟩
  · dsimp only
    split <;> exact ⟨_, _, _, _, rfl⟩

/-- A wait changes nothing but what belongs to the port. -/
theorem waitPort_eq_beside [Os H] {e e' : Engine P H} {deadline : Option Nat} {rounds : Nat}
    {w : Waited} (h : e.waitPort deadline rounds = (e', w)) :
    ∃ p host j, e' = e.beside p host j e.associated := by
  obtain ⟨rfl, _⟩ := Prod.mk.inj h
  exact ⟨_, _, _, rfl⟩

/-- After a completion of the engine's own read there is another one in flight or not. -/
theorem rearmWake_cases {e : Engine P H} (result : Int64) (hs : e.slab.Sound)
    (hroom : (e.rearmWake result).slab.slots.length ≤ 2 ^ 32) :
    (∃ slab p host j a, e.slab.Keeps slab ∧
      e.rearmWake result = (e.withSlab slab).beside p host j a) ∨
    (∃ context m, context.pinned.leases = [e.wakeBuffer] ∧
      e.world.memory.leaseAll? context.pinned.leases = some m ∧ ∃ p host j a,
      e.rearmWake result = { ((e.withSlab (e.slab.insert context).1).withMemory m).beside
          p host j a with wakeToken := some (e.slab.insert context).2 }) := by
  have hnote : ∀ n, ∃ slab p host j a, e.slab.Keeps slab ∧
      e.note n = (e.withSlab slab).beside p host j a :=
    fun n => ⟨e.slab, e.port, e.world.host, e.world.journal ++ [n], e.associated,
      hs.keeps_self, rfl⟩
  by_cases hclosed : e.closed = true
  · simp only [rearmWake, if_pos hclosed]
    exact .inl ⟨e.slab, e.port, e.world.host, e.world.journal, e.associated, hs.keeps_self, rfl⟩
  by_cases hneg : result.toInt < 0
  · simp only [rearmWake, if_neg hclosed, if_pos hneg]
    exact .inl (hnote _)
  simp only [rearmWake, if_neg hclosed, if_neg hneg] at hroom ⊢
  cases h : e.armWake with
  | mk e' r =>
    rw [h] at hroom
    cases r with
    | ok u =>
      obtain ⟨m, s, _, _, hleases, hlease, p, host, j, a, he⟩ := armWake_eq_ok h
      exact .inr ⟨contextOf s .silent, m, hleases, hlease, p, host, j, a, he⟩
    | error f =>
      have hroom' : e'.slab.slots.length ≤ 2 ^ 32 := hroom
      obtain ⟨slab, p, host, j, a, hk, he⟩ := armWake_eq_error hs hroom' h
      exact .inl ⟨slab, p, host, j ++ [.wakeNotArmed f], a, hk, by simp only [he]; rfl⟩

/-- What follows a completion of the engine's own read adds one slot at most. -/
theorem grows_rearmWake (e : Engine P H) (result : Int64) :
    e.slab.Grows (e.rearmWake result).slab := by
  unfold rearmWake
  split
  · exact .refl e.slab
  split
  · exact .refl e.slab
  have h := grows_armWake e
  split
  · next e₁ ha =>
    rw [ha] at h
    exact h
  · next e₁ f ha =>
    rw [ha] at h
    exact h

end Engine

/-! ### What a step can do -/

/-- Who may touch a storage in a scene. -/
def Scene.lend? (s : Scene P H) (id : StorageId) : Option Lend := s.engine.world.memory.lend? id

/-- The event puts no operation in flight and retrieves none from among these. -/
def Event.IsIdle (slab : Slab Context) : Event P H → Prop
  | .submitted _ (.ok _) => False
  | .submitted _ (.error _) => True
  | .completed seen c _ ran => seen.slab = slab ∧ slab.get? c.token = none ∧ ran = none
  | .popped _ => True
  | .abandoned => False
  | .quiet => True

/-- The same operations are in flight, and the same were given up. -/
structure Scene.Keeps (s s' : Scene P H) : Prop where
  slab : s.engine.slab.Keeps s'.engine.slab
  wakeToken : s'.engine.wakeToken = s.engine.wakeToken
  leaked : s'.engine.leaked = s.engine.leaked

/-- Exactly these storages were idle before and are lent now. -/
structure Scene.Lends (ids : List StorageId) (s s' : Scene P H) : Prop where
  nodup : ids.Nodup
  idle : ∀ id ∈ ids, s.lend? id = some .idle
  lend? : ∀ id, s'.lend? id = if id ∈ ids then some .lent else s.lend? id

/-- The storages of an operation are given back, and no others. -/
def Scene.GivesBack (ids : List StorageId) (s s' : Scene P H) : Prop :=
  ∀ id, s'.lend? id = if id ∈ ids then (s.lend? id).map fun _ => .idle else s.lend? id

variable [Os H]

/-- What a step does to what is in flight and to who holds which storage. -/
inductive Turnover (s : Scene P H) : Event P H → Scene P H → Prop where
  | kept {ev : Event P H} {s' : Scene P H} (hev : ev.IsIdle s.engine.slab) (hk : s.Keeps s')
      (hborrows : s'.borrows = s.borrows) (hrunning : s'.running = s.running ∨ s'.running = none)
      (hlend : ∀ id, s'.lend? id = s.lend? id) : Turnover s ev s'
  | allocated {s' : Scene P H} (id : StorageId) (hk : s.Keeps s')
      (hborrows : s'.borrows = s.borrows) (hrunning : s'.running = s.running)
      (hnone : s.lend? id = none)
      (hlend : ∀ x, s'.lend? x = if x = id then some .idle else s.lend? x) : Turnover s .quiet s'
  | borrowed {s' : Scene P H} (id : StorageId) (hk : s.Keeps s')
      (hborrows : s'.borrows = id :: s.borrows) (hrunning : s'.running = s.running)
      (hidle : s.lend? id = some .idle)
      (hlend : ∀ x, s'.lend? x = if x = id then some .borrowed else s.lend? x) :
      Turnover s .quiet s'
  | gaveBack {s' : Scene P H} (id : StorageId) (hk : s.Keeps s') (hmem : id ∈ s.borrows)
      (hborrows : s'.borrows = s.borrows.erase id) (hrunning : s'.running = s.running)
      (hlend : s.GivesBack [id] s') : Turnover s .quiet s'
  | entered {cb : Callback} {s' : Scene P H} (context : Context) (hcb : context.callback = cb)
      (hslab : s'.engine.slab = (s.engine.slab.insert context).1)
      (hwake : s'.engine.wakeToken = s.engine.wakeToken)
      (hleaked : s'.engine.leaked = s.engine.leaked) (hborrows : s'.borrows = s.borrows)
      (hrunning : s'.running = none) (hlend : s.Lends context.pinned.leases s') :
      Turnover s (.submitted cb (.ok (s.engine.slab.insert context).2)) s'
  /-- The engine's own read is over, and there is no other one in flight. -/
  | woken {seen : Engine P H} {c : Completion} {moved : Transfer} {s' : Scene P H}
      (context : Context) (slab : Slab Context) (hseen : seen.slab = s.engine.slab)
      (htake : s.engine.slab.take c.token = some (context, slab))
      (hwas : s.engine.wakeToken = some c.token) (hslab : slab.Keeps s'.engine.slab)
      (hwake : s'.engine.wakeToken = none) (hleaked : s'.engine.leaked = s.engine.leaked)
      (hborrows : s'.borrows = s.borrows) (hrunning : s'.running = none)
      (hlend : s.GivesBack context.pinned.leases s') : Turnover s (.completed seen c moved none) s'
  /-- The engine's own read is over, and the next one is in flight. -/
  | rearmed {seen : Engine P H} {c : Completion} {moved : Transfer} {s' : Scene P H}
      (context next : Context) (slab : Slab Context) (between : Scene P H)
      (hseen : seen.slab = s.engine.slab)
      (htake : s.engine.slab.take c.token = some (context, slab))
      (hwas : s.engine.wakeToken = some c.token)
      (hslab : s'.engine.slab = (slab.insert next).1)
      (hwake : s'.engine.wakeToken = some (slab.insert next).2)
      (hleaked : s'.engine.leaked = s.engine.leaked) (hborrows : s'.borrows = s.borrows)
      (hrunning : s'.running = none) (hback : s.GivesBack context.pinned.leases between)
      (hlend : between.Lends next.pinned.leases s') : Turnover s (.completed seen c moved none) s'
  | called {seen : Engine P H} {c : Completion} {moved : Transfer} {s' : Scene P H}
      (context : Context) (slab : Slab Context) (hseen : seen.slab = s.engine.slab)
      (htake : s.engine.slab.take c.token = some (context, slab))
      (hwas : s.engine.wakeToken ≠ some c.token) (hslab : s'.engine.slab = slab)
      (hwake : s'.engine.wakeToken = s.engine.wakeToken)
      (hleaked : s'.engine.leaked = s.engine.leaked) (hborrows : s'.borrows = s.borrows)
      (hrunning : s'.running = some context) (hlend : s.GivesBack context.pinned.leases s') :
      Turnover s (.completed seen c moved (some (context.callback,
        .ofResult (seen.world.settle context.pinned c.result moved).2))) s'
  | abandoned {s' : Scene P H} (hslab : s'.engine.slab = s.engine.slab.abandon)
      (hwake : s'.engine.wakeToken = none)
      (hleaked : s'.engine.leaked = s.engine.leaked ++ s.engine.slab.occupants)
      (hborrows : s'.borrows = s.borrows) (hrunning : s'.running = none)
      (hlend : ∀ id, s'.lend? id = s.lend? id) : Turnover s .abandoned s'

omit [Os H] in
private theorem keeps_of_eq {s s' : Scene P H} (hs : s.engine.slab.Sound)
    (hslab : s'.engine.slab = s.engine.slab) (hwake : s'.engine.wakeToken = s.engine.wakeToken)
    (hleaked : s'.engine.leaked = s.engine.leaked) : s.Keeps s' :=
  ⟨hslab ▸ hs.keeps_self, hwake, hleaked⟩

variable [CompletionPort P H]

/-- Calling a submitter puts one operation in flight or none. -/
private theorem turnover_place {e : Engine P H} (b : List StorageId)
    (o : Order StorageId) (cb : Callback) (hs : e.slab.Sound)
    (hroom : (e.place o cb).1.slab.slots.length ≤ 2 ^ 32) :
    Turnover ⟨e, b, none⟩ (.submitted cb (e.place o cb).2) ⟨(e.place o cb).1, b, none⟩ := by
  cases hp : e.place o cb with
  | mk e' r =>
    rw [hp] at hroom
    cases r with
    | ok t =>
      obtain ⟨m, sub, hprep, rfl, p, host, j, a, rfl⟩ := Engine.place_eq_ok hp
      obtain ⟨_, _, _, hlease⟩ := Order.prepare_eq_ok hprep
      obtain ⟨hnd, hidle⟩ := Memory.idle_of_leaseAll? hlease
      exact .entered (Engine.contextOf sub cb) rfl rfl rfl rfl rfl rfl
        ⟨hnd, hidle, Memory.lend?_leaseAll? hlease⟩
    | error f =>
      rcases Engine.place_eq_error hs hroom hp with ⟨_, rfl⟩ | ⟨_, slab, p, host, j, a, hk, rfl⟩
      · exact .kept trivial (keeps_of_eq hs rfl rfl rfl) rfl (.inl rfl) fun _ => rfl
      · exact .kept trivial ⟨hk, rfl, rfl⟩ rfl (.inl rfl) fun _ => rfl

/-- The engine without its own read, whose completion has been settled. -/
def Engine.wakeSettled (e : Engine P H) (slab : Slab Context) (context : Context)
    (c : Completion) (moved : Transfer) : Engine P H :=
  { e.settled slab (e.world.settle context.pinned c.result moved).1 with wakeToken := none }

/-- The engine's own read is over when its completion is retrieved, and is put in flight again
or not. -/
private theorem turnover_woken {e e' : Engine P H} (b : List StorageId) {deadline : Option Nat}
    {rounds : Nat} {c : Completion} {moved : Transfer} {context : Context} {slab : Slab Context}
    (h : e.waitPort deadline rounds = (e', .completion c moved))
    (ht : e'.slab.take c.token = some (context, slab)) (hwake : e'.wakeToken = some c.token)
    (hs : e.slab.Sound) (hroom : ((e'.wakeSettled slab context c moved).rearmWake
      (e'.world.settle context.pinned c.result moved).2).slab.slots.length ≤ 2 ^ 32) :
    Turnover ⟨e, b, none⟩ (.completed e' c moved none)
      ⟨(e'.wakeSettled slab context c moved).rearmWake
        (e'.world.settle context.pinned c.result moved).2, b, none⟩ := by
  obtain ⟨p, host, j, rfl⟩ := Engine.waitPort_eq_beside h
  let seen := e.beside p host j e.associated
  have htaken : slab.Sound := Slab.Sound.take (s := e.slab) hs ht
  have hback := World.lend?_settle seen.world context.pinned c.result moved
  rcases Engine.rearmWake_cases _ htaken hroom with
    ⟨slab', p', host', j', a', hk, he⟩ | ⟨next, m, _, hlease, p', host', j', a', he⟩
  · rw [he]
    exact .woken context slab rfl ht hwake hk rfl rfl rfl rfl hback
  · rw [he]
    obtain ⟨hnd, hidle⟩ := Memory.idle_of_leaseAll? hlease
    let between : Scene P H := ⟨seen.wakeSettled slab context c moved, b, none⟩
    exact .rearmed context next slab between rfl ht hwake rfl rfl rfl rfl rfl hback
      ⟨hnd, hidle, Memory.lend?_leaseAll? hlease⟩

/-- Every step is of one of these kinds. -/
theorem Happens.turnover {s s' : Scene P H} {ev : Event P H} (h : Happens s ev s')
    (hs : s.engine.slab.Sound) (hroom : s'.engine.slab.slots.length ≤ 2 ^ 32) :
    Turnover s ev s' := by
  cases h with
  | place e b o cb => exact turnover_place b o cb hs hroom
  | associate e b fd =>
    obtain ⟨p, host, j, a, he⟩ := e.associate_eq_beside fd
    rw [he]
    exact .kept trivial (keeps_of_eq hs rfl rfl rfl) rfl (.inl rfl) fun _ => rfl
  | dissociate e b fd =>
    exact .kept trivial (keeps_of_eq hs rfl rfl rfl) rfl (.inl rfl) fun _ => rfl
  | waited e e' b deadline rounds w hw h =>
    obtain ⟨p, host, j, rfl⟩ := Engine.waitPort_eq_beside h
    exact .kept trivial (keeps_of_eq hs rfl rfl rfl) rfl (.inl rfl) fun _ => rfl
  | unknown e e' b deadline rounds c moved h ht =>
    obtain ⟨p, host, j, rfl⟩ := Engine.waitPort_eq_beside h
    have hnone := (Slab.take_eq_none_iff _ _).mp ht
    exact .kept ⟨rfl, hnone, rfl⟩ (keeps_of_eq hs rfl rfl rfl) rfl (.inl rfl) fun _ => rfl
  | woken e e' b deadline rounds c moved context slab h ht hwake =>
    exact turnover_woken b h ht hwake hs hroom
  | called e e' b deadline rounds c moved context slab o h ht hwake ho =>
    obtain ⟨p, host, j, rfl⟩ := Engine.waitPort_eq_beside h
    subst ho
    have hback := World.lend?_settle (e.beside p host j e.associated).world context.pinned
      c.result moved
    exact .called context slab rfl ht hwake rfl rfl rfl rfl rfl hback
  | returned e b context =>
    exact .kept trivial (keeps_of_eq hs rfl rfl rfl) rfl (.inr rfl) fun _ => rfl
  | popped e b cb world h =>
    obtain ⟨queue, _, rfl⟩ := World.pop_eq_some h
    exact .kept trivial (keeps_of_eq hs rfl rfl rfl) rfl (.inl rfl) fun _ => rfl
  | injected e b =>
    exact .kept trivial (keeps_of_eq hs rfl rfl rfl) rfl (.inl rfl) fun _ => rfl
  | act e b r a ha =>
    exact .kept trivial (keeps_of_eq hs rfl rfl rfl) rfl (.inl rfl) fun id =>
      World.lend?_act e.world id ha
  | post e b r cb =>
    refine .kept trivial (keeps_of_eq hs rfl rfl rfl) rfl (.inl rfl) fun id => ?_
    exact World.lend?_act e.world (a := .post cb.tag cb.actions) id (by simp)
  | alloc e b r content =>
    refine .allocated e.world.memory.storages.length (keeps_of_eq hs rfl rfl rfl) rfl rfl ?_ ?_
    · simp [Scene.lend?, Memory.lend?]
    · exact Memory.lend?_alloc e.world.memory content
  | bind e b r handle id =>
    exact .kept trivial (keeps_of_eq hs rfl rfl rfl) rfl (.inl rfl) fun _ => rfl
  | borrow e b r handle content id world h =>
    obtain ⟨hidle, hlend⟩ := World.lend?_borrow? h
    exact .borrowed id (keeps_of_eq hs rfl rfl rfl) rfl rfl hidle hlend
  | scribble e b r id content h =>
    exact .kept trivial (keeps_of_eq hs rfl rfl rfl) rfl (.inl rfl) fun x =>
      Memory.lend?_modifyBytes _ _ _ _
  | giveBack e b r id h =>
    refine .gaveBack id (keeps_of_eq hs rfl rfl rfl) h rfl rfl fun x => ?_
    simp only [List.mem_singleton]
    exact Memory.lend?_release e.world.memory id x
  | aside e b r host journal timeouts =>
    exact .kept trivial (keeps_of_eq hs rfl rfl rfl) rfl (.inl rfl) fun _ => rfl
  | closeToPosts e b =>
    exact .kept trivial (keeps_of_eq hs rfl rfl rfl) rfl (.inl rfl) fun _ => rfl
  | abandon e b =>
    unfold Engine.abandon
    dsimp only
    split <;> split <;> exact .abandoned rfl rfl rfl rfl rfl fun _ => rfl

/-! ### Along a path -/

omit [CompletionPort P H] in
/-- What is in flight stays under sound tokens. -/
theorem Turnover.sound {s s' : Scene P H} {ev : Event P H} (h : Turnover s ev s')
    (hs : s.engine.slab.Sound) (hroom : s'.engine.slab.slots.length ≤ 2 ^ 32) :
    s'.engine.slab.Sound := by
  cases h with
  | kept hev hk => exact hk.slab.sound
  | allocated id hk => exact hk.slab.sound
  | borrowed id hk => exact hk.slab.sound
  | gaveBack id hk => exact hk.slab.sound
  | entered context hcb hslab =>
    rw [hslab] at hroom ⊢
    exact hs.insert context hroom
  | woken context slab hseen htake hwas hslab => exact hslab.sound
  | rearmed context next slab between hseen htake hwas hslab =>
    rw [hslab] at hroom ⊢
    exact (hs.take htake).insert next hroom
  | called context slab hseen htake hwas hslab =>
    rw [hslab]
    exact hs.take htake
  | abandoned hslab =>
    rw [hslab]
    exact hs.abandon

/-- The event is the call of a submitter. -/
def Event.isSubmission : Event P H → Bool
  | .submitted .. => true
  | _ => false

/-- No step gives up a slot, and only a submission adds one: the engine's own read is put in flight
again in the slot that it has just left. -/
theorem Happens.length_slots {s s' : Scene P H} {ev : Event P H} (h : Happens s ev s') :
    s.engine.slab.slots.length ≤ s'.engine.slab.slots.length ∧
      s'.engine.slab.slots.length ≤
        s.engine.slab.slots.length + if ev.isSubmission then 1 else 0 := by
  have hsame : s'.engine.slab.slots.length = s.engine.slab.slots.length →
      s.engine.slab.slots.length ≤ s'.engine.slab.slots.length ∧
        s'.engine.slab.slots.length ≤
          s.engine.slab.slots.length + if ev.isSubmission then 1 else 0 := by
    intro hlen
    rw [hlen]
    exact ⟨Nat.le_refl _, Nat.le_add_right _ _⟩
  cases h with
  | place e b o cb =>
    have hgrows := e.grows_place o cb
    refine ⟨hgrows.le, Nat.le_trans hgrows.le_add (Nat.add_le_add_left ?_ _)⟩
    split
    · exact Nat.le_refl 1
    · exact Nat.zero_le _
  | associate e b fd =>
    obtain ⟨p, host, j, a, he⟩ := e.associate_eq_beside fd
    exact hsame (by rw [he]; rfl)
  | waited e e' b deadline rounds w hw h =>
    obtain ⟨p, host, j, rfl⟩ := Engine.waitPort_eq_beside h
    exact hsame rfl
  | unknown e e' b deadline rounds c moved h ht =>
    obtain ⟨p, host, j, rfl⟩ := Engine.waitPort_eq_beside h
    exact hsame rfl
  | woken e e' b deadline rounds c moved context slab h ht hwake =>
    obtain ⟨p, host, j, rfl⟩ := Engine.waitPort_eq_beside h
    have hlen : slab.slots.length = e.slab.slots.length := Slab.length_slots_take ht
    have hgrows := Engine.grows_rearmWake ((e.beside p host j e.associated).wakeSettled slab context
      c moved) ((e.beside p host j e.associated).world.settle context.pinned c.result moved).2
    exact hsame ((hgrows.length_eq (Slab.free_take ht)).trans hlen)
  | called e e' b deadline rounds c moved context slab o h ht hwake ho =>
    obtain ⟨p, host, j, rfl⟩ := Engine.waitPort_eq_beside h
    exact hsame (Slab.length_slots_take (s := e.slab) ht)
  | abandon e b =>
    apply hsame
    unfold Engine.abandon
    dsimp only
    split <;> split <;> simp [Slab.abandon, Engine.note]
  | _ => exact hsame rfl

namespace Path

variable {s₀ s : Scene P H} {τ : List (Moment P H)}

/-- There were never more slots than there are in the end. -/
theorem length_slots_le (h : Path s₀ τ s) :
    s₀.engine.slab.slots.length ≤ s.engine.slab.slots.length := by
  induction h with
  | refl => exact Nat.le_refl _
  | snoc _ hlast ih => exact Nat.le_trans ih hlast.length_slots.1

/-- There are no more slots in the end than there were at first and submissions since. -/
theorem length_slots_le_add (h : Path s₀ τ s) :
    s.engine.slab.slots.length ≤
      s₀.engine.slab.slots.length + τ.countP fun m => m.1.isSubmission := by
  induction h with
  | refl => exact Nat.le_refl _
  | snoc _ hlast ih =>
    have hstep := hlast.length_slots.2
    rw [List.countP_append, List.countP_singleton, ← Nat.add_assoc]
    exact Nat.le_trans hstep (Nat.add_le_add_right ih _)

/-- What holds at first and is kept by every step, given what a step can do, holds in the end. -/
theorem induct {I : List (Moment P H) → Scene P H → Prop} (h : Path s₀ τ s)
    (hs : s₀.engine.slab.Sound) (hroom : s.engine.slab.slots.length ≤ 2 ^ 32) (hfirst : I [] s₀)
    (hstep : ∀ τ s ev s', s.engine.slab.Sound → s'.engine.slab.slots.length ≤ 2 ^ 32 →
      Happens s ev s' → Turnover s ev s' → I τ s → I (τ ++ [(ev, s')]) s') :
    s.engine.slab.Sound ∧ I τ s := by
  induction h with
  | refl => exact ⟨hs, hfirst⟩
  | snoc _ hlast ih =>
    obtain ⟨hsound, hI⟩ := ih (Nat.le_trans hlast.length_slots.1 hroom)
    have hturn := hlast.turnover hsound hroom
    exact ⟨hturn.sound hsound hroom, hstep _ _ _ _ hsound hroom hlast hturn hI⟩

end Path

end Proactor
