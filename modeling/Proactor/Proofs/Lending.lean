import Mathlib.Data.List.Nodup
import Proactor.Proofs.Client
import Proactor.Session.AnyPort

/-!
# Exclusive lending

Who holds a storage is written down in one place only, and whoever gives a storage back does not
look there first. That is right as long as each storage that is lent is held by one operation
once, and each that is borrowed by one borrow: whoever gives it back is then the one who holds
it. This balance of holders is kept by every step, inside callbacks and borrows too.
-/

namespace Proactor

variable {P H : Type}

/-- How many leases these operations have on a storage. -/
def leasesOn (contexts : List Context) (id : StorageId) : Nat :=
  (contexts.flatMap fun context => context.pinned.leases).count id

/-- The operations that hold storages: those in flight, and those that were given up. -/
def Scene.holders (s : Scene P H) : List Context := s.engine.slab.occupants ++ s.engine.leaked

/-- Each storage that is lent has one lease on it, each that is borrowed has one borrow, and
there are no others. -/
def Balanced (contexts : List Context) (borrows : List StorageId)
    (lend? : StorageId → Option Lend) : Prop :=
  ∀ id, leasesOn contexts id = (if lend? id = some .lent then 1 else 0) ∧
    borrows.count id = if lend? id = some .borrowed then 1 else 0

/-! ### The balance of holders -/

theorem leasesOn_cons (context : Context) (contexts : List Context) (id : StorageId) :
    leasesOn (context :: contexts) id =
      context.pinned.leases.count id + leasesOn contexts id := by
  simp [leasesOn]

/-- The order of the operations does not matter. -/
theorem leasesOn_of_perm {l l' : List Context} (h : l.Perm l') (id : StorageId) :
    leasesOn l id = leasesOn l' id :=
  (h.flatMap_right _).count_eq id

namespace Balanced

variable {contexts contexts' : List Context} {context : Context} {borrows : List StorageId}
  {lend? lend?' : StorageId → Option Lend}

theorem of_perm (h : Balanced contexts borrows lend?) (hp : contexts'.Perm contexts)
    (hl : ∀ id, lend?' id = lend? id) : Balanced contexts' borrows lend?' := by
  intro id
  rw [leasesOn_of_perm hp, hl]
  exact h id

/-- Operations hold no storage that is idle or not there. -/
theorem leasesOn_eq_zero (h : Balanced contexts borrows lend?) {id : StorageId}
    (hne : lend? id ≠ some .lent) : leasesOn contexts id = 0 := by
  rw [(h id).1, if_neg hne]

/-- An operation that is lent idle storages, each once, is balanced. -/
theorem lends (h : Balanced contexts borrows lend?) (hnd : context.pinned.leases.Nodup)
    (hidle : ∀ id ∈ context.pinned.leases, lend? id = some .idle)
    (hl : ∀ id, lend?' id = if id ∈ context.pinned.leases then some .lent else lend? id) :
    Balanced (context :: contexts) borrows lend?' := by
  intro id
  obtain ⟨hlent, hborrowed⟩ := h id
  rw [leasesOn_cons, hl]
  by_cases hmem : id ∈ context.pinned.leases
  · rw [List.nodup_iff_count_eq_one.mp hnd id hmem, hlent, hborrowed, hidle id hmem]
    simp [hmem]
  · rw [List.count_eq_zero_of_not_mem hmem, hlent, hborrowed]
    simp [hmem]

/-- What an operation holds is lent, and nobody else holds it. -/
theorem lent_of_mem (h : Balanced (context :: contexts) borrows lend?) {id : StorageId}
    (hmem : id ∈ context.pinned.leases) :
    lend? id = some .lent ∧ context.pinned.leases.count id = 1 ∧ leasesOn contexts id = 0 := by
  have hlent := (h id).1
  rw [leasesOn_cons] at hlent
  have hpos := List.count_pos_iff.mpr hmem
  by_cases hl : lend? id = some .lent
  · rw [if_pos hl] at hlent
    exact ⟨hl, by omega, by omega⟩
  · rw [if_neg hl] at hlent
    omega

/-- An operation that gives its storages back leaves the others balanced. -/
theorem givesBack (h : Balanced (context :: contexts) borrows lend?)
    (hl : ∀ id, lend?' id = if id ∈ context.pinned.leases then (lend? id).map fun _ => .idle
      else lend? id) : Balanced contexts borrows lend?' := by
  intro id
  obtain ⟨hlent, hborrowed⟩ := h id
  rw [hl]
  by_cases hmem : id ∈ context.pinned.leases
  · obtain ⟨hthis, _, hothers⟩ := h.lent_of_mem hmem
    rw [hothers, hborrowed, hthis]
    simp [hmem]
  · rw [leasesOn_cons, List.count_eq_zero_of_not_mem hmem, Nat.zero_add] at hlent
    rw [hlent, hborrowed]
    simp [hmem]

/-- A new storage is held by nobody. -/
theorem allocates (h : Balanced contexts borrows lend?) {id : StorageId} (hnone : lend? id = none)
    (hl : ∀ x, lend?' x = if x = id then some .idle else lend? x) :
    Balanced contexts borrows lend?' := by
  intro x
  obtain ⟨hlent, hborrowed⟩ := h x
  rw [hlent, hborrowed, hl]
  by_cases hx : x = id
  · simp [hx, hnone]
  · simp [hx]

/-- A borrow of an idle storage is balanced. -/
theorem borrow (h : Balanced contexts borrows lend?) {id : StorageId}
    (hidle : lend? id = some .idle)
    (hl : ∀ x, lend?' x = if x = id then some .borrowed else lend? x) :
    Balanced contexts (id :: borrows) lend?' := by
  intro x
  obtain ⟨hlent, hborrowed⟩ := h x
  rw [hlent, hl]
  by_cases hx : x = id
  · subst hx
    rw [hidle] at hborrowed
    simp [hidle, hborrowed]
  · rw [List.count_cons_of_ne (Ne.symm hx), hborrowed]
    simp [hx]

/-- A borrow that ends leaves the others balanced. -/
theorem endsBorrow (h : Balanced contexts borrows lend?) {id : StorageId} (hmem : id ∈ borrows)
    (hl : ∀ x, lend?' x = if x ∈ [id] then (lend? x).map fun _ => .idle else lend? x) :
    Balanced contexts (borrows.erase id) lend?' := by
  intro x
  obtain ⟨hlent, hborrowed⟩ := h x
  rw [hlent, hl, List.count_erase, hborrowed]
  by_cases hx : x = id
  · subst hx
    have hpos := List.count_pos_iff.mpr hmem
    have hb : lend? x = some .borrowed := by
      by_contra hne
      rw [hborrowed, if_neg hne] at hpos
      exact absurd hpos (Nat.lt_irrefl 0)
    simp [hb]
  · simp [hx, Ne.symm hx]

end Balanced

/-! ### Every step keeps the balance -/

/-- The holders in a scene are balanced, and the operation whose callback is being run holds
nothing any more. -/
structure Scene.Settled (s : Scene P H) : Prop where
  balanced : Balanced s.holders s.borrows s.lend?
  running : ∀ context, s.running = some context →
    ∀ id ∈ context.pinned.leases, s.lend? id ≠ some .lent

namespace Scene

variable {s s' : Scene P H}

/-- The same operations hold storages when the same are in flight. -/
theorem Keeps.holders (h : s.Keeps s') : s'.holders.Perm s.holders := by
  unfold Scene.holders
  rw [h.leaked]
  exact h.slab.occupants.append_right _

/-- One more operation holds storages when one is put in flight. -/
theorem holders_of_insert {slab : Slab Context} {context : Context} (hs : slab.Sound)
    (hslab : s'.engine.slab = (slab.insert context).1)
    (hleaked : s'.engine.leaked = s.engine.leaked) :
    s'.holders.Perm (context :: (slab.occupants ++ s.engine.leaked)) := by
  unfold Scene.holders
  rw [hslab, hleaked]
  exact (hs.occupants_insert context).append_right _

/-- One operation of the holders is over when one is retrieved. -/
theorem holders_of_take {slab : Slab Context} {context : Context} {t : Token}
    (h : s.engine.slab.take t = some (context, slab)) :
    (context :: (slab.occupants ++ s.engine.leaked)).Perm s.holders :=
  ((Slab.occupants_take h).append_right _).symm

end Scene

variable [Os H]

/-- Every step keeps the balance of holders. -/
theorem Turnover.balanced {s s' : Scene P H} {ev : Event P H} (h : Turnover s ev s')
    (hs : s.engine.slab.Sound) (hb : Balanced s.holders s.borrows s.lend?) :
    Balanced s'.holders s'.borrows s'.lend? := by
  cases h with
  | kept hev hk hborrows hrunning hlend =>
    rw [hborrows]
    exact hb.of_perm hk.holders hlend
  | allocated id hk hborrows hrunning hnone hlend =>
    rw [hborrows]
    exact (hb.allocates hnone hlend).of_perm hk.holders fun _ => rfl
  | borrowed id hk hborrows hrunning hidle hlend =>
    rw [hborrows]
    exact (hb.borrow hidle hlend).of_perm hk.holders fun _ => rfl
  | gaveBack id hk hmem hborrows hrunning hlend =>
    rw [hborrows]
    exact (hb.endsBorrow hmem hlend).of_perm hk.holders fun _ => rfl
  | entered context hcb hslab hwake hleaked hborrows hrunning hlend =>
    rw [hborrows]
    refine (hb.lends hlend.nodup hlend.idle hlend.lend?).of_perm ?_ fun _ => rfl
    exact Scene.holders_of_insert hs hslab hleaked
  | woken context slab hseen htake hwas hslab hwake hleaked hborrows hrunning hlend =>
    have hback := (hb.of_perm (Scene.holders_of_take htake) fun _ => rfl).givesBack hlend
    rw [hborrows]
    refine hback.of_perm ?_ fun _ => rfl
    unfold Scene.holders
    rw [hleaked]
    exact hslab.occupants.append_right _
  | rearmed context next slab between hseen htake hwas hslab hwake hleaked hborrows hrunning
      hback hlend =>
    have hmid := (hb.of_perm (Scene.holders_of_take htake) fun _ => rfl).givesBack hback
    rw [hborrows]
    refine (hmid.lends hlend.nodup hlend.idle hlend.lend?).of_perm ?_ fun _ => rfl
    exact Scene.holders_of_insert (hs.take htake) hslab hleaked
  | called context slab hseen htake hwas hslab hwake hleaked hborrows hrunning hlend =>
    have hback := (hb.of_perm (Scene.holders_of_take htake) fun _ => rfl).givesBack hlend
    rw [hborrows]
    unfold Scene.holders
    rw [hslab, hleaked]
    exact hback
  | abandoned hslab hwake hleaked hborrows hrunning hlend =>
    rw [hborrows]
    refine hb.of_perm ?_ hlend
    unfold Scene.holders
    rw [hslab, hleaked, Slab.occupants_abandon, List.nil_append]
    exact List.perm_append_comm

/-- Every step keeps a scene settled. -/
theorem Turnover.settled {s s' : Scene P H} {ev : Event P H} (h : Turnover s ev s')
    (hs : s.engine.slab.Sound) (hi : s.Settled) : s'.Settled := by
  refine ⟨h.balanced hs hi.balanced, ?_⟩
  intro own hown id hid
  cases h with
  | kept hev hk hborrows hrunning hlend =>
    rw [hlend]
    rcases hrunning with hr | hr
    · exact hi.running own (hr ▸ hown) id hid
    · rw [hr] at hown
      cases hown
  | allocated new hk hborrows hrunning hnone hlend =>
    rw [hlend]
    split
    · simp
    · exact hi.running own (hrunning ▸ hown) id hid
  | borrowed other hk hborrows hrunning hidle hlend =>
    rw [hlend]
    split
    · simp
    · exact hi.running own (hrunning ▸ hown) id hid
  | gaveBack other hk hmem hborrows hrunning hlend =>
    rw [hlend]
    split
    · simp
    · exact hi.running own (hrunning ▸ hown) id hid
  | entered context hcb hslab hwake hleaked hborrows hrunning =>
    rw [hrunning] at hown
    cases hown
  | woken context slab hseen htake hwas hslab hwake hleaked hborrows hrunning =>
    rw [hrunning] at hown
    cases hown
  | rearmed context next slab between hseen htake hwas hslab hwake hleaked hborrows hrunning =>
    rw [hrunning] at hown
    cases hown
  | called context slab hseen htake hwas hslab hwake hleaked hborrows hrunning hlend =>
    rw [hrunning] at hown
    cases hown
    rw [hlend, if_pos hid]
    simp
  | abandoned hslab hwake hleaked hborrows hrunning =>
    rw [hrunning] at hown
    cases hown

/-! ### Whole runs -/

/-- At every storage at most one holder, and its state says which. -/
structure Scene.Exclusive (s : Scene P H) : Prop where
  /-- A storage is lent exactly if one operation, in flight or given up, has one lease on it. -/
  lent : ∀ id, s.lend? id = some .lent ↔ leasesOn s.holders id = 1
  /-- A storage is borrowed exactly if one borrow of it is running. -/
  borrowed : ∀ id, s.lend? id = some .borrowed ↔ s.borrows.count id = 1
  /-- A storage is idle exactly if nobody holds it. -/
  idle : ∀ id, id < s.engine.world.memory.storages.length →
    (s.lend? id = some .idle ↔ leasesOn s.holders id = 0 ∧ s.borrows.count id = 0)
  /-- No storage has two holders, and none has one holder twice. -/
  once : ∀ id, leasesOn s.holders id + s.borrows.count id ≤ 1
  /-- Inside the callback of an operation its storages are not lent any more. -/
  own : ∀ context, s.running = some context →
    ∀ id ∈ context.pinned.leases, s.lend? id ≠ some .lent
  /-- The storages of every other operation are. -/
  others : ∀ context ∈ s.holders, ∀ id ∈ context.pinned.leases, s.lend? id = some .lent

omit [Os H] in
/-- A settled scene is exclusive. -/
theorem Scene.Settled.exclusive {s : Scene P H} (h : s.Settled) : s.Exclusive := by
  have hb := h.balanced
  refine ⟨?_, ?_, ?_, ?_, h.running, ?_⟩
  · intro id
    rw [(hb id).1]
    split <;> simp_all
  · intro id
    rw [(hb id).2]
    split <;> simp_all
  · intro id hid
    rw [(hb id).1, (hb id).2]
    obtain ⟨l, hl⟩ : ∃ l, s.lend? id = some l :=
      ⟨_, by simp [Scene.lend?, Memory.lend?, List.getElem?_eq_getElem hid]; rfl⟩
    cases l <;> simp [hl]
  · intro id
    rw [(hb id).1, (hb id).2]
    cases hl : s.lend? id with
    | none => simp
    | some l => cases l <;> simp
  · intro context hmem id hid
    by_contra hne
    have hzero := hb.leasesOn_eq_zero hne
    apply List.count_eq_zero.mp hzero
    exact List.mem_flatMap.mpr ⟨context, hmem, hid⟩

omit [Os H] in
/-- In a new engine only the buffer of its own read is lent. -/
theorem Engine.IsNew.settled [CompletionPort P H] {e : Engine P H} (h : e.IsNew) :
    (Client.own e).scene.Settled := by
  refine ⟨fun id => ⟨?_, ?_⟩, ?_⟩
  · obtain ⟨context, hleases, hslab, _⟩ := h.slab
    have hholders : (Client.own e).scene.holders.Perm [context] := by
      unfold Scene.holders
      have hocc := Slab.sound_empty.occupants_insert context
      rw [← hslab] at hocc
      have hleaked : (Client.own e).scene.engine.leaked = [] := h.leaked
      rw [hleaked, List.append_nil]
      exact hocc
    rw [leasesOn_of_perm hholders]
    have hlend : (Client.own e).scene.lend? id = if id = 0 then some .lent else none := h.lend? id
    rw [hlend, leasesOn_cons, hleases]
    by_cases hid : id = 0 <;> simp [leasesOn, hid, eq_comm]
  · have hlend : (Client.own e).scene.lend? id = if id = 0 then some .lent else none := h.lend? id
    rw [hlend]
    by_cases hid : id = 0 <;> simp [hid, Client.own, Client.scene]
  · intro context hrun
    cases hrun

variable [CompletionPort P H]

/-- Whatever the port does, and whatever a program does with an engine and its buffers, at all
times, between calls, while a borrow is running and inside callbacks, a storage is lent exactly if
one operation holds it, borrowed exactly if one running borrow does, and idle otherwise. A token
has `2 ^ 32` indices; with more slots than that, which takes as many submissions, two operations
would share one. -/
theorem storages_are_lent_exclusively {config : Config} {port : P} {host : H} {e : Engine P H}
    (h : Engine.build config port host = .ready e) (steps : List (Step H))
    (hroom : ((Client.own e).after steps).engine.slab.slots.length ≤ 2 ^ 32) :
    (∀ m ∈ (Client.own e).history steps, m.2.Exclusive) ∧
      ((Client.own e).after steps).scene.Exclusive := by
  have hnew := Engine.isNew_of_build h
  have hpath := (Client.own e).path_history steps
  let I (τ : List (Moment P H)) (s : Scene P H) : Prop := (∀ m ∈ τ, m.2.Exclusive) ∧ s.Settled
  suffices hI : I ((Client.own e).history steps) ((Client.own e).after steps).scene from
    ⟨hI.1, hI.2.exclusive⟩
  refine (hpath.induct hnew.sound hroom ⟨by simp, hnew.settled⟩ ?_).2
  rintro τ s ev s' hs _ _ hturn ⟨hall, hset⟩
  have hnext := hturn.settled hs hset
  refine ⟨fun m hm => ?_, hnext⟩
  rcases List.mem_append.mp hm with hm | hm
  · exact hall m hm
  · rw [List.mem_singleton.mp hm]
    exact hnext.exclusive

/-- A message is asked for while its buffer is borrowed, then with one buffer for both of its
arguments, and then as it should be; its callback borrows the buffer, and the engine is dropped
with another operation in flight. -/
def askForMessages : List (Step Host) :=
  [.buffer "data" [0, 0, 0, 0], .clone "same" "data", .buffer "name" (Bytes.zeros 20),
    .borrow "data" [1], .place (.receiveFrom 3 "same" "name" none 0) ⟨"early", []⟩, .giveBack 1,
    .place (.receiveFrom 3 "name" "name" none 0) ⟨"twice", []⟩,
    .place (.receiveFrom 3 "data" "name" none 0) ⟨"received", [.borrow "same" [2] [.peek "data"]]⟩,
    .pump none 9, .place (.write 3 "data" none) ⟨"written", []⟩, .drop]

theorem storages_are_lent_exclusively_of_messages : ∃ e : Engine Scripted Host,
    Engine.build {} { waits := [.completion (.user 0) 4 0 {}] } Host.start = .ready e ∧
    ((Client.own e).after askForMessages).engine.slab.slots.length ≤ 2 ^ 32 ∧
    ((∀ m ∈ (Client.own e).history askForMessages, m.2.Exclusive) ∧
      ((Client.own e).after askForMessages).scene.Exclusive) ∧
    ((Client.own e).history askForMessages).map (fun m => m.2.lend? 1) =
      [some .idle, some .idle, some .idle, some .idle, some .idle, some .borrowed,
        some .borrowed, some .idle, some .idle, some .lent, some .lent, some .idle,
        some .borrowed, some .borrowed, some .idle, some .idle, some .lent, some .lent,
        some .lent] := by
  refine ⟨_, rfl, by decide +kernel, ?_, by decide +kernel⟩
  exact @storages_are_lent_exclusively Scripted Host _ _ {}
    { waits := [.completion (.user 0) 4 0 {}] } Host.start _ rfl askForMessages (by decide +kernel)

end Proactor
