import Proactor.Proofs.Entries
import Proactor.Proofs.Hidden
import Proactor.Proofs.Standing

/-!
# Stability

Bytes that are lent to an operation stay as they are until its completion is retrieved, whatever
user code does with other handles of the same storage and whatever becomes of other operations.
Its own completion then changes no more of its data than the port was given to fill.
-/

namespace Proactor

variable {P H : Type}

/-! ### Bytes that nobody else may touch -/

namespace World

variable [Os H]

/-- What was landed is in the storages of the operation. -/
theorem bytes_land (p : Pinned) (m : Memory) (t : Transfer) {id : StorageId}
    (h : id ∉ p.leases) : (p.land m t).1.bytes id = m.bytes id := by
  cases p with
  | reading data =>
    exact Memory.bytes_modifyBytes_of_ne _ _ fun he => h (by simp [Pinned.leases, he])
  | receiving data name nameLength =>
    have hname : name.storage ≠ id := fun he => h (by simp [Pinned.leases, he])
    have hdata : data.storage ≠ id := fun he => h (by simp [Pinned.leases, he])
    exact (Memory.bytes_modifyBytes_of_ne _ _ hname).trans
      (Memory.bytes_modifyBytes_of_ne _ _ hdata)
  | _ => rfl

/-- Putting a result right changes the storages of the operation only. -/
theorem bytes_finish (w : World H) (p : Pinned) (result : Int64) {id : StorageId}
    (h : id ∉ p.leases) : (w.finish p result).1.memory.bytes id = w.memory.bytes id := by
  cases p with
  | receiving data name nameLength =>
    exact Memory.bytes_modifyBytes_of_ne _ _ fun he => h (by simp [Pinned.leases, he])
  | accepting peer output onto =>
    have hne : output ≠ id := fun he => h (by simp [Pinned.leases, he])
    have hhalves : ∀ (w : World H) (near far : Option SocketAddress),
        (w.writeHalves output near far).memory.bytes id = w.memory.bytes id :=
      fun w _ _ => Memory.bytes_modifyBytes_of_ne w.memory _ hne
    simp only [finish]
    split
    · exact hhalves w none none
    · unfold moveAccepted
      dsimp only
      split
      · exact hhalves _ _ _
      · exact hhalves _ _ _
  | _ => rfl

/-- Settling an operation changes its own storages only. -/
theorem bytes_settle (w : World H) (p : Pinned) (result : Int64) (t : Transfer) {id : StorageId}
    (h : id ∉ p.leases) : (w.settle p result t).1.memory.bytes id = w.memory.bytes id := by
  have hland := bytes_land p w.memory t h
  have hnot : id ∉ (p.land w.memory t).2.leases := by rwa [leases_land]
  have hfinish := bytes_finish { w with memory := (p.land w.memory t).1 } (p.land w.memory t).2
    result hnot
  simp only [settle, Memory.bytes_releaseAll]
  exact hfinish.trans hland

/-- An action that is no borrow writes to no more than the idle storage that it fills. -/
theorem bytes_act (w : World H) {a : Action} {id : StorageId}
    (ha : ∀ handle content actions, a ≠ .borrow handle content actions)
    (hfill : ∀ handle content, a = .fill handle content → w.memory.find? handle = some id →
      w.memory.lend? id ≠ some .idle) : (w.act a).memory.bytes id = w.memory.bytes id := by
  cases a with
  | post tag actions =>
    simp only [act, post]
    split
    · rfl
    · unfold wake
      split <;> rfl
  | peek handle =>
    simp only [act]
    split <;> rfl
  | pending => rfl
  | fill handle content =>
    simp only [act, fill]
    split
    · next memory n h =>
      obtain ⟨other, hname, hother⟩ := Option.bind_eq_some_iff.mp h
      unfold Memory.fill? at hother
      split at hother
      · next hidle =>
        obtain rfl := (Prod.mk.inj (Option.some.inj hother)).1
        apply Memory.bytes_modifyBytes_of_ne
        rintro rfl
        exact hfill handle content rfl hname ((Memory.isIdle_eq_true_iff _ _).mp hidle)
      · cases hother
    · rfl
  | borrow handle content actions => exact absurd rfl (ha handle content actions)

omit [Os H] in
/-- A borrow writes to the storage that it takes. -/
theorem bytes_borrow? {w w' : World H} {handle : String} {content : Bytes} {other id : StorageId}
    (h : w.borrow? handle content = some (other, w')) (hne : other ≠ id) :
    w'.memory.bytes id = w.memory.bytes id := by
  simp only [borrow?, Option.bind_eq_bind, Option.bind_eq_some_iff] at h
  obtain ⟨id', _, m, hm, h⟩ := h
  obtain ⟨rfl, rfl⟩ := Prod.mk.inj (Option.some.inj h)
  obtain ⟨_, rfl⟩ := (Memory.borrow?_eq_some_iff _ _ _).mp hm
  exact (Memory.bytes_modifyBytes_of_ne _ _ hne).trans (Memory.bytes_setLend _ _ _ _)

end World

variable [CompletionPort P H] [Os H]

/-- The bytes of a storage in a scene. -/
def Scene.bytes (s : Scene P H) (id : StorageId) : Bytes := s.engine.world.memory.bytes id

omit [CompletionPort P H] [Os H] in
/-- A borrow holds the storage that it takes. -/
theorem Scene.Settled.not_mem_borrows {s : Scene P H} (h : s.Settled) {id : StorageId}
    (hid : s.lend? id ≠ some .borrowed) : id ∉ s.borrows := by
  have hcount := (h.balanced id).2
  rw [if_neg hid] at hcount
  exact List.count_eq_zero.mp hcount

omit [Os H] in
/-- Calling a submitter changes no bytes. -/
theorem Engine.bytes_place {e : Engine P H} {o : Order StorageId} {cb : Callback}
    (hs : e.slab.Sound) (hroom : (e.place o cb).1.slab.slots.length ≤ 2 ^ 32) (id : StorageId) :
    (e.place o cb).1.world.memory.bytes id = e.world.memory.bytes id := by
  cases hp : e.place o cb with
  | mk e' r =>
    rw [hp] at hroom
    cases r with
    | ok t =>
      obtain ⟨m, s, hprep, _, p, host, j, a, rfl⟩ := Engine.place_eq_ok hp
      obtain ⟨_, _, _, hlease⟩ := Order.prepare_eq_ok hprep
      exact (Memory.bytes_leaseAll? hlease).1 id
    | error f =>
      rcases Engine.place_eq_error hs hroom hp with ⟨_, rfl⟩ | ⟨_, slab, p, host, j, a, _, rfl⟩
      · rfl
      · rfl

omit [Os H] in
/-- Putting the engine's own read in flight again changes no bytes. -/
theorem Engine.bytes_rearmWake {e : Engine P H} (result : Int64) (hs : e.slab.Sound)
    (hroom : (e.rearmWake result).slab.slots.length ≤ 2 ^ 32) (id : StorageId) :
    (e.rearmWake result).world.memory.bytes id = e.world.memory.bytes id := by
  rcases Engine.rearmWake_cases result hs hroom with
    ⟨slab, p, host, j, a, _, he⟩ | ⟨next, m, _, hlease, p, host, j, a, he⟩
  · rw [he]
    rfl
  · rw [he]
    exact (Memory.bytes_leaseAll? hlease).1 id

/-- From one scene to the next, user code fills a storage. -/
def Scene.Fills (id : StorageId) (s s' : Scene P H) : Prop :=
  ∃ handle content, s.engine.world.memory.find? handle = some id ∧
    s'.engine = s.engine.withWorld (s.engine.world.fill handle content)

/-- The bytes of a storage that no borrow holds are changed by the completion of an operation that
it is lent to, and by user code that fills it or begins to borrow it while it is idle. -/
theorem Happens.bytes_eq {s s' : Scene P H} {ev : Event P H} (h : Happens s ev s')
    (hs : s.engine.slab.Sound) (hroom : s'.engine.slab.slots.length ≤ 2 ^ 32)
    (hsettled : s.Settled) {id : StorageId} {l : Lend} (hid : s.lend? id = some l)
    (hl : l ≠ .borrowed) (hidle : l = .idle → s'.lend? id = some .idle ∧ ¬ s.Fills id s')
    (hother : ∀ seen c moved ran context, ev = .completed seen c moved ran →
      s.engine.slab.get? c.token = some context → id ∉ context.pinned.leases) :
    s'.bytes id = s.bytes id := by
  cases h with
  | place e b o cb => exact Engine.bytes_place hs hroom id
  | associate e b fd =>
    obtain ⟨p, host, j, a, he⟩ := e.associate_eq_beside fd
    rw [he]
    rfl
  | waited e e' b deadline rounds w hw h =>
    obtain ⟨p, host, j, rfl⟩ := Engine.waitPort_eq_beside h
    rfl
  | unknown e e' b deadline rounds c moved h ht =>
    obtain ⟨p, host, j, rfl⟩ := Engine.waitPort_eq_beside h
    rfl
  | woken e e' b deadline rounds c moved context slab h ht hwake =>
    obtain ⟨p, host, j, rfl⟩ := Engine.waitPort_eq_beside h
    have hnot := hother _ _ _ _ context rfl (Slab.get?_of_take ht)
    have htaken : slab.Sound := Slab.Sound.take (s := e.slab) hs ht
    refine (Engine.bytes_rearmWake _ htaken hroom id).trans ?_
    exact World.bytes_settle (e.beside p host j e.associated).world context.pinned _ moved hnot
  | called e e' b deadline rounds c moved context slab o h ht hwake ho =>
    obtain ⟨p, host, j, rfl⟩ := Engine.waitPort_eq_beside h
    have hnot := hother _ _ _ _ context rfl (Slab.get?_of_take ht)
    exact World.bytes_settle (e.beside p host j e.associated).world context.pinned _ moved hnot
  | popped e b cb world h =>
    obtain ⟨queue, _, rfl⟩ := World.pop_eq_some h
    rfl
  | act e b r a ha =>
    apply e.world.bytes_act ha
    rintro handle content rfl hname hnow
    exact (hidle (Option.some.inj (hid.symm.trans hnow))).2 ⟨handle, content, hname, rfl⟩
  | post e b r cb => exact e.world.bytes_act (a := .post cb.tag cb.actions) (by simp) nofun
  | alloc e b r content =>
    have hne : id ≠ e.world.memory.storages.length := by
      rintro rfl
      cases hid.symm.trans ((Memory.lend?_eq_none_iff _ _).mpr (Nat.le_refl _))
    exact (Memory.bytes_alloc _ _ _).trans (if_neg hne)
  | borrow e b r handle content other world h =>
    obtain ⟨hnow, hlend⟩ := World.lend?_borrow? h
    apply World.bytes_borrow? h
    rintro rfl
    have hafter := (hidle (Option.some.inj (hid.symm.trans hnow))).1
    cases ((hlend other).trans (if_pos rfl)).symm.trans hafter
  | scribble e b r other content h =>
    apply Memory.bytes_modifyBytes_of_ne
    rintro rfl
    refine hsettled.not_mem_borrows (fun hborrowed => hl ?_) h
    exact Option.some.inj (hid.symm.trans hborrowed)
  | giveBack e b r other h => exact Memory.bytes_release _ _ _
  | abandon e b =>
    obtain ⟨journal, he⟩ := e.abandon_eq
    rw [he]
    rfl
  | _ => rfl

/-- Only the completion of the operation that a storage is lent to changes its bytes. -/
theorem Happens.bytes_of_lent {s s' : Scene P H} {ev : Event P H} (h : Happens s ev s')
    (hs : s.engine.slab.Sound) (hroom : s'.engine.slab.slots.length ≤ 2 ^ 32)
    (hsettled : s.Settled) {id : StorageId} (hid : s.lend? id = some .lent)
    (hother : ∀ seen c moved ran context, ev = .completed seen c moved ran →
      s.engine.slab.get? c.token = some context → id ∉ context.pinned.leases) :
    s'.bytes id = s.bytes id :=
  h.bytes_eq hs hroom hsettled hid nofun nofun hother

/-! ### Until an operation is retrieved -/

/-- The completion of what is in flight under a token is retrieved. -/
def Event.Retrieves (t : Token) : Event P H → Prop
  | .completed _ c _ _ => c.token = t
  | _ => False

omit [CompletionPort P H] [Os H] in
/-- What is retrieved is over. -/
theorem Event.Retrieves.ends {ev : Event P H} {t : Token} (h : ev.Retrieves t) : ev.Ends t := by
  cases ev with
  | completed seen c moved ran => exact h
  | _ => exact h.elim

/-- An operation that was put in flight under a token still holds its storages, which have these
bytes. -/
structure Scene.Holds (t : Token) (context : Context) (content : StorageId → Bytes)
    (s : Scene P H) : Prop where
  inFlight : s.user? t = some context ∨ context ∈ s.engine.leaked
  bytes : ∀ id ∈ context.pinned.leases, s.bytes id = content id

namespace Scene.Holds

variable {t : Token} {context : Context} {content : StorageId → Bytes} {s s' : Scene P H}
  {ev : Event P H}

omit [CompletionPort P H] [Os H] in
theorem mem_holders (h : s.Holds t context content) : context ∈ s.holders := by
  rcases h.inFlight with huser | hleaked
  · obtain ⟨_, hget⟩ := (s.user?_eq_some_iff t context).mp huser
    obtain ⟨slab, htake⟩ := Slab.exists_take hget
    exact List.mem_append_left _ ((Slab.occupants_take htake).symm.subset List.mem_cons_self)
  · exact List.mem_append_right _ hleaked

omit [CompletionPort P H] [Os H] in
/-- Operations under other tokens hold other storages. -/
theorem not_mem_leases (h : s.Holds t context content) (hsettled : s.Settled) {c : Token}
    {other : Context} (hget : s.engine.slab.get? c = some other) (hc : c ≠ t) {id : StorageId}
    (hid : id ∈ context.pinned.leases) : id ∉ other.pinned.leases := by
  intro hother
  obtain ⟨slab, htake⟩ := Slab.exists_take hget
  have hbalanced := hsettled.balanced.of_perm (Scene.holders_of_take htake) fun _ => rfl
  obtain ⟨_, _, hnone⟩ := hbalanced.lent_of_mem hother
  apply List.count_eq_zero.mp hnone
  refine List.mem_flatMap.mpr ⟨context, ?_, hid⟩
  rcases h.inFlight with huser | hleaked
  · obtain ⟨_, hwas⟩ := (s.user?_eq_some_iff t context).mp huser
    have hstill : slab.get? t = some context := by
      rw [Slab.get?_take htake, if_neg (Ne.symm hc), hwas]
    obtain ⟨slab', htake'⟩ := Slab.exists_take hstill
    exact List.mem_append_left _ ((Slab.occupants_take htake').symm.subset List.mem_cons_self)
  · exact List.mem_append_right _ hleaked

omit [CompletionPort P H] in
/-- What was not retrieved is in flight or was given up. -/
theorem inFlight_of_turnover (h : s.Holds t context content) (hturn : Turnover s ev s')
    (hs : s.engine.slab.Sound) (hroom : s'.engine.slab.slots.length ≤ 2 ^ 32)
    (hwake : ∀ t, s.engine.wakeToken = some t → ∃ context, s.engine.slab.get? t = some context)
    (hev : ¬ ev.Retrieves t) : s'.user? t = some context ∨ context ∈ s'.engine.leaked := by
  have hchanges := hturn.changes hs hroom hwake
  rcases h.inFlight with huser | hleaked
  · by_cases hends : ev.Ends t
    · -- Of the events that end it only giving everything up does not retrieve it.
      cases hturn with
      | abandoned hslab hnone hleaked =>
        obtain ⟨_, hget⟩ := (s.user?_eq_some_iff t context).mp huser
        obtain ⟨slab, htake⟩ := Slab.exists_take hget
        refine .inr (hleaked ▸ List.mem_append_right _ ?_)
        exact (Slab.occupants_take htake).symm.subset List.mem_cons_self
      | kept hidle => cases ev <;> simp_all [Event.Ends, Event.Retrieves, Event.IsIdle]
      | _ => simp_all [Event.Ends, Event.Retrieves]
    · refine .inl ((hchanges.stays t hends fun cb hsubmitted => ?_).trans huser)
      cases (hchanges.begun cb t hsubmitted).1.symm.trans huser
  · exact .inr (hturn.leaked_prefix.subset hleaked)

/-- What is not retrieved goes on holding its storages, and their bytes stay. -/
theorem step (h : s.Holds t context content) (hstep : Happens s ev s')
    (hs : s.engine.slab.Sound) (hroom : s'.engine.slab.slots.length ≤ 2 ^ 32)
    (hwake : ∀ t, s.engine.wakeToken = some t → ∃ context, s.engine.slab.get? t = some context)
    (hsettled : s.Settled) (hev : ¬ ev.Retrieves t) : s'.Holds t context content where
  inFlight := h.inFlight_of_turnover (hstep.turnover hs hroom) hs hroom hwake hev
  bytes id hid := by
    have hlent := hsettled.exclusive.others context h.mem_holders id hid
    refine (hstep.bytes_of_lent hs hroom hsettled hlent ?_).trans (h.bytes id hid)
    rintro seen c moved ran other rfl hget
    exact h.not_mem_leases hsettled hget hev hid

end Scene.Holds

/-- Along a path that does not retrieve an operation it goes on holding its storages. -/
theorem Path.holds {s₀ s : Scene P H} {τ : List (Moment P H)} {t : Token} {context : Context}
    {content : StorageId → Bytes} (hpath : Path s₀ τ s) (hfirst : s₀.Standing)
    (hroom : s.engine.slab.slots.length ≤ 2 ^ 32) (h : s₀.Holds t context content)
    (hτ : ∀ m ∈ τ, ¬ m.1.Retrieves t) : s.Holds t context content := by
  induction hpath with
  | refl => exact h
  | @snoc τ s s' ev hpath hlast ih =>
    have hroom' := Nat.le_trans hlast.length_slots.1 hroom
    have hstanding := hpath.standing hfirst hroom'
    have hholds := ih hroom' fun m hm => hτ m (List.mem_append_left _ hm)
    exact hholds.step hlast hstanding.upright.sound hroom hstanding.upright.wake hstanding.settled
      (hτ _ (List.mem_append_right _ List.mem_cons_self))

/-! ### When an operation is retrieved -/

/-- The port fills the data of the order. -/
def Order.isFilled {B : Type} : Order B → Bool
  | .read .. => true
  | .receiveFrom .. => true
  | _ => false

namespace Order

variable {m : Memory} {x : Extensions} {o : Order StorageId} {s : Submission} {a : Area}

omit [CompletionPort P H] in
/-- Settling an order overwrites the front of its data with what the port stored there, or leaves
its data alone. -/
theorem Becomes.bytes_settle (h : o.Becomes m x s) (ha : o.data? m = some a) {w : World H}
    (hnd : s.pinned.leases.Nodup) (hlent : ∀ id ∈ s.pinned.leases, w.memory.lend? id = some .lent)
    (result : Int64) (moved : Transfer) :
    (w.settle s.pinned result moved).1.memory.bytes a.storage =
      if o.isFilled then Bytes.overwrite (w.memory.bytes a.storage) (moved.data.take a.length)
      else w.memory.bytes a.storage := by
  have hfront : ∀ dst src : Bytes, Bytes.overwriteFrom dst 0 src = Bytes.overwrite dst src := by
    intro dst src
    simp [Bytes.overwriteFrom]
  cases h with
  | write fd buffer length =>
    obtain rfl := Option.some.inj ha
    simp only [World.settle, Memory.bytes_releaseAll]
    rfl
  | read fd buffer length =>
    obtain rfl := Option.some.inj ha
    have hbuffer := hlent buffer (by simp [Pinned.leases, Memory.front])
    simp only [World.settle, Memory.bytes_releaseAll, isFilled, if_true]
    exact (Memory.bytes_modifyBytes_self _ _ hbuffer).trans (hfront _ _)
  | receiveFrom fd buffer sender length flags hroom =>
    obtain rfl := Option.some.inj ha
    have hbuffer := hlent buffer (by simp [Pinned.leases, Memory.front])
    have hne : sender ≠ buffer := by
      rintro rfl
      simp [Pinned.leases, Memory.front, Memory.behindHeader] at hnd
    simp only [World.settle, Memory.bytes_releaseAll, isFilled, if_true]
    refine (Memory.bytes_modifyBytes_of_ne _ _ hne).trans ?_
    refine (Memory.bytes_modifyBytes_of_ne _ _ hne).trans ?_
    exact (Memory.bytes_modifyBytes_self _ _ hbuffer).trans (hfront _ _)
  | sendTo fd buffer destination length flags address h =>
    obtain rfl := Option.some.inj ha
    simp only [World.settle, Memory.bytes_releaseAll]
    rfl
  | accept => cases ha
  | connect => cases ha
  | event => cases ha

end Order

/-- Retrieving the completion of what a user has in flight settles it, and changes no bytes
otherwise. -/
theorem Happens.bytes_of_retrieved {s s' : Scene P H} {seen : Engine P H} {c : Completion}
    {moved : Transfer} {ran : Option (Callback × Outcome)} {context : Context}
    (h : Happens s (.completed seen c moved ran) s') (huser : s.user? c.token = some context)
    (id : StorageId) : seen.world.memory = s.engine.world.memory ∧
      s'.bytes id = (seen.world.settle context.pinned c.result moved).1.memory.bytes id := by
  obtain ⟨hnot, hget⟩ := (s.user?_eq_some_iff c.token context).mp huser
  cases h with
  | unknown e e' b deadline rounds c moved h ht =>
    obtain ⟨p, host, j, rfl⟩ := Engine.waitPort_eq_beside h
    cases hget.symm.trans ((Slab.take_eq_none_iff _ _).mp ht)
  | woken e e' b deadline rounds c moved other slab h ht hwake =>
    obtain ⟨p, host, j, rfl⟩ := Engine.waitPort_eq_beside h
    exact absurd hwake hnot
  | called e e' b deadline rounds c moved other slab o h ht hwake ho =>
    obtain ⟨p, host, j, rfl⟩ := Engine.waitPort_eq_beside h
    obtain rfl := Option.some.inj (hget.symm.trans (Slab.get?_of_take ht))
    exact ⟨rfl, rfl⟩

/-- The operation in flight under a token stays until an event ends it. -/
theorem Path.user?_eq {s₀ s : Scene P H} {τ : List (Moment P H)} {t : Token} {context : Context}
    (hpath : Path s₀ τ s) (hfirst : s₀.Standing) (hroom : s.engine.slab.slots.length ≤ 2 ^ 32)
    (huser : s₀.user? t = some context) (hτ : ∀ m ∈ τ, ¬ m.1.Ends t) :
    s.user? t = some context := by
  induction hpath with
  | refl => exact huser
  | @snoc τ s s' ev hpath hlast ih =>
    have hroom' := Nat.le_trans hlast.length_slots.1 hroom
    have hstanding := hpath.standing hfirst hroom'
    have hwas := ih hroom' fun m hm => hτ m (List.mem_append_left _ hm)
    have hturn := hlast.turnover hstanding.upright.sound hroom
    have hchanges := hturn.changes hstanding.upright.sound hroom hstanding.upright.wake
    have hends := hτ _ (List.mem_append_right _ List.mem_cons_self)
    refine (hchanges.stays t hends fun cb hsubmitted => ?_).trans hwas
    cases (hchanges.begun cb t hsubmitted).1.symm.trans hwas

/-! ### From submission to completion -/

/-- What becomes of the bytes of an order that was submitted with this memory, and is in flight
under a token. -/
structure HandedOver (m : Memory) (o : Order StorageId) (t : Token) (τ : List (Moment P H)) :
    Prop where
  /-- Its buffers stay as they were when it was submitted, until it is retrieved. -/
  kept : ∀ τ₁ x τ₂, τ = τ₁ ++ x :: τ₂ → (∀ y ∈ τ₁ ++ [x], ¬ y.1.Retrieves t) →
    ∀ id ∈ o.buffers, x.2.bytes id = m.bytes id
  /-- So the port can read the front of its data as it was then. -/
  readable : ∀ τ₁ x τ₂, τ = τ₁ ++ x :: τ₂ → (∀ y ∈ τ₁ ++ [x], ¬ y.1.Retrieves t) →
    ∀ a, o.data? m = some a →
      x.2.engine.world.memory.readArea a = (m.bytes a.storage).take a.length
  /-- When it is retrieved, nothing behind that front is changed, nor how many bytes there are. -/
  beyond : ∀ τ₁ seen c moved ran s τ₂, τ = τ₁ ++ (.completed seen c moved ran, s) :: τ₂ →
    (∀ y ∈ τ₁, ¬ y.1.Ends t) → c.token = t → ∀ a, o.data? m = some a →
      (s.bytes a.storage).drop a.length = (m.bytes a.storage).drop a.length ∧
        (s.bytes a.storage).length = (m.bytes a.storage).length
  /-- The front is what the port stored, as far as there was room for it, or as it was. -/
  landed : ∀ τ₁ seen c moved ran s τ₂, τ = τ₁ ++ (.completed seen c moved ran, s) :: τ₂ →
    (∀ y ∈ τ₁, ¬ y.1.Ends t) → c.token = t → ∀ a, o.data? m = some a →
      s.bytes a.storage =
        if o.isFilled then Bytes.overwrite (m.bytes a.storage) (moved.data.take a.length)
        else m.bytes a.storage

omit [CompletionPort P H] [Os H] in
/-- The data of an order is the front of one of its buffers. -/
theorem Order.mem_buffers_of_data? {m : Memory} {o : Order StorageId} {a : Area}
    (h : o.data? m = some a) : a.storage ∈ o.buffers ∧ a.offset = 0 := by
  cases o with
  | accept => cases h
  | connect => cases h
  | event => cases h
  | _ =>
    obtain rfl := Option.some.inj h
    exact ⟨List.mem_cons_self, rfl⟩

omit [CompletionPort P H] [Os H] in
/-- What is overwritten at the front stays behind it. -/
theorem Bytes.drop_overwrite_take (dst src : Bytes) (n : Nat) :
    (Bytes.overwrite dst (src.take n)).drop n = dst.drop n := by
  have hlen : (src.take n).length ≤ n := List.length_take_le n src
  have hfront : ((src.take n).take dst.length).length = min dst.length (src.take n).length :=
    List.length_take
  apply List.ext_getElem?
  intro i
  rw [List.getElem?_drop, List.getElem?_drop, Bytes.overwrite,
    List.getElem?_append_right (by omega), List.getElem?_drop]
  by_cases hout : dst.length ≤ n + i
  · rw [List.getElem?_eq_none hout, List.getElem?_eq_none (by omega)]
  · congr 1
    omega

namespace HandedOver

variable {m m' : Memory} {x : Extensions} {o : Order StorageId} {sub : Submission}
  {cb : Callback} {t : Token} {s₀ s : Scene P H} {τ : List (Moment P H)}

/-- The buffers of an order in flight stay as they were until it is retrieved. -/
theorem bytes_of_not_retrieved {τ₁ τ₂ : List (Moment P H)} {y : Moment P H}
    (hpath : Path s₀ (τ₁ ++ y :: τ₂) s) (hfirst : s₀.Standing)
    (hroom : s.engine.slab.slots.length ≤ 2 ^ 32) (hprep : o.prepare m x = .ok (m', sub))
    (huser : s₀.user? t = some (Engine.contextOf sub cb))
    (hbytes : ∀ id, s₀.bytes id = m.bytes id) (hnot : ∀ z ∈ τ₁ ++ [y], ¬ z.1.Retrieves t)
    {id : StorageId} (hid : id ∈ o.buffers) : y.2.bytes id = m.bytes id := by
  obtain ⟨_, _, hleases, _⟩ := Order.prepare_eq_ok hprep
  have hholds : s₀.Holds t (Engine.contextOf sub cb) m.bytes := ⟨.inl huser, fun id _ => hbytes id⟩
  obtain ⟨s₁, hbefore, hstep, hafter⟩ := hpath.split
  have hroom' := Nat.le_trans hafter.length_slots_le hroom
  exact ((hbefore.snoc hstep).holds hfirst hroom' hholds hnot).bytes id (hleases.symm ▸ hid)

/-- When an order is retrieved, what the port stored lands in the front of its data. -/
theorem bytes_of_retrieved {τ₁ τ₂ : List (Moment P H)} {seen : Engine P H} {c : Completion}
    {moved : Transfer} {ran : Option (Callback × Outcome)} {s' : Scene P H}
    (hpath : Path s₀ (τ₁ ++ (.completed seen c moved ran, s') :: τ₂) s) (hfirst : s₀.Standing)
    (hroom : s.engine.slab.slots.length ≤ 2 ^ 32) (hprep : o.prepare m x = .ok (m', sub))
    (huser : s₀.user? c.token = some (Engine.contextOf sub cb))
    (hbytes : ∀ id, s₀.bytes id = m.bytes id) (hnot : ∀ y ∈ τ₁, ¬ y.1.Ends c.token) {a : Area}
    (ha : o.data? m = some a) : s'.bytes a.storage =
      if o.isFilled then Bytes.overwrite (m.bytes a.storage) (moved.data.take a.length)
      else m.bytes a.storage := by
  obtain ⟨hbecomes, _⟩ := Order.becomes_of_prepare hprep
  obtain ⟨_, _, hleases, hlease⟩ := Order.prepare_eq_ok hprep
  obtain ⟨hnd, _⟩ := Memory.idle_of_leaseAll? hlease
  have hholds : s₀.Holds c.token (Engine.contextOf sub cb) m.bytes :=
    ⟨.inl huser, fun id _ => hbytes id⟩
  obtain ⟨s₁, hbefore, hstep, hafter⟩ := hpath.split
  have hroom' := Nat.le_trans hafter.length_slots_le hroom
  have hroom₁ := Nat.le_trans hstep.length_slots.1 hroom'
  have huser₁ := hbefore.user?_eq hfirst hroom₁ huser hnot
  have hholds₁ := hbefore.holds hfirst hroom₁ hholds fun y hy hretrieves =>
    hnot y hy hretrieves.ends
  have hsettled := (hbefore.standing hfirst hroom₁).settled
  obtain ⟨hmemory, hsettle⟩ := hstep.bytes_of_retrieved huser₁ a.storage
  obtain ⟨hmem, _⟩ := Order.mem_buffers_of_data? ha
  have hbefore₁ : seen.world.memory.bytes a.storage = m.bytes a.storage := by
    rw [hmemory]
    exact hholds₁.bytes _ (hleases.symm ▸ hmem)
  have hlent : ∀ id ∈ sub.pinned.leases, seen.world.memory.lend? id = some .lent := by
    rw [hmemory]
    exact hsettled.exclusive.others _ hholds₁.mem_holders
  rw [hsettle, ← hbefore₁]
  exact hbecomes.bytes_settle ha hnd hlent c.result moved

/-- An order in flight is handed over, whatever happens. -/
theorem of_path (hpath : Path s₀ τ s) (hfirst : s₀.Standing)
    (hroom : s.engine.slab.slots.length ≤ 2 ^ 32) (hprep : o.prepare m x = .ok (m', sub))
    (huser : s₀.user? t = some (Engine.contextOf sub cb))
    (hbytes : ∀ id, s₀.bytes id = m.bytes id) : HandedOver m o t τ := by
  refine ⟨?_, ?_, ?_, ?_⟩
  · rintro τ₁ y τ₂ rfl hnot id hid
    exact bytes_of_not_retrieved hpath hfirst hroom hprep huser hbytes hnot hid
  · rintro τ₁ y τ₂ rfl hnot a ha
    obtain ⟨hmem, hoffset⟩ := Order.mem_buffers_of_data? ha
    have hsame := bytes_of_not_retrieved hpath hfirst hroom hprep huser hbytes hnot hmem
    rw [Memory.readArea, hoffset, List.drop_zero]
    exact congrArg (List.take a.length) hsame
  · rintro τ₁ seen c moved ran s' τ₂ rfl hnot rfl a ha
    rw [bytes_of_retrieved hpath hfirst hroom hprep huser hbytes hnot ha]
    split
    · exact ⟨Bytes.drop_overwrite_take _ _ _, Bytes.length_overwrite _ _⟩
    · exact ⟨rfl, rfl⟩
  · rintro τ₁ seen c moved ran s' τ₂ rfl hnot rfl a ha
    exact bytes_of_retrieved hpath hfirst hroom hprep huser hbytes hnot ha

omit [CompletionPort P H] [Os H] in
/-- It goes on from the submission. -/
theorem cons (h : HandedOver m o t τ) (hbytes : ∀ id, s₀.bytes id = m.bytes id) :
    HandedOver m o t ((.submitted cb (.ok t), s₀) :: τ) := by
  have hcompleted : ∀ τ₁ seen c moved ran s τ₂,
      ((.submitted cb (.ok t), s₀) :: τ : List (Moment P H)) =
        τ₁ ++ (.completed seen c moved ran, s) :: τ₂ → (∀ y ∈ τ₁, ¬ y.1.Ends t) →
      ∃ τ₁', τ = τ₁' ++ (.completed seen c moved ran, s) :: τ₂ ∧ ∀ y ∈ τ₁', ¬ y.1.Ends t := by
    intro τ₁ seen c moved ran s τ₂ hτ hnot
    cases τ₁ with
    | nil => cases hτ
    | cons y τ₁ => exact ⟨τ₁, (List.cons.inj hτ).2, fun y hy => hnot y (List.mem_cons_of_mem _ hy)⟩
  refine ⟨?_, ?_, ?_, ?_⟩
  · intro τ₁ x τ₂ hτ hnot id hid
    cases τ₁ with
    | nil =>
      obtain ⟨rfl, _⟩ := List.cons.inj hτ
      exact hbytes id
    | cons y τ₁ =>
      exact h.kept τ₁ x τ₂ (List.cons.inj hτ).2 (fun y hy => hnot y (List.mem_cons_of_mem _ hy))
        id hid
  · intro τ₁ x τ₂ hτ hnot a ha
    cases τ₁ with
    | nil =>
      obtain ⟨rfl, _⟩ := List.cons.inj hτ
      obtain ⟨_, hoffset⟩ := Order.mem_buffers_of_data? ha
      rw [Memory.readArea, hoffset, List.drop_zero]
      exact congrArg (List.take a.length) (hbytes a.storage)
    | cons y τ₁ =>
      exact h.readable τ₁ x τ₂ (List.cons.inj hτ).2
        (fun y hy => hnot y (List.mem_cons_of_mem _ hy)) a ha
  · intro τ₁ seen c moved ran s τ₂ hτ hnot
    obtain ⟨τ₁', hτ', hnot'⟩ := hcompleted τ₁ seen c moved ran s τ₂ hτ hnot
    exact h.beyond τ₁' seen c moved ran s τ₂ hτ' hnot'
  · intro τ₁ seen c moved ran s τ₂ hτ hnot
    obtain ⟨τ₁', hτ', hnot'⟩ := hcompleted τ₁ seen c moved ran s τ₂ hτ hnot
    exact h.landed τ₁' seen c moved ran s τ₂ hτ' hnot'

end HandedOver

omit [Os H] in
/-- An accepted order is in flight under its token, and no bytes were changed. -/
theorem Engine.user?_of_place {e e' : Engine P H} {o : Order StorageId} {cb : Callback} {t : Token}
    (b : List StorageId) (hupright : e.Upright) (hroom : e'.slab.slots.length ≤ 2 ^ 32)
    (h : e.place o cb = (e', .ok t)) :
    ∃ m sub, o.prepare e.world.memory e.extensions = .ok (m, sub) ∧
      Scene.user? ⟨e', b, none⟩ t = some (contextOf sub cb) ∧
      ∀ id, Scene.bytes ⟨e', b, none⟩ id = e.world.memory.bytes id := by
  obtain ⟨m, sub, hprep, rfl, p, host, j, a, rfl⟩ := place_eq_ok h
  obtain ⟨_, _, _, hlease⟩ := Order.prepare_eq_ok hprep
  refine ⟨m, sub, hprep, (Scene.user?_eq_some_iff _ _ _).mpr ⟨fun hwake => ?_, ?_⟩,
    (Memory.bytes_leaseAll? hlease).1⟩
  · obtain ⟨other, hother⟩ := hupright.wake _ hwake
    cases (hupright.sound.get?_token_insert _ hroom).symm.trans hother
  · exact (hupright.sound.get?_insert _ hroom _).trans (if_pos rfl)

/-- Whatever order a program gives to a submitter, the entry that the port takes says what the
order does; as long as the operation is not retrieved the port can read what was in its buffers
when it was submitted, whatever the program and its callbacks do; and then nothing behind the
front of its data is changed. A token has `2 ^ 32` indices; with more slots than that, which takes
as many submissions, two operations would share one. -/
theorem orders_are_handed_over_intact {config : Config} {port : Recorder P} {host : H}
    {e : Engine (Recorder P) H} (h : Engine.build config port host = .ready e)
    (steps : List (Step H)) (o : Order String) (o' : Order StorageId) (cb : Callback) (t : Token)
    (later : List (Step H)) (hresolve : ((Client.own e).after steps).resolve o = some o')
    (hok : (((Client.own e).after steps).step (.place o cb)).2 = .submitted (.ok t))
    (hroom : (((Client.own e).after steps).after (.place o cb :: later)).engine.slab.slots.length ≤
      2 ^ 32) :
    (∃ entry, (((Client.own e).after steps).step (.place o cb)).1.engine.port.taken =
        ((Client.own e).after steps).engine.port.taken ++ [entry] ∧ entry.token = t ∧
        entry.Says ((Client.own e).after steps).engine.world.memory o') ∧
      HandedOver ((Client.own e).after steps).engine.world.memory o' t
        (((Client.own e).after steps).history (.place o cb :: later)) := by
  have hnew := Engine.isNew_of_build h
  have hbefore := (Client.own e).path_history steps
  generalize (Client.own e).after steps = c at *
  obtain ⟨e₁, b, gone⟩ := c
  obtain rfl : gone = false := by
    cases gone with
    | false => rfl
    | true => cases hok
  -- The call and what comes after it, in terms of the engine.
  have hstep : (Client.mk e₁ b false).step (.place o cb) =
      (⟨(e₁.place o' cb).1, b, false⟩, .submitted (e₁.place o' cb).2) := by
    simp only [Client.step, hresolve]
  rw [hstep] at hok ⊢
  have hanswer : (e₁.place o' cb).2 = .ok t := Answer.submitted.inj hok
  have hplace : e₁.place o' cb = ((e₁.place o' cb).1, .ok t) := Prod.ext rfl hanswer
  have hhistory : (Client.mk e₁ b false).history (.place o cb :: later) =
      (.submitted cb (.ok t), ⟨(e₁.place o' cb).1, b, none⟩) ::
        (Client.mk (e₁.place o' cb).1 b false).history later := by
    simp only [Client.history, Client.moments, hresolve, hstep, hanswer]
    rfl
  have hafter := (Client.mk (e₁.place o' cb).1 b false).path_history later
  have hroom' : ((Client.mk (e₁.place o' cb).1 b false).after later).engine.slab.slots.length ≤
      2 ^ 32 := by
    rw [Client.after, hstep] at hroom
    exact hroom
  have hplaced := hbefore.snoc (.place e₁ b o' cb)
  have hroom₂ := Nat.le_trans hafter.length_slots_le hroom'
  have hroom₁ : e₁.slab.slots.length ≤ 2 ^ 32 := Nat.le_trans (e₁.grows_place o' cb).le hroom₂
  have hstanding := hbefore.standing hnew.standing hroom₁
  obtain ⟨hlasts, _⟩ := hbefore.lasts hnew.sound hroom₁
  obtain ⟨m, sub, hprep, huser, hbytes⟩ := Engine.user?_of_place b hstanding.upright hroom₂ hplace
  refine ⟨Engine.taken_place (hlasts.extensions.trans (Engine.extensions_of_build h)) hanswer, ?_⟩
  rw [hhistory]
  refine HandedOver.cons ?_ hbytes
  exact .of_path hafter (hplaced.standing hnew.standing hroom₂) hroom' hprep huser hbytes

/-- A port that stores three bytes for the first operation of a user, though there was room for
two. -/
def Scripted.storing : Recorder Scripted :=
  { port := { waits := [.completion (.user 0) 2 0 { data := [7, 8, 9] }] } }

theorem orders_are_handed_over_intact_of_storing : ∃ e : Engine (Recorder Scripted) Host,
    Engine.build {} Scripted.storing Host.start = .ready e ∧
    let c := (Client.own e).after [.buffer "data" [1, 2, 3, 4, 5], .clone "same" "data"]
    let later := [.fill "data" [6, 6, 6], .borrow "data" [6], .pump none 9]
    c.resolve (.read 0 "same" (some 2)) = some (.read 0 1 (some 2)) ∧
    (c.step (.place (.read 0 "same" (some 2)) ⟨"read", []⟩)).2 =
      .submitted (.ok (Token.ofSlot 1 0)) ∧
    (c.after (.place (.read 0 "same" (some 2)) ⟨"read", []⟩ :: later)).engine.slab.slots.length ≤
      2 ^ 32 ∧
    HandedOver c.engine.world.memory (.read 0 1 (some 2)) (Token.ofSlot 1 0)
      (c.history (.place (.read 0 "same" (some 2)) ⟨"read", []⟩ :: later)) ∧
    (c.history (.place (.read 0 "same" (some 2)) ⟨"read", []⟩ :: later)).map
      (fun m => m.2.bytes 1) = [[1, 2, 3, 4, 5], [1, 2, 3, 4, 5], [1, 2, 3, 4, 5],
        [1, 2, 3, 4, 5], [7, 8, 3, 4, 5], [7, 8, 3, 4, 5]] := by
  refine ⟨_, rfl, rfl, rfl, by decide +kernel, ?_, by decide +kernel⟩
  exact (@orders_are_handed_over_intact Scripted Host _ _ {} Scripted.storing Host.start _ rfl
    [.buffer "data" [1, 2, 3, 4, 5], .clone "same" "data"] (.read 0 "same" (some 2))
    (.read 0 1 (some 2)) ⟨"read", []⟩ (Token.ofSlot 1 0)
    [.fill "data" [6, 6, 6], .borrow "data" [6], .pump none 9] rfl rfl (by decide +kernel)).2

end Proactor
