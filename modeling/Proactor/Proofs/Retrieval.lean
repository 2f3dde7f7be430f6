import Proactor.Proofs.Idle

/-!
# What a callback finds

The moment at which the completion of an order is retrieved and its callback is called. Until
then the buffers of the order are as they were when it was submitted; at that moment its context
is settled, its buffers are given back, and nothing else has happened to them.
-/

namespace Proactor

variable {P H : Type}

/-- The storage is there and nobody holds it. -/
theorem Memory.read?_of_idle {m : Memory} {id : StorageId} (h : m.lend? id = some .idle) :
    m.read? id = some (m.bytes id) :=
  if_pos ((Memory.isIdle_eq_true_iff m id).mpr h)

variable [Os H]

/-- With this completion an operation is settled whose storages had these bytes, and its callback
is called in this scene. -/
structure Context.Settles (context : Context) (content : StorageId → Bytes) (seen : Engine P H)
    (c : Completion) (moved : Transfer) (ran : Option (Callback × Outcome)) (s : Scene P H) :
    Prop where
  /-- No storage is lent to it twice. -/
  distinct : context.pinned.leases.Nodup
  held : ∀ id ∈ context.pinned.leases,
    seen.world.memory.bytes id = content id ∧ seen.world.memory.lend? id = some .lent
  ran : ran = some (context.callback,
    .ofResult (seen.world.settle context.pinned c.result moved).2)
  running : s.running = some context
  memory : s.engine.world.memory = (seen.world.settle context.pinned c.result moved).1.memory
  host : s.engine.world.host = (seen.world.settle context.pinned c.result moved).1.host

namespace Context.Settles

variable {context : Context} {content : StorageId → Bytes} {seen : Engine P H} {c : Completion}
  {moved : Transfer} {ran : Option (Callback × Outcome)} {s : Scene P H}

/-- The callback finds the storages of its operation given back. -/
theorem idle (h : context.Settles content seen c moved ran s) {id : StorageId}
    (hid : id ∈ context.pinned.leases) : s.engine.world.memory.lend? id = some .idle := by
  rw [h.memory, World.lend?_settle, if_pos hid, (h.held id hid).2, Option.map_some]

end Context.Settles

variable [CompletionPort P H]

/-- Retrieving the completion of what a user has in flight settles it and calls its callback. -/
theorem Happens.settles {s s' : Scene P H} {seen : Engine P H} {c : Completion}
    {moved : Transfer} {ran : Option (Callback × Outcome)} {context : Context}
    {content : StorageId → Bytes} (h : Happens s (.completed seen c moved ran) s')
    (huser : s.user? c.token = some context) (hnd : context.pinned.leases.Nodup)
    (hheld : ∀ id ∈ context.pinned.leases,
      s.bytes id = content id ∧ s.lend? id = some .lent) :
    context.Settles content seen c moved ran s' := by
  obtain ⟨hnot, hget⟩ := (s.user?_eq_some_iff c.token context).mp huser
  cases h with
  | unknown e e' b deadline rounds c moved h ht =>
    obtain ⟨p, host, j, rfl⟩ := Engine.waitPort_eq_beside h
    cases hget.symm.trans ((Slab.take_eq_none_iff _ _).mp ht)
  | woken e e' b deadline rounds c moved other slab h ht hwake =>
    obtain ⟨p, host, j, rfl⟩ := Engine.waitPort_eq_beside h
    exact absurd hwake hnot
  | called e e' b deadline rounds c moved other slab o h ht hwake ho =>
    obtain ⟨p, host, j, rfl⟩ := Engine.waitPort_eq_beside h
    obtain rfl := Option.some.inj (hget.symm.trans (Slab.get?_of_take ht))
    subst ho
    exact ⟨hnd, hheld, rfl, rfl, rfl, rfl⟩

/-- Along a path on which an operation goes on until its completion is retrieved, that settles it;
and what is left alone from then on stays as its callback finds it. -/
theorem Path.settles {s₀ s s' : Scene P H} {τ₁ τ₂ : List (Moment P H)} {seen : Engine P H}
    {c : Completion} {moved : Transfer} {ran : Option (Callback × Outcome)} {context : Context}
    (hpath : Path s₀ (τ₁ ++ (.completed seen c moved ran, s') :: τ₂) s) (hfirst : s₀.Standing)
    (hroom : s.engine.slab.slots.length ≤ 2 ^ 32) (huser : s₀.user? c.token = some context)
    (hnd : context.pinned.leases.Nodup) (hnot : ∀ y ∈ τ₁, ¬ y.1.Ends c.token) :
    context.Settles s₀.bytes seen c moved ran s' ∧ StaysIdle s' τ₂ := by
  obtain ⟨s₁, hbefore, hstep, hafter⟩ := hpath.split
  have hroom' := Nat.le_trans hafter.length_slots_le hroom
  have hroom₁ := Nat.le_trans hstep.length_slots.1 hroom'
  have hholds₁ := hbefore.holds hfirst hroom₁ ⟨.inl huser, fun id _ => rfl⟩ fun y hy hretrieves =>
    hnot y hy hretrieves.ends
  have hsettled := (hbefore.standing hfirst hroom₁).settled
  have hlent := hsettled.exclusive.others _ hholds₁.mem_holders
  constructor
  · apply hstep.settles (hbefore.user?_eq hfirst hroom₁ huser hnot) hnd
    intro id hid
    exact ⟨hholds₁.bytes id hid, hlent id hid⟩
  · exact hafter.staysIdle ((hbefore.snoc hstep).standing hfirst hroom') hroom

/-- What follows the submission of an order on a live engine is a path from the scene in which its
operation is in flight under its token. -/
theorem Client.path_of_place {config : Config} {port : P} {host : H} {e : Engine P H}
    (h : Engine.build config port host = .ready e) (steps : List (Step H)) {o : Order String}
    {o' : Order StorageId} {cb : Callback} {t : Token} {later : List (Step H)}
    (hresolve : ((own e).after steps).resolve o = some o')
    (hok : (((own e).after steps).step (.place o cb)).2 = .submitted (.ok t))
    (hroom : (((own e).after steps).after (.place o cb :: later)).engine.slab.slots.length ≤
      2 ^ 32) :
    ∃ x m sub s₀ τ s, o'.prepare ((own e).after steps).engine.world.memory x = .ok (m, sub) ∧
      ((own e).after steps).history (.place o cb :: later) = (.submitted cb (.ok t), s₀) :: τ ∧
      Path s₀ τ s ∧ s₀.Standing ∧ s.engine.slab.slots.length ≤ 2 ^ 32 ∧
      s₀.user? t = some (Engine.contextOf sub cb) ∧
      s₀.bytes = ((own e).after steps).engine.world.memory.bytes := by
  have hnew := Engine.isNew_of_build h
  have hbefore := (own e).path_history steps
  generalize (own e).after steps = c at *
  obtain ⟨e₁, b, gone⟩ := c
  obtain rfl : gone = false := by
    cases gone with
    | false => rfl
    | true => cases hok
  -- The call and what comes after it, in terms of the engine.
  have hstep : (Client.mk e₁ b false).step (.place o cb) =
      (⟨(e₁.place o' cb).1, b, false⟩, .submitted (e₁.place o' cb).2) := by
    simp only [Client.step, hresolve]
  rw [hstep] at hok
  have hanswer : (e₁.place o' cb).2 = .ok t := Answer.submitted.inj hok
  have hplace : e₁.place o' cb = ((e₁.place o' cb).1, .ok t) := Prod.ext rfl hanswer
  have hhistory : (Client.mk e₁ b false).history (.place o cb :: later) =
      (.submitted cb (.ok t), ⟨(e₁.place o' cb).1, b, none⟩) ::
        (Client.mk (e₁.place o' cb).1 b false).history later := by
    simp only [Client.history, Client.moments, hresolve, hstep, hanswer]
    rfl
  have hafter := (Client.mk (e₁.place o' cb).1 b false).path_history later
  rw [Client.after, hstep] at hroom
  have hplaced := hbefore.snoc (.place e₁ b o' cb)
  have hroom₂ := Nat.le_trans hafter.length_slots_le hroom
  have hroom₁ : e₁.slab.slots.length ≤ 2 ^ 32 := Nat.le_trans (e₁.grows_place o' cb).le hroom₂
  have hupright := (hbefore.standing hnew.standing hroom₁).upright
  obtain ⟨m, sub, hprep, huser, hbytes⟩ := Engine.user?_of_place b hupright hroom₂ hplace
  exact ⟨_, m, sub, _, _, _, hprep, hhistory, hafter, hplaced.standing hnew.standing hroom₂, hroom,
    huser, funext hbytes⟩

/-- Whenever the completion of what is in flight under a token is retrieved, that settles this
context, and what is left alone from then on stays as the callback finds it. -/
def SettlesWhenRetrieved (context : Context) (content : StorageId → Bytes) (t : Token)
    (τ : List (Moment P H)) : Prop :=
  ∀ τ₁ seen c moved ran s τ₂, τ = τ₁ ++ (.completed seen c moved ran, s) :: τ₂ →
    (∀ y ∈ τ₁, ¬ y.1.Ends t) → c.token = t →
    context.Settles content seen c moved ran s ∧ StaysIdle s τ₂

/-- An order that a program submitted is settled when its completion is retrieved, whatever
happens in between. -/
theorem Client.settles_of_place {config : Config} {port : P} {host : H} {e : Engine P H}
    (h : Engine.build config port host = .ready e) (steps : List (Step H)) {o : Order String}
    {o' : Order StorageId} {cb : Callback} {t : Token} {later : List (Step H)}
    (hresolve : ((own e).after steps).resolve o = some o')
    (hok : (((own e).after steps).step (.place o cb)).2 = .submitted (.ok t))
    (hroom : (((own e).after steps).after (.place o cb :: later)).engine.slab.slots.length ≤
      2 ^ 32) :
    ∃ x m sub, o'.prepare ((own e).after steps).engine.world.memory x = .ok (m, sub) ∧
      SettlesWhenRetrieved (Engine.contextOf sub cb)
        ((own e).after steps).engine.world.memory.bytes t
        (((own e).after steps).history (.place o cb :: later)) := by
  obtain ⟨x, m, sub, s₀, τ, s, hprep, hhistory, hpath, hstanding, hroom', huser, hbytes⟩ :=
    path_of_place h steps hresolve hok hroom
  obtain ⟨_, _, hleases, hlease⟩ := Order.prepare_eq_ok hprep
  obtain ⟨hnd, _⟩ := Memory.idle_of_leaseAll? hlease
  refine ⟨x, m, sub, hprep, ?_⟩
  rintro τ₁ seen c moved ran s' τ₂ hτ hnot rfl
  rw [hhistory] at hτ
  rw [← hbytes]
  cases τ₁ with
  | nil => cases hτ
  | cons y τ₁ =>
    rw [(List.cons.inj hτ).2] at hpath
    apply hpath.settles hstanding hroom' huser hnd
    intro z hz
    exact hnot z (List.mem_cons_of_mem _ hz)

end Proactor
