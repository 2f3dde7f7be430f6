import Proactor.Proofs.Client
import Proactor.Proofs.Recorder
import Proactor.Session.AnyPort

/-!
# All or nothing

A submission either puts one operation in flight, or leaves no trace among the operations and the
buffers. If an argument is bad the port is not even asked; if the port refuses, the descriptor of
the submission may have been registered, and that is all that stays.
-/

namespace Proactor

variable {P H : Type}

/-- What a refused order leaves behind. -/
structure Withdrawn (e e' : Engine (Recorder P) H) (o : Order StorageId) (f : Fault) : Prop where
  /-- The fault names the operation, and the error of the call on the port that failed. -/
  fault : ∃ cause, f = .systemCall o.kind cause.errno ∧ e.Refusal e' o.fd cause
  /-- The same operations are in flight under the same tokens. -/
  contexts : ∀ t, e'.slab.get? t = e.slab.get? t
  live : e'.slab.live = e.slab.live
  memory : e'.world.memory = e.world.memory
  stats : e'.stats = { e.stats with refused := e.stats.refused + 1 }
  /-- Nothing else has changed but what belongs to the port. -/
  rest : ∃ port host journal, e' =
    { (e.withSlab e'.slab).beside port host journal e'.associated with stats := e'.stats }

/-- What an accepted order leaves behind. -/
structure InFlight (e e' : Engine (Recorder P) H) (o : Order StorageId) (cb : Callback)
    (t : Token) : Prop where
  port : e.Acceptance e' o.fd t
  /-- The token was not in use. -/
  fresh : e.slab.get? t = none
  /-- There is one operation more, under the token, with the callback and the buffers of the
  order. -/
  context : ∃ context, (context.kind = o.kind ∧ context.fd = o.fd ∧ context.callback = cb ∧
    context.pinned.leases = o.buffers) ∧
    ∀ u, e'.slab.get? u = if u = t then some context else e.slab.get? u
  live : e'.slab.live = e.slab.live + 1
  stats : e'.stats = { e.stats with submitted := e.stats.submitted + 1 }
  /-- The buffers of the order were idle and are lent, and no others. -/
  idle : o.buffers.Nodup ∧ ∀ id ∈ o.buffers, e.world.memory.lend? id = some .idle
  lend? : ∀ id, e'.world.memory.lend? id =
    if id ∈ o.buffers then some .lent else e.world.memory.lend? id
  bytes : ∀ id, e'.world.memory.bytes id = e.world.memory.bytes id
  /-- Nothing else has changed but what belongs to the port. -/
  rest : ∃ port host journal, e' =
    { ((e.withSlab e'.slab).withMemory e'.world.memory).beside port host journal e'.associated with
      stats := e'.stats }

/-- A call of a submitter does all that it should or nothing. -/
structure AllOrNothing (e e' : Engine (Recorder P) H) (o : Order StorageId) (cb : Callback)
    (answer : Except Fault Token) : Prop where
  /-- A bad argument leaves everything as it was, with no call on the port. -/
  argument : ∀ f, answer = .error f → f.isArgument = true → e' = e
  refused : ∀ f, answer = .error f → f.isArgument = false → Withdrawn e e' o f
  accepted : ∀ t, answer = .ok t → InFlight e e' o cb t

namespace Engine

variable [CompletionPort P H]

/-- What an order that passed its checks asks of a port. -/
theorem place_recorded (e : Engine (Recorder P) H) {o : Order StorageId} (cb : Callback)
    {m : Memory} {s : Submission} (h : o.prepare e.world.memory e.extensions = .ok (m, s)) :
    (∃ f, (e.place o cb).2 = .error (.systemCall o.kind f.errno) ∧
      e.Refusal (e.place o cb).1 o.fd f) ∨
    (∃ t, (e.place o cb).2 = .ok t ∧ e.Acceptance (e.place o cb).1 o.fd t) := by
  obtain ⟨hkind, hfd, _, _⟩ := Order.prepare_eq_ok h
  rw [place_eq_submit, h, submit_ok, ← hkind, ← hfd]
  rcases handOff_recorded (e.withMemory m) s cb with ⟨f, hr, hrefusal⟩ | ⟨t, hr, haccept⟩
  · refine .inl ⟨f, hr, ?_⟩
    rw [hr]
    cases hrefusal with
    | registering h0 hnew hcalls hassoc => exact .registering h0 hnew hcalls hassoc
    | pushing asked entry hcalls hassoc => exact .pushing asked entry hcalls hassoc
  · refine .inr ⟨t, hr, ?_⟩
    rw [hr]
    exact haccept

/-- On sound slabs every call of a submitter does all that it should or nothing. -/
theorem allOrNothing_place (e : Engine (Recorder P) H) (o : Order StorageId) (cb : Callback)
    (hs : e.slab.Sound) (hroom : (e.place o cb).1.slab.slots.length ≤ 2 ^ 32) :
    AllOrNothing e (e.place o cb).1 o cb (e.place o cb).2 := by
  cases hp : e.place o cb with
  | mk e' r =>
    rw [hp] at hroom
    cases hprep : o.prepare e.world.memory e.extensions with
    | error g =>
      rw [place_eq_submit, hprep] at hp
      obtain ⟨rfl, rfl⟩ := Prod.mk.inj hp
      refine ⟨fun _ _ _ => rfl, fun f hf hno => ?_, nofun⟩
      obtain rfl := Except.error.inj hf
      rw [Order.isArgument_of_prepare hprep] at hno
      cases hno
    | ok x =>
      obtain ⟨m, s⟩ := x
      have hrecord := e.place_recorded cb hprep
      rw [hp] at hrecord
      rcases hrecord with ⟨cause, rfl, hrefusal⟩ | ⟨t, rfl, haccept⟩
      · rcases place_eq_error hs hroom hp with ⟨harg, _⟩ | ⟨_, slab, p, host, j, a, hk, rfl⟩
        · cases harg
        · refine ⟨fun f hf harg => ?_, fun f hf _ => ?_, nofun⟩
          · obtain rfl := Except.error.inj hf
            cases harg
          · obtain rfl := Except.error.inj hf
            exact ⟨⟨cause, rfl, hrefusal⟩, hk.get?, hk.live, rfl, rfl, p, host, j, rfl⟩
      · obtain ⟨m', s', hprep', ht, p, host, j, a, rfl⟩ := place_eq_ok hp
        obtain ⟨hkind, hfd, hleases, hlease⟩ := Order.prepare_eq_ok hprep'
        obtain ⟨hnd, hidle⟩ := Memory.idle_of_leaseAll? hlease
        have hget := hs.get?_insert (contextOf s' cb) hroom
        have hfresh := hs.get?_token_insert (contextOf s' cb) hroom
        have hlend := Memory.lend?_leaseAll? hlease
        rw [hleases] at hnd hidle hlend
        refine ⟨nofun, nofun, fun u hu => ?_⟩
        obtain rfl := Except.ok.inj hu
        subst ht
        exact ⟨haccept, hfresh, ⟨contextOf s' cb, ⟨hkind, hfd, rfl, hleases⟩, hget⟩,
          Slab.live_insert e.slab _, rfl, ⟨hnd, hidle⟩, hlend, (Memory.bytes_leaseAll? hlease).1,
          p, host, j, rfl⟩

end Engine

variable [CompletionPort P H] [Os H]

/-- In every state that an engine can get to, every call of a submitter, with any arguments,
either does all that it should or leaves contexts, buffers and counts as they should be: with a
bad argument nothing is asked of the port. A token has `2 ^ 32` indices; with more slots than
that, which takes as many submissions, two operations would share one. -/
theorem submitting_is_all_or_nothing {config : Config} {port : Recorder P} {host : H}
    {e : Engine (Recorder P) H} (h : Engine.build config port host = .ready e)
    (steps : List (Step H)) (o : Order StorageId) (cb : Callback)
    (hroom : (((Client.own e).after steps).engine.place o cb).1.slab.slots.length ≤ 2 ^ 32) :
    AllOrNothing ((Client.own e).after steps).engine
      (((Client.own e).after steps).engine.place o cb).1 o cb
      (((Client.own e).after steps).engine.place o cb).2 := by
  have hpath := (Client.own e).path_history steps
  have hbefore : ((Client.own e).after steps).engine.slab.slots.length ≤ 2 ^ 32 :=
    Nat.le_trans (Engine.grows_place _ o cb).le hroom
  have hsound := (hpath.induct (I := fun _ _ => True) (Engine.isNew_of_build h).sound hbefore
    trivial fun _ _ _ _ _ _ _ _ _ => trivial).1
  exact Engine.allOrNothing_place _ o cb hsound hroom

/-- A port that refuses the first operation of a user, for a fault without an error number. -/
def Scripted.refusing : Recorder Scripted :=
  { port := { pushes := [none, some (.invalidArgument (.other "full"))] } }

theorem submitting_is_all_or_nothing_of_refusing : ∃ e : Engine (Recorder Scripted) Host,
    Engine.build {} Scripted.refusing Host.start = .ready e ∧
    let e' := ((Client.own e).after [.buffer "b" [1, 2, 3]]).engine
    (e'.place (.write 3 1 none) ⟨"wrote", []⟩).1.slab.slots.length ≤ 2 ^ 32 ∧
    (e'.place (.write 3 1 none) ⟨"wrote", []⟩).2 = .error (.systemCall .write Errno.inputOutput) ∧
    AllOrNothing e' (e'.place (.write 3 1 none) ⟨"wrote", []⟩).1 (.write 3 1 none) ⟨"wrote", []⟩
      (e'.place (.write 3 1 none) ⟨"wrote", []⟩).2 := by
  refine ⟨_, rfl, by decide +kernel, rfl, ?_⟩
  exact @submitting_is_all_or_nothing Scripted Host _ _ {} Scripted.refusing Host.start _ rfl
    [.buffer "b" [1, 2, 3]] (.write 3 1 none) ⟨"wrote", []⟩ (by decide +kernel)

end Proactor
