import Proactor.Proofs.Posting
import Proactor.Proofs.Recorder

/-!
# Draining

What a drain does to the operations in flight, told by its waits and without the rounds that bound
them. It goes on as long as something is in flight and there is time left, and the port neither
fails nor runs out of time. Each completion of a user's operation is dispatched as a pump would,
the engine's own read is not put in flight again, and nothing else is touched.
-/

namespace Proactor

variable {P H : Type}

/-- An operation whose completion was retrieved, and how it was dispatched. -/
structure Retrieved where
  context : Context
  dispatch : Dispatch

/-- The token under which the operation was in flight. -/
def Retrieved.token (r : Retrieved) : Token := r.dispatch.token

namespace Engine

/-- The operation of a user that is in flight under a token. -/
def user? (e : Engine P H) (t : Token) : Option Context :=
  if e.wakeToken = some t then none else e.slab.get? t

/-- The tokens of the users' operations in flight. -/
def userTokens (e : Engine P H) : List Token :=
  e.slab.tokens.filter fun t => e.wakeToken ≠ some t

variable [CompletionPort P H] [Os H]

/-- Something is in flight, there is time left until the deadline, and the wait for it ends like
this. -/
structure Waits (deadline rounds : Nat) (e e' : Engine P H) (w : Waited) : Prop where
  live : e.slab.live ≠ 0
  left : (Os.now e.world.host).2 < deadline
  wait : e.waitPort (some deadline) rounds = (e', w)

/-- A drain, with how its waits end and the operations that it dispatches. -/
inductive Drains (deadline : Nat) :
    Engine P H → List Waited → List Retrieved → Engine P H → Prop where
  /-- Nothing is in flight. -/
  | empty {e : Engine P H} (h : e.slab.live = 0) : Drains deadline e [] [] e
  /-- There is no time left. -/
  | late {e : Engine P H} (hlive : e.slab.live ≠ 0) (h : deadline ≤ (Os.now e.world.host).2) :
    Drains deadline e [] [] (e.withHost (Os.now e.world.host).1)
  | timeout {e e' : Engine P H} {rounds : Nat} (h : e.Waits deadline rounds e' .timeout) :
    Drains deadline e [.timeout] [] e'
  | fault {e e' : Engine P H} {rounds : Nat} {f : Fault}
    (h : e.Waits deadline rounds e' (.fault f)) :
    Drains deadline e [.fault f] [] (e'.note (.drainAborted f))
  /-- The completion names nothing in flight, which is noted. -/
  | unknown {e e₁ e' : Engine P H} {rounds : Nat} {c : Completion} {moved : Transfer}
    {waits : List Waited} {retrieved : List Retrieved}
    (h : e.Waits deadline rounds e₁ (.completion c moved)) (hget : e₁.slab.get? c.token = none)
    (hrest : Drains deadline ((e₁.note (.unknownToken c.token c.result)).note
      (.drainFault (.unknownToken c.token))) waits retrieved e') :
    Drains deadline e (.completion c moved :: waits) retrieved e'
  /-- The completion is of the engine's own read, which is over then. -/
  | woken {e e₁ e' : Engine P H} {rounds : Nat} {c : Completion} {moved : Transfer}
    {context : Context} {slab : Slab Context} {waits : List Waited} {retrieved : List Retrieved}
    (h : e.Waits deadline rounds e₁ (.completion c moved))
    (htake : e₁.slab.take c.token = some (context, slab)) (hwake : e₁.wakeToken = some c.token)
    (hrest : Drains deadline (e₁.wakeSettled slab context c moved) waits retrieved e') :
    Drains deadline e (.completion c moved :: waits) retrieved e'
  /-- The completion is of a user's operation, and the engine is left as by a pump that would wait
  until the deadline. -/
  | dispatched {e e₁ e₂ e' : Engine P H} {rounds : Nat} {c : Completion} {moved : Transfer}
    {context : Context} {d : Dispatch} {waits : List Waited} {retrieved : List Retrieved}
    (h : e.Waits deadline rounds e₁ (.completion c moved)) (hd : d.token = c.token)
    (huser : e.user? c.token = some context)
    (hpump : e.await (some deadline) (rounds + 1) = (e₂, .dispatched d))
    (hrest : Drains deadline e₂ waits retrieved e') :
    Drains deadline e (.completion c moved :: waits) (⟨context, d⟩ :: retrieved) e'

/-! ### One completion -/

section complete

variable {e : Engine P H} {c : Completion} (moved : Transfer) {context : Context}
  {slab : Slab Context}

omit [CompletionPort P H] [Os H] in
theorem user?_eq_some_iff (e : Engine P H) (t : Token) (context : Context) :
    e.user? t = some context ↔ e.wakeToken ≠ some t ∧ e.slab.get? t = some context := by
  unfold user?
  by_cases h : e.wakeToken = some t <;> simp [h]

theorem complete_of_get?_eq_none (h : e.slab.get? c.token = none) :
    e.complete c moved =
      (e.note (.unknownToken c.token c.result), .error (.unknownToken c.token)) := by
  simp only [complete, (Slab.take_eq_none_iff _ _).mpr h]

/-- A closed engine does not put its own read in flight again. -/
theorem complete_of_wake (hclosed : e.closed = true)
    (htake : e.slab.take c.token = some (context, slab)) (hwake : e.wakeToken = some c.token) :
    e.complete c moved = (e.wakeSettled slab context c moved, .ok none) := by
  have hstill : (e.wakeSettled slab context c moved).rearmWake
      (e.world.settle context.pinned c.result moved).2 = e.wakeSettled slab context c moved :=
    if_pos hclosed
  simp only [complete, htake, if_pos hwake]
  exact Prod.ext hstill rfl

/-- The engine after the callback of a user's operation. -/
def called (e : Engine P H) (slab : Slab Context) (context : Context) (c : Completion)
    (moved : Transfer) : Engine P H :=
  let o := Outcome.ofResult (e.world.settle context.pinned c.result moved).2
  let e₁ := (e.settled slab (e.world.settle context.pinned c.result moved).1).calling c.token
    context o
  (e₁.withWorld (e₁.world.acts context.callback.actions)).countDispatched

theorem complete_of_user (htake : e.slab.take c.token = some (context, slab))
    (hwake : e.wakeToken ≠ some c.token) :
    e.complete c moved = (e.called slab context c moved,
      .ok (some ⟨c.token, .ofResult (e.world.settle context.pinned c.result moved).2⟩)) := by
  simp only [complete, htake, if_neg hwake]
  rfl

end complete

/-! ### What a drain does to the operations in flight -/

/-- The slab is sound, and the engine's own read, if there is one, is in flight. -/
structure Upright (e : Engine P H) : Prop where
  sound : e.slab.Sound
  wake : ∀ t, e.wakeToken = some t → ∃ context, e.slab.get? t = some context

/-- From one engine to another, these operations of users were dispatched and are no longer in
flight, and all others of them still are. -/
structure Retrieves (e e' : Engine P H) (retrieved : List Retrieved) : Prop where
  upright : e'.Upright
  length : e'.slab.slots.length = e.slab.slots.length
  user? : ∀ t, e'.user? t = if t ∈ retrieved.map Retrieved.token then none else e.user? t
  mine : ∀ r ∈ retrieved, e.user? r.token = some r.context
  nodup : (retrieved.map Retrieved.token).Nodup
  outstanding : e.outstanding = e'.outstanding + retrieved.length
  /-- Of those that were in flight the engine's own read may be over too. -/
  contexts : ∃ own, e.slab.occupants.Perm
    (retrieved.map Retrieved.context ++ own ++ e'.slab.occupants)
  stats : e'.stats = { e.stats with dispatched := e.stats.dispatched + retrieved.length }
  runs : e'.world.calls.filterMap Call.ran? = e.world.calls.filterMap Call.ran? ++
    retrieved.map fun r => (r.context.callback.tag, r.dispatch.outcome)
  leaked : e'.leaked = e.leaked
  closed : e'.closed = e.closed
  shut : e'.world.injector.closed = e.world.injector.closed
  queue : e.world.injector.closed = true → e'.world.injector.queue = e.world.injector.queue

variable {e e' e'' : Engine P H} {retrieved retrieved' : List Retrieved}

omit [CompletionPort P H] [Os H] in
/-- Nothing is dispatched where all of this stays. -/
theorem Upright.retrieves_nil (h : e.Upright) (hslab : e'.slab = e.slab)
    (hwake : e'.wakeToken = e.wakeToken) (hstats : e'.stats = e.stats)
    (hcalls : e'.world.calls = e.world.calls) (hleaked : e'.leaked = e.leaked)
    (hclosed : e'.closed = e.closed) (hinjector : e'.world.injector = e.world.injector) :
    Retrieves e e' [] where
  upright := ⟨hslab ▸ h.sound, fun t ht => hslab ▸ h.wake t (hwake ▸ ht)⟩
  length := by rw [hslab]
  user? t := by simp [Engine.user?, hslab, hwake]
  mine := nofun
  nodup := List.nodup_nil
  outstanding := by simp [Engine.outstanding, hslab, hwake]
  contexts := ⟨[], by rw [hslab]; exact .refl _⟩
  stats := hstats
  runs := by rw [hcalls]; exact (List.append_nil _).symm
  leaked := hleaked
  closed := hclosed
  shut := by rw [hinjector]
  queue := fun _ => by rw [hinjector]

omit [CompletionPort P H] [Os H] in
theorem Retrieves.trans (h : Retrieves e e' retrieved) (h' : Retrieves e' e'' retrieved') :
    Retrieves e e'' (retrieved ++ retrieved') where
  upright := h'.upright
  length := h'.length.trans h.length
  user? t := by
    rw [h'.user?, h.user?]
    simp only [List.map_append, List.mem_append]
    by_cases hm : t ∈ retrieved.map Retrieved.token <;>
      by_cases hm' : t ∈ retrieved'.map Retrieved.token <;> simp [hm, hm']
  mine := by
    intro r hr
    rcases List.mem_append.mp hr with hr | hr
    · exact h.mine r hr
    · have hmine := h'.mine r hr
      rw [h.user?] at hmine
      split at hmine
      · cases hmine
      · exact hmine
  nodup := by
    rw [List.map_append, List.nodup_append]
    refine ⟨h.nodup, h'.nodup, ?_⟩
    rintro t ht t' ht' rfl
    obtain ⟨r, hr, rfl⟩ := List.mem_map.mp ht'
    have hmine := h'.mine r hr
    rw [h.user?, if_pos ht] at hmine
    cases hmine
  outstanding := by
    rw [h.outstanding, h'.outstanding, List.length_append]
    omega
  contexts := by
    obtain ⟨own, hp⟩ := h.contexts
    obtain ⟨own', hp'⟩ := h'.contexts
    refine ⟨own ++ own', hp.trans ((hp'.append_left _).trans ?_)⟩
    simp only [List.map_append, List.append_assoc]
    exact (List.perm_append_comm_assoc _ _ _).append_left _
  stats := by
    rw [h'.stats, h.stats, List.length_append, Nat.add_assoc]
  runs := by rw [h'.runs, h.runs, List.map_append, List.append_assoc]
  leaked := h'.leaked.trans h.leaked
  closed := h'.closed.trans h.closed
  shut := h'.shut.trans h.shut
  queue := fun hc => (h'.queue (h.shut.trans hc)).trans (h.queue hc)

/-- A wait dispatches nothing. -/
theorem Upright.retrieves_waits {deadline rounds : Nat} {w : Waited} (h : e.Upright)
    (hw : e.Waits deadline rounds e' w) : Retrieves e e' [] := by
  obtain ⟨p, host, j, rfl⟩ := waitPort_eq_beside hw.wait
  exact h.retrieves_nil rfl rfl rfl rfl rfl rfl rfl

section

variable {c : Completion} (moved : Transfer) {context : Context} {slab : Slab Context}

omit [CompletionPort P H] in
/-- When the engine's own read is over no user's operation is. -/
theorem Upright.retrieves_wakeSettled (h : e.Upright)
    (htake : e.slab.take c.token = some (context, slab)) (hwake : e.wakeToken = some c.token) :
    Retrieves e (e.wakeSettled slab context c moved) [] where
  upright := ⟨h.sound.take htake, nofun⟩
  length := Slab.length_slots_take htake
  user? t := by
    have hget : (e.wakeSettled slab context c moved).user? t = slab.get? t := rfl
    rw [hget, Slab.get?_take htake]
    by_cases ht : t = c.token
    · simp [Engine.user?, hwake, ht]
    · simp [Engine.user?, hwake, ht, Ne.symm ht]
  mine := nofun
  nodup := List.nodup_nil
  outstanding := by
    have hlive := h.sound.live_take htake
    have hafter : (e.wakeSettled slab context c moved).outstanding = slab.live := rfl
    rw [hafter, Engine.outstanding, hwake, hlive]
    rfl
  contexts := ⟨[context], Slab.occupants_take htake⟩
  stats := rfl
  runs := by
    rw [List.map_nil, List.append_nil]
    exact congrArg _ (World.calls_settle e.world context.pinned c.result moved)
  leaked := rfl
  closed := rfl
  shut := congrArg Injector.closed (World.injector_settle e.world context.pinned c.result moved)
  queue := fun _ =>
    congrArg Injector.queue (World.injector_settle e.world context.pinned c.result moved)

omit [CompletionPort P H] in
/-- When the callback of a user's operation was run, that operation is over, and no other. -/
theorem Upright.retrieves_called (h : e.Upright)
    (htake : e.slab.take c.token = some (context, slab)) (hwake : e.wakeToken ≠ some c.token) :
    Retrieves e (e.called slab context c moved) [⟨context,
      ⟨c.token, .ofResult (e.world.settle context.pinned c.result moved).2⟩⟩] := by
  let o := Outcome.ofResult (e.world.settle context.pinned c.result moved).2
  let e₁ := (e.settled slab (e.world.settle context.pinned c.result moved).1).calling c.token
    context o
  have hacts := World.posts_acts e₁.world context.callback.actions
  have hinjector : e₁.world.injector = e.world.injector :=
    World.injector_settle e.world context.pinned c.result moved
  have hget := Slab.get?_of_take htake
  have hlive := h.sound.live_take htake
  have hwakeLive : ∀ t, e.wakeToken = some t → ∃ context, slab.get? t = some context := by
    intro t ht
    have hne : t ≠ c.token := fun he => hwake (he ▸ ht)
    rw [Slab.get?_take htake, if_neg hne]
    exact h.wake t ht
  constructor
  case upright => exact ⟨h.sound.take htake, hwakeLive⟩
  case length => exact Slab.length_slots_take htake
  case user? =>
    intro t
    have hafter : (e.called slab context c moved).user? t =
        if e.wakeToken = some t then none else slab.get? t := rfl
    rw [hafter, Slab.get?_take htake]
    by_cases ht : t = c.token
    · simp [Retrieved.token, ht, hwake]
    · simp [Retrieved.token, ht, Engine.user?]
  case mine =>
    intro r hr
    rw [List.mem_singleton.mp hr]
    exact (user?_eq_some_iff _ _ _).mpr ⟨hwake, hget⟩
  case nodup => exact List.nodup_singleton _
  case outstanding =>
    have hafter : (e.called slab context c moved).outstanding =
        slab.live - if e.wakeToken.isSome then 1 else 0 := rfl
    rw [hafter, Engine.outstanding, hlive]
    cases hw : e.wakeToken with
    | none => rfl
    | some t =>
      obtain ⟨own, hown⟩ := hwakeLive t hw
      have hpos := (h.sound.take htake).live_pos hown
      simp only [Option.isSome_some, if_true, List.length_singleton]
      omega
  case contexts => exact ⟨[], Slab.occupants_take htake⟩
  case stats => rfl
  case runs =>
    refine hacts.runs.trans (List.filterMap_append.trans ?_)
    exact congrArg (fun l => List.filterMap Call.ran? l ++ _)
      (World.calls_settle e.world context.pinned c.result moved)
  case leaked => rfl
  case closed => rfl
  case shut => exact hacts.closed.trans (congrArg Injector.closed hinjector)
  case queue =>
    intro hc
    have hshut : e₁.world.injector.closed = true := by rw [hinjector]; exact hc
    have hqueue := hacts.queue
    rw [Posting.queued_eq_nil (hacts.refused hshut), List.append_nil, hinjector] at hqueue
    exact hqueue

end

/-- A pump that dispatches the completion of a user's operation has run its callback. -/
theorem called_of_await {deadline rounds : Nat} {e₁ e₂ : Engine P H} {c : Completion}
    {moved : Transfer} {context : Context} {d : Dispatch}
    (hw : e.Waits deadline rounds e₁ (.completion c moved))
    (huser : e.user? c.token = some context)
    (hpump : e.await (some deadline) (rounds + 1) = (e₂, .dispatched d)) :
    ∃ slab, e₁.slab.take c.token = some (context, slab) ∧ e₁.wakeToken ≠ some c.token ∧
      e₂ = e₁.called slab context c moved ∧
      d = ⟨c.token, .ofResult (e₁.world.settle context.pinned c.result moved).2⟩ := by
  obtain ⟨p, host, j, rfl⟩ := waitPort_eq_beside hw.wait
  obtain ⟨hne, hget⟩ := (user?_eq_some_iff _ _ _).mp huser
  obtain ⟨slab, htake⟩ := Slab.exists_take hget
  have hc := complete_of_user (e := e.beside p host j e.associated) moved htake hne
  simp only [await, hw.wait, hc] at hpump
  obtain ⟨rfl, hd⟩ := Prod.mk.inj hpump
  exact ⟨slab, htake, hne, rfl, (Pumped.dispatched.inj hd).symm⟩

/-- What a drain dispatches is no longer in flight after it, and nothing else has changed for the
operations of users. -/
theorem Upright.retrieves_drains {deadline : Nat} {waits : List Waited}
    (hd : Drains deadline e waits retrieved e') (h : e.Upright) (hclosed : e.closed = true) :
    Retrieves e e' retrieved := by
  induction hd with
  | empty hlive => exact h.retrieves_nil rfl rfl rfl rfl rfl rfl rfl
  | late hlive hover => exact h.retrieves_nil rfl rfl rfl rfl rfl rfl rfl
  | timeout hw => exact h.retrieves_waits hw
  | fault hw =>
    have hwait := h.retrieves_waits hw
    exact hwait.trans (hwait.upright.retrieves_nil rfl rfl rfl rfl rfl rfl rfl)
  | @unknown e e₁ e' rounds c moved waits retrieved hw hget hrest ih =>
    have hwait := h.retrieves_waits hw
    have hnote : Retrieves e ((e₁.note (.unknownToken c.token c.result)).note
        (.drainFault (.unknownToken c.token))) [] :=
      hwait.trans (hwait.upright.retrieves_nil rfl rfl rfl rfl rfl rfl rfl)
    exact hnote.trans (ih hnote.upright (hnote.closed.trans hclosed))
  | @woken e e₁ e' rounds c moved context slab waits retrieved hw htake hwake hrest ih =>
    have hwait := h.retrieves_waits hw
    have hover := hwait.trans (hwait.upright.retrieves_wakeSettled moved htake hwake)
    exact hover.trans (ih hover.upright (hover.closed.trans hclosed))
  | @dispatched e e₁ e₂ e' rounds c moved context d waits retrieved hw hd huser hpump hrest ih =>
    have hwait := h.retrieves_waits hw
    obtain ⟨slab, htake, hne, rfl, rfl⟩ := called_of_await hw huser hpump
    have hcalled := hwait.trans (hwait.upright.retrieves_called moved htake hne)
    exact hcalled.trans (ih hcalled.upright (hcalled.closed.trans hclosed))

/-! ### A drain is one -/

/-- How retrieving completions goes on after a wait. -/
def drainOn (e : Engine P H) (deadline rounds : Nat) : Waited → Engine P H × Except Halt Unit
  | .blocked => (e, .error .unfinished)
  | .unfinished => (e, .error .unfinished)
  | .panicked => (e, .error .panicked)
  | .timeout => (e, .ok ())
  | .fault f => (e.note (.drainAborted f), .ok ())
  | .completion c moved =>
    match e.complete c moved with
    | (e, .ok _) => e.drainPort deadline rounds
    | (e, .error f) => (e.note (.drainFault f)).drainPort deadline rounds

theorem drainPort_of_waits {deadline rounds : Nat} {w : Waited}
    (h : e.Waits deadline rounds e' w) :
    e.drainPort deadline (rounds + 1) = e'.drainOn deadline rounds w := by
  obtain ⟨he, hr⟩ := Prod.mk.inj ((waitPort_some e deadline rounds).symm.trans h.wait)
  subst he hr
  simp only [drainPort, if_neg h.live, if_neg (Nat.not_le_of_lt h.left)]
  rfl

/-- Retrieving completions until that ends is a drain. -/
theorem drains_of_drainPort {deadline rounds : Nat} (hclosed : e.closed = true)
    (h : e.drainPort deadline rounds = (e', .ok ())) :
    ∃ waits retrieved, Drains deadline e waits retrieved e' := by
  induction rounds generalizing e with
  | zero =>
    obtain ⟨rfl, hlive⟩ := Prod.mk.inj h
    refine ⟨[], [], .empty (by_contra fun hne => ?_)⟩
    rw [if_neg hne] at hlive
    cases hlive
  | succ rounds ih =>
    by_cases hlive : e.slab.live = 0
    · simp only [drainPort, if_pos hlive] at h
      obtain ⟨rfl, _⟩ := Prod.mk.inj h
      exact ⟨[], [], .empty hlive⟩
    by_cases hover : deadline ≤ (Os.now e.world.host).2
    · simp only [drainPort, if_neg hlive, if_pos hover] at h
      obtain ⟨rfl, _⟩ := Prod.mk.inj h
      exact ⟨[], [], .late hlive hover⟩
    cases hwait : e.waitPort (some deadline) rounds with
    | mk e₁ w =>
      have hw : e.Waits deadline rounds e₁ w := ⟨hlive, Nat.lt_of_not_le hover, hwait⟩
      obtain ⟨p, host, j, hbeside⟩ := waitPort_eq_beside hwait
      have hclosed₁ : e₁.closed = true := by rw [hbeside]; exact hclosed
      rw [drainPort_of_waits hw] at h
      cases w with
      | blocked => cases h
      | unfinished => cases h
      | panicked => cases h
      | timeout =>
        obtain ⟨rfl, _⟩ := Prod.mk.inj h
        exact ⟨[.timeout], [], .timeout hw⟩
      | fault f =>
        obtain ⟨rfl, _⟩ := Prod.mk.inj h
        exact ⟨[.fault f], [], .fault hw⟩
      | completion c moved =>
        cases hget : e₁.slab.get? c.token with
        | none =>
          simp only [drainOn, complete_of_get?_eq_none moved hget] at h
          obtain ⟨waits, retrieved, hrest⟩ := ih (by exact hclosed₁) h
          exact ⟨_, _, .unknown hw hget hrest⟩
        | some context =>
          obtain ⟨slab, htake⟩ := Slab.exists_take hget
          by_cases hwake : e₁.wakeToken = some c.token
          · simp only [drainOn, complete_of_wake moved hclosed₁ htake hwake] at h
            obtain ⟨waits, retrieved, hrest⟩ := ih (by exact hclosed₁) h
            exact ⟨_, _, .woken hw htake hwake hrest⟩
          · have hc := complete_of_user moved htake hwake
            simp only [drainOn, hc] at h
            obtain ⟨waits, retrieved, hrest⟩ := ih (by exact hclosed₁) h
            have huser : e.user? c.token = some context := by
              rw [hbeside] at hget hwake
              exact (user?_eq_some_iff _ _ _).mpr ⟨hwake, hget⟩
            have hpump : e.await (some deadline) (rounds + 1) =
                (e₁.called slab context c moved, .dispatched ⟨c.token,
                  .ofResult (e₁.world.settle context.pinned c.result moved).2⟩) := by
              simp only [await, hwait, hc]
            exact ⟨_, _, .dispatched hw rfl huser hpump hrest⟩

/-! ### What a drain asks of a port -/

/-- A wait asks a port to wait, once. -/
theorem calls_waitPort {e e' : Engine (Recorder P) H} {deadline : Option Nat} {rounds : Nat}
    {w : Waited} (h : e.waitPort deadline rounds = (e', w)) :
    e'.port.calls = e.port.calls ++ [.wait w] := by
  obtain ⟨rfl, rfl⟩ := Prod.mk.inj h
  rfl

/-- A drain asks a port to wait, and nothing else. -/
theorem calls_drains {e e' : Engine (Recorder P) H} {deadline : Nat} {waits : List Waited}
    (h : Drains deadline e waits retrieved e') :
    e'.port.calls = e.port.calls ++ waits.map .wait := by
  have hcons : ∀ {e₀ e₁ e₂ : Engine (Recorder P) H} {rounds : Nat} {w : Waited}
      {rest : List Waited}, e₀.Waits deadline rounds e₁ w →
      e₂.port.calls = e₁.port.calls ++ rest.map .wait →
      e₂.port.calls = e₀.port.calls ++ (w :: rest).map .wait := by
    intro e₀ e₁ e₂ rounds w rest hw hrest
    rw [hrest, calls_waitPort hw.wait, List.append_assoc]
    rfl
  induction h with
  | empty hlive => exact (List.append_nil _).symm
  | late hlive hover => exact (List.append_nil _).symm
  | timeout hw => exact hcons hw (List.append_nil _).symm
  | fault hw => exact hcons hw (List.append_nil _).symm
  | unknown hw hget hrest ih => exact hcons hw ih
  | woken hw htake hwake hrest ih => exact hcons hw ih
  | @dispatched e e₁ e₂ e' rounds c moved context d waits retrieved hw hd huser hpump hrest ih =>
    obtain ⟨slab, htake, hne, rfl, _⟩ := called_of_await hw huser hpump
    exact hcons hw ih

/-- What has come of the waits of a drain that does not return. -/
def HaltsAfter (waits : List Waited) (rounds : Nat) : Halt → Prop
  | .unfinished => .blocked ∈ waits ∨ .unfinished ∈ waits ∨ waits.length = rounds
  | .panicked => .panicked ∈ waits

theorem HaltsAfter.cons {waits : List Waited} {rounds : Nat} {halt : Halt}
    (h : HaltsAfter waits rounds halt) (w : Waited) :
    HaltsAfter (w :: waits) (rounds + 1) halt := by
  cases halt with
  | unfinished =>
    rw [HaltsAfter, List.length_cons, Nat.add_right_cancel_iff]
    exact h.imp (List.mem_cons_of_mem w) (Or.imp_left (List.mem_cons_of_mem w))
  | panicked => exact List.mem_cons_of_mem w h

/-- If retrieving completions does not end, the port hangs or panics, or there were as many waits as
rounds were granted. -/
theorem drainPort_halted {e e' : Engine (Recorder P) H} {deadline rounds : Nat} {halt : Halt}
    (hclosed : e.closed = true) (h : e.drainPort deadline rounds = (e', .error halt)) :
    ∃ waits : List Waited, e'.port.calls = e.port.calls ++ waits.map .wait ∧
      HaltsAfter waits rounds halt := by
  induction rounds generalizing e with
  | zero =>
    obtain ⟨rfl, hhalt⟩ := Prod.mk.inj h
    refine ⟨[], (List.append_nil _).symm, ?_⟩
    split at hhalt
    · cases hhalt
    · obtain rfl := Except.error.inj hhalt
      exact .inr (.inr rfl)
  | succ rounds ih =>
    by_cases hlive : e.slab.live = 0
    · simp only [drainPort, if_pos hlive] at h
      cases h
    by_cases hover : deadline ≤ (Os.now e.world.host).2
    · simp only [drainPort, if_neg hlive, if_pos hover] at h
      cases h
    cases hwait : e.waitPort (some deadline) rounds with
    | mk e₁ w =>
      have hw : e.Waits deadline rounds e₁ w := ⟨hlive, Nat.lt_of_not_le hover, hwait⟩
      have hcalls := calls_waitPort hwait
      have hclosed₁ : e₁.closed = true := by
        obtain ⟨p, host, j, rfl⟩ := waitPort_eq_beside hwait
        exact hclosed
      have hrest : ∀ {e₂ : Engine (Recorder P) H}, e₂.closed = true →
          e₂.port.calls = e₁.port.calls → e₂.drainPort deadline rounds = (e', .error halt) →
          ∃ waits : List Waited, e'.port.calls = e.port.calls ++ waits.map .wait ∧
            HaltsAfter waits (rounds + 1) halt := by
        intro e₂ hclosed₂ hsame h₂
        obtain ⟨waits, hwaits, hend⟩ := ih hclosed₂ h₂
        refine ⟨w :: waits, ?_, hend.cons w⟩
        rw [hwaits, hsame, hcalls, List.append_assoc]
        rfl
      rw [drainPort_of_waits hw] at h
      cases w with
      | blocked =>
        obtain ⟨rfl, hhalt⟩ := Prod.mk.inj h
        obtain rfl := Except.error.inj hhalt
        exact ⟨[.blocked], hcalls, .inl List.mem_cons_self⟩
      | unfinished =>
        obtain ⟨rfl, hhalt⟩ := Prod.mk.inj h
        obtain rfl := Except.error.inj hhalt
        exact ⟨[.unfinished], hcalls, .inr (.inl List.mem_cons_self)⟩
      | panicked =>
        obtain ⟨rfl, hhalt⟩ := Prod.mk.inj h
        obtain rfl := Except.error.inj hhalt
        exact ⟨[.panicked], hcalls, List.mem_cons_self⟩
      | timeout => cases h
      | fault f => cases h
      | completion c moved =>
        cases hget : e₁.slab.get? c.token with
        | none =>
          simp only [drainOn, complete_of_get?_eq_none moved hget] at h
          exact hrest (by exact hclosed₁) (by rfl) h
        | some context =>
          obtain ⟨slab, htake⟩ := Slab.exists_take hget
          by_cases hwake : e₁.wakeToken = some c.token
          · simp only [drainOn, complete_of_wake moved hclosed₁ htake hwake] at h
            exact hrest (by exact hclosed₁) (by rfl) h
          · simp only [drainOn, complete_of_user moved htake hwake] at h
            exact hrest (by exact hclosed₁) (by rfl) h

/-- A drain that is late from the beginning waits for nothing. -/
theorem waits_of_late {deadline : Nat} {waits : List Waited}
    (hd : Drains deadline e waits retrieved e') (h : deadline ≤ (Os.now e.world.host).2) :
    waits = [] := by
  cases hd with
  | empty hlive => rfl
  | late hlive hover => rfl
  | timeout hw => exact absurd hw.left (Nat.not_lt_of_le h)
  | fault hw => exact absurd hw.left (Nat.not_lt_of_le h)
  | unknown hw => exact absurd hw.left (Nat.not_lt_of_le h)
  | woken hw => exact absurd hw.left (Nat.not_lt_of_le h)
  | dispatched hw => exact absurd hw.left (Nat.not_lt_of_le h)

/-! ### Before and after the drain -/

omit [CompletionPort P H] in
/-- Before it retrieves anything a drain adds to the event counter and reads the clock. -/
theorem drainStart_eq_beside (e : Engine P H) :
    ∃ host j, e.drainStart.1 = e.beside e.port host j e.associated := by
  have hrelease : ∃ host j, e.releaseWake = e.beside e.port host j e.associated := by
    unfold releaseWake World.wake
    split
    · cases Os.eventAdd e.world.host e.world.injector.wake with
      | mk host r =>
        cases r with
        | ok u => exact ⟨_, _, rfl⟩
        | error f =>
          by_cases hf : f = Errno.again
          · simp only [if_pos hf]
            exact ⟨_, _, rfl⟩
          · simp only [if_neg hf]
            exact ⟨_, _, rfl⟩
    · exact ⟨_, _, rfl⟩
  obtain ⟨host, j, he⟩ := hrelease
  refine ⟨(Os.now e.releaseWake.world.host).1, j, ?_⟩
  rw [drainStart, he]
  rfl

omit [CompletionPort P H] in
/-- Running the first posted callback changes the world and the count of such callbacks only. -/
theorem runPosted_eq_some {d : Dispatch} (h : e.runPosted = some (e', d)) :
    e' = { e with
      world := e'.world
      stats := { e.stats with injected := e.stats.injected + 1 } } := by
  unfold runPosted at h
  split at h
  · cases h
  · obtain ⟨rfl, _⟩ := Prod.mk.inj (Option.some.inj h)
    rfl

omit [CompletionPort P H] in
/-- A posted callback asks a port for nothing. -/
theorem port_of_runPosted {d : Dispatch} (h : e.runPosted = some (e', d)) : e'.port = e.port := by
  rw [runPosted_eq_some h]

omit [CompletionPort P H] in
/-- Running all posted callbacks changes the world and the count of such callbacks only. -/
theorem RunsOut.eq (h : RunsOut e e') : ∃ world injected, e' = { e with
    world, stats := { e.stats with injected } } := by
  induction h with
  | done h => exact ⟨_, _, rfl⟩
  | next h hrest ih =>
    obtain ⟨world, injected, he⟩ := ih
    rw [runPosted_eq_some h] at he
    exact ⟨world, injected, he⟩

omit [CompletionPort P H] in
/-- Each of the posted callbacks is told that it was done. -/
theorem RunsOut.runs (h : RunsOut e e') (hc : e.world.injector.closed = true) :
    e'.world.calls.filterMap Call.ran? = e.world.calls.filterMap Call.ran? ++
      e.world.injector.queue.map fun cb => (cb.tag, .done) := by
  induction h with
  | done h =>
    rw [(runPosted_eq_none_iff _).mp h]
    exact (List.append_nil _).symm
  | next h hrest ih =>
    obtain ⟨cb, hqueue, hclosed, hruns⟩ := runPosted_of_closed hc h
    rw [ih hclosed, hruns, hqueue, List.append_assoc]
    rfl

omit [Os H] in
/-- Giving up an engine gives up whatever is in flight and whatever is queued, and shuts its port
down. -/
theorem abandon_eq (e : Engine P H) : ∃ journal, e.abandon = ({ e with
    port := (CompletionPort.shutdown e.port e.world.host).1
    wakeToken := none
    leaked := e.leaked ++ e.slab.occupants
    slab := e.slab.abandon
    world := { e.world with
      host := (CompletionPort.shutdown e.port e.world.host).2
      injector := { e.world.injector with queue := [] }
      journal } }, e.outstanding) := by
  unfold abandon
  dsimp only
  split <;> split <;> exact ⟨_, rfl⟩

end Engine

end Proactor
