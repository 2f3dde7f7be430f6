import Proactor.Proofs.Accounting
import Proactor.Proofs.Standing
import Proactor.Session.AnyPort

/-!
# Closing

An engine is closed once, and every operation that was in flight then is accounted for: it was
dispatched in the drain, or it is given up and counted. What was given up never gives back what it
holds. The port is shut down once, after everything else that is asked of it. All this takes a
drain whose end a clock can tell: else a shutdown panics when the engine is already closed, and
nothing is drained, given up or counted.
-/

namespace Proactor

variable {P H : Type}

namespace Engine

/-! ### The operations of users -/

section

variable {e : Engine P H} (h : e.Upright)
include h

/-- The tokens of users are those under which one of their operations is in flight. -/
theorem Upright.mem_userTokens (t : Token) :
    t ∈ e.userTokens ↔ ∃ context, e.user? t = some context := by
  simp only [userTokens, List.mem_filter, h.sound.mem_tokens, decide_eq_true_eq,
    user?_eq_some_iff]
  constructor
  · rintro ⟨⟨context, hget⟩, hne⟩
    exact ⟨context, hne, hget⟩
  · rintro ⟨context, hne, hget⟩
    exact ⟨⟨context, hget⟩, hne⟩

theorem Upright.nodup_userTokens : e.userTokens.Nodup := h.sound.nodup_tokens.filter _

/-- All that is in flight is the users', but for the engine's own read. -/
theorem Upright.length_userTokens : e.userTokens.length = e.outstanding := by
  unfold userTokens outstanding
  cases hw : e.wakeToken with
  | none =>
    have hall : e.slab.tokens.filter (fun t => (none : Option Token) ≠ some t) = e.slab.tokens :=
      List.filter_eq_self.mpr (by simp)
    rw [hall, h.sound.length_tokens]
    rfl
  | some t =>
    have hfilter : e.slab.tokens.filter (fun u => some t ≠ some u) = e.slab.tokens.erase t := by
      rw [h.sound.nodup_tokens.erase_eq_filter]
      apply List.filter_congr
      intro u _
      by_cases hu : t = u <;> simp [hu, Ne.symm]
    have hmem : t ∈ e.slab.tokens := (h.sound.mem_tokens t).mpr (h.wake t hw)
    rw [hfilter, List.length_erase_of_mem hmem, h.sound.length_tokens]
    rfl

end

/-- What a user has in flight is among all that is in flight. -/
theorem mem_occupants {e : Engine P H} {t : Token} {context : Context}
    (h : e.user? t = some context) : context ∈ e.slab.occupants := by
  obtain ⟨_, hget⟩ := (user?_eq_some_iff _ _ _).mp h
  obtain ⟨slab, htake⟩ := Slab.exists_take hget
  exact (Slab.occupants_take htake).symm.subset List.mem_cons_self

/-- What users have in flight after some of it was dispatched is all of it that was not. -/
theorem Retrieves.outstanding_eq {e e' : Engine P H} {retrieved : List Retrieved}
    (h : Retrieves e e' retrieved) (hupright : e.Upright) :
    e'.outstanding =
      (e.userTokens.filter fun t => t ∉ retrieved.map Retrieved.token).length := by
  rw [← h.upright.length_userTokens]
  refine List.Perm.length_eq ((List.perm_ext_iff_of_nodup h.upright.nodup_userTokens
    (hupright.nodup_userTokens.filter _)).mpr fun t => ?_)
  rw [List.mem_filter, h.upright.mem_userTokens, hupright.mem_userTokens, h.user?]
  by_cases hmem : t ∈ retrieved.map Retrieved.token <;> simp [hmem]

variable [CompletionPort P H] [Os H]

/-! ### A shutdown -/

/-- What a shutdown does that returns `n`, given how the waits of its drain end and the operations
that it dispatches. -/
structure ShutsDown (e e' : Engine (Recorder P) H) (n : Nat) (waits : List Waited)
    (retrieved : List Retrieved) : Prop where
  /-- A drain, then all posted callbacks, and then what is left is given up. -/
  drains : ∃ drained served, Drains e.closeToPosts.drainStart.2 e.closeToPosts.drainStart.1 waits
    retrieved drained ∧ drained.RunsOut served ∧ e' = served.abandon.1
  /-- Without any time it waits for nothing. -/
  late : e.config.drainTimeout.isZero = true →
    (∀ h : H, (Os.now h).2 ≤ (Os.now (Os.now h).1).2) → waits = []
  /-- The port is asked for its completions, and at last it is shut down. -/
  calls : e'.port.calls = e.port.calls ++ waits.map .wait ++ [.shutdown]
  /-- Each operation dispatched was a user's, and was in flight. -/
  mine : ∀ r ∈ retrieved, e.user? r.token = some r.context
  once : (retrieved.map Retrieved.token).Nodup
  /-- The operations of users that were not retrieved are counted. -/
  left : n = (e.userTokens.filter fun t => t ∉ retrieved.map Retrieved.token).length
  outstanding : e.outstanding = n + retrieved.length
  balance : e'.stats.submitted = e'.stats.dispatched + n
  stats : e'.stats.submitted = e.stats.submitted ∧
    e'.stats.dispatched = e.stats.dispatched + retrieved.length
  /-- The callbacks of what was retrieved are run, then the posted ones, and no others. -/
  runs : e'.world.calls.filterMap Call.ran? = e.world.calls.filterMap Call.ran? ++
    (retrieved.map fun r => (r.context.callback.tag, r.dispatch.outcome)) ++
    e.world.injector.queue.map fun cb => (cb.tag, .done)
  released : ∀ r ∈ retrieved, ∀ id ∈ r.context.pinned.leases,
    e'.world.memory.lend? id = some .idle
  leaked : ∀ t context, e.user? t = some context → t ∉ retrieved.map Retrieved.token →
    context ∈ e'.leaked
  /-- The engine is closed for good. -/
  again : e'.drop = e' ∧ ∀ rounds, e'.shutdown rounds = (e', .ok 0)

/-- A shutdown that returns drains the engine, runs out its queue and gives it up. -/
theorem shutdown_eq_ok {e e' : Engine P H} {rounds n : Nat} (hlive : e.closed = false)
    (h : e.shutdown rounds = (e', .ok n)) : ∃ drained served,
    e.closeToPosts.drainStart.1.drainPort e.closeToPosts.drainStart.2 rounds = (drained, .ok ()) ∧
      drained.RunsOut served ∧ e' = served.abandon.1 ∧ n = served.outstanding := by
  have hserves := (e.closeToPosts.serves_drain [] rounds).2 rfl
  simp only [shutdown, hlive, Bool.false_eq_true, if_false] at h
  cases hd : e.closeToPosts.drain rounds with
  | mk served ended =>
    rw [hd] at h
    cases ended with
    | error halt => cases h
    | ok u =>
      obtain ⟨rfl, hn⟩ := Prod.mk.inj h
      obtain ⟨drained, hport, hout⟩ := hserves served hd
      obtain ⟨journal, habandon⟩ := served.abandon_eq
      refine ⟨drained, served, hport, hout, rfl, ?_⟩
      rw [← Except.ok.inj hn, habandon]

/-- An engine that is given up after its queue has run out. -/
theorem RunsOut.abandon_eq {e served : Engine P H} (h : e.RunsOut served) :
    served.outstanding = e.outstanding ∧ served.abandon.1.world.calls = served.world.calls ∧
      ∃ world injected, served.abandon.1 = { e with
        port := (CompletionPort.shutdown e.port served.world.host).1
        world
        slab := e.slab.abandon
        wakeToken := none
        stats := { e.stats with injected }
        leaked := e.leaked ++ e.slab.occupants } := by
  obtain ⟨world, injected, rfl⟩ := h.eq
  obtain ⟨journal, habandon⟩ := Engine.abandon_eq
    { e with world, stats := { e.stats with injected } }
  rw [habandon]
  exact ⟨rfl, rfl, _, injected, rfl⟩

/-- A closed engine is not closed again. -/
theorem closes_once {e : Engine P H} (h : e.closed = true) :
    e.drop = e ∧ ∀ rounds, e.shutdown rounds = (e, .ok 0) :=
  ⟨if_pos h, fun _ => if_pos h⟩

omit [CompletionPort P H] [Os H] in
/-- What gave its storages back, and was never lent them again, has left them idle. -/
theorem idle_of_retrieved {e e' drained : Engine P H} {b : List StorageId}
    {retrieved : List Retrieved} (h : Retrieves e drained retrieved)
    (hbefore : (⟨e, b, none⟩ : Scene P H).Settled) (hafter : (⟨e', b, none⟩ : Scene P H).Settled)
    (hslab : e'.slab.occupants = []) (hleaked : e'.leaked = e.leaked ++ drained.slab.occupants)
    (hexists : ∀ id, e.world.memory.lend? id ≠ none → e'.world.memory.lend? id ≠ none) :
    ∀ r ∈ retrieved, ∀ id ∈ r.context.pinned.leases, e'.world.memory.lend? id = some .idle := by
  intro r hr id hid
  obtain ⟨own, hperm⟩ := h.contexts
  have hmine : r.context ∈ e.slab.occupants := hperm.symm.subset
    (List.mem_append_left _ (List.mem_append_left _ (List.mem_map_of_mem hr)))
  have hlent : e.world.memory.lend? id = some .lent :=
    hbefore.exclusive.others r.context (List.mem_append_left _ hmine) id hid
  obtain ⟨hone, hunborrowed⟩ := hbefore.balanced id
  obtain ⟨hholders, hborrowed⟩ := hafter.balanced id
  -- Of the one lease that there was, the retrieved operation had it.
  have hcount : leasesOn (e.slab.occupants ++ e.leaked) id = 1 := hone.trans (if_pos hlent)
  have hsplit : (e.slab.occupants ++ e.leaked).Perm
      (retrieved.map Retrieved.context ++ (own ++ (e.leaked ++ drained.slab.occupants))) := by
    refine (hperm.append_right _).trans ?_
    rw [List.append_assoc, List.append_assoc]
    exact (List.perm_append_comm.append_left own).append_left _
  rw [leasesOn_of_perm hsplit] at hcount
  have hpos : 0 < leasesOn (retrieved.map Retrieved.context) id :=
    List.count_pos_iff.mpr (List.mem_flatMap.mpr ⟨_, List.mem_map_of_mem hr, hid⟩)
  have hnone : leasesOn (e.leaked ++ drained.slab.occupants) id = 0 := by
    simp only [leasesOn, List.flatMap_append, List.count_append] at hcount hpos ⊢
    omega
  have hnotLent : e'.world.memory.lend? id ≠ some .lent := by
    intro hl
    have hheld : leasesOn (e'.slab.occupants ++ e'.leaked) id = 1 := hholders.trans (if_pos hl)
    rw [hslab, hleaked, List.nil_append, hnone] at hheld
    cases hheld
  have hnotBorrowed : e'.world.memory.lend? id ≠ some .borrowed := by
    intro hl
    have hb : b.count id = 1 := hborrowed.trans (if_pos hl)
    have hzero : b.count id = 0 := by
      refine hunborrowed.trans (if_neg ?_)
      rw [show (⟨e, b, none⟩ : Scene P H).lend? id = some .lent from hlent]
      simp
    rw [hzero] at hb
    cases hb
  have hthere := hexists id (by rw [hlent]; simp)
  cases hl : e'.world.memory.lend? id with
  | none => exact absurd hl hthere
  | some l =>
    cases l with
    | idle => rfl
    | lent => exact absurd hl hnotLent
    | borrowed => exact absurd hl hnotBorrowed

omit [CompletionPort P H] [Os H] in
/-- As many operations of users are in flight as were submitted and not dispatched. -/
theorem submitted_eq_of_standing {e : Engine P H} {b : List StorageId}
    (h : (⟨e, b, none⟩ : Scene P H).Standing) (hkept : e.leaked = []) :
    e.stats.submitted = e.stats.dispatched + e.outstanding := by
  have hcounted : e.stats.submitted + e.wakeToken.toList.length =
      e.stats.dispatched + 0 + e.slab.live := h.counted hkept
  unfold outstanding
  cases hw : e.wakeToken with
  | none =>
    rw [hw] at hcounted
    exact hcounted
  | some t =>
    obtain ⟨context, hget⟩ := h.upright.wake t hw
    have hpos : 0 < e.slab.live := h.upright.sound.live_pos hget
    rw [hw] at hcounted
    simp only [Option.toList_some, List.length_singleton, Option.isSome_some, if_true] at hcounted ⊢
    omega

/-- A shutdown that returns has dispatched what its drain retrieved, and has left all else in
flight until it is given up. -/
theorem exists_drains {e e' : Engine P H} {rounds n : Nat} (hlive : e.closed = false)
    (hupright : e.Upright) (h : e.shutdown rounds = (e', .ok n)) :
    ∃ waits retrieved drained served,
      Drains e.closeToPosts.drainStart.2 e.closeToPosts.drainStart.1 waits retrieved drained ∧
      Retrieves e.closeToPosts drained retrieved ∧ drained.RunsOut served ∧
      e' = served.abandon.1 ∧ n = drained.outstanding := by
  obtain ⟨drained, served, hport, hout, rfl, rfl⟩ := shutdown_eq_ok hlive h
  have hclosing : e.closeToPosts.Upright := ⟨hupright.sound, hupright.wake⟩
  have hbegun : Retrieves e.closeToPosts e.closeToPosts.drainStart.1 [] := by
    obtain ⟨host, j, hstart⟩ := e.closeToPosts.drainStart_eq_beside
    rw [hstart]
    exact hclosing.retrieves_nil rfl rfl rfl rfl rfl rfl rfl
  obtain ⟨waits, retrieved, hdrains⟩ := drains_of_drainPort (hbegun.closed.trans rfl) hport
  have hall := hbegun.trans (hbegun.upright.retrieves_drains hdrains (hbegun.closed.trans rfl))
  exact ⟨waits, retrieved, drained, served, hdrains, hall, hout, rfl, hout.abandon_eq.1⟩

/-- A shutdown that returns adds no slot. -/
theorem length_slots_shutdown {e e' : Engine P H} {rounds n : Nat} (hlive : e.closed = false)
    (hupright : e.Upright) (h : e.shutdown rounds = (e', .ok n)) :
    e'.slab.slots.length = e.slab.slots.length := by
  obtain ⟨waits, retrieved, drained, served, _, hall, hout, rfl, _⟩ :=
    exists_drains hlive hupright h
  obtain ⟨_, _, world, injected, he⟩ := hout.abandon_eq
  have hlength : drained.slab.slots.length = e.slab.slots.length := hall.length
  rw [he, ← hlength]
  exact List.length_map _

/-- A shutdown of an engine in good standing that returns accounts for everything in flight. -/
theorem shutsDown_of_shutdown {e e' : Engine (Recorder P) H} {rounds n : Nat}
    {b : List StorageId} (hlive : e.closed = false) (hkept : e.leaked = [])
    (hstanding : (⟨e, b, none⟩ : Scene (Recorder P) H).Standing)
    (hsettled : (⟨e', b, none⟩ : Scene (Recorder P) H).Settled)
    (hexists : ∀ id, e.world.memory.lend? id ≠ none → e'.world.memory.lend? id ≠ none)
    (h : e.shutdown rounds = (e', .ok n)) :
    ∃ waits retrieved, ShutsDown e e' n waits retrieved := by
  obtain ⟨waits, retrieved, drained, served, hdrains, hall, hout, rfl, rfl⟩ :=
    exists_drains hlive hstanding.upright h
  obtain ⟨_, hcalls, world, injected, he⟩ := hout.abandon_eq
  have houtstanding : e.outstanding = drained.outstanding + retrieved.length := hall.outstanding
  have hstats : served.abandon.1.stats.submitted = e.stats.submitted ∧
      served.abandon.1.stats.dispatched = e.stats.dispatched + retrieved.length := by
    rw [he]
    have hsubmitted := congrArg Stats.submitted hall.stats
    have hdispatched := congrArg Stats.dispatched hall.stats
    exact ⟨hsubmitted, hdispatched⟩
  have hgone : served.abandon.1.leaked = e.leaked ++ drained.slab.occupants := by
    rw [he]
    exact congrArg (· ++ drained.slab.occupants) hall.leaked
  refine ⟨waits, retrieved, ?_⟩
  constructor
  case drains => exact ⟨drained, served, hdrains, hout, rfl⟩
  case late => exact fun hzero hclock => waits_of_late hdrains (late_of_isZero hclock hzero)
  case calls =>
    have hwaits := calls_drains hdrains
    obtain ⟨host, j, hstart⟩ := e.closeToPosts.drainStart_eq_beside
    rw [hstart] at hwaits
    rw [he]
    exact congrArg (· ++ [.shutdown]) hwaits
  case mine => exact hall.mine
  case once => exact hall.nodup
  case left => exact hall.outstanding_eq ⟨hstanding.upright.sound, hstanding.upright.wake⟩
  case outstanding => exact houtstanding
  case balance =>
    have hbalance := submitted_eq_of_standing hstanding hkept
    rw [hstats.1, hstats.2]
    omega
  case stats => exact hstats
  case runs =>
    have hshut : drained.world.injector.closed = true := hall.shut
    rw [hcalls, hout.runs hshut, hall.runs, hall.queue rfl]
    rfl
  case released =>
    have hbefore : (⟨e.closeToPosts, b, none⟩ : Scene (Recorder P) H).Settled :=
      ⟨hstanding.settled.balanced, hstanding.settled.running⟩
    refine idle_of_retrieved hall hbefore hsettled ?_ hgone hexists
    rw [he]
    exact Slab.occupants_abandon _
  case leaked =>
    intro t context hget hnot
    have hstill : drained.user? t = some context := by
      rw [hall.user?, if_neg hnot]
      exact hget
    rw [hgone]
    exact List.mem_append_right _ (mem_occupants hstill)
  case again =>
    apply closes_once
    rw [he]
    exact hall.closed

/-- A shutdown whose drain begins in time, and that does not return, waits for a port that hangs or
panics, or goes on waiting. -/
theorem shutdown_halted {e e' : Engine (Recorder P) H} {rounds : Nat} {halt : Halt}
    (hlive : e.closed = false) (hfits : e.closeToPosts.drainStart.2 < endOfTime)
    (h : e.shutdown rounds = (e', .error halt)) :
    ∃ waits : List Waited, e'.port.calls = e.port.calls ++ waits.map .wait ∧
      HaltsAfter waits rounds halt := by
  obtain ⟨host, j, hstart⟩ := e.closeToPosts.drainStart_eq_beside
  simp only [shutdown, hlive, Bool.false_eq_true, if_false, drain_eq, if_pos hfits] at h
  cases hd : e.closeToPosts.drainStart.1.drainPort e.closeToPosts.drainStart.2 rounds with
  | mk drained ended =>
    rw [hd] at h
    cases ended with
    | ok u => cases h
    | error halt' =>
      obtain ⟨rfl, hhalt⟩ := Prod.mk.inj h
      obtain rfl := Except.error.inj hhalt
      have hclosed : e.closeToPosts.drainStart.1.closed = true := by rw [hstart]; rfl
      obtain ⟨waits, hcalls, hend⟩ := drainPort_halted hclosed hd
      rw [hstart] at hcalls
      exact ⟨waits, hcalls, hend⟩

/-- What a shutdown leaves when it panics before its drain. -/
structure BreaksOff (e e' : Engine P H) : Prop where
  /-- The port is neither waited for nor shut down. -/
  port : e'.port = e.port
  /-- All that is in flight stays there, and none of it is counted as given up. -/
  slab : e'.slab = e.slab
  leaked : e'.leaked = e.leaked
  stats : e'.stats = e.stats
  memory : e'.world.memory = e.world.memory
  /-- No callback is run. Those posted stay in the queue. -/
  calls : e'.world.calls = e.world.calls
  queue : e'.world.injector.queue = e.world.injector.queue
  /-- Nothing can be posted any more. -/
  shut : e'.world.injector.closed = true
  /-- The engine counts as closed, so whatever closes it again does not shut the port down. -/
  again : e'.drop.port = e'.port ∧ ∀ rounds, e'.shutdown rounds = (e', .ok 0)

/-- A shutdown panics, and drains nothing, if no clock can tell when its drain is over. -/
theorem shutdown_breaksOff {e : Engine P H} (hlive : e.closed = false)
    (hlate : endOfTime ≤ e.closeToPosts.drainStart.2) (rounds : Nat) :
    (e.shutdown rounds).2 = .error .panicked ∧ BreaksOff e (e.shutdown rounds).1 := by
  have hshutdown : e.shutdown rounds = (e.closeToPosts.drainStart.1, .error .panicked) := by
    simp only [shutdown, hlive, Bool.false_eq_true, if_false, drain_eq,
      if_neg (Nat.not_lt_of_le hlate)]
  obtain ⟨host, j, hstart⟩ := e.closeToPosts.drainStart_eq_beside
  rw [hshutdown, hstart]
  obtain ⟨hdrop, hagain⟩ :=
    closes_once (e := e.closeToPosts.beside e.port host j e.associated) rfl
  exact ⟨rfl, rfl, rfl, rfl, rfl, rfl, rfl, rfl, rfl, congrArg Engine.port hdrop, hagain⟩

/-! ### A drop -/

/-- What a drop does. -/
structure Drops (e e' : Engine (Recorder P) H) : Prop where
  /-- The port is shut down, and asked for nothing else. -/
  calls : e'.port.calls = e.port.calls ++ [.shutdown]
  /-- No callback is run, and none acts. -/
  runs : e'.world.calls = e.world.calls
  stats : e'.stats = e.stats
  leaked : ∀ t context, e.user? t = some context → context ∈ e'.leaked
  again : e'.drop = e' ∧ ∀ rounds, e'.shutdown rounds = (e', .ok 0)

/-- A drop of a live engine gives up everything in flight. -/
theorem drops_of_drop {e : Engine (Recorder P) H} (hlive : e.closed = false) :
    Drops e e.drop := by
  have hnot : ¬ e.closed = true := by simp [hlive]
  have hdrop : e.drop = e.closeToPosts.abandon.1 := if_neg hnot
  obtain ⟨journal, he⟩ := e.closeToPosts.abandon_eq
  rw [hdrop, he]
  refine ⟨rfl, rfl, rfl, fun t context hget => ?_, closes_once rfl⟩
  exact List.mem_append_right _ (mem_occupants (e := e) hget)

end Engine

/-! ### After it was closed -/

/-- The engine is not used any more. -/
structure Engine.AtRest (e e' : Engine P H) : Prop where
  port : e'.port = e.port
  slab : e'.slab = e.slab
  leaked : e'.leaked = e.leaked
  stats : e'.stats = e.stats

namespace Client

variable [CompletionPort P H] [Os H]

/-- A program whose engine is gone does not use it any more. -/
theorem atRest_step (c : Client P H) (hgone : c.gone = true) (s : Step H) :
    c.engine.AtRest (c.step s).1.engine ∧ (c.step s).1.gone = true := by
  have hdead : c.gone ≠ false := by simp [hgone]
  have hdoes := c.does_step s
  generalize (c.step s).1 = c', c.posts s = ps, c.moments s = τ at hdoes ⊢
  cases hdoes with
  | place hlive _ => exact absurd hlive hdead
  | pump hlive => exact absurd hlive hdead
  | associate hlive _ => exact absurd hlive hdead
  | dissociate hlive _ => exact absurd hlive hdead
  | close hcloses => simp [closes, hgone] at hcloses
  | post _ => exact ⟨⟨rfl, rfl, rfl, rfl⟩, hgone⟩
  | aside _ _ _ _ => exact ⟨⟨rfl, rfl, rfl, rfl⟩, hgone⟩

/-- Nothing that a program does after its engine is gone uses the engine or runs a callback. -/
theorem atRest_after (c : Client P H) (hgone : c.gone = true)
    (hshut : c.engine.world.injector.closed = true) (steps : List (Step H)) :
    c.engine.AtRest (c.after steps).engine ∧
      (c.after steps).engine.world.calls.filterMap Call.ran? =
        c.engine.world.calls.filterMap Call.ran? := by
  induction steps generalizing c with
  | nil => exact ⟨⟨rfl, rfl, rfl, rfl⟩, rfl⟩
  | cons s steps ih =>
    obtain ⟨hrest, hstill⟩ := c.atRest_step hgone s
    have hcloses : c.closes s = false := by simp [closes, hgone]
    obtain ⟨hserves, _⟩ := c.serves_step s hcloses
    obtain ⟨hlater, hruns⟩ := ih (c.step s).1 hstill (hserves.shut.trans hshut)
    refine ⟨⟨hlater.port.trans hrest.port, hlater.slab.trans hrest.slab,
      hlater.leaked.trans hrest.leaked, hlater.stats.trans hrest.stats⟩, ?_⟩
    have hnone := (c.silent_of_gone hgone s).runsDuring
    exact hruns.trans (hserves.runs.trans (by rw [hnone, List.append_nil]))

/-- How a program with a live engine can close it. -/
structure ClosesOnce (c : Client (Recorder P) H) : Prop where
  /-- The port was not shut down so far. -/
  before : .shutdown ∉ c.engine.port.calls
  returns : ∀ rounds n, (c.step (.shutdown rounds)).2 = .shut (.ok n) →
    ∃ waits retrieved,
      c.engine.ShutsDown (c.step (.shutdown rounds)).1.engine n waits retrieved
  /-- If a clock can tell when the drain is over, a shutdown that does not return waits for a port
  that hangs or panics, or it has waited as many times as there were rounds, and it has not shut
  the port down. -/
  halts : c.engine.closeToPosts.drainStart.2 < endOfTime → ∀ rounds halt,
    (c.step (.shutdown rounds)).2 = .shut (.error halt) → ∃ waits : List Waited,
      (c.step (.shutdown rounds)).1.engine.port.calls = c.engine.port.calls ++ waits.map .wait ∧
        Engine.HaltsAfter waits rounds halt
  /-- If no clock can tell it, any shutdown panics, and the port is never shut down. -/
  breaksOff : endOfTime ≤ c.engine.closeToPosts.drainStart.2 → ∀ rounds,
    (c.step (.shutdown rounds)).2 = .shut (.error .panicked) ∧
      c.engine.BreaksOff (c.step (.shutdown rounds)).1.engine
  drops : c.engine.Drops (c.step .drop).1.engine
  /-- Whatever the program does with its buffers then, the port is asked for nothing more, no
  callback is run, and what was given up holds its storages. -/
  after : ∀ s, c.ends s = true → ∀ steps,
    let e := (c.step s).1.engine
    let e' := ((c.step s).1.after steps).engine
    e.AtRest e' ∧ e'.world.calls.filterMap Call.ran? = e.world.calls.filterMap Call.ran? ∧
      ∀ context ∈ e.leaked, ∀ id ∈ context.pinned.leases, e'.world.memory.lend? id = some .lent

/-- A call that closes the engine leaves it gone. -/
theorem gone_of_closes (c : Client P H) {s : Step H} (h : c.closes s = true) :
    c.gone = false ∧ (c.step s).1.gone = true := by
  unfold closes at h
  obtain ⟨hlive, hs⟩ := Bool.and_eq_true_iff.mp h
  have hlive : c.gone = false := (Bool.not_eq_true' _).mp hlive
  refine ⟨hlive, ?_⟩
  cases s with
  | shutdown rounds => simp [step, hlive]
  | drop => simp [step, hlive]
  | _ => cases hs

/-- No call has closed an engine that lives. -/
theorem closes_of_live {c : Client P H} {s : Step H} {steps : List (Step H)}
    (hlive : ((c.step s).1.after steps).gone = false) : c.closes s = false := by
  by_contra hc
  obtain ⟨_, hgone⟩ := c.gone_of_closes (Bool.not_eq_false _ ▸ hc)
  have hstill := (c.step s).1.gone_after steps hgone
  exact Bool.noConfusion (hstill.symm.trans hlive)

/-- As long as its engine lives, a program does not shut the port down. -/
theorem not_shutdown_after (c : Client (Recorder P) H) (hbefore : .shutdown ∉ c.engine.port.calls)
    (steps : List (Step H)) (hlive : (c.after steps).gone = false) :
    .shutdown ∉ (c.after steps).engine.port.calls := by
  induction steps generalizing c with
  | nil => exact hbefore
  | cons s steps ih =>
    exact ih (c.step s).1 ((c.asks_step s (closes_of_live hlive)).not_mem hbefore) hlive

/-- A call that ends an engine closes it. -/
theorem closes_of_ends {c : Client P H} {s : Step H} (h : c.ends s = true) : c.closes s = true := by
  unfold ends at h
  unfold closes
  obtain ⟨hlive, hs⟩ := Bool.and_eq_true_iff.mp h
  cases s with
  | shutdown rounds => rw [hlive]; rfl
  | drop => exact h
  | _ => exact h

section live

variable {c : Client P H} (hlive : c.gone = false)
include hlive

theorem step_shutdown (rounds : Nat) : c.step (.shutdown rounds) =
    ({ c with engine := (c.engine.shutdown rounds).1, gone := true },
      .shut (c.engine.shutdown rounds).2) := by
  simp only [step, hlive, Bool.false_eq_true, if_false]

theorem step_drop :
    c.step .drop = ({ c with engine := c.engine.drop, gone := true }, .nothing) := by
  simp only [step, hlive, Bool.false_eq_true, if_false]

/-- Closing a live engine neither adds a slot nor gives one up. -/
theorem length_slots_of_ends (hclosed : c.engine.closed = false) (hupright : c.engine.Upright)
    {s : Step H} (hends : c.ends s = true) :
    (c.step s).1.engine.slab.slots.length = c.engine.slab.slots.length := by
  unfold ends at hends
  obtain ⟨_, hs⟩ := Bool.and_eq_true_iff.mp hends
  cases s with
  | shutdown rounds =>
    cases hn : (c.engine.shutdown rounds).2 with
    | error halt =>
      simp only [hn] at hs
      cases hs
    | ok n =>
      rw [step_shutdown hlive]
      exact Engine.length_slots_shutdown hclosed hupright (Prod.ext rfl hn)
  | drop =>
    obtain ⟨journal, he⟩ := c.engine.closeToPosts.abandon_eq
    have hnot : ¬ c.engine.closed = true := by simp [hclosed]
    have hgiven : c.engine.drop = c.engine.closeToPosts.abandon.1 := if_neg hnot
    rw [step_drop hlive, hgiven, he]
    exact List.length_map _
  | _ => cases hs

end live

/-- A program in good standing can close its engine once. -/
theorem closesOnce_of_standing {c : Client (Recorder P) H} {ps : List Posting}
    {τ : List (Moment (Recorder P) H)} {finished : Bool} (ho : c.Orderly ps τ finished)
    (hlive : c.gone = false) (hstanding : c.scene.Standing)
    (hroom : c.engine.slab.slots.length ≤ 2 ^ 32) (hbefore : .shutdown ∉ c.engine.port.calls) :
    c.ClosesOnce := by
  have hclosed : c.engine.closed = false := ho.closed.trans hlive
  have hshutdown := step_shutdown hlive
  have hlength : ∀ s, c.ends s = true →
      (c.step s).1.engine.slab.slots.length ≤ 2 ^ 32 := fun s hends =>
    (length_slots_of_ends hlive hclosed hstanding.upright hends).symm ▸ hroom
  constructor
  case before => exact hbefore
  case returns =>
    intro rounds n hanswer
    have hpath := c.path_moments (.shutdown rounds)
    have hends : c.ends (.shutdown rounds) = true := by
      rw [hshutdown] at hanswer
      simp [ends, hlive, Answer.shut.inj hanswer, Except.toBool]
    have hafter := hpath.standing hstanding (hlength _ hends)
    have hexists := hpath.exists_storage hstanding.upright.sound (hlength _ hends)
    rw [hshutdown] at hanswer hafter hexists ⊢
    exact Engine.shutsDown_of_shutdown hclosed (ho.kept hlive) hstanding hafter.settled hexists
      (Prod.ext rfl (Answer.shut.inj hanswer))
  case halts =>
    intro hfits rounds halt hanswer
    rw [hshutdown] at hanswer ⊢
    exact Engine.shutdown_halted hclosed hfits (Prod.ext rfl (Answer.shut.inj hanswer))
  case breaksOff =>
    intro hlate rounds
    rw [hshutdown]
    obtain ⟨hpanicked, hleft⟩ := Engine.shutdown_breaksOff hclosed hlate rounds
    exact ⟨congrArg Answer.shut hpanicked, hleft⟩
  case drops =>
    rw [step_drop hlive]
    exact Engine.drops_of_drop hclosed
  case after =>
    intro s hends steps
    obtain ⟨_, hgone⟩ := c.gone_of_closes (closes_of_ends hends)
    have hshut : (c.step s).1.engine.world.injector.closed = true :=
      (ho.step s).shut.trans hgone
    obtain ⟨hrest, hruns⟩ := (c.step s).1.atRest_after hgone hshut steps
    have hpath := (c.path_moments s).trans ((c.step s).1.path_history steps)
    have hsettled := (hpath.standing hstanding
      (by exact hrest.slab ▸ hlength s hends)).settled.exclusive
    refine ⟨hrest, hruns, fun context hmem id hid => ?_⟩
    refine hsettled.others context (List.mem_append_right _ ?_) id hid
    exact hrest.leaked ▸ hmem

end Client

/-- After a shutdown that broke off the port is never shut down. -/
theorem not_shutdown_of_late {P H : Type} [CompletionPort P H] [Os H] {config : Config} {port : P}
    {host : H} {e : Engine (Recorder P) H}
    (h : Engine.build config (⟨port, []⟩ : Recorder P) host = .ready e) (steps : List (Step H))
    (hlive : ((Client.own e).after steps).gone = false)
    (hlate : endOfTime ≤ ((Client.own e).after steps).engine.closeToPosts.drainStart.2)
    (rounds : Nat) :
    (((Client.own e).after steps).step (.shutdown rounds)).2 = .shut (.error .panicked) ∧
      let e' := (((Client.own e).after steps).step (.shutdown rounds)).1.engine
      .shutdown ∉ e'.port.calls ∧ .shutdown ∉ e'.drop.port.calls ∧
        ∀ rounds', .shutdown ∉ (e'.shutdown rounds').1.port.calls := by
  have hclosed := ((Engine.orderly_of_build h).after steps).closed.trans hlive
  have hbefore := (Client.own e).not_shutdown_after (Engine.not_shutdown_of_build h) steps hlive
  rw [Client.step_shutdown hlive]
  obtain ⟨hpanicked, hleft⟩ := Engine.shutdown_breaksOff hclosed hlate rounds
  obtain ⟨hdrop, hagain⟩ := hleft.again
  rw [← hleft.port] at hbefore
  refine ⟨congrArg Answer.shut hpanicked, hbefore, hdrop ▸ hbefore, fun rounds' => ?_⟩
  rw [hagain]
  exact hbefore

/-- Whatever a program has done with an engine on any port, whatever it dispatched or has in
flight, it can close the engine once, and that accounts for every operation unless the shutdown
breaks off, which it does exactly when no clock can tell the end of its drain. A token has `2 ^ 32`
indices; with more slots than that, which takes as many submissions, two operations would share
one. -/
theorem closing_accounts_for_all_or_breaks_off {P H : Type} [CompletionPort P H] [Os H]
    {config : Config} {port : P} {host : H} {e : Engine (Recorder P) H}
    (h : Engine.build config (⟨port, []⟩ : Recorder P) host = .ready e) (steps : List (Step H))
    (hlive : ((Client.own e).after steps).gone = false)
    (hroom : ((Client.own e).after steps).engine.slab.slots.length ≤ 2 ^ 32) :
    ((Client.own e).after steps).ClosesOnce := by
  have horderly := (Engine.orderly_of_build h).after steps
  have hpath := (Client.own e).path_history steps
  have hstanding := hpath.standing (Engine.isNew_of_build h).standing hroom
  have hbefore := (Client.own e).not_shutdown_after (Engine.not_shutdown_of_build h) steps hlive
  exact Client.closesOnce_of_standing horderly hlive hstanding hroom hbefore

/-- A write is submitted and posted about, and another one is submitted. -/
def writeTwice : List (Step Host) :=
  [.buffer "b" [1, 2, 3, 4], .place (.write 3 "b" none) ⟨"wrote", [.post "late" []]⟩,
    .buffer "c" [5, 6], .place (.write 4 "c" none) ⟨"never", []⟩, .post ⟨"posted", []⟩]

/-- A port that first hands back an unknown token, then the engine's own read, and then the first
operation of a user. -/
def Scripted.drained : Scripted :=
  { waits := [.completion (.token ⟨77⟩) 0 0 {}, .completion .wake 8 0 {},
      .completion (.user 0) 4 0 {}] }

theorem closing_accounts_for_all_or_breaks_off_of_drained : ∃ e : Engine (Recorder Scripted) Host,
    Engine.build {} (⟨Scripted.drained, []⟩ : Recorder Scripted) Host.start = .ready e ∧
    ((Client.own e).after writeTwice).gone = false ∧
    ((Client.own e).after writeTwice).engine.slab.slots.length ≤ 2 ^ 32 ∧
    ((Client.own e).after writeTwice).ClosesOnce ∧
    (((Client.own e).after writeTwice).engine.shutdown 9).2 = .ok 1 ∧
    (((Client.own e).after writeTwice).engine.shutdown 9).1.world.calls.filterMap Call.ran? =
      [("wrote", ⟨0, 4⟩), ("posted", .done)] := by
  have hroom := @Client.room_of_history (Recorder Scripted) Host _ _ {} ⟨Scripted.drained, []⟩
    Host.start _ rfl writeTwice (by decide +kernel)
  refine ⟨_, rfl, by decide +kernel, hroom, ?_, by decide +kernel, by decide +kernel⟩
  exact @closing_accounts_for_all_or_breaks_off Scripted Host _ _ {} Scripted.drained Host.start _
    rfl writeTwice (by decide +kernel) hroom

/-- With the longest time for a drain that there is, a shutdown returns no count, and neither it nor
what is called after it shuts the port down. -/
theorem breaks_off_of_longest_drain : ∃ e : Engine (Recorder Scripted) Host,
    Engine.build { drainTimeout := ⟨2 ^ 64 * 1000000000 - 1⟩ }
      (⟨Scripted.drained, []⟩ : Recorder Scripted) Host.start = .ready e ∧
    ∀ rounds, (((Client.own e).after writeTwice).step (.shutdown rounds)).2 =
        .shut (.error .panicked) ∧
      let e' := (((Client.own e).after writeTwice).step (.shutdown rounds)).1.engine
      .shutdown ∉ e'.port.calls ∧ .shutdown ∉ e'.drop.port.calls ∧
        ∀ rounds', .shutdown ∉ (e'.shutdown rounds').1.port.calls := by
  refine ⟨_, rfl, ?_⟩
  exact @not_shutdown_of_late Scripted Host _ _ { drainTimeout := ⟨2 ^ 64 * 1000000000 - 1⟩ }
    Scripted.drained Host.start _ rfl writeTwice (by decide +kernel) (by decide +kernel)

end Proactor
