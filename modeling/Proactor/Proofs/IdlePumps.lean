import Proactor.Proofs.OneByOne
import Proactor.Proofs.OwnSlot
import Proactor.Proofs.Stability

/-!
# Pumps that dispatch nothing

A pump that ends at its time limit, for a fault of its port or for a completion that names nothing
in flight has changed nothing for users. The engine's own read may have been retrieved on the way,
any number of times, and be another one in the same slot, or none.
-/

namespace Proactor

variable {P H : Type}

namespace Engine

variable {e e' e'' : Engine P H} {b : List StorageId}

/-! ### What stays for users -/

/-- Whatever belongs to users is the same in both engines: their operations in flight under their
tokens, their buffers, and the callbacks that were posted and run. -/
structure Unseen (e e' : Engine P H) : Prop where
  user? : ∀ t, e'.user? t = e.user? t
  outstanding : e'.outstanding = e.outstanding
  injector : e'.world.injector = e.world.injector
  calls : e'.world.calls = e.world.calls
  /-- The only count that may be another is that of the time limits. -/
  stats : e'.stats = { e.stats with timeouts := e'.stats.timeouts }
  handles : e'.world.memory.handles = e.world.memory.handles
  /-- Every storage has the holder it had, but the one that the event counter is read into. -/
  lend? : ∀ id, id ≠ e.wakeBuffer → e'.world.memory.lend? id = e.world.memory.lend? id
  bytes : ∀ id, id ≠ e.wakeBuffer → e'.world.memory.bytes id = e.world.memory.bytes id
  wakeBuffer : e'.wakeBuffer = e.wakeBuffer
  extensions : e'.extensions = e.extensions
  config : e'.config = e.config
  closed : e'.closed = e.closed
  leaked : e'.leaked = e.leaked

theorem Unseen.trans (h : Unseen e e') (h' : Unseen e' e'') : Unseen e e'' where
  user? t := (h'.user? t).trans (h.user? t)
  outstanding := h'.outstanding.trans h.outstanding
  injector := h'.injector.trans h.injector
  calls := h'.calls.trans h.calls
  stats := by rw [h'.stats, h.stats]
  handles := h'.handles.trans h.handles
  lend? id hid := (h'.lend? id (h.wakeBuffer.symm ▸ hid)).trans (h.lend? id hid)
  bytes id hid := (h'.bytes id (h.wakeBuffer.symm ▸ hid)).trans (h.bytes id hid)
  wakeBuffer := h'.wakeBuffer.trans h.wakeBuffer
  extensions := h'.extensions.trans h.extensions
  config := h'.config.trans h.config
  closed := h'.closed.trans h.closed
  leaked := h'.leaked.trans h.leaked

/-- Users see no change, and of the rest no more than the engine's own read was touched, which is
in the slot in which it was if it is in flight. -/
structure Spares (e e' : Engine P H) : Prop extends Unseen e e' where
  wakeToken : ∀ t', e'.wakeToken = some t' → ∃ t, e.wakeToken = some t ∧ t'.index = t.index
  /-- The engine's own read was touched if there was one. -/
  touches : ∀ t, e.wakeToken = some t → TouchesOnly t.index e.world.injector.wake e e'
  untouched : e.wakeToken = none → e'.slab = e.slab ∧ e'.associated = e.associated

/-- Only the port, the host, the journal and the count of time limits are not as they were. -/
def Untouched (e e' : Engine P H) : Prop :=
  ∃ p host j timeouts, e' = { e.beside p host j e.associated with
    stats := { e.stats with timeouts } }

theorem Untouched.trans (h : Untouched e e') (h' : Untouched e' e'') : Untouched e e'' := by
  obtain ⟨p, host, j, timeouts, rfl⟩ := h
  obtain ⟨p', host', j', timeouts', rfl⟩ := h'
  exact ⟨p', host', j', timeouts', rfl⟩

theorem Untouched.unseen (h : Untouched e e') : Unseen e e' := by
  obtain ⟨p, host, j, timeouts, rfl⟩ := h
  constructor <;> intros <;> rfl

theorem Untouched.spares (h : Untouched e e') : Spares e e' := by
  have hunseen := h.unseen
  obtain ⟨p, host, j, timeouts, rfl⟩ := h
  refine ⟨hunseen, fun t ht => ⟨t, ht, rfl⟩, fun t ht => ?_, fun _ => ⟨rfl, rfl⟩⟩
  exact (TouchesOnly.refl _ _ e).of_eq rfl rfl

theorem Spares.trans (h : Spares e e') (h' : Spares e' e'') : Spares e e'' where
  toUnseen := h.toUnseen.trans h'.toUnseen
  wakeToken t'' ht'' := by
    obtain ⟨t', ht', hindex'⟩ := h'.wakeToken t'' ht''
    obtain ⟨t, ht, hindex⟩ := h.wakeToken t' ht'
    exact ⟨t, ht, hindex'.trans hindex⟩
  touches t ht := by
    have hfirst := h.touches t ht
    cases hlater : e'.wakeToken with
    | none =>
      obtain ⟨hslab, hassociated⟩ := h'.untouched hlater
      exact hfirst.of_eq hslab hassociated
    | some t' =>
      obtain ⟨t₀, ht₀, hindex⟩ := h.wakeToken t' hlater
      obtain rfl := Option.some.inj (ht₀.symm.trans ht)
      have hsecond := h'.touches t' hlater
      rw [hindex, h.injector] at hsecond
      exact hfirst.trans hsecond
  untouched ht := by
    have hlater : e'.wakeToken = none := by
      rw [Option.eq_none_iff_forall_ne_some]
      intro t' ht'
      obtain ⟨t, ht₀, _⟩ := h.wakeToken t' ht'
      cases ht.symm.trans ht₀
    obtain ⟨hslab, hassociated⟩ := h.untouched ht
    obtain ⟨hslab', hassociated'⟩ := h'.untouched hlater
    exact ⟨hslab'.trans hslab, hassociated'.trans hassociated⟩

/-! ### A completion of the engine's own read -/

section

variable [Os H]

/-- Users do not see that the engine's own read is over. -/
theorem Upright.unseen_wakeSettled (h : e.Upright) {c : Completion} {context : Context}
    {slab : Slab Context} {n : Nat} (moved : Transfer)
    (htake : e.slab.take c.token = some (context, slab)) (hwake : e.wakeToken = some c.token)
    (hpinned : context.pinned = .reading ⟨e.wakeBuffer, 0, n⟩) :
    Unseen e (e.wakeSettled slab context c moved) := by
  have hretrieves := h.retrieves_wakeSettled moved htake hwake
  have hleases : context.pinned.leases = [e.wakeBuffer] := by rw [hpinned]; rfl
  constructor
  case user? => exact fun t => (hretrieves.user? t).trans (if_neg List.not_mem_nil)
  case outstanding => exact hretrieves.outstanding.symm
  case injector => exact World.injector_settle e.world context.pinned c.result moved
  case calls => exact World.calls_settle e.world context.pinned c.result moved
  case handles =>
    have hsettle : (e.wakeSettled slab context c moved).world.memory =
        (e.world.memory.writeArea ⟨e.wakeBuffer, 0, n⟩ moved.data).release e.wakeBuffer := by
      rw [wakeSettled, hpinned]
      rfl
    rw [hsettle, Memory.handles_release]
    rfl
  case lend? =>
    intro id hid
    refine (World.lend?_settle e.world context.pinned c.result moved id).trans (if_neg ?_)
    rwa [hleases, List.mem_singleton]
  case bytes =>
    intro id hid
    apply World.bytes_settle
    rwa [hleases, List.mem_singleton]
  all_goals rfl

end

/-- Users do not see a slab with the same occupants. -/
theorem unseen_of_keeps (hnone : e.wakeToken = none) {slab : Slab Context}
    (h : e.slab.Keeps slab) (p : P) (host : H) (j : List Notice) (a : List Fd) :
    Unseen e ((e.withSlab slab).beside p host j a) := by
  constructor
  case user? =>
    intro t
    have hget := h.get? t
    simp only [Engine.user?, beside, withSlab, hnone, hget]
  case outstanding =>
    have hlive := h.live
    simp only [Engine.outstanding, beside, withSlab, hlive]
    rfl
  all_goals intros; rfl

/-- Users do not see the engine's own read in flight, in a slot that was vacant. -/
theorem unseen_armed (hs : e.slab.Sound) (hnone : e.wakeToken = none) (hfree : e.slab.free ≠ [])
    (hroom : e.slab.slots.length ≤ 2 ^ 32) {context : Context} {m : Memory}
    (hleases : context.pinned.leases = [e.wakeBuffer])
    (hlease : e.world.memory.leaseAll? context.pinned.leases = some m) (p : P) (host : H)
    (j : List Notice) (a : List Fd) :
    Unseen e { ((e.withSlab (e.slab.insert context).1).withMemory m).beside p host j a with
      wakeToken := some (e.slab.insert context).2 } := by
  have hpasses := passes_armed hs hnone hfree hroom context m p host j a
  obtain ⟨hbytes, hhandles⟩ := Memory.bytes_leaseAll? hlease
  constructor
  case user? => exact fun t => (hpasses.user? t).trans (if_neg List.not_mem_nil)
  case outstanding => exact hpasses.outstanding.symm
  case handles => exact hhandles
  case lend? =>
    intro id hid
    refine (Memory.lend?_leaseAll? hlease id).trans (if_neg ?_)
    rwa [hleases, List.mem_singleton]
  case bytes => exact fun id _ => hbytes id
  all_goals rfl

variable [CompletionPort P H]

/-- Users do not see what follows a completion of the engine's own read, and the next one is in
the slot that was vacated last. -/
theorem unseen_rearmWake (hs : e.slab.Sound) (hnone : e.wakeToken = none) {i : UInt32}
    {free : List UInt32} (hfree : e.slab.free = i :: free)
    (hroom : e.slab.slots.length ≤ 2 ^ 32) (result : Int64) :
    Unseen e (e.rearmWake result) ∧ (e.rearmWake result).stats = e.stats ∧
      ∀ t, (e.rearmWake result).wakeToken = some t → t.index = i := by
  have hlength := (touchesOnly_rearmWake hfree result).slab.length
  rcases rearmWake_cases result hs (hlength.symm ▸ hroom) with
    ⟨slab, p, host, j, a, hk, he⟩ | ⟨context, m, hleases, hlease, p, host, j, a, he⟩
  · rw [he]
    exact ⟨unseen_of_keeps hnone hk p host j a, rfl, fun t ht => nomatch hnone.symm.trans ht⟩
  · rw [he]
    have hnew : e.slab.free ≠ [] := hfree ▸ List.cons_ne_nil i free
    refine ⟨unseen_armed hs hnone hnew hroom hleases hlease p host j a, rfl, fun t ht => ?_⟩
    obtain rfl := Option.some.inj ht
    exact (Slab.sameBut_insert hfree context).2

variable [Os H]

/-- A completion of the engine's own read is retrieved, and users do not see it. -/
theorem Going.complete_unseen (hg : e.Going b) {deadline : Option Nat} {rounds : Nat}
    {c : Completion} {moved : Transfer}
    (hwait : e.waitPort deadline rounds = (e', .completion c moved))
    (hwake : e.wakeToken = some c.token) :
    ∃ e₂, e'.complete c moved = (e₂, .ok none) ∧ e₂.Going b ∧ Spares e e₂ ∧
      e₂.stats = e.stats ∧
      e'.completeMoments b c moved = [(.completed e' c moved none, ⟨e₂, b, none⟩)] := by
  have hpath := path_complete b hwait
  obtain ⟨p, host, j, rfl⟩ := waitPort_eq_beside hwait
  let seen := e.beside p host j e.associated
  have hseen : Untouched e seen := ⟨p, host, j, e.stats.timeouts, rfl⟩
  have hupright : seen.Upright := ⟨hg.standing.upright.sound, hg.standing.upright.wake⟩
  obtain ⟨τ, hl⟩ := hg.listening
  obtain ⟨t, context, k, ht, hget, _, _, hpinned⟩ := hl.read (hwake ▸ Option.some_ne_none _)
  obtain rfl := Option.some.inj (ht.symm.trans hwake)
  obtain ⟨slab, htake⟩ : ∃ slab, seen.slab.take c.token = some (context, slab) :=
    Slab.exists_take hget
  let ended := seen.wakeSettled slab context c moved
  let result := (seen.world.settle context.pinned c.result moved).2
  obtain ⟨htaken, hfree⟩ := Slab.sameBut_take htake
  have hover : Unseen seen ended := hupright.unseen_wakeSettled moved htake hwake hpinned
  have hroom : ended.slab.slots.length ≤ 2 ^ 32 := htaken.length.symm ▸ hg.room
  obtain ⟨hunseen, hstats, hindex⟩ :=
    unseen_rearmWake (e := ended) (hupright.sound.take htake) rfl hfree hroom result
  have htouches : TouchesOnly c.token.index ended.world.injector.wake ended
      (ended.rearmWake result) := touchesOnly_rearmWake hfree result
  rw [hover.injector] at htouches
  have hall : Spares seen (ended.rearmWake result) := by
    refine ⟨hover.trans hunseen, fun t ht => ⟨c.token, hwake, hindex t ht⟩, fun t ht => ?_,
      fun hnone => nomatch hwake.symm.trans hnone⟩
    obtain rfl := Option.some.inj (hwake.symm.trans ht)
    have hvacates : TouchesOnly c.token.index seen.world.injector.wake seen ended :=
      ⟨htaken, fun _ _ => .rfl⟩
    exact hvacates.trans htouches
  have hspares : Spares e (ended.rearmWake result) := hseen.spares.trans hall
  have hcomplete : seen.complete c moved = (ended.rearmWake result, .ok none) :=
    complete_of_own moved htake hwake
  refine ⟨ended.rearmWake result, hcomplete, ?_, hspares, hstats, ?_⟩
  · rw [hcomplete] at hpath
    exact hg.of_path hpath (hspares.closed.trans hg.live) (hspares.leaked.trans hg.leaked)
      ((hspares.touches _ hwake).slab.length.symm ▸ hg.room)
  · rw [completeMoments_of_own b moved htake hwake, hcomplete]

end Engine

/-! ### What a pump comes to -/

/-- The token of a completion, unless that is of the engine's own read, and the engine that it is
looked up in. -/
def Event.foreign? : Event P H → Option (Engine P H × Token)
  | .completed seen c _ _ => if seen.wakeToken = some c.token then none else some (seen, c.token)
  | _ => none

/-- The completions that were not of the engine's own read, one after the other. -/
def foreign (τ : List (Moment P H)) : List (Engine P H × Token) :=
  τ.filterMap fun m => m.1.foreign?

/-- While a callback acts nothing is retrieved. -/
theorem foreign_callback (ev : Event P H) (s s' : Scene P H) (e : Engine P H) (r : Option Context)
    (l : List (World H × List StorageId)) :
    foreign ((ev, s) :: (e.quietMoments r l ++ [(.quiet, s')])) = ev.foreign?.toList := by
  have hquiet : foreign (e.quietMoments r l ++ [(.quiet, s')]) = [] := by
    apply List.filterMap_eq_nil_iff.mpr
    intro m hm
    rcases List.mem_append.mp hm with hm | hm
    · obtain ⟨x, _, rfl⟩ := List.mem_map.mp hm
      rfl
    · obtain rfl := List.mem_singleton.mp hm
      rfl
  rw [foreign, List.filterMap_cons, ← foreign, hquiet]
  cases ev.foreign? <;> rfl

namespace Engine

variable [CompletionPort P H] [Os H] {e e' : Engine P H} {b : List StorageId}
  {τ : List (Moment P H)}

/-- What the port answers to the waits of a pump that waits, one after the other. -/
def awaitAnswers (e : Engine P H) (deadline : Option Nat) : Nat → List Waited
  | 0 => []
  | rounds + 1 =>
    match e.waitPort deadline rounds with
    | (e, .completion c moved) => .completion c moved ::
      match e.complete c moved with
      | (e, .ok none) => if e.runPosted.isSome then [] else e.awaitAnswers deadline rounds
      | _ => []
    | (_, answer) => [answer]

/-- What the port answers to the waits of a pump, one after the other. -/
def pumpAnswers (e : Engine P H) (timeout : Option Duration) (rounds : Nat) : List Waited :=
  match Os.deadline e.world.host timeout with
  | (_, .error _) => []
  | (host, .ok deadline) =>
    let e := e.withHost host
    if e.runPosted.isSome then [] else e.awaitAnswers deadline rounds

/-- No callback was called, and nothing was touched but the engine's own read if it was
retrieved. -/
structure Idles (e : Engine P H) (τ : List (Moment P H)) (e' : Engine P H) : Prop where
  called : calledDuring τ = []
  spares : e.Spares e'
  /-- The engine's own read is left alone unless it was retrieved. -/
  untouched : heard τ = [] → e.Untouched e'
  /-- If it is in flight it can end a wait. -/
  read : e'.wakeToken ≠ none → e'.CanBeWoken

/-- How a pump ended, with what has happened in it and what the port answered to its waits. -/
structure PumpEnds (e : Engine P H) (τ : List (Moment P H)) (answers : List Waited)
    (p : Engine P H × Pumped) : Prop where
  idles : (∀ d, p.2 ≠ .dispatched d) → e.Idles τ p.1
  timeouts : p.1.stats.timeouts = e.stats.timeouts + if p.2 = .timeout then 1 else 0
  /-- A token is unknown if a wait fails with that, or if it is that of the first completion that is
  not of the engine's own read and names nothing in flight. -/
  unknown : ∀ t, p.2 = .fault (.unknownToken t) ↔ .fault (.unknownToken t) ∈ answers ∨
    ∃ seen, (foreign τ).head? = some (seen, t) ∧ seen.slab.Misses t

/-- An engine of which users see no change, and whose own read was not retrieved. -/
theorem Going.idles (hg : e.Going b) (hτ : Silent τ) (h : e.Untouched e') : e.Idles τ e' where
  called := hτ.calledDuring
  spares := h.spares
  untouched _ := h
  read := by
    obtain ⟨τ', hl⟩ := hg.listening
    obtain ⟨p, host, j, timeouts, rfl⟩ := h
    exact hl.read

/-- A pump that retrieves nothing and dispatches nothing. -/
theorem Going.pumpEnds_of_quiet (hg : e.Going b) {answers : List Waited} {p : Engine P H × Pumped}
    (hτ : ∀ m ∈ τ, m.1 = .quiet) (h : e.Untouched p.1)
    (htimeouts : p.1.stats.timeouts = e.stats.timeouts + if p.2 = .timeout then 1 else 0)
    (hunknown : ∀ t, p.2 = .fault (.unknownToken t) ↔ .fault (.unknownToken t) ∈ answers) :
    e.PumpEnds τ answers p where
  idles _ := hg.idles (fun m hm => by rw [hτ m hm]; rfl) h
  timeouts := htimeouts
  unknown t := by
    have hnone : foreign τ = [] :=
      List.filterMap_eq_nil_iff.mpr fun m hm => by rw [hτ m hm]; rfl
    rw [hunknown, hnone]
    simp

omit [CompletionPort P H] [Os H] in
/-- A pump that runs a callback. -/
theorem pumpEnds_of_dispatched {answers : List Waited} {d : Dispatch}
    (htimeouts : e'.stats.timeouts = e.stats.timeouts) (hanswers : ∀ f, .fault f ∉ answers)
    (hforeign : ∀ x ∈ foreign τ, ¬ x.1.slab.Misses x.2) :
    e.PumpEnds τ answers (e', .dispatched d) where
  idles h := absurd rfl (h d)
  timeouts := htimeouts
  unknown t := by
    refine ⟨nofun, ?_⟩
    rintro (hfault | ⟨seen, hhead, hmisses⟩)
    · exact absurd hfault (hanswers _)
    · exact absurd hmisses (hforeign _ (List.mem_of_mem_head? hhead))

omit [CompletionPort P H] in
/-- A pump that runs a posted callback. -/
theorem pumpEnds_of_posted (b : List StorageId) {d : Dispatch} (h : e.runPosted = some (e', d)) :
    e.PumpEnds (e.postedMoments b) [] (e', .dispatched d) := by
  have hnone : foreign (e.postedMoments b) = [] := by
    unfold postedMoments
    split
    · rfl
    · exact foreign_callback _ _ _ _ _ _
  apply pumpEnds_of_dispatched
  · rw [runPosted_eq_some h]
  · exact fun f => List.not_mem_nil
  · rw [hnone]
    exact nofun

/-- A pump that retrieves a completion which names nothing in flight. -/
theorem Going.pumpEnds_of_unknown (hg : e.Going b) {deadline : Option Nat} {rounds : Nat}
    {c : Completion} {moved : Transfer}
    (hwait : e.waitPort deadline rounds = (e', .completion c moved))
    (hget : e'.slab.get? c.token = none) :
    e.PumpEnds (e'.completeMoments b c moved) [.completion c moved]
      (e'.note (.unknownToken c.token c.result), .fault (.unknownToken c.token)) := by
  obtain ⟨p, host, j, rfl⟩ := waitPort_eq_beside hwait
  let seen := e.beside p host j e.associated
  -- It is not of the engine's own read, which is in flight if there is one.
  have hwake : seen.wakeToken ≠ some c.token := by
    intro hwake
    obtain ⟨context, hsome⟩ := hg.standing.upright.wake c.token hwake
    cases hsome.symm.trans hget
  have hmoments : seen.completeMoments b c moved =
      [(.completed seen c moved none, ⟨(seen.complete c moved).1, b, none⟩)] := by
    have htake : seen.slab.take c.token = none := (Slab.take_eq_none_iff _ _).mpr hget
    simp only [completeMoments, htake]
  have hforeign : foreign (seen.completeMoments b c moved) = [(seen, c.token)] := by
    rw [hmoments]
    simp [foreign, Event.foreign?, hwake]
  constructor
  case idles =>
    intro _
    apply hg.idles
    · rw [hmoments]
      exact silent_single rfl
    · exact ⟨p, host, j ++ [.unknownToken c.token c.result], e.stats.timeouts, rfl⟩
  case timeouts => rfl
  case unknown =>
    intro t
    rw [hforeign]
    constructor
    · intro hfault
      obtain rfl : c.token = t := Fault.unknownToken.inj (Pumped.fault.inj hfault)
      exact .inr ⟨seen, rfl, (Slab.get?_eq_none_iff_misses _ _).mp hget⟩
    · rintro (hfault | ⟨_, hhead, _⟩)
      · simp at hfault
      · obtain rfl : c.token = t := (Prod.mk.inj (Option.some.inj hhead)).2
        rfl

/-- A pump that retrieves the completion of a user's operation. -/
theorem pumpEnds_of_user (b : List StorageId) {deadline : Option Nat} {rounds : Nat}
    {c : Completion} {moved : Transfer} {context : Context} {slab : Slab Context}
    (hwait : e.waitPort deadline rounds = (e', .completion c moved))
    (htake : e'.slab.take c.token = some (context, slab)) (hwake : e'.wakeToken ≠ some c.token)
    (d : Dispatch) : e.PumpEnds (e'.completeMoments b c moved) [.completion c moved]
      ((e'.complete c moved).1, .dispatched d) := by
  apply pumpEnds_of_dispatched
  · rw [complete_of_user moved htake hwake]
    obtain ⟨p, host, j, rfl⟩ := waitPort_eq_beside hwait
    rfl
  · simp
  · have hforeign : foreign (e'.completeMoments b c moved) = [(e', c.token)] := by
      simp only [completeMoments, htake, if_neg hwake]
      rw [foreign_callback]
      simp [Event.foreign?, hwake]
    intro x hx hmisses
    rw [hforeign] at hx
    obtain rfl := List.mem_singleton.mp hx
    cases ((Slab.get?_eq_none_iff_misses _ _).mpr hmisses).symm.trans (Slab.get?_of_take htake)

omit [CompletionPort P H] [Os H] in
/-- A pump that has retrieved a completion of the engine's own read goes on from there. -/
theorem PumpEnds.cons_own {e₂ : Engine P H} {answers : List Waited} {p : Engine P H × Pumped}
    (h : e₂.PumpEnds τ answers p) (hspares : e.Spares e₂)
    (htimeouts : e₂.stats.timeouts = e.stats.timeouts) {c : Completion}
    (hwake : e'.wakeToken = some c.token) (moved : Transfer) (s : Scene P H) :
    e.PumpEnds ((.completed e' c moved none, s) :: τ) (.completion c moved :: answers) p where
  idles hp := {
    called := (h.idles hp).called
    spares := hspares.trans (h.idles hp).spares
    untouched := by simp [heard, Event.heard?, hwake]
    read := (h.idles hp).read }
  timeouts := by rw [h.timeouts, htimeouts]
  unknown t := by
    have hforeign : foreign ((.completed e' c moved none, s) :: τ) = foreign τ := by
      simp [foreign, Event.foreign?, hwake]
    rw [hforeign, h.unknown]
    simp

/-- Waiting for completions ends in one of these ways. -/
theorem Going.pumpEnds_await (hg : e.Going b) (deadline : Option Nat) (rounds : Nat) :
    e.PumpEnds (e.awaitMoments b deadline rounds) (e.awaitAnswers deadline rounds)
      (e.await deadline rounds) := by
  induction rounds generalizing e with
  | zero =>
    simp only [awaitMoments, awaitAnswers, await]
    exact hg.pumpEnds_of_quiet (by simp)
      ⟨e.port, e.world.host, e.world.journal, e.stats.timeouts, rfl⟩ rfl (by simp)
  | succ rounds ih =>
    cases hwait : e.waitPort deadline rounds with
    | mk e₁ answer =>
      obtain ⟨p, host, j, he₁⟩ := waitPort_eq_beside hwait
      have huntouched : e.Untouched e₁ := ⟨p, host, j, e.stats.timeouts, he₁⟩
      have htimeouts : e₁.stats.timeouts = e.stats.timeouts := by rw [he₁]; rfl
      cases answer with
      | blocked =>
        simp only [awaitMoments, awaitAnswers, await, hwait]
        exact hg.pumpEnds_of_quiet (by simp) huntouched htimeouts (by simp)
      | unfinished =>
        simp only [awaitMoments, awaitAnswers, await, hwait]
        exact hg.pumpEnds_of_quiet (by simp) huntouched htimeouts (by simp)
      | panicked =>
        simp only [awaitMoments, awaitAnswers, await, hwait]
        exact hg.pumpEnds_of_quiet (by simp) huntouched htimeouts (by simp)
      | fault f =>
        simp only [awaitMoments, awaitAnswers, await, hwait]
        exact hg.pumpEnds_of_quiet (by simp) huntouched htimeouts (by simp [eq_comm])
      | timeout =>
        simp only [awaitMoments, awaitAnswers, await, hwait]
        refine hg.pumpEnds_of_quiet (by simp) ?_ ?_ (by simp)
        · exact huntouched.trans ⟨e₁.port, e₁.world.host, e₁.world.journal, _, rfl⟩
        · exact congrArg (· + 1) htimeouts
      | completion c moved =>
        by_cases hwake : e.wakeToken = some c.token
        · obtain ⟨e₂, hcomplete, hg₂, hspares, hstats, hmoments⟩ :=
            hg.complete_unseen hwait hwake
          have hwake₁ : e₁.wakeToken = some c.token := by rw [he₁]; exact hwake
          have hcount : e₂.stats.timeouts = e.stats.timeouts := congrArg Stats.timeouts hstats
          cases hposted : e₂.runPosted with
          | some x =>
            have hends := (pumpEnds_of_posted b hposted).cons_own hspares hcount hwake₁ moved
              ⟨e₂, b, none⟩
            simpa [awaitMoments, awaitAnswers, await, hwait, hcomplete, hmoments, hposted]
              using hends
          | none =>
            have hends := (ih hg₂).cons_own hspares hcount hwake₁ moved ⟨e₂, b, none⟩
            simpa [awaitMoments, awaitAnswers, await, hwait, hcomplete, hmoments, hposted]
              using hends
        · have hwake₁ : e₁.wakeToken ≠ some c.token := by rw [he₁]; exact hwake
          cases htake : e₁.slab.take c.token with
          | none =>
            have hget := (Slab.take_eq_none_iff _ _).mp htake
            have hends := hg.pumpEnds_of_unknown hwait hget
            simpa [awaitMoments, awaitAnswers, await, hwait, complete_of_get?_eq_none moved hget]
              using hends
          | some x =>
            have hcomplete := complete_of_user moved htake hwake₁
            have hends := pumpEnds_of_user b hwait htake hwake₁
              ⟨c.token, .ofResult (e₁.world.settle x.1.pinned c.result moved).2⟩
            rw [hcomplete] at hends
            simpa [awaitMoments, awaitAnswers, await, hwait, hcomplete] using hends

omit [CompletionPort P H] [Os H] in
/-- A pump begins by reading the clock. -/
theorem PumpEnds.cons_quiet {e₁ : Engine P H} {answers : List Waited} {p : Engine P H × Pumped}
    (h : e₁.PumpEnds τ answers p) (huntouched : e.Untouched e₁)
    (htimeouts : e₁.stats.timeouts = e.stats.timeouts) (s : Scene P H) :
    e.PumpEnds ((.quiet, s) :: τ) answers p where
  idles hp := {
    called := (h.idles hp).called
    spares := huntouched.spares.trans (h.idles hp).spares
    untouched := fun hheard => huntouched.trans ((h.idles hp).untouched hheard)
    read := (h.idles hp).read }
  timeouts := by rw [h.timeouts, htimeouts]
  unknown t := h.unknown t

/-- A pump ends in one of these ways. -/
theorem Going.pumpEnds_pump (hg : e.Going b) (timeout : Option Duration) (rounds : Nat) :
    e.PumpEnds (e.pumpMoments b timeout rounds) (e.pumpAnswers timeout rounds)
      (e.pump timeout rounds) := by
  cases hdeadline : Os.deadline e.world.host timeout with
  | mk host limit =>
    have huntouched : e.Untouched (e.withHost host) :=
      ⟨e.port, host, e.world.journal, e.stats.timeouts, rfl⟩
    cases limit with
    | error _ =>
      simp only [pumpMoments, pumpAnswers, pump, hdeadline]
      exact hg.pumpEnds_of_quiet (by simp) huntouched rfl (by simp)
    | ok deadline =>
      cases hposted : (e.withHost host).runPosted with
      | some x =>
        have hends := (pumpEnds_of_posted b hposted).cons_quiet huntouched rfl
          ⟨e.withHost host, b, none⟩
        simpa [pumpMoments, pumpAnswers, pump, hdeadline, hposted] using hends
      | none =>
        have hends := ((hg.withHost host).pumpEnds_await deadline rounds).cons_quiet huntouched
          rfl ⟨e.withHost host, b, none⟩
        simpa [pumpMoments, pumpAnswers, pump, hdeadline, hposted] using hends

end Engine

/-- A pump of a live engine that dispatches nothing has changed nothing for users, whatever the
port does. A token is unknown only if the port says so, or if it comes with the first completion
that is not of the engine's own read and names nothing in flight. -/
theorem idle_pump_changes_nothing [CompletionPort P H] [Os H] {config : Config} {port : P}
    {host : H} {e : Engine P H} (h : Engine.build config port host = .ready e)
    (steps : List (Step H)) (timeout : Option Duration) (rounds : Nat)
    (hlive : ((Client.own e).after steps).gone = false)
    (hroom : ((Client.own e).after steps).engine.slab.slots.length ≤ 2 ^ 32) :
    ((Client.own e).after steps).engine.PumpEnds
      (((Client.own e).after steps).moments (.pump timeout rounds))
      (((Client.own e).after steps).engine.pumpAnswers timeout rounds)
      (((Client.own e).after steps).engine.pump timeout rounds) := by
  have hgoing := Engine.going_of_build h steps hlive hroom
  simp only [Client.moments, hlive, Bool.false_eq_true, if_false]
  exact hgoing.pumpEnds_pump timeout rounds

/-- A scripted port that has two completions of the engine's own read, and then one whose token has
the slot of an operation in flight in another generation. -/
def Scripted.stray : Scripted :=
  { waits := [.completion .wake 8 0 {}, .completion .wake 8 0 {},
      .completion (.token (.ofSlot 1 7)) 0 0 {}] }

theorem idle_pump_changes_nothing_of_stray : ∃ e : Engine Scripted Host,
    Engine.build {} Scripted.stray Host.start = .ready e ∧
    ((Client.own e).after [.place .event ⟨"event", []⟩]).gone = false ∧
    ((Client.own e).after [.place .event ⟨"event", []⟩]).engine.slab.slots.length ≤ 2 ^ 32 ∧
    ((Client.own e).after [.place .event ⟨"event", []⟩]).engine.PumpEnds
      (((Client.own e).after [.place .event ⟨"event", []⟩]).moments (.pump none 9))
      (((Client.own e).after [.place .event ⟨"event", []⟩]).engine.pumpAnswers none 9)
      (((Client.own e).after [.place .event ⟨"event", []⟩]).engine.pump none 9) ∧
    heard (((Client.own e).after [.place .event ⟨"event", []⟩]).moments (.pump none 9)) = [8, 8] ∧
    (((Client.own e).after [.place .event ⟨"event", []⟩]).engine.pump none 9).2 =
      .fault (.unknownToken (.ofSlot 1 7)) := by
  refine ⟨_, rfl, by decide +kernel, by decide +kernel, ?_, by decide +kernel, by decide +kernel⟩
  exact @idle_pump_changes_nothing Scripted Host _ _ {} Scripted.stray Host.start _ rfl
    [.place .event ⟨"event", []⟩] none 9 (by decide +kernel) (by decide +kernel)

end Proactor
