import Proactor.Proofs.InOrder
import Proactor.Proofs.Interrupts
import Proactor.Proofs.Lasting
import Proactor.Proofs.Standing

/-!
# Waking a pump

A post ends a wait through the engine's own read of its event counter, which is put in flight
again whenever its completion is retrieved. That is tried once. If the port refuses it then, or
if the read had failed, no later wait of any pump can be woken; and nothing else takes that read
away from a live engine.
-/

namespace Proactor

variable {P H : Type}

/-- The engine's own read of its event counter is in flight. -/
def Engine.CanBeWoken (e : Engine P H) : Prop :=
  ∃ t context n, e.wakeToken = some t ∧ e.slab.get? t = some context ∧ context.kind = .read ∧
    context.fd = e.world.injector.wake ∧ context.pinned = .reading ⟨e.wakeBuffer, 0, n⟩

/-- The result of the engine's own read, if the event is that it was retrieved. -/
def Event.heard? : Event P H → Option Int64
  | .completed seen c _ _ => if seen.wakeToken = some c.token then some c.result else none
  | _ => none

/-- The results of the engine's own reads, one after the other. -/
def heard (τ : List (Moment P H)) : List Int64 := τ.filterMap fun m => m.1.heard?

variable [CompletionPort P H] [Os H]

/-- The engine that puts its own read in flight again after a completion. -/
def Engine.rearming (e : Engine P H) (c : Completion) (moved : Transfer) : Engine P H :=
  match e.slab.take c.token with
  | some (context, slab) => e.wakeSettled slab context c moved
  | none => e

/-- The engine's own read is over and there is no other one: it failed, or the port refused the
next one. -/
def Event.Deafens : Event P H → Prop
  | .completed seen c moved _ => seen.wakeToken = some c.token ∧
      (c.result.toInt < 0 ∨
        ∃ n, ((seen.rearming c moved).armWake).2 = .error (.systemCall .read n))
  | _ => False

/-- Only a completion of the engine's own read can be the last one. -/
theorem Event.not_deafens {ev : Event P H}
    (h : ∀ seen c moved ran, ev ≠ .completed seen c moved ran) : ¬ ev.Deafens := by
  cases ev with
  | completed seen c moved ran => exact absurd rfl (h seen c moved ran)
  | _ => exact id

/-! ### What stays of the engine's own read -/

/-- The engine's own read is as it was. -/
structure Scene.KeepsWake (s s' : Scene P H) : Prop where
  wakeToken : s'.engine.wakeToken = s.engine.wakeToken
  read : ∀ t context, s.engine.wakeToken = some t → s.engine.slab.get? t = some context →
    s'.engine.slab.get? t = some context

omit [CompletionPort P H] [Os H] in
theorem Scene.Keeps.keepsWake {s s' : Scene P H} (h : s.Keeps s') : s.KeepsWake s' where
  wakeToken := h.wakeToken
  read t context _ hget := by rw [h.slab.get?, hget]

omit [CompletionPort P H] in
/-- Only a completion or giving everything up ends the engine's own read. -/
theorem Turnover.keepsWake {s s' : Scene P H} {ev : Event P H} (h : Turnover s ev s')
    (hs : s.engine.slab.Sound) (hroom : s'.engine.slab.slots.length ≤ 2 ^ 32)
    (hcompleted : ∀ seen c moved ran, ev ≠ .completed seen c moved ran) (hev : ev ≠ .abandoned) :
    s.KeepsWake s' := by
  cases h with
  | kept _ hk => exact hk.keepsWake
  | allocated id hk => exact hk.keepsWake
  | borrowed id hk => exact hk.keepsWake
  | gaveBack id hk => exact hk.keepsWake
  | entered context hcb hslab hwake =>
    refine ⟨hwake, fun t other _ hget => ?_⟩
    rw [hslab] at hroom ⊢
    have hne : t ≠ (s.engine.slab.insert context).2 := by
      rintro rfl
      rw [hs.get?_token_insert context hroom] at hget
      cases hget
    rw [hs.get?_insert context hroom, if_neg hne, hget]
  | abandoned => exact absurd rfl hev
  | _ => exact absurd rfl (hcompleted _ _ _ _)

/-! ### Putting the engine's own read in flight -/

namespace Engine

omit [Os H] in
/-- The engine's own read, once it was put in flight, can end a wait. -/
theorem canBeWoken_of_armWake {e e' : Engine P H} (hs : e.slab.Sound)
    (hroom : e'.slab.slots.length ≤ 2 ^ 32) (h : e.armWake = (e', .ok ())) : e'.CanBeWoken := by
  unfold armWake at h
  split at h
  · cases h
  · next m s hw =>
    obtain ⟨_, rfl⟩ := Submission.wake_eq_ok_iff.mp hw
    split at h
    · next e₁ t hh =>
      obtain ⟨rfl, p, host, j, a, rfl⟩ := handOff_eq_ok hh
      obtain rfl := (Prod.mk.inj h).1
      have hget := hs.get?_insert e.ownContext hroom (e.slab.insert e.ownContext).2
      rw [if_pos rfl] at hget
      exact ⟨_, _, _, rfl, hget, rfl, rfl, rfl⟩
    · cases h

omit [Os H] in
/-- As long as the storage of the engine's own read is idle, only the port refuses that read. -/
theorem refused_of_armWake {e e' : Engine P H} {f : Fault}
    (hidle : e.world.memory.lend? e.wakeBuffer = some .idle)
    (h : e.armWake = (e', .error f)) : ∃ n, f = .systemCall .read n := by
  unfold armWake at h
  split at h
  · next g hw =>
    have hlease : e.world.memory.lease? e.wakeBuffer =
        some (e.world.memory.setLend e.wakeBuffer .lent) := by
      simp [Memory.lease?, Memory.isIdle, hidle]
    rw [Submission.wake_eq_ok_iff.mpr ⟨hlease, rfl⟩] at hw
    cases hw
  · next m s hw =>
    obtain ⟨_, rfl⟩ := Submission.wake_eq_ok_iff.mp hw
    split at h
    · cases h
    · next e₁ g hh =>
      obtain rfl := Except.error.inj (Prod.mk.inj h).2
      rcases handOff_cases (e.withMemory m) _ .silent with
        ⟨e₂, f, hr⟩ | ⟨e₂, f, hr, hp⟩ | ⟨e₂, hr, hp⟩
      · obtain ⟨_, hg⟩ := Prod.mk.inj (hh.symm.trans (handOff_of_register_error .silent hr))
        exact ⟨f.errno, Except.error.inj hg⟩
      · obtain ⟨_, hg⟩ := Prod.mk.inj (hh.symm.trans (handOff_of_push_error hr hp))
        exact ⟨f.errno, Except.error.inj hg⟩
      · cases hh.symm.trans (handOff_of_push_ok hr hp)

omit [Os H] in
/-- A live engine puts its own read in flight again if that read succeeded and the port takes the
next one, and otherwise there is none. -/
theorem rearmWake_of_live {e : Engine P H} (result : Int64) (hlive : e.closed = false)
    (hnone : e.wakeToken = none) (hidle : e.world.memory.lend? e.wakeBuffer = some .idle)
    (hs : e.slab.Sound) (hroom : (e.rearmWake result).slab.slots.length ≤ 2 ^ 32) :
    (0 ≤ result.toInt ∧ e.armWake.2 = .ok () ∧ (e.rearmWake result).CanBeWoken) ∨
      ((result.toInt < 0 ∨ ∃ n, e.armWake.2 = .error (.systemCall .read n)) ∧
        (e.rearmWake result).wakeToken = none) := by
  have hopen : ¬ e.closed = true := by simp [hlive]
  by_cases hneg : result.toInt < 0
  · simp only [rearmWake, if_neg hopen, if_pos hneg]
    exact .inr ⟨.inl hneg, hnone⟩
  simp only [rearmWake, if_neg hopen, if_neg hneg] at hroom ⊢
  cases h : e.armWake with
  | mk e' r =>
    rw [h] at hroom
    cases r with
    | ok u => exact .inl ⟨Int.not_lt.mp hneg, rfl, canBeWoken_of_armWake hs hroom h⟩
    | error f =>
      obtain ⟨n, rfl⟩ := refused_of_armWake hidle h
      have hroom' : e'.slab.slots.length ≤ 2 ^ 32 := hroom
      obtain ⟨slab, p, host, j, a, _, rfl⟩ := armWake_eq_error hs hroom' h
      exact .inr ⟨.inr ⟨n, rfl⟩, hnone⟩

omit [CompletionPort P H] in
/-- The storage of the engine's own read is idle once its completion was settled. -/
theorem idle_wakeSettled {e : Engine P H} {b : List StorageId} {c : Completion}
    {context : Context} {slab : Slab Context} {n : Nat} (moved : Transfer)
    (hsettled : Scene.Settled ⟨e, b, none⟩) (htake : e.slab.take c.token = some (context, slab))
    (hpinned : context.pinned = .reading ⟨e.wakeBuffer, 0, n⟩) :
    (e.wakeSettled slab context c moved).world.memory.lend? e.wakeBuffer = some .idle := by
  have hperm := Scene.holders_of_take (s := ⟨e, b, none⟩) htake
  have hbalanced := hsettled.balanced.of_perm hperm fun _ => rfl
  have hmem : e.wakeBuffer ∈ context.pinned.leases := by simp [hpinned, Pinned.leases]
  have hlent : e.world.memory.lend? e.wakeBuffer = some .lent := (hbalanced.lent_of_mem hmem).1
  have hsettle := e.world.lend?_settle context.pinned c.result moved e.wakeBuffer
  rw [if_pos hmem, hlent] at hsettle
  exact hsettle

/-- After a completion of its own read a live engine can be woken again, unless the event was
that this read was the last one. -/
theorem canBeWoken_of_completed {e : Engine P H} {b : List StorageId} {c : Completion}
    {moved : Transfer} {context : Context} {slab : Slab Context} (hlive : e.closed = false)
    (hs : e.slab.Sound) (hsettled : Scene.Settled ⟨e, b, none⟩) (hread : e.CanBeWoken)
    (htake : e.slab.take c.token = some (context, slab)) (hwake : e.wakeToken = some c.token)
    {e' : Engine P H} (he : e' = (e.wakeSettled slab context c moved).rearmWake
      (e.world.settle context.pinned c.result moved).2)
    (hroom : e'.slab.slots.length ≤ 2 ^ 32) :
    (e'.wakeToken ≠ none → e'.CanBeWoken) ∧
      (e'.wakeToken ≠ none ↔ ¬ (Event.completed e c moved none).Deafens) := by
  obtain ⟨t, other, n, ht, hget, _, _, hpinned⟩ := hread
  obtain rfl := Option.some.inj (ht.symm.trans hwake)
  obtain rfl := Option.some.inj (hget.symm.trans (Slab.get?_of_take htake))
  have hresult : (e.world.settle other.pinned c.result moved).2 = c.result := by
    rw [hpinned]
    rfl
  have hrearming : e.rearming c moved = e.wakeSettled slab other c moved := by
    simp only [rearming, htake]
  rw [hresult] at he
  subst he
  have hidle := idle_wakeSettled moved hsettled htake hpinned
  rcases rearmWake_of_live (e := e.wakeSettled slab other c moved) c.result hlive rfl hidle
    (hs.take htake) hroom with ⟨hok, harmed, hcan⟩ | ⟨hlost, hnone⟩
  · have hheard : ¬ (Event.completed e c moved none).Deafens := by
      rintro ⟨_, hneg | ⟨n, hrefused⟩⟩
      · exact Int.not_lt.mpr hok hneg
      · rw [hrearming, harmed] at hrefused
        cases hrefused
    refine ⟨fun _ => hcan, fun _ => hheard, fun _ => ?_⟩
    obtain ⟨t, _, _, ht', _⟩ := hcan
    rw [ht']
    exact Option.some_ne_none t
  · have hdeaf : (Event.completed e c moved none).Deafens := ⟨ht, hrearming.symm ▸ hlost⟩
    exact ⟨fun h => absurd hnone h, fun h => absurd hnone h, fun h => absurd hdeaf h⟩

end Engine

/-! ### The engine's own read over a run -/

/-- As long as an engine lives its own read is in flight, unless one of them was the last. -/
structure Listening (τ : List (Moment P H)) (s : Scene P H) : Prop where
  read : s.engine.wakeToken ≠ none → s.engine.CanBeWoken
  kept : s.engine.wakeToken ≠ none ↔ ∀ m ∈ τ, ¬ m.1.Deafens

namespace Listening

variable {τ : List (Moment P H)} {s s' : Scene P H} {ev : Event P H}

theorem canBeWoken_iff (h : Listening τ s) :
    s.engine.CanBeWoken ↔ ∀ m ∈ τ, ¬ m.1.Deafens := by
  refine Iff.trans ⟨fun hcan => ?_, h.read⟩ h.kept
  obtain ⟨t, _, _, ht, _⟩ := hcan
  rw [ht]
  exact Option.some_ne_none t

/-- An engine that lost its own read does not get it back. -/
theorem forall_snoc : (∀ m ∈ τ ++ [(ev, s')], ¬ m.1.Deafens) ↔
    (∀ m ∈ τ, ¬ m.1.Deafens) ∧ ¬ ev.Deafens := by
  simp only [List.mem_append, List.mem_singleton, or_imp, forall_and, forall_eq]

/-- What leaves the engine's own read alone leaves it listening. -/
theorem keeps (h : Listening τ s) (hk : s.KeepsWake s') (hlasts : s.engine.Lasts s'.engine)
    (hev : ¬ ev.Deafens) : Listening (τ ++ [(ev, s')]) s' where
  read := by
    intro hwake
    rw [hk.wakeToken] at hwake
    obtain ⟨t, context, n, ht, hget, hkind, hfd, hpinned⟩ := h.read hwake
    refine ⟨t, context, n, hk.wakeToken.trans ht, hk.read t context ht hget, hkind, ?_, ?_⟩
    · rw [hfd, hlasts.counter]
    · rw [hpinned, hlasts.wakeBuffer]
  kept := by
    rw [hk.wakeToken, forall_snoc, h.kept]
    exact (and_iff_left hev).symm

end Listening

/-- What follows a completion of the engine's own read keeps the next one in flight, or is the end
of it. -/
private theorem listening_woken {τ : List (Moment P H)} {e e' : Engine P H} {b : List StorageId}
    {deadline : Option Nat} {rounds : Nat} {c : Completion} {moved : Transfer} {context : Context}
    {slab : Slab Context} (h : e.waitPort deadline rounds = (e', .completion c moved))
    (ht : e'.slab.take c.token = some (context, slab)) (hwake : e'.wakeToken = some c.token)
    (hs : e.slab.Sound) (hsettled : Scene.Settled ⟨e, b, none⟩) (hlive : e.closed = false)
    (hl : Listening τ ⟨e, b, none⟩) {s' : Scene P H}
    (he : s'.engine = (e'.wakeSettled slab context c moved).rearmWake
      (e'.world.settle context.pinned c.result moved).2)
    (hroom : s'.engine.slab.slots.length ≤ 2 ^ 32) :
    Listening (τ ++ [(.completed e' c moved none, s')]) s' := by
  obtain ⟨p, host, j, rfl⟩ := Engine.waitPort_eq_beside h
  have hsettled' : Scene.Settled ⟨e.beside p host j e.associated, b, none⟩ :=
    ⟨hsettled.balanced, hsettled.running⟩
  have hsome : e.wakeToken ≠ none := fun hnone => Option.some_ne_none _ (hwake.symm.trans hnone)
  obtain ⟨hread, hkept⟩ := Engine.canBeWoken_of_completed (e := e.beside p host j e.associated)
    hlive hs hsettled' (hl.read hsome) ht hwake he hroom
  refine ⟨hread, ?_⟩
  rw [Listening.forall_snoc]
  exact hkept.trans (and_iff_right (hl.kept.mp hsome)).symm

section

variable {τ : List (Moment P H)} {s s' : Scene P H} (hs : s.engine.slab.Sound)
  (hroom : s'.engine.slab.slots.length ≤ 2 ^ 32)
include hs hroom

/-- A completion in a live engine keeps its own read in flight, or is the end of it. -/
private theorem listening_completed {seen : Engine P H} {c : Completion} {moved : Transfer}
    {ran : Option (Callback × Outcome)} (h : Happens s (.completed seen c moved ran) s')
    (hsettled : s.Settled) (hlive : s'.engine.closed = false) (hl : Listening τ s) :
    Listening (τ ++ [(.completed seen c moved ran, s')]) s' := by
  have hlasts := h.lasts hs hroom
  cases h with
  | unknown e e' b deadline rounds c moved h ht =>
    obtain ⟨p, host, j, rfl⟩ := Engine.waitPort_eq_beside h
    refine hl.keeps ⟨rfl, fun _ _ _ hget => hget⟩ hlasts fun hdeaf => ?_
    have hsome : e.wakeToken ≠ none := fun hnone => Option.some_ne_none _ (hdeaf.1.symm.trans hnone)
    obtain ⟨t, context, _, hwas, hget, _⟩ := hl.read hsome
    obtain rfl := Option.some.inj (hwas.symm.trans hdeaf.1)
    cases hget.symm.trans ((Slab.take_eq_none_iff _ _).mp ht)
  | woken e e' b deadline rounds c moved context slab h ht hwake =>
    exact listening_woken h ht hwake hs hsettled (hlasts.closed hlive) hl rfl hroom
  | called e e' b deadline rounds c moved context slab o h ht hwake ho =>
    obtain ⟨p, host, j, rfl⟩ := Engine.waitPort_eq_beside h
    refine hl.keeps ⟨rfl, fun t other hwas hget => ?_⟩ hlasts fun hdeaf => hwake hdeaf.1
    have hne : t ≠ c.token := by
      rintro rfl
      exact hwake hwas
    have hget' := Slab.get?_take ht t
    rw [if_neg hne] at hget'
    exact hget'.trans hget

/-- An engine that was given up with nothing in flight had no read of its own any more. -/
private theorem listening_abandoned (h : Happens s .abandoned s')
    (hleaked : s'.engine.leaked = []) (hl : Listening τ s) :
    Listening (τ ++ [(.abandoned, s')]) s' := by
  have hlasts := h.lasts hs hroom
  cases h with
  | abandon e b =>
    obtain ⟨journal, he⟩ := e.abandon_eq
    have hnothing : e.wakeToken = none := by
      by_contra hsome
      obtain ⟨t, context, _, _, hget, _⟩ := hl.read hsome
      rw [he] at hleaked
      have hpos := hs.live_pos hget
      rw [hs.live_eq, (List.append_eq_nil_iff.mp hleaked).2] at hpos
      exact Nat.lt_irrefl 0 hpos
    refine hl.keeps ⟨?_, fun t _ hwas _ => ?_⟩ hlasts (Event.not_deafens (by simp))
    · rw [he]
      exact hnothing.symm
    · cases hwas.symm.trans hnothing

/-- Every step of a live engine keeps its own read in flight, or is the end of it. -/
theorem Happens.listening {ev : Event P H} (h : Happens s ev s') (hsettled : s.Settled)
    (hlive : s'.engine.closed = false) (hleaked : s'.engine.leaked = []) (hl : Listening τ s) :
    Listening (τ ++ [(ev, s')]) s' := by
  have hlasts := h.lasts hs hroom
  have hturn := h.turnover hs hroom
  cases ev with
  | completed seen c moved ran => exact listening_completed hs hroom h hsettled hlive hl
  | abandoned => exact listening_abandoned hs hroom h hleaked hl
  | _ =>
    have hk := hturn.keepsWake hs hroom (by simp) (by simp)
    exact hl.keeps hk hlasts (Event.not_deafens (by simp))

end

/-- A live engine can be woken unless one of its own reads was the last. -/
theorem Path.listening {s₀ s : Scene P H} {τ₀ τ : List (Moment P H)} (h : Path s₀ τ s)
    (hs : s₀.engine.slab.Sound) (hroom : s.engine.slab.slots.length ≤ 2 ^ 32)
    (hsettled : s₀.Settled) (hl : Listening τ₀ s₀) (hlive : s.engine.closed = false)
    (hleaked : s.engine.leaked = []) : Listening (τ₀ ++ τ) s := by
  let I (τ : List (Moment P H)) (s : Scene P H) : Prop := s.Settled ∧
    (s.engine.closed = false → s.engine.leaked = [] → Listening (τ₀ ++ τ) s)
  suffices hI : s.engine.slab.Sound ∧ I τ s from hI.2.2 hlive hleaked
  refine h.induct hs hroom ⟨hsettled, fun _ _ => by simpa using hl⟩ ?_
  rintro τ s ev s' hs hroom hstep hturn ⟨hsettled, hl⟩
  refine ⟨hturn.settled hs hsettled, fun hlive hleaked => ?_⟩
  rw [← List.append_assoc]
  have hlive' := (hstep.lasts hs hroom).closed hlive
  have hnone := List.prefix_nil.mp (hleaked ▸ hturn.leaked_prefix)
  exact hstep.listening hs hroom hsettled hlive hleaked (hl hlive' hnone)

/-- A new engine can be woken. -/
theorem Engine.listening_of_build {config : Config} {port : P} {host : H} {e : Engine P H}
    (h : Engine.build config port host = .ready e) : Listening [] (Client.own e).scene := by
  obtain ⟨x, host', wake, journal, e', n, harm, rfl⟩ := Engine.armWake_of_build h
  have hcan : e'.CanBeWoken := by
    obtain ⟨m, s, _, _, _, _, p, host'', j, a, rfl⟩ := Engine.armWake_eq_ok harm
    exact Engine.canBeWoken_of_armWake Slab.sound_empty (Engine.room_of_first _) harm
  obtain ⟨t, context, k, ht, hread⟩ := hcan
  have hsome : e'.wakeToken ≠ none := ht ▸ Option.some_ne_none t
  exact ⟨fun _ => ⟨t, context, k, ht, hread⟩, fun _ => by simp, fun _ => hsome⟩

/-! ### The waits of a pump -/

namespace Engine

/-- The engine at every wait of a pump that waits, with what has happened in the pump before. -/
def awaitWaits (e : Engine P H) (b : List StorageId) (deadline : Option Nat) :
    Nat → List (List (Moment P H) × Engine P H)
  | 0 => []
  | rounds + 1 => ([], e) ::
    match e.waitPort deadline rounds with
    | (e, .completion c moved) =>
      match e.complete c moved with
      | (e', .ok none) =>
        if e'.runPosted.isSome then []
        else (e'.awaitWaits b deadline rounds).map fun w =>
          (e.completeMoments b c moved ++ w.1, w.2)
      | _ => []
    | _ => []

/-- The engine at every wait of a pump, with what has happened in the pump before. -/
def pumpWaits (e : Engine P H) (b : List StorageId) (timeout : Option Duration) (rounds : Nat) :
    List (List (Moment P H) × Engine P H) :=
  match Os.deadline e.world.host timeout with
  | (_, .error _) => []
  | (host, .ok deadline) =>
    let e' := e.withHost host
    if e'.runPosted.isSome then []
    else (e'.awaitWaits b deadline rounds).map fun w => ((.quiet, ⟨e', b, none⟩) :: w.1, w.2)

/-- A wait is on the way from one engine to another. -/
def OnTheWay (e e' : Engine P H) (b : List StorageId) (w : List (Moment P H) × Engine P H) : Prop :=
  Path ⟨e, b, none⟩ w.1 ⟨w.2, b, none⟩ ∧ ∃ τ, Path ⟨w.2, b, none⟩ τ ⟨e', b, none⟩

/-- Every wait for completions is on the way. -/
theorem onTheWay_await (e : Engine P H) (b : List StorageId) (deadline : Option Nat)
    (rounds : Nat) :
    ∀ w ∈ e.awaitWaits b deadline rounds, e.OnTheWay (e.await deadline rounds).1 b w := by
  induction rounds generalizing e with
  | zero => exact fun w hw => nomatch hw
  | succ rounds ih =>
    intro w hw
    rcases List.mem_cons.mp hw with rfl | hw
    · exact ⟨.refl, _, e.path_await b deadline (rounds + 1)⟩
    cases h : e.waitPort deadline rounds with
    | mk e₁ answer =>
      rw [h] at hw
      cases answer with
      | completion c moved =>
        have hc := path_complete b h
        cases hr : e₁.complete c moved with
        | mk e₂ r =>
          simp only [hr] at hw hc
          match r with
          | .error f => cases hw
          | .ok (some d) => cases hw
          | .ok none =>
            cases hp : e₂.runPosted with
            | some x => simp [hp] at hw
            | none =>
              simp only [hp, Option.isSome_none, Bool.false_eq_true, if_false] at hw
              obtain ⟨w', hw', rfl⟩ := List.mem_map.mp hw
              obtain ⟨hbefore, hafter⟩ := ih e₂ w' hw'
              have hend : e.await deadline (rounds + 1) = e₂.await deadline rounds := by
                simp only [await, h, hr, hp]
              exact ⟨hc.trans hbefore, hend ▸ hafter⟩
      | _ => cases hw

/-- Every wait of a pump is on the way. -/
theorem onTheWay_pump (e : Engine P H) (b : List StorageId) (timeout : Option Duration)
    (rounds : Nat) :
    ∀ w ∈ e.pumpWaits b timeout rounds, e.OnTheWay (e.pump timeout rounds).1 b w := by
  intro w hw
  cases hd : Os.deadline e.world.host timeout with
  | mk host limit =>
    simp only [pumpWaits, hd] at hw
    cases limit with
    | error _ => cases hw
    | ok deadline =>
      cases hp : (e.withHost host).runPosted with
      | some x => simp [hp] at hw
      | none =>
        simp only [hp, Option.isSome_none, Bool.false_eq_true, if_false] at hw
        obtain ⟨w', hw', rfl⟩ := List.mem_map.mp hw
        obtain ⟨hbefore, hafter⟩ := onTheWay_await (e.withHost host) b deadline rounds w' hw'
        have hstart : Happens ⟨e, b, none⟩ .quiet ⟨e.withHost host, b, none⟩ :=
          .aside e b none host e.world.journal e.stats.timeouts
        have hend : e.pump timeout rounds = (e.withHost host).await deadline rounds := by
          simp only [pump, hd, hp]
        exact ⟨.cons hstart hbefore, hend ▸ hafter⟩

end Engine

/-! ### No wait is left out -/

/-- How many calls on a port were waits. -/
def Recorder.waits (r : Recorder P) : Nat := r.calls.countP (· matches .wait _)

namespace Engine

omit [Os H] in
/-- Handing off a submission waits for nothing. -/
theorem waits_handOff (e : Engine (Recorder P) H) (s : Submission) (cb : Callback) :
    (e.handOff s cb).1.port.waits = e.port.waits := by
  have hregisters : ∀ {fd : Fd} {before after : List Fd} {asked : List PortCall},
      Registers fd before asked after → asked.countP (· matches .wait _) = 0 := by
    rintro fd before after asked (_ | _) <;> rfl
  unfold Recorder.waits
  rcases handOff_recorded e s cb with ⟨f, _, hrefusal⟩ | ⟨t, _, haccept⟩
  · cases hrefusal with
    | registering hneg hnew hcalls hassoc => simp [hcalls]
    | pushing asked entry hcalls hassoc => simp [hcalls, hregisters hassoc]
  · obtain ⟨asked, entry, flushes, hcalls, hassoc, _, hflushes⟩ := haccept
    have hnone : flushes.countP (· matches .wait _) = 0 := by
      split at hflushes
      · obtain ⟨answer, rfl⟩ := hflushes
        rfl
      · rw [hflushes]
        rfl
    simp [hcalls, hregisters hassoc, hnone]

omit [Os H] in
/-- Putting the engine's own read in flight waits for nothing. -/
theorem waits_armWake (e : Engine (Recorder P) H) :
    e.armWake.1.port.waits = e.port.waits := by
  unfold armWake
  split
  · rfl
  · next m s hw =>
    have h := waits_handOff (e.withMemory m) s .silent
    split
    · next e₁ t hh => exact (congrArg (·.1.port.waits) hh).symm.trans h
    · next e₁ f hh => exact (congrArg (·.1.port.waits) hh).symm.trans h

/-- Finishing a completion waits for nothing. -/
theorem waits_complete (e : Engine (Recorder P) H) (c : Completion) (moved : Transfer) :
    (e.complete c moved).1.port.waits = e.port.waits := by
  unfold complete
  split
  · rfl
  · next context slab htake =>
    dsimp only
    split
    · unfold rearmWake
      split
      · rfl
      split
      · rfl
      split
      · next e₁ ha => exact (congrArg (·.1.port.waits) ha).symm.trans (waits_armWake _)
      · next e₁ f ha => exact (congrArg (·.1.port.waits) ha).symm.trans (waits_armWake _)
    · rfl

/-- The waits for completions are those that were listed. -/
theorem waits_await (e : Engine (Recorder P) H) (b : List StorageId) (deadline : Option Nat)
    (rounds : Nat) : (e.await deadline rounds).1.port.waits =
      e.port.waits + (e.awaitWaits b deadline rounds).length := by
  induction rounds generalizing e with
  | zero => rfl
  | succ rounds ih =>
    cases h : e.waitPort deadline rounds with
    | mk e₁ answer =>
      have hwait : e₁.port.waits = e.port.waits + 1 := by
        simp [Recorder.waits, calls_waitPort h]
      cases answer with
      | completion c moved =>
        have hc := waits_complete e₁ c moved
        cases hr : e₁.complete c moved with
        | mk e₂ r =>
          rw [hr] at hc
          match r with
          | .error f => simpa [await, awaitWaits, h, hr, hwait] using hc
          | .ok (some d) => simpa [await, awaitWaits, h, hr, hwait] using hc
          | .ok none =>
            cases hp : e₂.runPosted with
            | some x =>
              have hport : x.1.port = e₂.port := port_of_runPosted hp
              simpa [await, awaitWaits, h, hr, hp, hwait, hport] using hc
            | none =>
              have hrest := ih e₂
              simp only [await, awaitWaits, h, hr, hp, Option.isSome_none, Bool.false_eq_true,
                if_false, List.length_cons, List.length_map]
              rw [hrest, hc, hwait]
              omega
      | timeout =>
        have hcounted : e₁.countTimeout.port.waits = e.port.waits + 1 := hwait
        simpa [await, awaitWaits, h] using hcounted
      | _ => simpa [await, awaitWaits, h] using hwait

/-- The waits of a pump are those that were listed. -/
theorem waits_pump (e : Engine (Recorder P) H) (b : List StorageId) (timeout : Option Duration)
    (rounds : Nat) : (e.pump timeout rounds).1.port.waits =
      e.port.waits + (e.pumpWaits b timeout rounds).length := by
  cases hd : Os.deadline e.world.host timeout with
  | mk host limit =>
    cases limit with
    | error _ =>
      simp only [pump, pumpWaits, hd]
      rfl
    | ok deadline =>
      cases hp : (e.withHost host).runPosted with
      | some x =>
        have hport : x.1.port = (e.withHost host).port := port_of_runPosted hp
        simp only [pump, pumpWaits, hd, hp, hport]
        rfl
      | none =>
        have hwaits : ((e.withHost host).await deadline rounds).1.port.waits =
            e.port.waits + ((e.withHost host).awaitWaits b deadline rounds).length :=
          waits_await (e.withHost host) b deadline rounds
        simpa [pump, pumpWaits, hd, hp] using hwaits

end Engine

/-- At every wait of every pump of a live engine its own read is in flight, unless a completion
of that read was a failure or the port refused the next one right after it. One refusal is enough:
whatever happened is never undone by what happens later. -/
theorem woken_until_last_read {config : Config} {port : P} {host : H} {e : Engine P H}
    (h : Engine.build config port host = .ready e) (steps : List (Step H))
    (timeout : Option Duration) (rounds : Nat)
    (hlive : ((Client.own e).after steps).gone = false)
    (hroom : (((Client.own e).after steps).step (.pump timeout rounds)).1.engine.slab.slots.length ≤
      2 ^ 32) :
    ∀ w ∈ ((Client.own e).after steps).engine.pumpWaits ((Client.own e).after steps).borrows timeout
        rounds,
      w.2.CanBeWoken ↔ ∀ m ∈ (Client.own e).history steps ++ w.1, ¬ m.1.Deafens := by
  intro w hw
  obtain ⟨hbefore, _, hafter⟩ := Engine.onTheWay_pump _ _ _ _ w hw
  have hnew := Engine.isNew_of_build h
  have ho := (Engine.orderly_of_build h).after steps
  have hpath := ((Client.own e).path_history steps).trans hbefore
  have hengine : (((Client.own e).after steps).step (.pump timeout rounds)).1.engine =
      (((Client.own e).after steps).engine.pump timeout rounds).1 := by
    simp only [Client.step, hlive, Bool.false_eq_true, if_false]
  rw [hengine] at hroom
  have hroom' := Nat.le_trans hafter.length_slots_le hroom
  obtain ⟨hs, _⟩ := hpath.induct (I := fun _ _ => True) hnew.sound hroom' trivial
    fun _ _ _ _ _ _ _ _ _ => trivial
  obtain ⟨hlasts, hleaked⟩ := hafter.lasts hs hroom
  have hpump := (((Client.own e).after steps).engine.serves_pump
    ((Client.own e).after steps).borrows timeout rounds).1
  have hclosed := hlasts.closed (hpump.closed.trans (ho.closed.trans hlive))
  have hnone := List.prefix_nil.mp (hpump.leaked.trans (ho.kept hlive) ▸ hleaked)
  exact (hpath.listening hnew.sound hroom' hnew.settled (Engine.listening_of_build h) hclosed
    hnone).canBeWoken_iff

/-- A port that refuses one push, the first one after the engine was built, because it is busy,
and then has a completion of the engine's own read. -/
def Scripted.busyOnce : Scripted :=
  { pushes := [none, some (.system Errno.busy)], waits := [.completion .wake 8 0 {}] }

theorem woken_until_last_read_of_busyOnce : ∃ e : Engine Scripted Host,
    Engine.build {} Scripted.busyOnce Host.start = .ready e ∧
    ((Client.own e).after [.pump (some .zero) 9]).gone = false ∧
    (((Client.own e).after [.pump (some .zero) 9]).step
      (.pump none 9)).1.engine.slab.slots.length ≤ 2 ^ 32 ∧
    ∀ w ∈ ((Client.own e).after [.pump (some .zero) 9]).engine.pumpWaits
        ((Client.own e).after [.pump (some .zero) 9]).borrows none 9,
      w.2.CanBeWoken ↔
        ∀ m ∈ (Client.own e).history [.pump (some .zero) 9] ++ w.1, ¬ m.1.Deafens := by
  refine ⟨_, rfl, by decide +kernel, by decide +kernel, ?_⟩
  exact @woken_until_last_read Scripted Host _ _ {} Scripted.busyOnce Host.start _ rfl
    [.pump (some .zero) 9] none 9 (by decide +kernel) (by decide +kernel)

/-- All of the engine's own reads succeeded, and still a pump without a time limit waits when it
cannot be woken. -/
theorem deaf_after_one_refusal : ∃ e : Engine Scripted Host,
    Engine.build {} Scripted.busyOnce Host.start = .ready e ∧
    ((Client.own e).after [.pump (some .zero) 9]).gone = false ∧
    ∃ w ∈ ((Client.own e).after [.pump (some .zero) 9]).engine.pumpWaits
        ((Client.own e).after [.pump (some .zero) 9]).borrows none 9,
      heard ((Client.own e).history [.pump (some .zero) 9] ++ w.1) = [8] ∧
        ¬ w.2.CanBeWoken := by
  refine ⟨_, rfl, by decide +kernel, _, List.mem_of_mem_head? (by rfl), by decide +kernel, ?_⟩
  rintro ⟨t, _, _, ht, _⟩
  cases ht

end Proactor
