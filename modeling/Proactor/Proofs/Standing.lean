import Proactor.Proofs.Asking
import Proactor.Proofs.Building
import Proactor.Proofs.Dispatch
import Proactor.Proofs.Lending

/-!
# Until an engine is closed

What stays true as long as an engine lives: its port is not shut down, every operation submitted
is in flight or was dispatched, each storage has one holder, and storages only ever come to be.
-/

namespace Proactor

variable {P H : Type} [CompletionPort P H]

/-! ### What a live engine asks of its port -/

namespace Engine

/-- The calls on the port from one engine to another do not shut it down. -/
def Asks (e e' : Engine (Recorder P) H) : Prop :=
  ∃ asked, e'.port.calls = e.port.calls ++ asked ∧ .shutdown ∉ asked

section

variable {e e' : Engine (Recorder P) H}

omit [CompletionPort P H] in
/-- What a live engine asks of its port does not shut it down. -/
theorem Deals.asks (h : Deals e e') : Asks e e' := by
  obtain ⟨asked, hcalls, hasked⟩ := h
  exact ⟨asked, hcalls, hasked.shutdown_not_mem⟩

omit [CompletionPort P H] in
/-- A port that was not shut down before is not shut down after. -/
theorem Asks.not_mem (h : Asks e e') (hnot : .shutdown ∉ e.port.calls) :
    .shutdown ∉ e'.port.calls := by
  obtain ⟨asked, hcalls, hasked⟩ := h
  rw [hcalls]
  exact fun hmem => (List.mem_append.mp hmem).elim hnot hasked

end

end Engine

/-- Every call but those that close the engine. -/
theorem Client.asks_step [Os H] (c : Client (Recorder P) H) (s : Step H)
    (h : c.closes s = false) : c.engine.Asks (c.step s).1.engine := by
  cases hforgets : c.forgets? s with
  | none => exact (c.deals_step s h hforgets).asks
  | some fd =>
    rw [(Client.step_of_forgets hforgets).2.2]
    exact ⟨[], (List.append_nil _).symm, List.not_mem_nil⟩

/-- A port that was never asked anything before its engine was built was not shut down since. -/
theorem Engine.not_shutdown_of_build [Os H] {config : Config} {port : P} {host : H}
    {e : Engine (Recorder P) H}
    (h : Engine.build config (⟨port, []⟩ : Recorder P) host = .ready e) :
    .shutdown ∉ e.port.calls := by
  have hb := Engine.builds_build config port host
  rw [h] at hb
  exact hb.shutdown_not_mem rfl

/-! ### What every state is like -/

/-- As long as nothing was given up, every operation that was submitted is in flight, or its
callback was called. -/
def Scene.Counted (s : Scene P H) : Prop :=
  s.engine.leaked = [] →
    s.engine.stats.submitted + s.engine.wakeToken.toList.length =
      s.engine.stats.dispatched + s.running.toList.length + s.engine.slab.live

variable [Os H]

omit [Os H] in
/-- Calling a submitter counts one operation and puts it in flight, or does neither. -/
private theorem counted_place {e : Engine P H} {b : List StorageId} (o : Order StorageId)
    (cb : Callback) (hs : e.slab.Sound) (hroom : (e.place o cb).1.slab.slots.length ≤ 2 ^ 32)
    (hc : Scene.Counted ⟨e, b, none⟩) : Scene.Counted ⟨(e.place o cb).1, b, none⟩ := by
  intro hleaked
  cases hp : e.place o cb with
  | mk e' r =>
    rw [hp] at hroom hleaked
    cases r with
    | ok t =>
      obtain ⟨m, sub, _, rfl, p, host, j, a, rfl⟩ := Engine.place_eq_ok hp
      have hcount := hc hleaked
      have hlive := Slab.live_insert e.slab (Engine.contextOf sub cb)
      change e.stats.submitted + e.wakeToken.toList.length =
        e.stats.dispatched + 0 + e.slab.live at hcount
      change e.stats.submitted + 1 + e.wakeToken.toList.length =
        e.stats.dispatched + 0 + (e.slab.insert (Engine.contextOf sub cb)).1.live
      omega
    | error f =>
      rcases Engine.place_eq_error hs hroom hp with ⟨_, rfl⟩ | ⟨_, slab, p, host, j, a, hk, rfl⟩
      · exact hc hleaked
      · have hcount := hc hleaked
        rw [← hk.live] at hcount
        exact hcount

/-- The engine's own read is not counted, whether it is put in flight again or not. -/
private theorem counted_woken {e : Engine P H} {b : List StorageId} {c : Completion}
    {moved : Transfer} {context : Context} {slab : Slab Context} (hs : e.slab.Sound)
    (htake : e.slab.take c.token = some (context, slab)) (hwake : e.wakeToken = some c.token)
    (hroom : ((e.wakeSettled slab context c moved).rearmWake
      (e.world.settle context.pinned c.result moved).2).slab.slots.length ≤ 2 ^ 32)
    (hc : Scene.Counted ⟨e, b, none⟩) :
    Scene.Counted ⟨(e.wakeSettled slab context c moved).rearmWake
      (e.world.settle context.pinned c.result moved).2, b, none⟩ := by
  have hlive : e.slab.live = slab.live + 1 := hs.live_take htake
  have htaken : slab.Sound := hs.take htake
  have hcounted : e.leaked = [] → e.stats.submitted = e.stats.dispatched + slab.live := by
    intro hleaked
    have hcount := hc hleaked
    change e.stats.submitted + e.wakeToken.toList.length =
      e.stats.dispatched + 0 + e.slab.live at hcount
    rw [hwake, Option.toList_some, List.length_singleton] at hcount
    omega
  intro hleaked
  rcases Engine.rearmWake_cases _ htaken hroom with
    ⟨slab', p, host, j, a, hk, he⟩ | ⟨next, m, _, _, p, host, j, a, he⟩
  · rw [he] at hleaked ⊢
    have hcount := hcounted hleaked
    have hsame : slab'.live = slab.live := hk.live
    change e.stats.submitted + 0 = e.stats.dispatched + 0 + slab'.live
    omega
  · rw [he] at hleaked ⊢
    have hcount := hcounted hleaked
    have hnext := Slab.live_insert slab next
    change e.stats.submitted + 1 = e.stats.dispatched + 0 + (slab.insert next).1.live
    omega

omit [Os H] in
/-- If nothing was given up there was nothing in flight. -/
private theorem counted_abandon {e : Engine P H} {b : List StorageId} (hs : e.slab.Sound)
    (hwake : ∀ t, e.wakeToken = some t → ∃ context, e.slab.get? t = some context)
    (hc : Scene.Counted ⟨e, b, none⟩) : Scene.Counted ⟨e.abandon.1, b, none⟩ := by
  obtain ⟨journal, he⟩ := e.abandon_eq
  intro hleaked
  rw [he] at hleaked ⊢
  obtain ⟨hbefore, hnone⟩ := List.append_eq_nil_iff.mp hleaked
  have hcount := hc hbefore
  have hlive : e.slab.live = 0 := by
    rw [hs.live_eq]
    exact congrArg List.length hnone
  have hwakeless : e.wakeToken = none := by
    cases hw : e.wakeToken with
    | none => rfl
    | some t =>
      obtain ⟨context, hget⟩ := hwake t hw
      exact absurd hlive (Nat.pos_iff_ne_zero.mp (hs.live_pos hget))
  change e.stats.submitted + e.wakeToken.toList.length =
    e.stats.dispatched + 0 + e.slab.live at hcount
  rw [hwakeless, hlive] at hcount
  exact hcount

/-- Every step keeps the count of operations right. -/
theorem Happens.counted {s s' : Scene P H} {ev : Event P H} (h : Happens s ev s')
    (hs : s.engine.slab.Sound) (hroom : s'.engine.slab.slots.length ≤ 2 ^ 32)
    (hwake : ∀ t, s.engine.wakeToken = some t → ∃ context, s.engine.slab.get? t = some context)
    (hc : s.Counted) : s'.Counted := by
  cases h with
  | place e b o cb => exact counted_place o cb hs hroom hc
  | associate e b fd =>
    obtain ⟨p, host, j, a, he⟩ := e.associate_eq_beside fd
    rw [he]
    exact hc
  | dissociate e b fd => exact hc
  | waited e e' b deadline rounds w hw h =>
    obtain ⟨p, host, j, rfl⟩ := Engine.waitPort_eq_beside h
    exact hc
  | unknown e e' b deadline rounds c moved h ht =>
    obtain ⟨p, host, j, rfl⟩ := Engine.waitPort_eq_beside h
    exact hc
  | woken e e' b deadline rounds c moved context slab h ht hwas =>
    obtain ⟨p, host, j, rfl⟩ := Engine.waitPort_eq_beside h
    exact counted_woken (e := e.beside p host j e.associated) hs ht hwas hroom hc
  | called e e' b deadline rounds c moved context slab o h ht hne ho =>
    obtain ⟨p, host, j, rfl⟩ := Engine.waitPort_eq_beside h
    have hlive : e.slab.live = slab.live + 1 := hs.live_take ht
    intro hleaked
    have hcount := hc hleaked
    change e.stats.submitted + e.wakeToken.toList.length =
      e.stats.dispatched + 0 + e.slab.live at hcount
    change e.stats.submitted + e.wakeToken.toList.length = e.stats.dispatched + 1 + slab.live
    omega
  | returned e b context =>
    intro hleaked
    have hcount := hc hleaked
    change e.stats.submitted + e.wakeToken.toList.length =
      e.stats.dispatched + 1 + e.slab.live at hcount
    exact hcount
  | abandon e b => exact counted_abandon hs hwake hc
  | _ => exact hc

/-- What every scene of a program with an engine is like. -/
structure Scene.Standing (s : Scene P H) : Prop where
  upright : s.engine.Upright
  counted : s.Counted
  settled : s.Settled

/-- A path keeps every scene like that. -/
theorem Path.standing {s₀ s : Scene P H} {τ : List (Moment P H)} (h : Path s₀ τ s)
    (hfirst : s₀.Standing) (hroom : s.engine.slab.slots.length ≤ 2 ^ 32) : s.Standing := by
  let I (_ : List (Moment P H)) (s : Scene P H) : Prop :=
    (∀ t, s.engine.wakeToken = some t → ∃ context, s.engine.slab.get? t = some context) ∧
      s.Counted ∧ s.Settled
  suffices hI : s.engine.slab.Sound ∧ I τ s from ⟨⟨hI.1, hI.2.1⟩, hI.2.2.1, hI.2.2.2⟩
  refine h.induct hfirst.upright.sound hroom
    ⟨hfirst.upright.wake, hfirst.counted, hfirst.settled⟩ ?_
  rintro τ s ev s' hs hroom hstep hturn ⟨hwake, hcounted, hsettled⟩
  exact ⟨hturn.wake_live hs hroom hwake, hstep.counted hs hroom hwake hcounted,
    hturn.settled hs hsettled⟩

omit [Os H] in
/-- A new engine is like that. -/
theorem Engine.IsNew.standing {e : Engine P H} (h : e.IsNew) :
    (Client.own e).scene.Standing where
  upright := by
    refine ⟨h.sound, fun t ht => ?_⟩
    obtain ⟨t', context, hwake, hget⟩ := h.exists_wake
    obtain rfl := Option.some.inj (hwake.symm.trans ht)
    exact ⟨context, hget⟩
  counted := by
    obtain ⟨context, _, hslab, hwake⟩ := h.slab
    intro _
    have hlive := Slab.live_insert ({} : Slab Context) context
    change e.stats.submitted + e.wakeToken.toList.length = e.stats.dispatched + 0 + e.slab.live
    rw [h.stats, hslab, hwake, hlive]
    rfl
  settled := h.settled

/-- A storage that there is stays. -/
theorem Path.exists_storage {s₀ s : Scene P H} {τ : List (Moment P H)} (h : Path s₀ τ s)
    (hs : s₀.engine.slab.Sound) (hroom : s.engine.slab.slots.length ≤ 2 ^ 32) (id : StorageId)
    (hid : s₀.lend? id ≠ none) : s.lend? id ≠ none := by
  refine (h.induct (I := fun _ s => s.lend? id ≠ none) hs hroom hid ?_).2
  intro τ s ev s' _ _ _ hturn hid
  have hback : ∀ {s s' : Scene P H} {ids : List StorageId}, s.GivesBack ids s' →
      s.lend? id ≠ none → s'.lend? id ≠ none := by
    intro s s' ids hlend hid
    rw [hlend]
    split <;> simpa using hid
  have hlends : ∀ {s s' : Scene P H} {ids : List StorageId}, s.Lends ids s' →
      s.lend? id ≠ none → s'.lend? id ≠ none := by
    intro s s' ids hlend hid
    rw [hlend.lend?]
    split
    · simp
    · exact hid
  cases hturn with
  | kept hev hk hborrows hrunning hlend => exact (hlend id).symm ▸ hid
  | allocated new hk hborrows hrunning hnone hlend =>
    rw [hlend]
    split
    · simp
    · exact hid
  | borrowed other hk hborrows hrunning hidle hlend =>
    rw [hlend]
    split
    · simp
    · exact hid
  | gaveBack other hk hmem hborrows hrunning hlend => exact hback hlend hid
  | entered context hcb hslab hwake hleaked hborrows hrunning hlend => exact hlends hlend hid
  | woken context slab hseen htake hwas hslab hwake hleaked hborrows hrunning hlend =>
    exact hback hlend hid
  | rearmed context next slab between hseen htake hwas hslab hwake hleaked hborrows hrunning
      hback' hlend => exact hlends hlend (hback hback' hid)
  | called context slab hseen htake hwas hslab hwake hleaked hborrows hrunning hlend =>
    exact hback hlend hid
  | abandoned hslab hwake hleaked hborrows hrunning hlend => exact (hlend id).symm ▸ hid

end Proactor
