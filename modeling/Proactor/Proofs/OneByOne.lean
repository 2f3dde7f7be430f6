import Proactor.Proofs.Backlog

/-!
# One callback a pump

A backlog is taken one callback a pump. The posted callbacks come first, and for them no pump waits.
Then each pump waits until it has the completion of a user's operation, in the order in which they
are due, and consumes the completions of the engine's own read before it on the way.
-/

namespace Proactor

variable {P H : Type} [CompletionPort P H] [Os H]

/-- Completions of the engine's own read that succeeded. -/
def Due.AllOwn (W : List Due) : Prop :=
  ∀ d ∈ W, ∃ result flags moved, d = .own result flags moved ∧ 0 ≤ result.toInt

namespace Engine

variable {e e' : Engine P H} {b : List StorageId} {wake : Fd} {n : Nat} {limited : Bool}
  {Holds : Station P H → List Due → Prop} {W : List Due}

/-! ### One wait -/

omit [CompletionPort P H] in
theorem isSome_remaining (host : H) (deadline : Option Nat) :
    (Os.remaining host deadline).2.isSome = deadline.isSome := by
  cases deadline <;> rfl

section

variable (hport : Backlog P H wake n limited Holds) (deadline : Option Nat) {rounds : Nat}
  (hrounds : n ≤ rounds)
include hport

/-- Reading the clock leaves what is due. -/
theorem holds_remaining {x : Station P H} (hholds : Holds x W) :
    Holds (x.withHost (Os.remaining x.host deadline).1) W := by
  cases deadline with
  | none => exact hholds
  | some d => exact hport.clock hholds

include hrounds

/-- A wait hands out the completion of a user's operation that is due. -/
theorem waitPort_of_user {c : Completion} {moved : Transfer}
    (hholds : Holds e.station (.user c moved :: W)) :
    ∃ e', e.waitPort deadline rounds = (e', .completion c moved) ∧ Holds e'.station W := by
  obtain ⟨hanswer, hafter⟩ := hport.user (holds_remaining hport deadline hholds) rounds
    e.world.memory (Os.remaining e.world.host deadline).2 hrounds
  exact ⟨_, Prod.ext rfl hanswer, hafter⟩

/-- A wait hands out the completion of the engine's own read that is due. -/
theorem waitPort_of_own {result : Int64} {flags : UInt32} {moved : Transfer} {t : Token}
    (hholds : Holds e.station (.own result flags moved :: W)) (ht : e.wakeToken = some t) :
    ∃ e', e.waitPort deadline rounds = (e', .completion ⟨t, result, flags⟩ moved) ∧
      Holds e'.station.disarm W := by
  obtain ⟨hanswer, hafter⟩ := hport.own (holds_remaining hport deadline hholds) t ht rounds
    e.world.memory (Os.remaining e.world.host deadline).2 hrounds
  exact ⟨_, Prod.ext rfl hanswer, hafter⟩

/-- A wait ends at its time limit when nothing is due. -/
theorem waitPort_of_dry (hholds : Holds e.station [])
    (hlimited : limited = true → deadline.isSome = true) :
    ∃ e', e.waitPort deadline rounds = (e', .timeout) := by
  have hanswer := hport.dry (holds_remaining hport deadline hholds) rounds e.world.memory
    (Os.remaining e.world.host deadline).2 hrounds fun h =>
      (isSome_remaining e.world.host deadline).trans (hlimited h)
  exact ⟨_, Prod.ext rfl hanswer⟩

end

/-! ### Consuming completions of the engine's own read -/

/-- Waiting comes through so many waits from one engine to another, and calls no callback on the
way. -/
structure Skips (e e' : Engine P H) (b : List StorageId) (deadline : Option Nat)
    (rounds waits : Nat) : Prop where
  await : e.await deadline (rounds + waits) = e'.await deadline rounds
  called : calledDuring (e.awaitMoments b deadline (rounds + waits)) =
    calledDuring (e'.awaitMoments b deadline rounds)
  waits : (e.awaitWaits b deadline (rounds + waits)).length =
    (e'.awaitWaits b deadline rounds).length + waits

theorem Skips.refl (e : Engine P H) (b : List StorageId) (deadline : Option Nat) (rounds : Nat) :
    Skips e e b deadline rounds 0 := ⟨rfl, rfl, rfl⟩

/-- A wait comes before others when its completion was of the engine's own read and nothing is
posted. -/
theorem Skips.cons {e₁ e₂ : Engine P H} {deadline : Option Nat} {rounds waits : Nat}
    {c : Completion} {moved : Transfer} (h : Skips e₂ e' b deadline rounds waits)
    (hwait : e.waitPort deadline (rounds + waits) = (e₁, .completion c moved))
    (hcomplete : e₁.complete c moved = (e₂, .ok none))
    (hsilent : Silent (e₁.completeMoments b c moved)) (hposted : e₂.runPosted = none) :
    Skips e e' b deadline rounds (waits + 1) where
  await := by
    rw [← h.await, ← Nat.add_assoc]
    simp only [Engine.await, hwait, hcomplete, hposted]
  called := by
    rw [← h.called, ← Nat.add_assoc]
    simp [awaitMoments, hwait, hcomplete, hposted, calledDuring_append, hsilent.calledDuring]
  waits := by
    rw [← Nat.add_assoc, ← Nat.add_assoc, ← h.waits]
    simp [awaitWaits, hwait, hcomplete, hposted]

/-- Waiting consumes the completions of the engine's own read that are due first. -/
theorem Going.skips {own : List Due} (hg : e.Going b) (hqueue : e.world.injector.queue = [])
    (hport : Backlog P H e.world.injector.wake n limited Holds) (hown : Due.AllOwn own)
    (harmed : own ≠ [] → e.wakeToken ≠ none) (hholds : Holds e.station (own ++ W))
    (deadline : Option Nat) {rounds : Nat} (hrounds : n ≤ rounds) :
    ∃ e', Skips e e' b deadline rounds own.length ∧ e'.Going b ∧ Passes e e' [] ∧
      Holds e'.station W ∧ (e.wakeToken ≠ none → e'.wakeToken ≠ none) := by
  induction own generalizing e with
  | nil => exact ⟨e, .refl e b deadline rounds, hg, .refl e, hholds, id⟩
  | cons d own ih =>
    obtain ⟨result, flags, moved, rfl, hok⟩ := hown d List.mem_cons_self
    obtain ⟨t, ht⟩ := Option.ne_none_iff_exists'.mp (harmed (List.cons_ne_nil _ _))
    obtain ⟨e₁, hwait, hholds₁⟩ := waitPort_of_own hport deadline
      (Nat.le_trans hrounds (Nat.le_add_right rounds own.length)) hholds ht
    obtain ⟨e₂, hcomplete, hg₂, hpasses, hholds₂, harmed₂, hsilent⟩ :=
      hg.complete_own hport hwait ht hok hholds₁
    have hqueue₂ : e₂.world.injector.queue = [] := by rw [hpasses.injector, hqueue]
    have hport₂ : Backlog P H e₂.world.injector.wake n limited Holds := by
      rw [hpasses.injector]
      exact hport
    obtain ⟨e', hskips, hg', hpasses', hholds', harmed'⟩ := ih hg₂ hqueue₂ hport₂
      (fun d hd => hown d (List.mem_cons_of_mem _ hd)) (fun _ => harmed₂) hholds₂
    exact ⟨e', hskips.cons hwait hcomplete hsilent ((runPosted_eq_none_iff e₂).mpr hqueue₂), hg',
      hpasses.trans hpasses', hholds', fun _ => harmed' harmed₂⟩

/-! ### One pump -/

/-- An engine goes on when its clock is read. -/
theorem Going.withHost (hg : e.Going b) (host : H) : (e.withHost host).Going b :=
  hg.of_path (.single (.aside e b none host e.world.journal e.stats.timeouts)) hg.live hg.leaked
    hg.room

omit [CompletionPort P H] in
/-- A pump begins by reading the clock. -/
theorem exists_deadline {host : H} {timeout : Option Duration} (h : Os.Tells host timeout) :
    ∃ host' deadline, Os.deadline host timeout = (host', .ok deadline) ∧
      deadline.isSome = timeout.isSome ∧ (host' = host ∨ host' = (Os.now host).1) := by
  cases timeout with
  | none => exact ⟨_, _, rfl, rfl, .inl rfl⟩
  | some d => exact ⟨_, _, Prod.ext rfl (Os.deadline_of_tells h), rfl, .inr rfl⟩

/-- Reading the clock leaves what is due. -/
theorem holds_clock (hport : Backlog P H wake n limited Holds) (hholds : Holds e.station W)
    {host : H} (hhost : host = e.world.host ∨ host = (Os.now e.world.host).1) :
    Holds (e.withHost host).station W := by
  rcases hhost with rfl | rfl
  · exact hholds
  · exact hport.clock hholds

/-- The first posted callback was run, and nothing else has changed. -/
structure RunsFirst (e e' : Engine P H) : Prop where
  injector : e'.world.injector = { e.world.injector with queue := e.world.injector.queue.tail }
  injected : e'.stats.injected = e.stats.injected + 1
  port : e'.port = e.port
  slab : e'.slab = e.slab
  wakeToken : e'.wakeToken = e.wakeToken

/-- A pump runs the first posted callback, and asks the port for nothing. -/
theorem Going.pump_posted (hg : e.Going b) {cb : Callback} {queue : List Callback}
    (hqueue : e.world.injector.queue = cb :: queue) (hquiet : cb.NeverPosts H)
    (hport : Backlog P H wake n limited Holds) (hholds : Holds e.station W)
    {timeout : Option Duration} (htells : Os.Tells e.world.host timeout) (rounds : Nat) :
    ∃ e', e.pump timeout rounds =
        (e', .dispatched ⟨.internal (UInt64.ofNat e.stats.injected), .done⟩) ∧
      e'.Going b ∧ RunsFirst e e' ∧ Holds e'.station W ∧
      calledDuring (e.pumpMoments b timeout rounds) = [cb] := by
  obtain ⟨host, deadline, hdeadline, _, hhost⟩ := exists_deadline htells
  have hpath := e.path_pump b timeout rounds
  let world : World H := { e.world with host, injector.queue := queue }
  have hpop : (e.withHost host).world.pop = some (cb, world) := World.pop_of_queue hqueue
  obtain ⟨hstill, hinjector⟩ := (world.record (.ran cb.tag .done)).still_acts cb.actions
    (hquiet (world.record (.ran cb.tag .done)))
  let e' : Engine P H := { e.withHost host with
    world := world.run cb .done
    stats := { e.stats with injected := e.stats.injected + 1 } }
  have hposted : (e.withHost host).runPosted =
      some (e', ⟨.internal (UInt64.ofNat e.stats.injected), .done⟩) := by
    simp only [runPosted, hpop]
    rfl
  have hpump : e.pump timeout rounds =
      (e', .dispatched ⟨.internal (UInt64.ofNat e.stats.injected), .done⟩) := by
    simp only [pump, hdeadline, hposted]
  refine ⟨e', hpump, ?_, ⟨?_, rfl, rfl, rfl, rfl⟩, ?_, ?_⟩
  · rw [hpump] at hpath
    exact hg.of_path hpath hg.live hg.leaked hg.room
  · have hafter : e'.world.injector = world.injector := hinjector
    rw [hafter, hqueue]
    rfl
  · have hafter : e'.station = (e.withHost host).station := by
      have hhost' : e'.world.host = host := hstill
      rw [station, hhost']
      rfl
    rw [hafter]
    exact holds_clock hport hholds hhost
  · have hmoments : calledDuring ((e.withHost host).postedMoments b) = [cb] := by
      simp only [postedMoments, hpop]
      apply calledDuring_callback
      rfl
    simp only [pumpMoments, hdeadline, hposted, Option.isSome_some, if_true]
    exact hmoments

/-- A pump with nothing posted waits. -/
theorem pump_of_runPosted_eq_none {timeout : Option Duration} {host : H}
    {deadline : Option Nat} (hdeadline : Os.deadline e.world.host timeout = (host, .ok deadline))
    (hqueue : e.world.injector.queue = []) (rounds : Nat) :
    e.pump timeout rounds = (e.withHost host).await deadline rounds ∧
      calledDuring (e.pumpMoments b timeout rounds) =
        calledDuring ((e.withHost host).awaitMoments b deadline rounds) ∧
      (e.pumpWaits b timeout rounds).length =
        ((e.withHost host).awaitWaits b deadline rounds).length := by
  have hposted : (e.withHost host).runPosted = none := (runPosted_eq_none_iff _).mpr hqueue
  refine ⟨by simp only [pump, hdeadline, hposted], ?_, ?_⟩
  · simp only [pumpMoments, hdeadline, hposted, Option.isSome_none, Bool.false_eq_true, if_false]
    rfl
  · simp [pumpWaits, hdeadline, hposted]

section

variable (hg : e.Going b) (hqueue : e.world.injector.queue = [])
  (hport : Backlog P H e.world.injector.wake n limited Holds) {own : List Due}
  (hown : Due.AllOwn own) (harmed : own ≠ [] → e.wakeToken ≠ none)
  {timeout : Option Duration} (htells : Os.Tells e.world.host timeout) {rounds : Nat}
  (hrounds : n + own.length < rounds)
include hg hqueue hport hown harmed htells hrounds

/-- A pump with nothing posted dispatches the first completion of a user's operation that is due,
after as many waits as there are completions of the engine's own read before it. -/
theorem Going.pump_user {c : Completion} {moved : Transfer} {context : Context}
    (hholds : Holds e.station (own ++ .user c moved :: W))
    (huser : e.user? c.token = some context) (hquiet : context.callback.NeverPosts H) :
    ∃ e' o, e.pump timeout rounds = (e', .dispatched ⟨c.token, o⟩) ∧ e'.Going b ∧
      Passes e e' [c.token] ∧ Holds e'.station W ∧ (e.wakeToken ≠ none → e'.wakeToken ≠ none) ∧
      calledDuring (e.pumpMoments b timeout rounds) = [context.callback] ∧
      (e.pumpWaits b timeout rounds).length = own.length + 1 := by
  obtain ⟨host, deadline, hdeadline, _, hhost⟩ := exists_deadline htells
  obtain ⟨k, rfl⟩ : ∃ k, rounds = n + k + 1 + own.length := ⟨rounds - (n + own.length + 1), by omega⟩
  obtain ⟨hpump, hcalled, hwaits⟩ := pump_of_runPosted_eq_none (b := b) hdeadline hqueue
    (n + k + 1 + own.length)
  have hle : n ≤ n + k + 1 := by omega
  obtain ⟨e₁, hskips, hg₁, hpasses, hholds₁, harmed₁⟩ := (hg.withHost host).skips hqueue hport hown
    harmed (holds_clock hport hholds hhost) deadline hle
  have hport₁ : Backlog P H e₁.world.injector.wake n limited Holds := by
    rw [hpasses.injector]
    exact hport
  have huser₁ : e₁.user? c.token = some context := by
    rw [hpasses.user?, if_neg List.not_mem_nil]
    exact huser
  obtain ⟨e₂, hwait, hholds₂⟩ := waitPort_of_user hport₁ deadline (Nat.le_add_right n k) hholds₁
  obtain ⟨e', o, hcomplete, hg', hpasses', hholds', harmed', hcalled'⟩ :=
    hg₁.complete_user hport₁ hwait huser₁ hquiet hholds₂
  have hall : Passes e e' [c.token] := by
    have hclock : Passes e (e.withHost host) [] :=
      .beside e e.port host e.world.journal e.associated
    exact hclock.trans (hpasses.trans hpasses')
  refine ⟨e', o, ?_, hg', hall, hholds', fun hwake => harmed'.symm ▸ harmed₁ hwake, ?_, ?_⟩
  · rw [hpump, hskips.await]
    simp only [await, hwait, hcomplete]
  · rw [hcalled, hskips.called]
    simp only [awaitMoments, hwait, hcomplete, List.append_nil]
    exact hcalled'
  · rw [hwaits, hskips.waits]
    simp [awaitWaits, hwait, hcomplete, Nat.add_comm]

/-- A pump with nothing posted and no completion of a user's operation due ends at its time
limit. -/
theorem Going.pump_dry (hholds : Holds e.station own)
    (hlimited : limited = true → timeout.isSome = true) :
    ∃ e', e.pump timeout rounds = (e', .timeout) ∧ Passes e e' [] ∧
      calledDuring (e.pumpMoments b timeout rounds) = [] ∧
      (e.pumpWaits b timeout rounds).length = own.length + 1 := by
  obtain ⟨host, deadline, hdeadline, hsome, hhost⟩ := exists_deadline htells
  obtain ⟨k, rfl⟩ : ∃ k, rounds = n + k + 1 + own.length := ⟨rounds - (n + own.length + 1), by omega⟩
  obtain ⟨hpump, hcalled, hwaits⟩ := pump_of_runPosted_eq_none (b := b) hdeadline hqueue
    (n + k + 1 + own.length)
  have hle : n ≤ n + k + 1 := by omega
  have hnil : Holds (e.withHost host).station (own ++ []) := by
    rw [List.append_nil]
    exact holds_clock hport hholds hhost
  obtain ⟨e₁, hskips, hg₁, hpasses, hholds₁, _⟩ := (hg.withHost host).skips hqueue hport hown
    harmed hnil deadline hle
  have hport₁ : Backlog P H e₁.world.injector.wake n limited Holds := by
    rw [hpasses.injector]
    exact hport
  obtain ⟨e₂, hwait⟩ := waitPort_of_dry hport₁ deadline (Nat.le_add_right n k) hholds₁
    fun h => hsome.trans (hlimited h)
  refine ⟨e₂.countTimeout, ?_, ?_, ?_, ?_⟩
  · rw [hpump, hskips.await]
    simp only [await, hwait]
  · obtain ⟨p, host', j, rfl⟩ := waitPort_eq_beside hwait
    have hclock : Passes e (e.withHost host) [] :=
      .beside e e.port host e.world.journal e.associated
    have hcount : Passes e₁ (e₁.beside p host' j e₁.associated).countTimeout [] :=
      ⟨fun _ => rfl, rfl, rfl, rfl, rfl, rfl, rfl⟩
    exact hclock.trans (hpasses.trans hcount)
  · rw [hcalled, hskips.called]
    simp only [awaitMoments, hwait]
    exact (Silent.cons rfl (silent_single rfl)).calledDuring
  · rw [hwaits, hskips.waits]
    simp [awaitWaits, hwait, Nat.add_comm]

end

end Engine

/-! ### What is due, and for whom -/

namespace Due

theorem tokens_append (W W' : List Due) : tokens (W ++ W') = tokens W ++ tokens W' :=
  List.filterMap_append

/-- What is due first is of the engine's own read, up to the first that is of a user. -/
theorem exists_split (W : List Due) : ∃ own rest, W = own ++ rest ∧ tokens own = [] ∧
    (rest = [] ∨ ∃ c moved W', rest = .user c moved :: W') := by
  induction W with
  | nil => exact ⟨[], [], rfl, rfl, .inl rfl⟩
  | cons d W ih =>
    cases d with
    | user c moved => exact ⟨[], _, rfl, rfl, .inr ⟨c, moved, W, rfl⟩⟩
    | own result flags moved =>
      obtain ⟨own, rest, rfl, hown, hrest⟩ := ih
      exact ⟨.own result flags moved :: own, rest, rfl, hown, hrest⟩

end Due

/-- What is due is of operations of users that are in flight, each due once and with a callback that
never posts, and of the engine's own read, which is in flight and succeeds. -/
structure Engine.Expects (e : Engine P H) (W : List Due) : Prop where
  user : ∀ c moved, .user c moved ∈ W → ∃ context, e.user? c.token = some context ∧
    context.callback.NeverPosts H
  nodup : (Due.tokens W).Nodup
  own : ∀ result flags moved, .own result flags moved ∈ W →
    0 ≤ result.toInt ∧ e.wakeToken ≠ none

namespace Engine.Expects

variable {e e' : Engine P H} {own W : List Due}

omit [CompletionPort P H] in
theorem allOwn (h : e.Expects (own ++ W)) (hown : Due.tokens own = []) : Due.AllOwn own := by
  intro d hd
  cases d with
  | user c moved => cases List.filterMap_eq_nil_iff.mp hown _ hd
  | own result flags moved =>
    exact ⟨result, flags, moved, rfl, (h.own result flags moved (List.mem_append_left _ hd)).1⟩

omit [CompletionPort P H] in
theorem armed (h : e.Expects (own ++ W)) (hown : Due.tokens own = []) (hne : own ≠ []) :
    e.wakeToken ≠ none := by
  obtain ⟨d, hd⟩ := List.exists_mem_of_ne_nil own hne
  obtain ⟨result, flags, moved, rfl, _⟩ := h.allOwn hown d hd
  exact (h.own result flags moved (List.mem_append_left _ hd)).2

omit [CompletionPort P H] in
/-- What is due stays due while nothing of it is retrieved. -/
theorem of_eq (h : e.Expects W) (hslab : e'.slab = e.slab) (hwake : e'.wakeToken = e.wakeToken) :
    e'.Expects W where
  user := by
    intro c moved hmem
    rw [Engine.user?, hslab, hwake]
    exact h.user c moved hmem
  nodup := h.nodup
  own := by
    intro result flags moved hmem
    rw [hwake]
    exact h.own result flags moved hmem

omit [CompletionPort P H] in
/-- What comes after the completion of a user's operation stays due when that is retrieved. -/
theorem rest {c : Completion} {moved : Transfer} (h : e.Expects (own ++ .user c moved :: W))
    (hpasses : e.Passes e' [c.token]) (hwake : e.wakeToken ≠ none → e'.wakeToken ≠ none) :
    e'.Expects W where
  user := by
    intro c' moved' hmem
    obtain ⟨context, huser, hquiet⟩ := h.user c' moved'
      (List.mem_append_right _ (List.mem_cons_of_mem _ hmem))
    refine ⟨context, ?_, hquiet⟩
    have hnodup := h.nodup
    rw [Due.tokens_append] at hnodup
    have hnot := (List.nodup_cons.mp (List.nodup_append.mp hnodup).2.1).1
    have hne : c'.token ≠ c.token := by
      intro he
      apply hnot
      exact List.mem_filterMap.mpr ⟨_, hmem, congrArg some he⟩
    rw [hpasses.user?, if_neg (by simpa using hne)]
    exact huser
  nodup := by
    have hnodup := h.nodup
    rw [Due.tokens_append] at hnodup
    exact (List.nodup_cons.mp (List.nodup_append.mp hnodup).2.1).2
  own := by
    intro result flags moved' hmem
    obtain ⟨hok, harmed⟩ := h.own result flags moved'
      (List.mem_append_right _ (List.mem_cons_of_mem _ hmem))
    exact ⟨hok, hwake harmed⟩

end Engine.Expects

/-! ### Pumps, one after the other -/

/-- Pumps with these time limits and rounds, one after the other. -/
def Step.pumps (l : List (Option Duration × Nat)) : List (Step H) := l.map fun p => .pump p.1 p.2

namespace Client

/-- The callbacks that are called in each of some calls. -/
def calledEach (c : Client P H) : List (Step H) → List (List Callback)
  | [] => []
  | s :: steps => calledDuring (c.moments s) :: (c.step s).1.calledEach steps

theorem after_append (c : Client P H) (steps steps' : List (Step H)) :
    c.after (steps ++ steps') = (c.after steps).after steps' := by
  induction steps generalizing c with
  | nil => rfl
  | cons s steps ih => exact ih (c.step s).1

theorem answers_append (c : Client P H) (steps steps' : List (Step H)) :
    c.answers (steps ++ steps') = c.answers steps ++ (c.after steps).answers steps' := by
  induction steps generalizing c with
  | nil => rfl
  | cons s steps ih => exact congrArg (_ :: ·) (ih (c.step s).1)

theorem calledEach_append (c : Client P H) (steps steps' : List (Step H)) :
    c.calledEach (steps ++ steps') = c.calledEach steps ++ (c.after steps).calledEach steps' := by
  induction steps generalizing c with
  | nil => rfl
  | cons s steps ih => exact congrArg (_ :: ·) (ih (c.step s).1)

theorem inTime_append (c : Client P H) (steps steps' : List (Step H)) :
    c.InTime (steps ++ steps') ↔ c.InTime steps ∧ (c.after steps).InTime steps' := by
  induction steps generalizing c with
  | nil => exact (iff_of_eq (true_and _)).symm
  | cons s steps ih => exact (and_congr_right fun _ => ih (c.step s).1).trans and_assoc.symm

/-- The first of some pumps of an engine that is not gone, and the others. -/
theorem pumps_cons {c : Client P H} (hlive : c.gone = false) {timeout : Option Duration}
    {rounds : Nat} {e' : Engine P H} {p : Pumped} (hpump : c.engine.pump timeout rounds = (e', p))
    (pumps : List (Option Duration × Nat)) :
    c.after (Step.pumps ((timeout, rounds) :: pumps)) =
        { c with engine := e' }.after (Step.pumps pumps) ∧
      c.answers (Step.pumps ((timeout, rounds) :: pumps)) =
        .pumped p :: { c with engine := e' }.answers (Step.pumps pumps) ∧
      c.calledEach (Step.pumps ((timeout, rounds) :: pumps)) =
        calledDuring (c.engine.pumpMoments c.borrows timeout rounds) ::
          { c with engine := e' }.calledEach (Step.pumps pumps) ∧
      (c.InTime (Step.pumps ((timeout, rounds) :: pumps)) →
        { c with engine := e' }.InTime (Step.pumps pumps)) := by
  have hstep : c.step (.pump timeout rounds) = ({ c with engine := e' }, .pumped p) := by
    simp only [step, hlive, hpump, Bool.false_eq_true, if_false]
  have hmoments : c.moments (.pump timeout rounds) =
      c.engine.pumpMoments c.borrows timeout rounds := by
    simp only [moments, hlive, Bool.false_eq_true, if_false]
  simp +contextual [Step.pumps, after, answers, calledEach, InTime, hstep, hmoments]

variable {c c' : Client P H} {n : Nat} {limited : Bool} {Holds : Station P H → List Due → Prop}
  {W : List Due}

/-- A program whose engine goes on, on a port with a backlog that holds what is due for it. -/
structure Faces (c : Client P H) (n : Nat) (limited : Bool) (Holds : Station P H → List Due → Prop)
    (W : List Due) : Prop where
  live : c.gone = false
  going : c.engine.Going c.borrows
  port : Backlog P H c.engine.world.injector.wake n limited Holds
  holds : Holds c.engine.station W
  expects : c.engine.Expects W

/-- Pumps ran the posted callbacks, one each, and nothing else has changed. -/
structure RunsPosted (c c' : Client P H) (pumps : List (Option Duration × Nat)) : Prop where
  answers : c.answers (Step.pumps pumps) =
    (List.range' c.engine.stats.injected c.engine.world.injector.queue.length).map fun i =>
      .pumped (.dispatched ⟨.internal (UInt64.ofNat i), .done⟩)
  called : c.calledEach (Step.pumps pumps) = c.engine.world.injector.queue.map fun cb => [cb]
  empty : c'.engine.world.injector.queue = []
  port : c'.engine.port = c.engine.port
  slab : c'.engine.slab = c.engine.slab
  wakeToken : c'.engine.wakeToken = c.engine.wakeToken

/-- As many pumps as there are posted callbacks run these, and leave what is due. -/
theorem Faces.runs_posted (h : c.Faces n limited Holds W)
    (hquiet : ∀ cb ∈ c.engine.world.injector.queue, cb.NeverPosts H)
    {pumps : List (Option Duration × Nat)}
    (hlength : pumps.length = c.engine.world.injector.queue.length)
    (hlimits : c.InTime (Step.pumps pumps)) :
    RunsPosted c (c.after (Step.pumps pumps)) pumps ∧
      (c.after (Step.pumps pumps)).Faces n limited Holds W := by
  induction pumps generalizing c with
  | nil =>
    have hempty := List.eq_nil_of_length_eq_zero hlength.symm
    refine ⟨⟨?_, ?_, hempty, rfl, rfl, rfl⟩, h⟩
    · rw [hempty]
      rfl
    · rw [hempty]
      rfl
  | cons p pumps ih =>
    obtain ⟨timeout, rounds⟩ := p
    cases hqueue : c.engine.world.injector.queue with
    | nil =>
      rw [hqueue] at hlength
      cases hlength
    | cons cb queue =>
      rw [hqueue] at hquiet hlength
      have htells : Os.Tells c.engine.world.host timeout := hlimits.1
      obtain ⟨e', hpump, hg', hruns, hholds', hcalled⟩ := h.going.pump_posted hqueue
        (hquiet cb List.mem_cons_self) h.port h.holds htells rounds
      obtain ⟨hafter, hanswers, hcalledEach, hlater⟩ := pumps_cons h.live hpump pumps
      have hrest : e'.world.injector.queue = queue := by
        rw [hruns.injector, hqueue]
        rfl
      have hfaces : Faces { c with engine := e' } n limited Holds W := by
        refine ⟨h.live, hg', ?_, hholds', h.expects.of_eq hruns.slab hruns.wakeToken⟩
        rw [hruns.injector]
        exact h.port
      obtain ⟨hran, hend⟩ := ih hfaces
        (fun other hmem => hquiet other (List.mem_cons_of_mem _ (hrest ▸ hmem)))
        (by rw [hrest]; exact Nat.succ.inj hlength) (hlater hlimits)
      have hanswersLater := hran.answers
      have hcalledLater := hran.called
      simp only [hrest, hruns.injected] at hanswersLater hcalledLater
      rw [hafter]
      refine ⟨⟨?_, ?_, hran.empty, hran.port.trans hruns.port, hran.slab.trans hruns.slab,
        hran.wakeToken.trans hruns.wakeToken⟩, hend⟩
      · rw [hanswers, hanswersLater, hqueue, List.length_cons, List.range'_succ, List.map_cons]
      · rw [hcalledEach, hcalled, hcalledLater, hqueue, List.map_cons]

/-- Pumps dispatched the completions of users' operations that were due, one each. -/
structure DispatchesDue (c c' : Client P H) (W : List Due) (pumps : List (Option Duration × Nat))
    (retrieved : List Retrieved) : Prop where
  tokens : retrieved.map Retrieved.token = Due.tokens W
  contexts : ∀ r ∈ retrieved, c.engine.user? r.token = some r.context
  answers : c.answers (Step.pumps pumps) = retrieved.map fun r => .pumped (.dispatched r.dispatch)
  called : c.calledEach (Step.pumps pumps) = retrieved.map fun r => [r.context.callback]
  passes : c.engine.Passes c'.engine (Due.tokens W)

end Client

/-! ### On a recorded port -/

/-- A recorded port holds what the port itself does. -/
theorem Backlog.recorded {wake : Fd} {n : Nat} {limited : Bool}
    {Holds : Station P H → List Due → Prop} (h : Backlog P H wake n limited Holds) :
    Backlog (Recorder P) H wake n limited fun x W => Holds ⟨x.port.port, x.host, x.armed⟩ W where
  clock hx := h.clock hx
  duplicate hx := h.duplicate hx
  close hx := h.close hx
  user hx := h.user hx
  own hx := h.own hx
  dry hx := h.dry hx
  associate hx := h.associate hx
  push hx := h.push hx
  flush hx := h.flush hx

namespace Client

variable {c : Client (Recorder P) H} {n : Nat} {limited : Bool}
  {Holds : Station (Recorder P) H → List Due → Prop} {W : List Due}

/-- As many pumps as completions of users' operations are due dispatch these. What is left is of
the engine's own read, and there was one wait for each completion that is not left. -/
theorem Faces.dispatches_due (h : c.Faces n limited Holds W)
    (hempty : c.engine.world.injector.queue = []) {pumps : List (Option Duration × Nat)}
    (hlength : pumps.length = (Due.tokens W).length) (hlimits : c.InTime (Step.pumps pumps))
    (hrounds : ∀ p ∈ pumps, n + W.length < p.2) :
    ∃ retrieved rest, DispatchesDue c (c.after (Step.pumps pumps)) W pumps retrieved ∧
      (c.after (Step.pumps pumps)).Faces n limited Holds rest ∧ Due.tokens rest = [] ∧
      rest.length ≤ W.length ∧
      (c.after (Step.pumps pumps)).engine.port.waits + rest.length =
        c.engine.port.waits + W.length := by
  induction pumps generalizing c W with
  | nil =>
    have hnone := List.eq_nil_of_length_eq_zero hlength.symm
    refine ⟨[], W, ⟨hnone.symm, nofun, rfl, rfl, ?_⟩, h, hnone, Nat.le_refl _, rfl⟩
    rw [hnone]
    exact .refl c.engine
  | cons p pumps ih =>
    obtain ⟨timeout, rounds⟩ := p
    obtain ⟨own, later, rfl, hown, rfl | ⟨cpl, moved, W', rfl⟩⟩ := Due.exists_split W
    · rw [Due.tokens_append, hown] at hlength
      cases hlength
    have hmem : Due.user cpl moved ∈ own ++ .user cpl moved :: W' :=
      List.mem_append_right _ List.mem_cons_self
    obtain ⟨context, huser, hquiet⟩ := h.expects.user cpl moved hmem
    have htokens : Due.tokens (own ++ .user cpl moved :: W') = cpl.token :: Due.tokens W' := by
      rw [Due.tokens_append, hown]
      rfl
    have hlen : (own ++ .user cpl moved :: W').length = own.length + 1 + W'.length := by
      simp only [List.length_append, List.length_cons]
      omega
    have henough : n + own.length < rounds := by
      have hp := hrounds _ List.mem_cons_self
      rw [hlen] at hp
      simp only at hp
      omega
    have htells : Os.Tells c.engine.world.host timeout := hlimits.1
    obtain ⟨e', o, hpump, hg', hpasses, hholds', harmed', hcalled, hwaits⟩ :=
      h.going.pump_user hempty h.port (h.expects.allOwn hown) (h.expects.armed hown) htells
        henough h.holds huser hquiet
    obtain ⟨hafter, hanswers, hcalledEach, hlater⟩ := pumps_cons h.live hpump pumps
    have hfaces : Faces { c with engine := e' } n limited Holds W' := by
      refine ⟨h.live, hg', ?_, hholds', h.expects.rest hpasses harmed'⟩
      rw [hpasses.injector]
      exact h.port
    have hempty' : e'.world.injector.queue = [] := by rw [hpasses.injector, hempty]
    obtain ⟨retrieved, rest, hall, hfaces', hrest, hle, hcount⟩ := ih hfaces hempty'
      (by rw [htokens] at hlength; exact Nat.succ.inj hlength) (hlater hlimits)
      (by
        intro p hp
        have hlt := hrounds p (List.mem_cons_of_mem _ hp)
        rw [hlen] at hlt
        omega)
    have hport : e'.port.waits = c.engine.port.waits + (own.length + 1) := by
      rw [← hwaits, ← Engine.waits_pump, hpump]
    rw [hafter]
    refine ⟨⟨context, ⟨cpl.token, o⟩⟩ :: retrieved, rest, ?_, hfaces', hrest, by omega, ?_⟩
    · constructor
      case tokens =>
        rw [htokens, List.map_cons, hall.tokens]
        rfl
      case contexts =>
        intro r hr
        rcases List.mem_cons.mp hr with rfl | hr
        · exact huser
        · have hmine := hall.contexts r hr
          rw [hpasses.user?] at hmine
          split at hmine
          · cases hmine
          · exact hmine
      case answers => rw [hanswers, hall.answers, List.map_cons]
      case called => rw [hcalledEach, hcalled, hall.called, List.map_cons]
      case passes =>
        rw [htokens]
        exact hpasses.trans hall.passes
    · simp only [hport] at hcount
      rw [hcount, hlen]
      omega

/-- A backlog was taken one callback a pump: `posted` were the posted callbacks, `W` what was due,
and `retrieved` the operations of users that were dispatched. -/
structure TakesOneByOne (c : Client (Recorder P) H) (posted : List Callback) (W : List Due)
    (pumps : List (Option Duration × Nat)) (last : Option Duration × Nat)
    (retrieved : List Retrieved) : Prop where
  tokens : retrieved.map Retrieved.token = Due.tokens W
  contexts : ∀ r ∈ retrieved, c.engine.user? r.token = some r.context
  /-- Each pump dispatches: first the posted callbacks, under the next bookkeeping names, then the
  operations of users. -/
  answers : c.answers (Step.pumps pumps) =
    ((List.range' c.engine.stats.injected posted.length).map fun i =>
      .pumped (.dispatched ⟨.internal (UInt64.ofNat i), .done⟩)) ++
    retrieved.map fun r => .pumped (.dispatched r.dispatch)
  /-- Each pump calls one callback. -/
  called : c.calledEach (Step.pumps pumps) =
    (posted ++ retrieved.map fun r => r.context.callback).map fun cb => [cb]
  /-- The port is asked for nothing until all posted callbacks were run. -/
  untouched : (c.after (Step.pumps (pumps.take posted.length))).engine.port = c.engine.port
  outstanding : c.engine.outstanding =
    (c.after (Step.pumps pumps)).engine.outstanding + retrieved.length
  /-- The next pump ends at its time limit and calls nothing. -/
  timeout : ((c.after (Step.pumps pumps)).step (.pump last.1 last.2)).2 = .pumped .timeout
  silent : calledDuring ((c.after (Step.pumps pumps)).moments (.pump last.1 last.2)) = []
  /-- There was one wait for each completion that was due, and one that ended at its limit. -/
  waits : ((c.after (Step.pumps pumps)).step (.pump last.1 last.2)).1.engine.port.waits =
    c.engine.port.waits + W.length + 1

end Client

/-- Whatever a program did before: the callbacks that are posted then and the completions that wait
in the port then, of operations of users in any order and of the engine's own read in between, are
taken one callback a pump, in order, if none of the callbacks posts. A pump may have to wait as
often as there are completions. A clock must be able to tell when the time limits are over. -/
theorem backlog_taken_one_by_one {config : Config} {port : Recorder P} {host : H}
    {e : Engine (Recorder P) H} (h : Engine.build config port host = .ready e)
    (steps : List (Step H)) {c : Client (Recorder P) H} (hc : c = (Client.own e).after steps)
    (hlive : c.gone = false) (hroom : c.engine.slab.slots.length ≤ 2 ^ 32) {n : Nat}
    {limited : Bool} {Holds : Station P H → List Due → Prop}
    (hport : Backlog P H c.engine.world.injector.wake n limited Holds) {W : List Due}
    (hholds : Holds ⟨c.engine.port.port, c.engine.world.host, c.engine.wakeToken⟩ W)
    (hexpects : c.engine.Expects W)
    (hquiet : ∀ cb ∈ c.engine.world.injector.queue, cb.NeverPosts H)
    (pumps : List (Option Duration × Nat))
    (hlength : pumps.length = c.engine.world.injector.queue.length + (Due.tokens W).length)
    (last : Option Duration × Nat) (hlast : limited = true → last.1.isSome = true)
    (hlimits : c.InTime (Step.pumps (pumps ++ [last])))
    (hrounds : ∀ p ∈ last :: pumps, n + W.length < p.2) :
    ∃ retrieved, c.TakesOneByOne c.engine.world.injector.queue W pumps last retrieved := by
  have hgoing := Engine.going_of_build h steps (hc ▸ hlive) (hc ▸ hroom)
  rw [← hc] at hgoing
  have hfaces : c.Faces n limited (fun x W => Holds ⟨x.port.port, x.host, x.armed⟩ W) W :=
    ⟨hlive, hgoing, hport.recorded, hholds, hexpects⟩
  let k := c.engine.world.injector.queue.length
  have hsplit : Step.pumps (H := H) pumps =
      Step.pumps (pumps.take k) ++ Step.pumps (pumps.drop k) := by
    rw [Step.pumps, Step.pumps, Step.pumps, ← List.map_append, List.take_append_drop]
  rw [Step.pumps, List.map_append, Client.inTime_append] at hlimits
  obtain ⟨hpumps, hend⟩ := hlimits
  have hboth := hpumps
  rw [← Step.pumps, hsplit, Client.inTime_append] at hboth
  have htake : (pumps.take k).length = k := by
    rw [List.length_take]
    omega
  have hdrop : (pumps.drop k).length = (Due.tokens W).length := by
    rw [List.length_drop]
    omega
  obtain ⟨hran, hfaces₁⟩ := hfaces.runs_posted hquiet htake hboth.1
  obtain ⟨retrieved, rest, hall, hfaces₂, hrest, hle, hcount⟩ :=
    hfaces₁.dispatches_due hran.empty hdrop hboth.2 fun p hp =>
      hrounds p (List.mem_cons_of_mem _ (List.mem_of_mem_drop hp))
  have hafter : c.after (Step.pumps pumps) =
      (c.after (Step.pumps (pumps.take k))).after (Step.pumps (pumps.drop k)) := by
    rw [hsplit, Client.after_append]
  rw [← hafter] at hall hfaces₂ hcount
  -- What is left is consumed by the pump that ends at its time limit.
  have hempty : (c.after (Step.pumps pumps)).engine.world.injector.queue = [] := by
    rw [hall.passes.injector, hran.empty]
  have hleft : (c.after (Step.pumps pumps)).engine.Expects (rest ++ []) := by
    rw [List.append_nil]
    exact hfaces₂.expects
  have henough : n + rest.length < last.2 := by
    have hlt := hrounds last List.mem_cons_self
    omega
  have htells : Os.Tells (c.after (Step.pumps pumps)).engine.world.host last.1 := hend.1
  obtain ⟨e', hpump, _, hsilent, hwaits⟩ := hfaces₂.going.pump_dry hempty hfaces₂.port
    (hleft.allOwn hrest) (hleft.armed hrest) htells henough hfaces₂.holds hlast
  have hlast' : (c.after (Step.pumps pumps)).step (.pump last.1 last.2) =
      ({ c.after (Step.pumps pumps) with engine := e' }, .pumped .timeout) := by
    simp only [Client.step, hfaces₂.live, hpump, Bool.false_eq_true, if_false]
  have hmine : ∀ t, (c.after (Step.pumps (pumps.take k))).engine.user? t = c.engine.user? t := by
    intro t
    rw [Engine.user?, hran.slab, hran.wakeToken]
    rfl
  refine ⟨retrieved, ?_⟩
  constructor
  case tokens => exact hall.tokens
  case contexts =>
    intro r hr
    rw [← hmine]
    exact hall.contexts r hr
  case answers => rw [hsplit, Client.answers_append, hran.answers, hall.answers]
  case called =>
    rw [hsplit, Client.calledEach_append, hran.called, hall.called, List.map_append, List.map_map]
    rfl
  case untouched => exact hran.port
  case outstanding =>
    have hsame : (c.after (Step.pumps (pumps.take k))).engine.outstanding = c.engine.outstanding := by
      rw [Engine.outstanding, hran.slab, hran.wakeToken]
      rfl
    rw [← hsame, hall.passes.outstanding, ← hall.tokens, List.length_map]
  case timeout => rw [hlast']
  case silent =>
    simp only [Client.moments, hfaces₂.live, Bool.false_eq_true, if_false]
    exact hsilent
  case waits =>
    have hport' : e'.port.waits =
        (c.after (Step.pumps pumps)).engine.port.waits + (rest.length + 1) := by
      rw [← hwaits, ← Engine.waits_pump, hpump]
    rw [hran.port] at hcount
    rw [hlast']
    simp only [hport']
    omega

/-- Two operations whose completions come in the other order, with completions of the engine's own
read before, between and behind them. -/
def Due.interleaved : List Due :=
  [.own 8 0 {}, .user ⟨.ofSlot 2 0, 3, 0⟩ { data := [1, 2, 3] }, .own 8 0 {}, .own 8 0 {},
    .user ⟨.ofSlot 1 0, 0, 0⟩ {}, .own 8 0 {}]

/-- Both operations are in flight, and two callbacks are posted. -/
def twoOfEach : List (Step Host) :=
  [.buffer "data" [0, 0, 0, 0], .place .event ⟨"event", []⟩,
    .place (.read 5 "data" none) ⟨"read", [.peek "data"]⟩, .post ⟨"first", []⟩,
    .post ⟨"second", [.pending]⟩]

/-- A scripted port that has these completions. -/
def Scripted.interleaved : Recorder Scripted := ⟨{ waits := Due.interleaved.map Due.script }, []⟩

theorem backlog_taken_one_by_one_of_interleaved : ∃ e : Engine (Recorder Scripted) Host,
    Engine.build {} Scripted.interleaved Host.start = .ready e ∧
    ((Client.own e).after twoOfEach).engine.world.injector.queue =
      [⟨"first", []⟩, ⟨"second", [.pending]⟩] ∧
    ∃ retrieved, ((Client.own e).after twoOfEach).TakesOneByOne
        ((Client.own e).after twoOfEach).engine.world.injector.queue Due.interleaved
        [(none, 7), (some .zero, 7), (none, 7), (some .zero, 7)] (none, 7) retrieved ∧
      retrieved.map Retrieved.token = [.ofSlot 2 0, .ofSlot 1 0] := by
  refine ⟨_, rfl, rfl, ?_⟩
  refine (@backlog_taken_one_by_one Scripted Host _ _ {} Scripted.interleaved Host.start _ rfl
    twoOfEach _ rfl (by decide +kernel) (by decide +kernel) 0 false (Scripted.Holds _)
    (Scripted.backlog _) Due.interleaved ?holds ⟨?user, by decide +kernel, ?own⟩ ?quiet
    [(none, 7), (some .zero, 7), (none, 7), (some .zero, 7)] (by decide +kernel) (none, 7) nofun
    (by decide +kernel) (by decide +kernel)).imp fun retrieved htakes => ⟨htakes, htakes.tokens.trans (by decide)⟩
  case holds =>
    refine ⟨rfl, by decide +kernel, ?_, rfl, rfl⟩
    intro t ht
    exact Option.some.inj ht
  case user =>
    intro c moved hmem
    simp only [Due.interleaved, List.mem_cons, Due.user.injEq, reduceCtorEq, false_or,
      List.not_mem_nil, or_false] at hmem
    rcases hmem with ⟨rfl, _⟩ | ⟨rfl, _⟩
    · exact ⟨_, rfl, fun _ => rfl⟩
    · exact ⟨_, rfl, fun _ => rfl⟩
  case own =>
    intro result flags moved hmem
    simp only [Due.interleaved, List.mem_cons, Due.own.injEq, reduceCtorEq, false_or,
      List.not_mem_nil, or_false] at hmem
    refine ⟨?_, by decide +kernel⟩
    rcases hmem with ⟨rfl, _⟩ | ⟨rfl, _⟩ | ⟨rfl, _⟩ | ⟨rfl, _⟩ <;> decide
  case quiet =>
    intro cb hmem
    rcases List.mem_pair.mp hmem with rfl | rfl
    · exact fun _ => rfl
    · exact fun _ => rfl

end Proactor
