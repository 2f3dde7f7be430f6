import Proactor.Proofs.Waking

/-!
# Completions that wait in a port

What is due in a port comes out one completion a wait. One of a user's operation is dispatched;
one of the engine's own read puts that read in flight again and shows nowhere else. Callbacks that
never post leave the port, its host and the injector alone.
-/

namespace Proactor

variable {P H : Type}

/-- A completion that waits in a port to be retrieved. -/
inductive Due where
  /-- Of an operation of a user. -/
  | user (c : Completion) (moved : Transfer)
  /-- Of the engine's own read, whichever is in flight then. -/
  | own (result : Int64) (flags : UInt32) (moved : Transfer)

namespace Due

/-- The token of a user's operation. -/
def token? : Due → Option Token
  | user c _ => some c.token
  | own .. => none

/-- The tokens of the users' operations, one after the other. -/
def tokens (W : List Due) : List Token := W.filterMap token?

end Due

/-- Stations that hold what is due, in order, and hand it out whatever else an engine asks. A wait
is granted `rounds` rounds at least. The engine's own read, of the counter `wake`, is taken again
whenever it is over. When nothing is due a wait ends at its time limit; if `limited`, one without a
limit may not end. -/
structure Backlog (P H : Type) [CompletionPort P H] [Os H] (wake : Fd) (rounds : Nat)
    (limited : Bool) (Holds : Station P H → List Due → Prop) : Prop where
  clock : ∀ {x W}, Holds x W → Holds (x.withHost (Os.now x.host).1) W
  duplicate : ∀ {x W}, Holds x W → ∀ fd onto,
    Holds (x.withHost (Os.duplicate x.host fd onto).1) W
  close : ∀ {x W}, Holds x W → ∀ fd, Holds (x.withHost (Os.close x.host fd)) W
  user : ∀ {x W c moved}, Holds x (.user c moved :: W) → ∀ n m limit, rounds ≤ n →
    (CompletionPort.wait n x.port x.host m limit).answer = .completion c moved ∧
      Holds (x.absorb (CompletionPort.wait n x.port x.host m limit)) W
  own : ∀ {x W result flags moved}, Holds x (.own result flags moved :: W) → ∀ t,
    x.armed = some t → ∀ n m limit, rounds ≤ n →
      (CompletionPort.wait n x.port x.host m limit).answer =
          .completion ⟨t, result, flags⟩ moved ∧
        Holds (x.absorb (CompletionPort.wait n x.port x.host m limit)).disarm W
  dry : ∀ {x}, Holds x [] → ∀ n m limit, rounds ≤ n → (limited = true → limit.isSome = true) →
    (CompletionPort.wait n x.port x.host m limit).answer = .timeout
  associate : ∀ {x W}, Holds x W →
    (CompletionPort.associate x.port x.host wake).answer = .ok () ∧
      Holds (x.absorb (CompletionPort.associate x.port x.host wake)) W
  push : ∀ {x W}, Holds x W → x.armed = none → ∀ hidden m n t,
    (x.ownReply wake hidden m n t).answer = .ok () ∧ Holds (x.pushOwnRead wake hidden m n t) W
  flush : ∀ {x W}, Holds x W → ∀ m, Holds (x.flush m) W

/-! ### Callbacks that never post -/

/-- Whatever the world is like, the callback posts nothing. -/
def Callback.NeverPosts (H : Type) [Os H] (cb : Callback) : Prop :=
  ∀ w : World H, w.actsPosts cb.actions = []

namespace World

variable [Os H]

mutual

/-- Only a post touches the host or the injector. -/
theorem still_act (w : World H) (a : Action) (h : w.actPosts a = []) :
    (w.act a).host = w.host ∧ (w.act a).injector = w.injector := by
  cases a with
  | post tag actions => cases h
  | peek handle =>
    rw [act]
    split <;> exact ⟨rfl, rfl⟩
  | pending => exact ⟨rfl, rfl⟩
  | fill handle content =>
    simp only [act, fill]
    split <;> exact ⟨rfl, rfl⟩
  | borrow handle content actions =>
    cases hb : w.borrow? handle content with
    | none =>
      have hact : w.act (.borrow handle content actions) = w := by simp only [act, hb]
      rw [hact]
      exact ⟨rfl, rfl⟩
    | some x =>
      obtain ⟨id, w₁⟩ := x
      simp only [actPosts, hb] at h
      have hin := still_acts w₁ actions h
      obtain ⟨memory, rfl⟩ := borrow?_eq_some hb
      simp only [act, hb]
      exact hin

theorem still_acts (w : World H) (as : List Action) (h : w.actsPosts as = []) :
    (w.acts as).host = w.host ∧ (w.acts as).injector = w.injector := by
  cases as with
  | nil => exact ⟨rfl, rfl⟩
  | cons a as =>
    rw [actsPosts] at h
    obtain ⟨hfirst, hrest⟩ := List.append_eq_nil_iff.mp h
    obtain ⟨hhost, hinjector⟩ := still_act w a hfirst
    obtain ⟨hhost', hinjector'⟩ := still_acts (w.act a) as hrest
    rw [acts]
    exact ⟨hhost'.trans hhost, hinjector'.trans hinjector⟩

end

end World

/-! ### The callbacks that are called -/

/-- The callbacks that are called, one after the other. -/
def calledDuring (τ : List (Moment P H)) : List Callback := τ.filterMap fun m => m.1.called?

theorem calledDuring_append (τ τ' : List (Moment P H)) :
    calledDuring (τ ++ τ') = calledDuring τ ++ calledDuring τ' := List.filterMap_append

theorem Silent.calledDuring {τ : List (Moment P H)} (h : Silent τ) : calledDuring τ = [] :=
  List.filterMap_eq_nil_iff.mpr h

/-- While a callback acts no other one is called. -/
theorem calledDuring_callback {ev : Event P H} {cb : Callback} (hev : ev.called? = some cb)
    (s s' : Scene P H) (e : Engine P H) (r : Option Context) (l : List (World H × List StorageId)) :
    calledDuring ((ev, s) :: (e.quietMoments r l ++ [(.quiet, s')])) = [cb] := by
  have hquiet := (silent_quietMoments e r l).calledDuring
  unfold calledDuring at hquiet ⊢
  rw [List.filterMap_cons, hev, List.filterMap_append, hquiet]
  rfl

/-! ### Engines that go on -/

variable [CompletionPort P H] [Os H]

/-- An engine between two calls of a program that has neither shut it down nor dropped it. -/
structure Engine.Going (e : Engine P H) (b : List StorageId) : Prop where
  live : e.closed = false
  leaked : e.leaked = []
  room : e.slab.slots.length ≤ 2 ^ 32
  standing : Scene.Standing ⟨e, b, none⟩
  listening : ∃ τ, Listening τ ⟨e, b, none⟩

namespace Engine

variable {e e' : Engine P H} {b : List StorageId}

/-- An engine goes on along a path that does not close it. -/
theorem Going.of_path (h : e.Going b) {τ : List (Moment P H)}
    (hpath : Path ⟨e, b, none⟩ τ ⟨e', b, none⟩) (hlive : e'.closed = false)
    (hleaked : e'.leaked = []) (hroom : e'.slab.slots.length ≤ 2 ^ 32) : e'.Going b where
  live := hlive
  leaked := hleaked
  room := hroom
  standing := hpath.standing h.standing hroom
  listening := by
    obtain ⟨τ₀, hl⟩ := h.listening
    exact ⟨τ₀ ++ τ, hpath.listening h.standing.upright.sound hroom h.standing.settled hl hlive
      hleaked⟩

/-- The engine of a program goes on until the program shuts it down or drops it. -/
theorem going_of_build {config : Config} {port : P} {host : H}
    (h : Engine.build config port host = .ready e) (steps : List (Step H))
    (hlive : ((Client.own e).after steps).gone = false)
    (hroom : ((Client.own e).after steps).engine.slab.slots.length ≤ 2 ^ 32) :
    ((Client.own e).after steps).engine.Going ((Client.own e).after steps).borrows := by
  have ho := (Engine.orderly_of_build h).after steps
  have hnew := Engine.isNew_of_build h
  have hpath := (Client.own e).path_history steps
  have hclosed := ho.closed.trans hlive
  exact ⟨hclosed, ho.kept hlive, hroom, hpath.standing hnew.standing hroom, _,
    hpath.listening hnew.sound hroom hnew.settled (Engine.listening_of_build h) hclosed
      (ho.kept hlive)⟩

/-- From one engine to another the operations of users under some tokens were dispatched, and
nothing else has changed for users or for posted callbacks. -/
structure Passes (e e' : Engine P H) (tokens : List Token) : Prop where
  user? : ∀ t, e'.user? t = if t ∈ tokens then none else e.user? t
  outstanding : e.outstanding = e'.outstanding + tokens.length
  injector : e'.world.injector = e.world.injector
  length : e'.slab.slots.length = e.slab.slots.length
  injected : e'.stats.injected = e.stats.injected
  closed : e'.closed = e.closed
  leaked : e'.leaked = e.leaked

omit [CompletionPort P H] [Os H] in
theorem Passes.refl (e : Engine P H) : Passes e e [] where
  user? _ := rfl
  outstanding := rfl
  injector := rfl
  length := rfl
  injected := rfl
  closed := rfl
  leaked := rfl

omit [CompletionPort P H] [Os H] in
theorem Passes.trans {e'' : Engine P H} {ts ts' : List Token} (h : Passes e e' ts)
    (h' : Passes e' e'' ts') : Passes e e'' (ts ++ ts') where
  user? t := by
    rw [h'.user?, h.user?]
    by_cases hm : t ∈ ts <;> by_cases hm' : t ∈ ts' <;> simp [hm, hm']
  outstanding := by
    rw [h.outstanding, h'.outstanding, List.length_append]
    omega
  injector := h'.injector.trans h.injector
  length := h'.length.trans h.length
  injected := h'.injected.trans h.injected
  closed := h'.closed.trans h.closed
  leaked := h'.leaked.trans h.leaked

omit [CompletionPort P H] [Os H] in
/-- What belongs to the port does not matter. -/
theorem Passes.beside (e : Engine P H) (p : P) (host : H) (j : List Notice) (a : List Fd) :
    Passes e (e.beside p host j a) [] where
  user? _ := rfl
  outstanding := rfl
  injector := rfl
  length := rfl
  injected := rfl
  closed := rfl
  leaked := rfl

omit [CompletionPort P H] [Os H] in
/-- What a drain would retrieve passes in a pump as well. -/
theorem Retrieves.passes {rs : List Retrieved} (h : Retrieves e e' rs)
    (hinjector : e'.world.injector = e.world.injector) :
    Passes e e' (rs.map Retrieved.token) where
  user? := h.user?
  outstanding := by rw [h.outstanding, List.length_map]
  injector := hinjector
  length := h.length
  injected := by rw [h.stats]
  closed := h.closed
  leaked := h.leaked

/-! ### A completion of the engine's own read -/

omit [Os H] in
/-- The port registers the event counter, unless it is registered already, and holds what it did. -/
theorem register_of_associates {Q : Station P H → Prop} (e : Engine P H) (fd : Fd)
    (hQ : Q ⟨e.port, e.world.host, none⟩)
    (hassociate : (CompletionPort.associate e.port e.world.host fd).answer = .ok () ∧
      Q (Station.absorb ⟨e.port, e.world.host, none⟩
        (CompletionPort.associate e.port e.world.host fd))) :
    ∃ p host j a, e.register fd = (e.beside p host j a, .ok ()) ∧ Q ⟨p, host, none⟩ := by
  by_cases hask : fd.toInt < 0 ∨ fd ∈ e.associated
  · exact ⟨_, _, _, _, e.register_of_not_asked hask, hQ⟩
  · obtain ⟨hneg, hnew⟩ := not_or.mp hask
    obtain ⟨hok, hQ'⟩ := hassociate
    have hreg := e.register_of_asked (Int.not_lt.mp hneg) hnew
    rw [hok] at hreg
    exact ⟨_, _, _, _, hreg, hQ'⟩

/-- A port with a backlog takes the engine's own read, if the storage of that read is idle. -/
theorem armWake_of_backlog {rounds : Nat} {limited : Bool} {Holds : Station P H → List Due → Prop}
    (hport : Backlog P H e.world.injector.wake rounds limited Holds) {W : List Due} {m : Memory}
    (hlease : e.world.memory.lease? e.wakeBuffer = some m)
    (hholds : Holds ⟨e.port, e.world.host, none⟩ W) :
    ∃ p host j a, e.armWake = ({ ((e.withSlab (e.slab.insert e.ownContext).1).withMemory m).beside
        p host j a with wakeToken := some (e.slab.insert e.ownContext).2 }, .ok ()) ∧
      Holds ⟨p, host, some (e.slab.insert e.ownContext).2⟩ W := by
  obtain ⟨p, host, j, a, hregister, hholds⟩ :=
    (e.withMemory m).register_of_associates e.world.injector.wake (Q := (Holds · W)) hholds
      (hport.associate hholds)
  obtain ⟨haccepted, hpushed⟩ := hport.push hholds rfl e.wakeBuffer m
    (e.world.memory.capacity e.wakeBuffer) (e.slab.insert e.ownContext).2
  obtain ⟨p', host', j', harm, hholds'⟩ := armWake_of_registered (Q := (Holds · W)) hlease
    hregister rfl haccepted hpushed fun m' => hport.flush hpushed m'
  exact ⟨p', host', j', a, harm, hholds'⟩

omit [CompletionPort P H] [Os H] in
/-- When the engine's own read is put in flight again, in the slot that it has just left, users
notice nothing. -/
theorem passes_armed (hs : e.slab.Sound) (hnone : e.wakeToken = none) (hfree : e.slab.free ≠ [])
    (hroom : e.slab.slots.length ≤ 2 ^ 32) (context : Context) (m : Memory) (p : P) (host : H)
    (j : List Notice) (a : List Fd) :
    Passes e { ((e.withSlab (e.slab.insert context).1).withMemory m).beside p host j a with
      wakeToken := some (e.slab.insert context).2 } [] := by
  have hlen := (e.slab.grows_insert context).length_eq hfree
  have hlive := Slab.live_insert e.slab context
  constructor
  case user? =>
    intro t
    have hafter : Engine.user? { ((e.withSlab (e.slab.insert context).1).withMemory m).beside p host
        j a with wakeToken := some (e.slab.insert context).2 } t =
        if some (e.slab.insert context).2 = some t then none
          else (e.slab.insert context).1.get? t := rfl
    rw [hafter, hs.get?_insert context (hlen.symm ▸ hroom)]
    by_cases ht : t = (e.slab.insert context).2
    · have hnew := hs.get?_token_insert context (hlen.symm ▸ hroom)
      simp [ht, Engine.user?, hnone, hnew]
    · simp [ht, Ne.symm ht, Engine.user?, hnone]
  case outstanding =>
    have hafter : Engine.outstanding { ((e.withSlab (e.slab.insert context).1).withMemory m).beside p
        host j a with wakeToken := some (e.slab.insert context).2 } =
        (e.slab.insert context).1.live - 1 := rfl
    rw [hafter, hlive, Engine.outstanding, hnone]
    rfl
  case length => exact hlen
  all_goals rfl

/-- A completion of the engine's own read is consumed, and that read is put in flight again. -/
theorem complete_of_own {c : Completion} {context : Context} {slab : Slab Context}
    (moved : Transfer) (htake : e.slab.take c.token = some (context, slab))
    (hwake : e.wakeToken = some c.token) :
    e.complete c moved = ((e.wakeSettled slab context c moved).rearmWake
      (e.world.settle context.pinned c.result moved).2, .ok none) := by
  simp only [complete, htake, if_pos hwake]
  rfl

/-- A completion of the engine's own read is one moment. -/
theorem completeMoments_of_own {c : Completion} {context : Context} {slab : Slab Context}
    (b : List StorageId) (moved : Transfer) (htake : e.slab.take c.token = some (context, slab))
    (hwake : e.wakeToken = some c.token) : e.completeMoments b c moved =
      [(.completed e c moved none, ⟨(e.complete c moved).1, b, none⟩)] := by
  simp only [completeMoments, htake, if_pos hwake]

/-- A completion of the engine's own read calls no callback. -/
theorem silent_complete_of_own {c : Completion} {context : Context} {slab : Slab Context}
    (b : List StorageId) (moved : Transfer) (htake : e.slab.take c.token = some (context, slab))
    (hwake : e.wakeToken = some c.token) : Silent (e.completeMoments b c moved) := by
  rw [completeMoments_of_own b moved htake hwake]
  exact silent_single rfl

/-- The next read of the engine's own takes the place of the last one in a port with a backlog, and
nothing has changed for users. -/
theorem Going.complete_own (hg : e.Going b) {rounds : Nat} {limited : Bool}
    {Holds : Station P H → List Due → Prop} {W : List Due}
    (hport : Backlog P H e.world.injector.wake rounds limited Holds)
    {deadline : Option Nat} {n : Nat} {c : Completion} {moved : Transfer}
    (hwait : e.waitPort deadline n = (e', .completion c moved))
    (hwake : e.wakeToken = some c.token) (hok : 0 ≤ c.result.toInt)
    (hholds : Holds e'.station.disarm W) :
    ∃ e₂, e'.complete c moved = (e₂, .ok none) ∧ e₂.Going b ∧ Passes e e₂ [] ∧
      Holds e₂.station W ∧ e₂.wakeToken ≠ none ∧ Silent (e'.completeMoments b c moved) := by
  have hpath := path_complete b hwait
  obtain ⟨p, host, j, rfl⟩ := waitPort_eq_beside hwait
  let seen := e.beside p host j e.associated
  have hupright : seen.Upright := ⟨hg.standing.upright.sound, hg.standing.upright.wake⟩
  have hsettled : Scene.Settled ⟨seen, b, none⟩ :=
    ⟨hg.standing.settled.balanced, hg.standing.settled.running⟩
  obtain ⟨τ, hl⟩ := hg.listening
  obtain ⟨t, context, k, ht, hget, _, _, hpinned⟩ := hl.read (hwake ▸ Option.some_ne_none _)
  obtain rfl := Option.some.inj (ht.symm.trans hwake)
  obtain ⟨slab, htake⟩ : ∃ slab, seen.slab.take c.token = some (context, slab) :=
    Slab.exists_take hget
  obtain ⟨m, hsettle⟩ : ∃ m, seen.world.settle context.pinned c.result moved =
      ({ seen.world with memory := m }, c.result) := by
    rw [hpinned]
    exact ⟨_, rfl⟩
  -- The read is over, its storage is idle again, and the next one takes its slot.
  let ended := seen.wakeSettled slab context c moved
  have hended : ended = { seen with slab, wakeToken := none, world.memory := m } := by
    simp only [ended, wakeSettled, hsettle]
    rfl
  have hidle : ended.world.memory.lend? ended.wakeBuffer = some .idle :=
    idle_wakeSettled moved hsettled htake hpinned
  have hlease : ended.world.memory.lease? ended.wakeBuffer =
      some (ended.world.memory.setLend ended.wakeBuffer .lent) := by
    simp [Memory.lease?, Memory.isIdle, hidle]
  have hcounter : ended.world.injector = e.world.injector := by
    rw [hended]
    rfl
  have hstation : Holds ⟨ended.port, ended.world.host, none⟩ W := by
    rw [hended]
    exact hholds
  obtain ⟨p', host', j', a', harm, hholds'⟩ :=
    armWake_of_backlog (hcounter.symm ▸ hport) hlease hstation
  have hpasses : Passes seen ended [] :=
    (hupright.retrieves_wakeSettled moved htake hwake).passes hcounter
  have hroom : ended.slab.slots.length ≤ 2 ^ 32 := hpasses.length ▸ hg.room
  have harmed := passes_armed (e := ended) (hupright.sound.take htake) rfl (Slab.free_take htake)
    hroom ended.ownContext (ended.world.memory.setLend ended.wakeBuffer .lent) p' host' j' a'
  have hlive : ¬ ended.closed = true := by
    rw [hpasses.closed]
    simp [seen, beside, hg.live]
  have hcomplete : seen.complete c moved = (ended.armWake.1, .ok none) := by
    rw [complete_of_own moved htake hwake, hsettle]
    simp only [rearmWake, if_neg hlive, if_neg (Int.not_lt.mpr hok), ended, harm]
  have hall : Passes e ended.armWake.1 [] := by
    rw [harm]
    exact (Passes.beside e p host j e.associated).trans (hpasses.trans harmed)
  refine ⟨ended.armWake.1, hcomplete, ?_, hall, ?_, ?_, ?_⟩
  · rw [hcomplete] at hpath
    exact hg.of_path hpath (hall.closed.trans hg.live) (hall.leaked.trans hg.leaked)
      (hall.length.symm ▸ hg.room)
  · rw [harm]
    exact hholds'
  · rw [harm]
    exact Option.some_ne_none _
  · exact silent_complete_of_own b moved htake hwake

/-! ### A completion of a user's operation -/

/-- A completion of a user's operation calls its callback. -/
theorem calledDuring_complete_of_user {c : Completion} {context : Context} {slab : Slab Context}
    (b : List StorageId) (moved : Transfer) (htake : e.slab.take c.token = some (context, slab))
    (hwake : e.wakeToken ≠ some c.token) :
    calledDuring (e.completeMoments b c moved) = [context.callback] := by
  simp only [completeMoments, htake, if_neg hwake]
  apply calledDuring_callback
  rfl

/-- Settling moves an accepted connection at most, which a port with a backlog does not mind. -/
theorem holds_settle {x : Station P H} {wake : Fd} {rounds : Nat} {limited : Bool}
    {Holds : Station P H → List Due → Prop} {W : List Due}
    (hport : Backlog P H wake rounds limited Holds) (w : World H)
    (hholds : Holds (x.withHost w.host) W) (pinned : Pinned) (result : Int64) (t : Transfer) :
    Holds (x.withHost (w.settle pinned result t).1.host) W := by
  unfold World.settle World.finish
  dsimp only
  split
  · exact hholds
  · split
    · exact hholds
    · unfold World.moveAccepted
      dsimp only
      split
      · exact hport.close (hport.duplicate hholds _ _) _
      · exact hport.close (hport.duplicate hholds _ _) _
  · exact hholds

/-- The callback of a user's operation is called, and if it never posts, the port holds what it
did and nothing else has changed for users. -/
theorem Going.complete_user (hg : e.Going b) {rounds : Nat} {limited : Bool}
    {Holds : Station P H → List Due → Prop} {W : List Due}
    (hport : Backlog P H e.world.injector.wake rounds limited Holds)
    {deadline : Option Nat} {n : Nat} {c : Completion} {moved : Transfer} {context : Context}
    (hwait : e.waitPort deadline n = (e', .completion c moved))
    (huser : e.user? c.token = some context) (hquiet : context.callback.NeverPosts H)
    (hholds : Holds e'.station W) :
    ∃ e₂ o, e'.complete c moved = (e₂, .ok (some ⟨c.token, o⟩)) ∧ e₂.Going b ∧
      Passes e e₂ [c.token] ∧ Holds e₂.station W ∧ e₂.wakeToken = e.wakeToken ∧
      calledDuring (e'.completeMoments b c moved) = [context.callback] := by
  have hpath := path_complete b hwait
  obtain ⟨p, host, j, rfl⟩ := waitPort_eq_beside hwait
  let seen := e.beside p host j e.associated
  have hupright : seen.Upright := ⟨hg.standing.upright.sound, hg.standing.upright.wake⟩
  obtain ⟨hne, hget⟩ := (user?_eq_some_iff _ _ _).mp huser
  obtain ⟨slab, htake⟩ : ∃ slab, seen.slab.take c.token = some (context, slab) :=
    Slab.exists_take hget
  have hcomplete := complete_of_user moved htake hne
  let o := Outcome.ofResult (seen.world.settle context.pinned c.result moved).2
  let e₁ := (seen.settled slab (seen.world.settle context.pinned c.result moved).1).calling c.token
    context o
  obtain ⟨hhost, hinjector⟩ := e₁.world.still_acts context.callback.actions (hquiet e₁.world)
  have hinjector' : (seen.called slab context c moved).world.injector = e.world.injector :=
    hinjector.trans (World.injector_settle seen.world context.pinned c.result moved)
  have hall : Passes e (seen.called slab context c moved) [c.token] :=
    (Passes.beside e p host j e.associated).trans
      ((hupright.retrieves_called moved htake hne).passes hinjector')
  refine ⟨seen.called slab context c moved, o, hcomplete, ?_, hall, ?_, rfl, ?_⟩
  · rw [hcomplete] at hpath
    exact hg.of_path hpath (hall.closed.trans hg.live) (hall.leaked.trans hg.leaked)
      (hall.length.symm ▸ hg.room)
  · have hsettled := holds_settle (x := seen.station) hport seen.world hholds context.pinned
      c.result moved
    have hstation : (seen.called slab context c moved).station =
        seen.station.withHost (e₁.world.acts context.callback.actions).host := rfl
    rw [hstation, hhost]
    exact hsettled
  · exact calledDuring_complete_of_user b moved htake hne

end Engine

/-! ### Scripted ports -/

/-- What a script says for a completion that is due. -/
def Due.script : Due → Scripted.Answer
  | user c moved => .completion (.token c.token) c.result c.flags moved
  | own result flags moved => .completion .wake result flags moved

/-- A scripted port that refuses nothing, with what is due for its script. It knows the engine's own
read by the counter. -/
structure Scripted.Holds (wake : Fd) (x : Station Scripted Host) (W : List Due) : Prop where
  waits : x.port.waits = W.map Due.script
  wake : x.port.wake = some wake
  armed : ∀ t, x.armed = some t → x.port.wakeToken = t
  pushes : x.port.pushes = []
  associations : x.port.associations = []

/-- A scripted port hands out what its script says. -/
theorem Scripted.backlog (wake : Fd) : Backlog Scripted Host wake 0 false (Scripted.Holds wake) where
  clock h := ⟨h.waits, h.wake, h.armed, h.pushes, h.associations⟩
  duplicate h _ _ := ⟨h.waits, h.wake, h.armed, h.pushes, h.associations⟩
  close h _ := ⟨h.waits, h.wake, h.armed, h.pushes, h.associations⟩
  user := by
    rintro ⟨port, host, armed⟩ W c moved h n m limit _
    have hwait : port.waits = .completion (.token c.token) c.result c.flags moved ::
        W.map Due.script := h.waits
    simp only [CompletionPort.wait, Scripted.reply, Scripted.wait, Scripted.record, hwait]
    exact ⟨rfl, rfl, h.wake, h.armed, h.pushes, h.associations⟩
  own := by
    rintro ⟨port, host, armed⟩ W result flags moved h t ht n m limit _
    have hwait : port.waits = .completion .wake result flags moved :: W.map Due.script := h.waits
    have htoken : port.wakeToken = t := h.armed t ht
    simp only [CompletionPort.wait, Scripted.reply, Scripted.wait, Scripted.record, hwait]
    exact ⟨by rw [Scripted.resolve, ← htoken], rfl, h.wake, nofun, h.pushes, h.associations⟩
  dry := by
    rintro ⟨port, host, armed⟩ h n m limit _ _
    have hwait : port.waits = [] := h.waits
    simp only [CompletionPort.wait, Scripted.reply, Scripted.wait, Scripted.record, hwait]
  associate := by
    rintro ⟨port, host, armed⟩ W h
    have hnone : port.associations = [] := h.associations
    have hwake : port.wake = some wake := h.wake
    refine ⟨?_, h.waits, ?_, h.armed, h.pushes, ?_⟩
    · simp [CompletionPort.associate, Scripted.reply, Scripted.associate, hnone, Scripted.verdict]
    · simp [CompletionPort.associate, Scripted.reply, Scripted.associate, Station.absorb, hwake,
        Scripted.record]
    · simp [CompletionPort.associate, Scripted.reply, Scripted.associate, Station.absorb, hnone,
        Scripted.record]
  push := by
    rintro ⟨port, host, armed⟩ W h _ hidden m n t
    have hnone : port.pushes = [] := h.pushes
    have hwake : port.wake = some wake := h.wake
    let entry := (Submission.ownRead wake hidden n).entry t
    have hown : some wake = some entry.fd ∧ entry.opcode = Opcode.read :=
      ⟨congrArg some (Entry.fd_wordOfFd t Opcode.read _ _ wake).symm, rfl⟩
    have hnoted : port.notePush m entry =
        { port.record (.push entry (Scripted.content m entry)) with wakeToken := t } := by
      rw [← hwake] at hown
      exact if_pos hown
    have hpush : port.push m entry = ({ port.notePush m entry with
        pushes := [], inFlight := (port.notePush m entry).inFlight ++ [t] }, .ok ()) := by
      simp only [Scripted.push, hnone, Scripted.verdict]
      rfl
    rw [hnoted] at hpush
    have hreply : Station.ownReply wake hidden ⟨port, host, armed⟩ m n t =
        Scripted.reply host (port.push m entry) := rfl
    rw [Station.pushOwnRead, hreply, hpush]
    refine ⟨rfl, h.waits, h.wake, ?_, rfl, h.associations⟩
    rintro t' ht'
    exact Option.some.inj ht'
  flush := by
    rintro ⟨port, host, armed⟩ W h m
    exact ⟨h.waits, h.wake, h.armed, h.pushes, h.associations⟩

end Proactor
