import Proactor.Proofs.Agreement
import Proactor.Proofs.Client
import Proactor.Session.AnyPort

/-!
# Accounting

What a live engine has counted is what its callers were told, and the tokens that they were told
are in use are those in flight, except for the one of the engine's own read. Both follow from
the answers alone: a submitter that returns a token puts it in use, and a pump that dispatches
under it takes it out of use.
-/

namespace Proactor

namespace Answer

/-- The tokens in use after an answer. -/
def inUse (users : Finset Token) : Answer → Finset Token
  | submitted (.ok t) => insert t users
  | pumped (.dispatched d) => users.erase d.token
  | _ => users

/-- A submitter returned a token. -/
def isAccepted : Answer → Bool
  | submitted (.ok _) => true
  | _ => false

/-- A submitter returned a failed system call. -/
def isRefused : Answer → Bool
  | submitted (.error (.systemCall ..)) => true
  | _ => false

/-- A pump dispatched a completion. -/
def isDispatched : Answer → Bool
  | pumped (.dispatched d) => !d.token.isInternal
  | _ => false

/-- A pump dispatched a posted callback. -/
def isInjected : Answer → Bool
  | pumped (.dispatched d) => d.token.isInternal
  | _ => false

/-- A pump ended at its time limit. -/
def isTimeout : Answer → Bool
  | pumped .timeout => true
  | _ => false

/-- The answer puts no token in use and takes none out of use. -/
def isPlain : Answer → Bool
  | submitted (.ok _) => false
  | pumped (.dispatched _) => false
  | _ => true

/-- The tokens in use after answers, one after the other. -/
def tokensInUse (answers : List Answer) : Finset Token := answers.foldl inUse ∅

end Answer

/-- The counts with these answers counted too. -/
def Stats.plus (s : Stats) (answers : List Answer) : Stats where
  submitted := s.submitted + answers.countP Answer.isAccepted
  refused := s.refused + answers.countP Answer.isRefused
  dispatched := s.dispatched + answers.countP Answer.isDispatched
  injected := s.injected + answers.countP Answer.isInjected
  timeouts := s.timeouts + answers.countP Answer.isTimeout

namespace Stats

/-- Answers are counted one by one. -/
theorem plus_cons (s : Stats) (a : Answer) (answers : List Answer) :
    s.plus (a :: answers) = (s.plus [a]).plus answers := by
  simp only [plus, List.countP_cons, List.countP_nil, Nat.zero_add, mk.injEq]
  omega

/-- A pump that dispatched a completion counts as that. -/
theorem plus_dispatched (s : Stats) {d : Dispatch} (hd : d.token.isInternal = false) :
    s.plus [.pumped (.dispatched d)] = { s with dispatched := s.dispatched + 1 } := by
  simp [plus, Answer.isAccepted, Answer.isRefused, Answer.isDispatched, Answer.isInjected,
    Answer.isTimeout, hd]

/-- A pump that ran a posted callback counts as that. -/
theorem plus_injected (s : Stats) {d : Dispatch} (hd : d.token.isInternal = true) :
    s.plus [.pumped (.dispatched d)] = { s with injected := s.injected + 1 } := by
  simp [plus, Answer.isAccepted, Answer.isRefused, Answer.isDispatched, Answer.isInjected,
    Answer.isTimeout, hd]

end Stats

variable {P H : Type} [CompletionPort P H]

/-- A call that led from one engine to another and was answered: port and slab still agree on
what is in use after the answer, and the answer was counted. -/
structure Accounted (tokens : P → Multiset Token) (e e' : Engine P H) (users : Finset Token)
    (a : Answer) : Prop where
  agrees : Agrees tokens e' (a.inUse users)
  stats : e'.stats = e.stats.plus [a]
  /-- A token that comes into use was not in use. -/
  fresh : ∀ t, a = .submitted (.ok t) → t ∉ users
  /-- A token that goes out of use was in use. -/
  used : ∀ d, a = .pumped (.dispatched d) → d.token.isInternal = false → d.token ∈ users

namespace Accounted

variable {tokens : P → Multiset Token} {e e' e₀ : Engine P H} {users : Finset Token} {a : Answer}

omit [CompletionPort P H] in
/-- It matters only what was counted before. -/
theorem of_stats (h : Accounted tokens e e' users a) (hstats : e.stats = e₀.stats) :
    Accounted tokens e₀ e' users a :=
  ⟨h.agrees, hstats ▸ h.stats, h.fresh, h.used⟩

omit [CompletionPort P H] in
/-- A call with a plain answer is accounted for if port and slab agree as before. -/
theorem of_isPlain (ha : a.isPlain = true) (hagrees : Agrees tokens e' users)
    (hstats : e'.stats = e.stats.plus [a]) : Accounted tokens e e' users a where
  agrees := by
    cases a with
    | submitted r =>
      cases r with
      | ok t => cases ha
      | error f => exact hagrees
    | pumped p =>
      cases p with
      | dispatched d => cases ha
      | _ => exact hagrees
    | _ => exact hagrees
  stats := hstats
  fresh := by
    rintro t rfl
    cases ha
  used := by
    rintro d rfl
    cases ha

end Accounted

namespace Engine

variable {tokens : P → Multiset Token} (hk : KeepsTokens tokens) {e : Engine P H}
  {users : Finset Token} (h : Agrees tokens e users)
include hk h

/-- A submitter is accounted for. -/
theorem accounted_place (o : Order StorageId) (cb : Callback)
    (hroom : (e.place o cb).1.slab.slots.length ≤ 2 ^ 32) :
    Accounted tokens e (e.place o cb).1 users (.submitted (e.place o cb).2) := by
  cases hp : e.place o cb with
  | mk e' r =>
    rw [hp] at hroom
    cases r with
    | ok t =>
      obtain ⟨hagrees, hnot⟩ := h.place_ok hk hroom hp
      obtain ⟨m, s, _, _, p, host, j, a, rfl⟩ := place_eq_ok hp
      refine ⟨hagrees, rfl, fun u hu => ?_, fun d hd => ?_⟩
      · cases hu
        exact hnot
      · cases hd
    | error f =>
      refine .of_isPlain rfl (h.place_error hk hroom hp) ?_
      rcases place_eq_error h.sound hroom hp with ⟨harg, rfl⟩ | ⟨⟨n, rfl⟩, _, p, host, j, a, _, rfl⟩
      · cases f with
        | systemCall kind n => cases harg
        | _ => rfl
      · rfl

variable [Os H]

omit [CompletionPort P H] hk in
/-- Running a posted callback is accounted for. -/
theorem accounted_runPosted {e' : Engine P H} {d : Dispatch} (hp : e.runPosted = some (e', d)) :
    Accounted tokens e e' users (.pumped (.dispatched d)) := by
  unfold runPosted at hp
  split at hp
  · cases hp
  · next cb world hpop =>
    obtain ⟨rfl, rfl⟩ := Prod.mk.inj (Option.some.inj hp)
    have hint := Token.isInternal_internal (UInt64.ofNat e.stats.injected)
    have hnot := h.not_mem_users_of_isInternal hint
    refine ⟨?_, ?_, fun t ht => ?_, fun d hd hno => ?_⟩
    · rw [Answer.inUse, Finset.erase_eq_of_notMem hnot]
      exact h.of_keeps h.sound.keeps_self rfl rfl
    · rw [Stats.plus_injected _ hint]
    · cases ht
    · cases hd
      rw [hint] at hno
      cases hno

/-- A completion that a wait returned is accounted for, together with what the pump does next. -/
theorem accounted_complete {deadline : Option Nat} {rounds : Nat} {e₁ e₂ : Engine P H}
    {c : Completion} {moved : Transfer} {r : Except Fault (Option Dispatch)}
    (hw : e.waitPort deadline rounds = (e₁, .completion c moved))
    (hc : e₁.complete c moved = (e₂, r))
    (hroom : (e.await deadline (rounds + 1)).1.slab.slots.length ≤ 2 ^ 32)
    (hnext : Agrees tokens e₂ users → e₂.stats = e.stats →
      (e₂.await deadline rounds).1.slab.slots.length ≤ 2 ^ 32 →
      Accounted tokens e (e₂.await deadline rounds).1 users
        (.pumped (e₂.await deadline rounds).2)) :
    Accounted tokens e (e.await deadline (rounds + 1)).1 users
      (.pumped (e.await deadline (rounds + 1)).2) := by
  have hslots : e₂.slab.slots.length ≤ (e.await deadline (rounds + 1)).1.slab.slots.length := by
    simp only [await, hw, hc]
    cases r with
    | error f => exact Nat.le_refl _
    | ok x =>
      cases x with
      | some d => exact Nat.le_refl _
      | none =>
        cases hp : e₂.runPosted with
        | some x =>
          simp only [hp]
          exact (path_posted [] hp).length_slots_le
        | none =>
          simp only [hp]
          exact (path_await e₂ [] deadline rounds).length_slots_le
  rcases h.complete hk (Nat.le_trans hslots hroom) hw hc with
    ⟨h₂, hstats, hno⟩ | ⟨d, rfl, hint, hmem, h₂, hstats⟩
  · simp only [await, hw, hc] at hroom ⊢
    cases r with
    | error f => exact .of_isPlain rfl h₂ hstats
    | ok x =>
      cases x with
      | some d => exact absurd rfl (hno d)
      | none =>
        cases hp : e₂.runPosted with
        | some x =>
          simp only [hp] at hroom ⊢
          exact (accounted_runPosted h₂ hp).of_stats hstats
        | none =>
          simp only [hp] at hroom ⊢
          exact hnext h₂ hstats hroom
  · simp only [await, hw, hc]
    refine ⟨h₂, ?_, fun t ht => ?_, fun d' hd _ => ?_⟩
    · rw [hstats, Stats.plus_dispatched _ hint]
    · cases ht
    · cases hd
      exact hmem

/-- Waiting for completions is accounted for, whatever they are. -/
theorem accounted_await (deadline : Option Nat) (rounds : Nat)
    (hroom : (e.await deadline rounds).1.slab.slots.length ≤ 2 ^ 32) :
    Accounted tokens e (e.await deadline rounds).1 users (.pumped (e.await deadline rounds).2) := by
  induction rounds generalizing e with
  | zero => exact .of_isPlain rfl h rfl
  | succ rounds ih =>
    cases hw : e.waitPort deadline rounds with
    | mk e₁ w =>
      have hstats : e₁.stats = e.stats := by
        obtain ⟨p, host, j, rfl⟩ := waitPort_eq_beside hw
        rfl
      cases w with
      | completion c moved =>
        cases hc : e₁.complete c moved with
        | mk e₂ r =>
          apply accounted_complete hk h hw hc hroom
          intro h₂ hstats₂ hroom₂
          exact (ih h₂ hroom₂).of_stats hstats₂
      | timeout =>
        have h₁ := h.waited hk hw (by simp)
        simp only [await, hw]
        refine .of_isPlain rfl (h₁.of_keeps h₁.sound.keeps_self rfl rfl) ?_
        rw [← hstats]
        rfl
      | blocked =>
        simp only [await, hw]
        exact .of_isPlain rfl (h.waited hk hw (by simp)) hstats
      | unfinished =>
        simp only [await, hw]
        exact .of_isPlain rfl (h.waited hk hw (by simp)) hstats
      | panicked =>
        simp only [await, hw]
        exact .of_isPlain rfl (h.waited hk hw (by simp)) hstats
      | fault f =>
        simp only [await, hw]
        exact .of_isPlain rfl (h.waited hk hw (by simp)) hstats

/-- A pump is accounted for. -/
theorem accounted_pump (timeout : Option Duration) (rounds : Nat)
    (hroom : (e.pump timeout rounds).1.slab.slots.length ≤ 2 ^ 32) :
    Accounted tokens e (e.pump timeout rounds).1 users (.pumped (e.pump timeout rounds).2) := by
  cases hd : Os.deadline e.world.host timeout with
  | mk host limit =>
    have h₁ : Agrees tokens (e.withHost host) users := h.of_keeps h.sound.keeps_self rfl rfl
    simp only [pump, hd] at hroom ⊢
    cases limit with
    | error _ => exact .of_isPlain rfl h₁ rfl
    | ok deadline =>
      dsimp only at hroom ⊢
      cases hp : (e.withHost host).runPosted with
      | some x =>
        obtain ⟨e₁, d⟩ := x
        exact (accounted_runPosted h₁ hp).of_stats rfl
      | none =>
        simp only [hp] at hroom ⊢
        exact (accounted_await hk h₁ deadline rounds hroom).of_stats rfl

end Engine

/-! ### What is in use is what was submitted and not dispatched -/

omit [CompletionPort P H] in
/-- Every call keeps the difference of submissions and dispatches to what is in use. -/
theorem Accounted.submitted_eq {tokens : P → Multiset Token} {e e' : Engine P H}
    {users : Finset Token} {a : Answer} (ha : Accounted tokens e e' users a)
    (h : Agrees tokens e users) (hb : e.stats.submitted = e.stats.dispatched + users.card) :
    e'.stats.submitted = e'.stats.dispatched + (a.inUse users).card := by
  rw [ha.stats]
  cases a with
  | submitted r =>
    cases r with
    | error f => exact hb
    | ok t =>
      have hcard := Finset.card_insert_of_notMem (ha.fresh t rfl)
      change e.stats.submitted + 1 = e.stats.dispatched + (insert t users).card
      omega
  | pumped p =>
    cases p with
    | dispatched d =>
      cases hint : d.token.isInternal with
      | true =>
        have hnot := h.not_mem_users_of_isInternal hint
        rw [Stats.plus_injected _ hint, Answer.inUse, Finset.erase_eq_of_notMem hnot]
        exact hb
      | false =>
        have hcard := Finset.card_erase_add_one (ha.used d rfl hint)
        rw [Stats.plus_dispatched _ hint, Answer.inUse]
        change e.stats.submitted = e.stats.dispatched + 1 + (users.erase d.token).card
        omega
    | _ => exact hb
  | _ => exact hb

/-! ### Whole runs -/

namespace Client

variable [Os H] {tokens : P → Multiset Token} {users : Finset Token}

/-- An engine that is gone stays so. -/
theorem gone_after (c : Client P H) (steps : List (Step H)) (h : c.gone = true) :
    (c.after steps).gone = true := by
  induction steps generalizing c with
  | nil => exact h
  | cons s steps ih =>
    apply ih (c.step s).1
    cases s with
    | clone handle of_ =>
      simp only [step]
      split <;> exact h
    | borrow handle content =>
      simp only [step]
      split <;> exact h
    | scribble id content =>
      simp only [step]
      split <;> exact h
    | giveBack id =>
      simp only [step]
      split <;> exact h
    | _ => simp [step, h]

/-- Every call on a live engine is accounted for. -/
theorem accounted_step (hk : KeepsTokens tokens) (c : Client P H)
    (h : Agrees tokens c.engine users) (s : Step H) (hlive : (c.step s).1.gone = false)
    (hroom : (c.step s).1.engine.slab.slots.length ≤ 2 ^ 32) :
    Accounted tokens c.engine (c.step s).1.engine users (c.step s).2 := by
  have hsame : ∀ {e' : Engine P H}, e'.slab = c.engine.slab →
      tokens e'.port = tokens c.engine.port → e'.wakeToken = c.engine.wakeToken →
      Agrees tokens e' users := by
    intro e' hslab htokens hwake
    exact h.of_keeps (hslab ▸ h.sound.keeps_self) htokens hwake
  obtain ⟨e, b, gone⟩ := c
  have hgone : gone = false := by
    cases gone with
    | false => rfl
    | true =>
      have := gone_after ⟨e, b, true⟩ [s] rfl
      exact absurd (hlive.symm.trans this) (by decide)
  subst hgone
  cases s with
  | place o cb =>
    cases ho : (Client.mk e b false).resolve o with
    | none =>
      simp only [step, ho]
      exact .of_isPlain rfl (hsame rfl rfl rfl) rfl
    | some o' =>
      simp only [step, ho] at hroom ⊢
      exact Engine.accounted_place hk h o' cb hroom
  | pump timeout rounds => exact Engine.accounted_pump hk h timeout rounds hroom
  | post cb => exact .of_isPlain rfl (hsame rfl rfl rfl) rfl
  | associate fd =>
    obtain ⟨p, host, j, a, he⟩ := e.associate_eq_beside fd
    have hslab : (e.associate fd).1.slab = e.slab := by rw [he]; rfl
    have hwake : (e.associate fd).1.wakeToken = e.wakeToken := by rw [he]; rfl
    have hstats : (e.associate fd).1.stats = e.stats := by rw [he]; rfl
    exact .of_isPlain rfl (hsame hslab (Engine.tokens_associate hk e fd) hwake) hstats
  | dissociate fd => exact .of_isPlain rfl (hsame rfl rfl rfl) rfl
  | buffer handle content => exact .of_isPlain rfl (hsame rfl rfl rfl) rfl
  | clone handle of_ =>
    cases hf : e.world.memory.find? of_ with
    | none =>
      simp only [step, hf]
      exact .of_isPlain rfl (hsame rfl rfl rfl) rfl
    | some id =>
      simp only [step, hf]
      exact .of_isPlain rfl (hsame rfl rfl rfl) rfl
  | fill handle content => exact .of_isPlain rfl (hsame rfl rfl rfl) rfl
  | peek handle => exact .of_isPlain rfl (hsame rfl rfl rfl) rfl
  | borrow handle content =>
    cases hw : e.world.borrow? handle content with
    | none =>
      simp only [step, hw]
      exact .of_isPlain rfl (hsame rfl rfl rfl) rfl
    | some x =>
      simp only [step, hw]
      exact .of_isPlain rfl (hsame rfl rfl rfl) rfl
  | scribble id content =>
    by_cases hid : id ∈ b
    · simp only [step, if_pos hid]
      exact .of_isPlain rfl (hsame rfl rfl rfl) rfl
    · simp only [step, if_neg hid]
      exact .of_isPlain rfl (hsame rfl rfl rfl) rfl
  | giveBack id =>
    by_cases hid : id ∈ b
    · simp only [step, if_pos hid]
      exact .of_isPlain rfl (hsame rfl rfl rfl) rfl
    · simp only [step, if_neg hid]
      exact .of_isPlain rfl (hsame rfl rfl rfl) rfl
  | outside host => exact .of_isPlain rfl (hsame rfl rfl rfl) rfl
  | shutdown rounds => cases hlive
  | drop => cases hlive

/-- Calls on a live engine are accounted for, one after the other. -/
theorem accounted_after (hk : KeepsTokens tokens) (c : Client P H)
    (h : Agrees tokens c.engine users)
    (hb : c.engine.stats.submitted = c.engine.stats.dispatched + users.card)
    (steps : List (Step H)) (hlive : (c.after steps).gone = false)
    (hroom : (c.after steps).engine.slab.slots.length ≤ 2 ^ 32) :
    let users' := (c.answers steps).foldl Answer.inUse users
    let e := (c.after steps).engine
    Agrees tokens e users' ∧ e.stats = c.engine.stats.plus (c.answers steps) ∧
      e.stats.submitted = e.stats.dispatched + users'.card := by
  induction steps generalizing c users with
  | nil => exact ⟨h, rfl, hb⟩
  | cons s steps ih =>
    have hnext : (c.step s).1.gone = false := by
      cases hg : (c.step s).1.gone with
      | false => rfl
      | true => exact absurd (hlive.symm.trans (gone_after (c.step s).1 steps hg)) (by decide)
    have hroom' := Nat.le_trans ((c.step s).1.path_history steps).length_slots_le hroom
    have ha := accounted_step hk c h s hnext hroom'
    obtain ⟨hagrees, hstats, hb'⟩ :=
      ih (c.step s).1 ha.agrees (ha.submitted_eq h hb) hlive hroom
    refine ⟨hagrees, ?_, hb'⟩
    apply hstats.trans
    rw [ha.stats, ← Stats.plus_cons]
    rfl

end Client

/-- What holds of a live engine whose calls were answered so far. -/
structure Reconciled (tokens : P → Multiset Token) (e : Engine P H) (answers : List Answer) :
    Prop where
  /-- The port holds the tokens of the contexts in the slab, each once. -/
  tokens_port : ∀ t, t ∈ tokens e.port ↔ e.slab.contains t = true
  nodup : (tokens e.port).Nodup
  /-- The engine's own read is in flight, and its token is not in use. -/
  wake : ∀ t, e.wakeToken = some t → e.slab.contains t = true ∧ t ∉ Answer.tokensInUse answers
  /-- All other tokens in flight are in use. -/
  inUse : ∀ t, t ∈ Answer.tokensInUse answers ↔
    e.slab.contains t = true ∧ e.wakeToken ≠ some t
  /-- Counting the user operations in flight never goes below zero. -/
  covered : (if e.wakeToken.isSome then 1 else 0) ≤ e.slab.live
  outstanding : e.outstanding = (Answer.tokensInUse answers).card
  inflight : CompletionPort.inflight e.port =
    e.outstanding + if e.wakeToken.isSome then 1 else 0
  balance : e.stats.submitted = e.stats.dispatched + e.outstanding
  submitted : e.stats.submitted = answers.countP Answer.isAccepted
  refused : e.stats.refused = answers.countP Answer.isRefused
  dispatched : e.stats.dispatched = answers.countP Answer.isDispatched
  injected : e.stats.injected = answers.countP Answer.isInjected
  timeouts : e.stats.timeouts = answers.countP Answer.isTimeout

omit [CompletionPort P H] in
/-- Whatever is in flight is in use, but for the engine's own read. -/
theorem Agrees.live_eq {tokens : P → Multiset Token} {e : Engine P H} {users : Finset Token}
    (h : Agrees tokens e users) :
    e.slab.live = users.card + if e.wakeToken.isSome then 1 else 0 := by
  have hcard : (tokens e.port).toFinset.card = e.slab.live := by
    rw [Multiset.toFinset_card_of_nodup h.nodup, h.card_tokens]
  cases hw : e.wakeToken with
  | none =>
    have husers : users = (tokens e.port).toFinset := by
      ext t
      rw [h.mem_users, Multiset.mem_toFinset, hw]
      simp
    rw [husers, hcard]
    rfl
  | some w =>
    have hmem : w ∈ (tokens e.port).toFinset := Multiset.mem_toFinset.mpr (h.wake w hw)
    have husers : users = (tokens e.port).toFinset.erase w := by
      ext t
      rw [h.mem_users, Finset.mem_erase, Multiset.mem_toFinset, hw]
      constructor
      · rintro ⟨ht, hne⟩
        exact ⟨fun he => hne (congrArg some he.symm), ht⟩
      · rintro ⟨hne, ht⟩
        exact ⟨ht, fun he => hne (Option.some.inj he).symm⟩
    rw [husers, ← hcard]
    exact (Finset.card_erase_add_one hmem).symm

/-- Finding out what a port offers puts nothing in flight. -/
theorem tokens_resolve {tokens : P → Multiset Token} (hk : KeepsTokens tokens) (port : P)
    (host : H) : tokens (Extensions.resolve port host).port = tokens port := by
  unfold Extensions.resolve
  dsimp only
  split
  · exact hk.openScratch port host
  · let r := CompletionPort.openScratch port host
    let asked := (CompletionPort.supports r.port r.host Opcode.accept).1
    have hclose : tokens (CompletionPort.closeScratch
        (CompletionPort.supports asked r.host Opcode.connect).1 r.host).1 = tokens port := by
      rw [hk.closeScratch, hk.supports, hk.supports, hk.openScratch]
    split
    · exact hclose
    split <;> exact hclose

variable [Os H]

/-- The port and the slab of an engine agree right after it was built. -/
theorem agrees_of_build {tokens : P → Multiset Token} (hk : KeepsTokens tokens) {config : Config}
    {port : P} {host : H} {e : Engine P H} (hport : tokens port = 0)
    (h : Engine.build config port host = .ready e) : Agrees tokens e ∅ := by
  have hroom := (Engine.isNew_of_build h).sound.length_le
  obtain ⟨x, host', wake, journal, e', n, harm, rfl⟩ := Engine.armWake_of_build h
  have hnone := (tokens_resolve hk port host).trans hport
  have hfresh : Agrees tokens
      (Engine.fresh config x (Extensions.resolve port host).port host' wake journal) ∅ :=
    { sound := Slab.sound_empty
      mem_tokens := fun t => by simp [Engine.fresh, hnone, Slab.contains, Slab.get?]
      nodup := by simp [Engine.fresh, hnone]
      card_tokens := by simp [Engine.fresh, hnone]
      wake := nofun
      mem_users := fun t => by simp [Engine.fresh, hnone] }
  have hroom' : e'.slab.slots.length ≤ 2 ^ 32 := hroom
  have harmed := hfresh.armWake hk hroom' rfl harm
  exact harmed.of_keeps harmed.sound.keeps_self rfl rfl

/-- Between the calls on a live engine, whatever its port answers and hands back, port and slab
hold the same tokens, the engine's own read is none of its users', and every count is that of the
answers that were given. A token has `2 ^ 32` indices; with more slots than that, which
takes as many submissions, two operations would share one. -/
theorem counts_are_exact {tokens : P → Multiset Token} (hk : KeepsTokens tokens)
    {config : Config} {port : P} {host : H} {e : Engine P H} (hport : tokens port = 0)
    (h : Engine.build config port host = .ready e) (steps : List (Step H))
    (hlive : ((Client.own e).after steps).gone = false)
    (hroom : ((Client.own e).after steps).engine.slab.slots.length ≤ 2 ^ 32) :
    Reconciled tokens ((Client.own e).after steps).engine ((Client.own e).answers steps) := by
  have hstats := (Engine.isNew_of_build h).stats
  have hzero : e.stats.submitted = e.stats.dispatched + (∅ : Finset Token).card := by
    rw [hstats]
    rfl
  obtain ⟨ha, hcounts, hbalance⟩ := (Client.own e).accounted_after hk
    (agrees_of_build hk hport h) hzero steps hlive hroom
  have hplus : ((Client.own e).after steps).engine.stats =
      Stats.plus {} ((Client.own e).answers steps) := by
    rw [hcounts]
    exact congrArg (Stats.plus · _) hstats
  have hlive_eq := ha.live_eq
  have hout : ((Client.own e).after steps).engine.outstanding =
      (Answer.tokensInUse ((Client.own e).answers steps)).card := by
    unfold Engine.outstanding
    rw [hlive_eq]
    exact Nat.add_sub_cancel _ _
  have hfield : ∀ f : Stats → Nat, f ((Client.own e).after steps).engine.stats =
      f (Stats.plus {} ((Client.own e).answers steps)) := fun f => congrArg f hplus
  refine ⟨ha.mem_tokens, ha.nodup, fun t ht => ?_, fun t => ?_, ?_, hout, ?_, ?_, ?_, ?_, ?_, ?_,
    ?_⟩
  · exact ⟨(ha.mem_tokens t).mp (ha.wake t ht), fun hu => ((ha.mem_users t).mp hu).2 ht⟩
  · rw [← ha.mem_tokens]
    exact ha.mem_users t
  · rw [hlive_eq]
    exact Nat.le_add_left _ _
  · rw [hk.inflight, ha.card_tokens, hlive_eq, hout]
    rfl
  · rw [hout]
    exact hbalance
  · exact (hfield Stats.submitted).trans (Nat.zero_add _)
  · exact (hfield Stats.refused).trans (Nat.zero_add _)
  · exact (hfield Stats.dispatched).trans (Nat.zero_add _)
  · exact (hfield Stats.injected).trans (Nat.zero_add _)
  · exact (hfield Stats.timeouts).trans (Nat.zero_add _)

private theorem inFlight_push (p : Scripted) (m : Memory) (entry : Entry) :
    (p.push m entry).1.inFlight = match (p.push m entry).2 with
      | .ok () => p.inFlight ++ [entry.token]
      | .error _ => p.inFlight := by
  have hnote : (p.notePush m entry).inFlight = p.inFlight := by
    unfold Scripted.notePush
    dsimp only
    split <;> rfl
  unfold Scripted.push
  cases Scripted.verdict p.pushes with
  | ok u => exact congrArg (· ++ [entry.token]) hnote
  | error f => exact hnote

private theorem inFlight_wait (p : Scripted) (timeout : Option Duration) :
    (p.wait timeout).1.inFlight = match (p.wait timeout).2 with
      | .completion c _ => p.inFlight.erase c.token
      | _ => p.inFlight := by
  unfold Scripted.wait
  dsimp only
  split <;> rfl

/-- A scripted port keeps the tokens of what it has accepted and not handed back. -/
theorem Scripted.keepsTokens :
    KeepsTokens fun p : Scripted => (p.inFlight : Multiset Token) where
  inflight p := rfl
  openScratch p h := rfl
  supports p h o := rfl
  closeScratch p h := rfl
  associate p h fd := rfl
  flush p h m := rfl
  push_ok p h m entry _ hok := by
    have hok' : (p.push m entry).2 = .ok () := hok
    have hpush := inFlight_push p m entry
    rw [hok'] at hpush
    exact (congrArg _ hpush).trans (Multiset.coe_eq_coe.mpr List.perm_append_comm)
  push_error p h m entry f herr := by
    have herr' : (p.push m entry).2 = .error f := herr
    have hpush := inFlight_push p m entry
    rw [herr'] at hpush
    exact congrArg _ hpush
  wait_completion rounds p h m timeout c moved hw := by
    have hw' : (p.wait timeout).2 = .completion c moved := hw
    have hwait := inFlight_wait p timeout
    rw [hw'] at hwait
    exact congrArg _ hwait
  wait_other rounds p h m timeout hw := by
    have hwait := inFlight_wait p timeout
    cases ha : (p.wait timeout).2 with
    | completion c moved => exact absurd ha (hw c moved)
    | timeout =>
      rw [ha] at hwait
      exact congrArg _ hwait
    | fault f =>
      rw [ha] at hwait
      exact congrArg _ hwait
    | blocked =>
      rw [ha] at hwait
      exact congrArg _ hwait
    | unfinished =>
      rw [ha] at hwait
      exact congrArg _ hwait
    | panicked =>
      rw [ha] at hwait
      exact congrArg _ hwait

/-- The engine's own read fails, a completion comes twice, an operation is refused, and a flush
fails. -/
def Scripted.troubled : Scripted :=
  { pushes := [none, none, some (.system 11)]
    flushes := [some (.system 5)]
    waits := [.completion (.user 0) 4 0 {}, .completion (.user 0) 4 0 {},
      .completion .wake (-5) 0 {}] }

/-- A write that is completed, another one that is refused, and a post that is run. -/
def writeAndPost : List (Step Host) :=
  [.buffer "b" [1, 2, 3, 4], .place (.write 3 "b" none) ⟨"wrote", []⟩, .pump none 9,
    .place (.write 3 "b" none) ⟨"refused", []⟩, .pump none 9, .post ⟨"posted", []⟩,
    .pump none 9, .place .event ⟨"event", []⟩, .pump none 9]

theorem counts_are_exact_in_trouble : ∃ e : Engine Scripted Host,
    KeepsTokens (fun p : Scripted => (p.inFlight : Multiset Token)) ∧
    (Scripted.troubled.inFlight : Multiset Token) = 0 ∧
    Engine.build {} Scripted.troubled Host.start = .ready e ∧
    ((Client.own e).after writeAndPost).gone = false ∧
    ((Client.own e).after writeAndPost).engine.slab.slots.length ≤ 2 ^ 32 ∧
    Reconciled (fun p : Scripted => (p.inFlight : Multiset Token))
      ((Client.own e).after writeAndPost).engine ((Client.own e).answers writeAndPost) ∧
    ((Client.own e).after writeAndPost).engine.stats = ⟨2, 1, 1, 1, 1⟩ := by
  refine ⟨_, Scripted.keepsTokens, rfl, rfl, by decide +kernel, by decide +kernel, ?_, by
    decide +kernel⟩
  exact @counts_are_exact Scripted Host _ _ _ Scripted.keepsTokens {} Scripted.troubled Host.start _
    rfl rfl writeAndPost (by decide +kernel) (by decide +kernel)

end Proactor
