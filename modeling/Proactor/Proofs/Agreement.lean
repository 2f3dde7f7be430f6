import Mathlib.Data.Finset.Card
import Proactor.Proofs.Built
import Proactor.Proofs.Turnover

/-!
# Agreement between port and slab

A port that keeps track of what is in flight holds one token for each entry that it took and has
not handed back. The engine holds one context for each, and one of them may be its own read. The
two agree after every call, whatever the port answers and hands back.
-/

namespace Proactor

variable {P H : Type} [CompletionPort P H]

/-- A port that keeps the tokens in flight: an entry that is taken adds its token, a completion
that is handed back removes its own if it is there, and nothing else matters. -/
structure KeepsTokens (tokens : P → Multiset Token) : Prop where
  inflight : ∀ p : P, CompletionPort.inflight p = (tokens p).card
  openScratch : ∀ (p : P) (h : H), tokens (CompletionPort.openScratch p h).port = tokens p
  supports : ∀ (p : P) (h : H) (o : Opcode), tokens (CompletionPort.supports p h o).1 = tokens p
  closeScratch : ∀ (p : P) (h : H), tokens (CompletionPort.closeScratch p h).1 = tokens p
  associate : ∀ (p : P) (h : H) (fd : Fd), tokens (CompletionPort.associate p h fd).port = tokens p
  flush : ∀ (p : P) (h : H) (m : Memory), tokens (CompletionPort.flush p h m).port = tokens p
  push_ok : ∀ (p : P) (h : H) (m : Memory) (entry : Entry), entry.token ∉ tokens p →
    (CompletionPort.push p h m entry).answer = .ok () →
    tokens (CompletionPort.push p h m entry).port = entry.token ::ₘ tokens p
  push_error : ∀ (p : P) (h : H) (m : Memory) (entry : Entry) (f : Fault),
    (CompletionPort.push p h m entry).answer = .error f →
    tokens (CompletionPort.push p h m entry).port = tokens p
  wait_completion : ∀ (rounds : Nat) (p : P) (h : H) (m : Memory) (timeout : Option Duration)
    (c : Completion) (moved : Transfer),
    (CompletionPort.wait rounds p h m timeout).answer = .completion c moved →
    tokens (CompletionPort.wait rounds p h m timeout).port = (tokens p).erase c.token
  wait_other : ∀ (rounds : Nat) (p : P) (h : H) (m : Memory) (timeout : Option Duration),
    (∀ c moved, (CompletionPort.wait rounds p h m timeout).answer ≠ .completion c moved) →
    tokens (CompletionPort.wait rounds p h m timeout).port = tokens p

/-- The port and the slab hold the same tokens, and these are the ones in use by users and the one
of the engine's own read. -/
structure Agrees (tokens : P → Multiset Token) (e : Engine P H) (users : Finset Token) :
    Prop where
  sound : e.slab.Sound
  mem_tokens : ∀ t, t ∈ tokens e.port ↔ e.slab.contains t = true
  nodup : (tokens e.port).Nodup
  card_tokens : (tokens e.port).card = e.slab.live
  wake : ∀ t, e.wakeToken = some t → t ∈ tokens e.port
  mem_users : ∀ t, t ∈ users ↔ t ∈ tokens e.port ∧ e.wakeToken ≠ some t

namespace Agrees

variable {tokens : P → Multiset Token} {e e' : Engine P H} {users : Finset Token} {t : Token}
  {context : Context}

omit [CompletionPort P H] in
theorem mem_tokens_iff (h : Agrees tokens e users) :
    t ∈ tokens e.port ↔ ∃ context, e.slab.get? t = some context := by
  rw [h.mem_tokens, Slab.contains, Option.isSome_iff_exists]

omit [CompletionPort P H] in
/-- A token that names no operation is not in flight. -/
theorem not_mem_tokens (h : Agrees tokens e users) (ht : e.slab.get? t = none) :
    t ∉ tokens e.port := by
  rw [h.mem_tokens, Slab.contains, ht]
  simp

omit [CompletionPort P H] in
/-- What is in flight agrees if it stays as it is. -/
theorem of_keeps (h : Agrees tokens e users) (hslab : e.slab.Keeps e'.slab)
    (htokens : tokens e'.port = tokens e.port) (hwake : e'.wakeToken = e.wakeToken) :
    Agrees tokens e' users where
  sound := hslab.sound
  mem_tokens u := by
    rw [htokens, h.mem_tokens, Slab.contains, Slab.contains, hslab.get?]
  nodup := htokens ▸ h.nodup
  card_tokens := by rw [htokens, h.card_tokens, hslab.live]
  wake u hu := by
    rw [htokens]
    exact h.wake u (hwake ▸ hu)
  mem_users u := by rw [h.mem_users, htokens, hwake]

omit [CompletionPort P H] in
private theorem enter_aux (h : Agrees tokens e users)
    (hroom : e'.slab.slots.length ≤ 2 ^ 32) (hslab : e'.slab = (e.slab.insert context).1)
    (ht : t = (e.slab.insert context).2) (htokens : tokens e'.port = t ::ₘ tokens e.port) :
    e'.slab.Sound ∧ (∀ u, u ∈ tokens e'.port ↔ e'.slab.contains u = true) ∧
      (tokens e'.port).Nodup ∧ (tokens e'.port).card = e'.slab.live ∧ t ∉ tokens e.port := by
  rw [hslab] at hroom
  subst ht
  have hget := h.sound.get?_insert context hroom
  have hfresh := h.not_mem_tokens (h.sound.get?_token_insert context hroom)
  refine ⟨hslab ▸ h.sound.insert context hroom, fun u => ?_, ?_, ?_, hfresh⟩
  · rw [htokens, hslab, Multiset.mem_cons, Slab.contains, hget u]
    by_cases hu : u = (e.slab.insert context).2
    · simp [hu]
    · simp only [hu, false_or, if_neg, not_false_eq_true]
      exact h.mem_tokens u
  · rw [htokens]
    exact Multiset.nodup_cons.mpr ⟨hfresh, h.nodup⟩
  · rw [htokens, hslab, Multiset.card_cons, h.card_tokens, Slab.live_insert]

omit [CompletionPort P H] in
/-- An operation of a user that is put in flight agrees. -/
theorem enter (h : Agrees tokens e users) (hroom : e'.slab.slots.length ≤ 2 ^ 32)
    (hslab : e'.slab = (e.slab.insert context).1) (ht : t = (e.slab.insert context).2)
    (htokens : tokens e'.port = t ::ₘ tokens e.port) (hwake : e'.wakeToken = e.wakeToken) :
    Agrees tokens e' (insert t users) ∧ t ∉ users := by
  obtain ⟨hsound, hmem, hnd, hcard, hfresh⟩ := h.enter_aux hroom hslab ht htokens
  have hne : e.wakeToken ≠ some t := fun he => hfresh (h.wake t he)
  refine ⟨⟨hsound, hmem, hnd, hcard, fun u hu => ?_, fun u => ?_⟩, fun hu => ?_⟩
  · rw [htokens]
    exact Multiset.mem_cons_of_mem (h.wake u (hwake ▸ hu))
  · rw [Finset.mem_insert, h.mem_users, htokens, hwake, Multiset.mem_cons]
    constructor
    · rintro (rfl | ⟨hu, hw⟩)
      · exact ⟨.inl rfl, hne⟩
      · exact ⟨.inr hu, hw⟩
    · rintro ⟨rfl | hu, hw⟩
      · exact .inl rfl
      · exact .inr ⟨hu, hw⟩
  · exact hfresh ((h.mem_users t).mp hu).1

omit [CompletionPort P H] in
/-- The engine's own read that is put in flight agrees. -/
theorem arm (h : Agrees tokens e users) (hroom : e'.slab.slots.length ≤ 2 ^ 32)
    (hslab : e'.slab = (e.slab.insert context).1) (ht : t = (e.slab.insert context).2)
    (htokens : tokens e'.port = t ::ₘ tokens e.port) (hnone : e.wakeToken = none)
    (hwake : e'.wakeToken = some t) : Agrees tokens e' users := by
  obtain ⟨hsound, hmem, hnd, hcard, hfresh⟩ := h.enter_aux hroom hslab ht htokens
  refine ⟨hsound, hmem, hnd, hcard, fun u hu => ?_, fun u => ?_⟩
  · rw [hwake] at hu
    rw [← Option.some.inj hu, htokens]
    exact Multiset.mem_cons_self t _
  · rw [h.mem_users, htokens, hwake, hnone, Multiset.mem_cons]
    constructor
    · rintro ⟨hu, _⟩
      refine ⟨.inr hu, fun he => hfresh ?_⟩
      rw [Option.some.inj he]
      exact hu
    · rintro ⟨rfl | hu, hw⟩
      · exact absurd rfl hw
      · exact ⟨hu, by simp⟩

omit [CompletionPort P H] in
private theorem take_aux {slab : Slab Context} (h : Agrees tokens e users)
    (htake : e.slab.take t = some (context, slab)) (hslab : e'.slab = slab)
    (htokens : tokens e'.port = (tokens e.port).erase t) :
    e'.slab.Sound ∧ (∀ u, u ∈ tokens e'.port ↔ u ≠ t ∧ u ∈ tokens e.port) ∧
      (∀ u, u ∈ tokens e'.port ↔ e'.slab.contains u = true) ∧ (tokens e'.port).Nodup ∧
      (tokens e'.port).card = e'.slab.live := by
  have hget := Slab.get?_take htake
  have hmem : t ∈ tokens e.port := h.mem_tokens_iff.mpr ⟨context, Slab.get?_of_take htake⟩
  have herase : ∀ u, u ∈ tokens e'.port ↔ u ≠ t ∧ u ∈ tokens e.port := by
    intro u
    rw [htokens, h.nodup.mem_erase_iff]
  refine ⟨hslab ▸ h.sound.take htake, herase, fun u => ?_, ?_, ?_⟩
  · rw [herase, h.mem_tokens, hslab, Slab.contains, Slab.contains, hget u]
    by_cases hu : u = t <;> simp [hu]
  · rw [htokens]
    exact h.nodup.erase t
  · have hlive := h.sound.live_take htake
    rw [htokens, Multiset.card_erase_of_mem hmem, h.card_tokens, hslab, hlive, Nat.pred_succ]

omit [CompletionPort P H] in
/-- An operation of a user that is retrieved agrees. -/
theorem take {slab : Slab Context} (h : Agrees tokens e users)
    (htake : e.slab.take t = some (context, slab)) (hslab : e'.slab = slab)
    (htokens : tokens e'.port = (tokens e.port).erase t) (hne : e.wakeToken ≠ some t)
    (hwake : e'.wakeToken = e.wakeToken) : Agrees tokens e' (users.erase t) := by
  obtain ⟨hsound, herase, hmem, hnd, hcard⟩ := h.take_aux htake hslab htokens
  refine ⟨hsound, hmem, hnd, hcard, fun u hu => ?_, fun u => ?_⟩
  · rw [hwake] at hu
    refine (herase u).mpr ⟨?_, h.wake u hu⟩
    rintro rfl
    exact hne hu
  · rw [Finset.mem_erase, h.mem_users, herase, hwake, and_assoc]

omit [CompletionPort P H] in
/-- The engine's own read that is retrieved agrees. -/
theorem takeWake {slab : Slab Context} (h : Agrees tokens e users)
    (htake : e.slab.take t = some (context, slab)) (hslab : e'.slab = slab)
    (htokens : tokens e'.port = (tokens e.port).erase t) (hwas : e.wakeToken = some t)
    (hwake : e'.wakeToken = none) : Agrees tokens e' users := by
  obtain ⟨hsound, herase, hmem, hnd, hcard⟩ := h.take_aux htake hslab htokens
  refine ⟨hsound, hmem, hnd, hcard, fun u hu => ?_, fun u => ?_⟩
  · rw [hwake] at hu
    cases hu
  · rw [h.mem_users, herase, hwas, hwake]
    constructor
    · rintro ⟨hu, hw⟩
      exact ⟨⟨fun he => hw (congrArg some he.symm), hu⟩, by simp⟩
    · rintro ⟨⟨hne, hu⟩, _⟩
      exact ⟨hu, fun he => hne (Option.some.inj he).symm⟩

end Agrees

/-! ### The tokens in flight after each call -/

/-- The tokens in flight after a submission was answered. -/
def tokensAfter (m : Multiset Token) : Except Fault Token → Multiset Token
  | .ok t => t ::ₘ m
  | .error _ => m

namespace Engine

variable {tokens : P → Multiset Token} (hk : KeepsTokens tokens) (e : Engine P H)
include hk

theorem tokens_associate (fd : Fd) : tokens (e.associate fd).1.port = tokens e.port := by
  unfold associate
  split
  · rfl
  · dsimp only
    split <;> exact hk.associate _ _ _

theorem tokens_register (fd : Fd) : tokens (e.register fd).1.port = tokens e.port := by
  unfold register
  split
  · exact tokens_associate hk e fd
  · rfl

theorem tokens_flushIfEager (kind : Kind) : tokens (e.flushIfEager kind).port = tokens e.port := by
  unfold flushIfEager flushBehind
  split
  · dsimp only
    split <;> exact hk.flush _ _ _
  · rfl

/-- Handing off adds the token of what was put in flight, and no other. -/
theorem tokens_handOff (s : Submission) (cb : Callback)
    (hfresh : ∀ t, (e.handOff s cb).2 = .ok t → t ∉ tokens e.port) :
    tokens (e.handOff s cb).1.port = tokensAfter (tokens e.port) (e.handOff s cb).2 := by
  have hreg := tokens_register hk e s.fd
  obtain ⟨p, host, j, a, hb⟩ := register_eq_beside e s.fd
  rcases handOff_cases e s cb with ⟨e₁, f, hr⟩ | ⟨e₁, f, hr, hp⟩ | ⟨e₁, hr, hp⟩
  · rw [handOff_of_register_error cb hr]
    rw [hr] at hreg
    exact hreg
  · rw [handOff_of_push_error hr hp]
    rw [hr] at hreg hb
    have hport : ((e₁.pushed s cb).withdraw (e₁.slab.insert (contextOf s cb)).2).port =
        (e₁.pushed s cb).port := by
      unfold withdraw
      split <;> rfl
    exact (congrArg tokens hport).trans ((hk.push_error _ _ _ _ f hp).trans hreg)
  · rw [handOff_of_push_ok hr hp] at hfresh ⊢
    rw [hr] at hreg hb
    obtain rfl : e₁ = e.beside p host j a := hb
    refine (tokens_flushIfEager hk _ s.kind).trans ?_
    have hnot : (s.entry (e.slab.insert (contextOf s cb)).2).token ∉
        tokens (e.beside p host j a).port := by
      rw [hreg]
      exact hfresh _ rfl
    exact (hk.push_ok _ _ _ _ hnot hp).trans (congrArg _ hreg)

/-- A submitter adds the token that it returns, and no other. -/
theorem tokens_place {e' : Engine P H} {r : Except Fault Token} {o : Order StorageId}
    {cb : Callback} (hp : e.place o cb = (e', r)) (hfresh : ∀ t, r = .ok t → t ∉ tokens e.port) :
    tokens e'.port = tokensAfter (tokens e.port) r := by
  rw [place_eq_submit] at hp
  cases hprep : o.prepare e.world.memory e.extensions with
  | error f =>
    rw [hprep] at hp
    cases hp
    rfl
  | ok x =>
    obtain ⟨m, s⟩ := x
    rw [hprep, submit_ok] at hp
    obtain ⟨rfl, rfl⟩ := Prod.mk.inj hp
    have hcount : ∀ (e₁ : Engine P H) r, (e₁.count r).port = e₁.port := by
      intro e₁ r
      unfold count
      split <;> rfl
    rw [hcount]
    exact tokens_handOff hk (e.withMemory m) s cb hfresh

/-- The engine's own read adds its token when it is put in flight. -/
theorem tokens_armWake {e' : Engine P H} {r : Except Fault Unit} (ha : e.armWake = (e', r))
    (hfresh : ∀ t, r = .ok () → e'.wakeToken = some t → t ∉ tokens e.port) :
    (r = .ok () ∧ ∃ t, e'.wakeToken = some t ∧ tokens e'.port = t ::ₘ tokens e.port) ∨
      (∃ f, r = .error f ∧ tokens e'.port = tokens e.port) := by
  unfold armWake at ha
  split at ha
  · next f hw =>
    cases ha
    exact .inr ⟨f, rfl, rfl⟩
  · next memory s hw =>
    have hh := tokens_handOff hk (e.withMemory memory) s .silent
    split at ha
    · next e₁ t heq =>
      have heq' : (e.withMemory memory).handOff s .silent = (e₁, .ok t) := heq
      rw [heq'] at hh
      cases ha
      refine .inl ⟨rfl, t, rfl, hh fun u hu => ?_⟩
      rw [← Except.ok.inj hu]
      exact hfresh t rfl rfl
    · next e₁ f heq =>
      have heq' : (e.withMemory memory).handOff s .silent = (e₁, .error f) := heq
      rw [heq'] at hh
      cases ha
      exact .inr ⟨f, rfl, hh nofun⟩

end Engine

/-! ### Every call keeps the agreement -/

namespace Agrees

variable {tokens : P → Multiset Token} {e e' : Engine P H} {users : Finset Token}
  (hk : KeepsTokens tokens) (h : Agrees tokens e users)
  (hroom : e'.slab.slots.length ≤ 2 ^ 32)
include hk h hroom

theorem place_ok {o : Order StorageId} {cb : Callback} {t : Token}
    (hp : e.place o cb = (e', .ok t)) : Agrees tokens e' (insert t users) ∧ t ∉ users := by
  have htokens := Engine.tokens_place hk e hp
  obtain ⟨m, s, _, ht, p, host, j, a, he⟩ := Engine.place_eq_ok hp
  have hslab : e'.slab = (e.slab.insert (Engine.contextOf s cb)).1 := by rw [he]; rfl
  have hfresh : t ∉ tokens e.port := by
    rw [hslab] at hroom
    exact h.not_mem_tokens (ht ▸ h.sound.get?_token_insert _ hroom)
  refine h.enter hroom hslab ht (htokens fun u hu => ?_) (by rw [he]; rfl)
  rw [← Except.ok.inj hu]
  exact hfresh

theorem place_error {o : Order StorageId} {cb : Callback} {f : Fault}
    (hp : e.place o cb = (e', .error f)) : Agrees tokens e' users := by
  have htokens := Engine.tokens_place hk e hp nofun
  rcases Engine.place_eq_error h.sound hroom hp with ⟨_, rfl⟩ | ⟨_, slab, p, host, j, a, hs, rfl⟩
  · exact h
  · exact h.of_keeps hs htokens rfl

/-- The engine's own read, armed or not, agrees. -/
theorem armWake {r : Except Fault Unit} (hnone : e.wakeToken = none)
    (ha : e.armWake = (e', r)) : Agrees tokens e' users := by
  cases r with
  | ok u =>
    obtain ⟨m, s, _, _, _, _, p, host, j, a, he⟩ := Engine.armWake_eq_ok ha
    have hslab : e'.slab = (e.slab.insert (Engine.contextOf s .silent)).1 := by rw [he]; rfl
    have hwake : e'.wakeToken = some (e.slab.insert (Engine.contextOf s .silent)).2 := by rw [he]
    have hroom' := hslab ▸ hroom
    have hfresh := h.not_mem_tokens (h.sound.get?_token_insert _ hroom')
    have htokens := Engine.tokens_armWake hk e ha fun t _ ht => by
      rw [hwake] at ht
      rw [← Option.some.inj ht]
      exact hfresh
    obtain ⟨_, t, ht, htokens⟩ | ⟨f, hf, _⟩ := htokens
    · obtain rfl := Option.some.inj (hwake.symm.trans ht)
      exact h.arm hroom hslab rfl htokens hnone hwake
    · cases hf
  | error f =>
    obtain ⟨slab, p, host, j, a, hs, he⟩ := Engine.armWake_eq_error h.sound hroom ha
    obtain ⟨hr, _⟩ | ⟨f', _, htokens⟩ := Engine.tokens_armWake hk e ha nofun
    · cases hr
    · exact h.of_keeps (by rw [he]; exact hs) htokens (by rw [he]; rfl)

omit [CompletionPort P H] hk hroom in
/-- An internal name is nobody's token. -/
theorem not_mem_users_of_isInternal {t : Token} (ht : t.isInternal = true) : t ∉ users := by
  intro hu
  have hmem := ((h.mem_users t).mp hu).1
  exact h.not_mem_tokens (Slab.get?_of_isInternal e.slab ht) hmem

omit hroom in
/-- A wait that ends without a completion keeps the agreement. -/
theorem waited [Os H] {deadline : Option Nat} {rounds : Nat} {w : Waited}
    (hw : e.waitPort deadline rounds = (e', w)) (hno : ∀ c moved, w ≠ .completion c moved) :
    Agrees tokens e' users := by
  obtain ⟨he, rfl⟩ := Prod.mk.inj hw
  obtain ⟨p, host, j, rfl⟩ := Engine.waitPort_eq_beside hw
  refine h.of_keeps h.sound.keeps_self ?_ rfl
  rw [← he]
  exact hk.wait_other _ _ _ _ _ hno

/-- What follows a completion of the engine's own read keeps the agreement. -/
theorem rearmWake {result : Int64} (hnone : e.wakeToken = none)
    (he : e.rearmWake result = e') : Agrees tokens e' users ∧ e'.stats = e.stats := by
  subst he
  unfold Engine.rearmWake at hroom ⊢
  split
  · exact ⟨h, rfl⟩
  next hclosed =>
  split
  · exact ⟨h.of_keeps h.sound.keeps_self rfl rfl, rfl⟩
  next hneg =>
  rw [if_neg hclosed, if_neg hneg] at hroom
  split
  · next e₁ ha =>
    rw [ha] at hroom
    obtain ⟨m, s, _, _, _, _, p, host, j, a, he₁⟩ := Engine.armWake_eq_ok ha
    exact ⟨h.armWake hk hroom hnone ha, by rw [he₁]; rfl⟩
  · next e₁ f ha =>
    rw [ha] at hroom
    have hroom' : e₁.slab.slots.length ≤ 2 ^ 32 := hroom
    obtain ⟨slab, p, host, j, a, hs, he₁⟩ := Engine.armWake_eq_error h.sound hroom' ha
    have h₁ := h.armWake hk hroom' hnone ha
    exact ⟨h₁.of_keeps h₁.sound.keeps_self rfl rfl, by rw [he₁]; rfl⟩

/-- A completion that a wait returned is finished: it was unknown, or it was that of the engine's
own read, or a user's operation is over. -/
theorem complete [Os H] {e₁ : Engine P H} {deadline : Option Nat} {rounds : Nat} {c : Completion}
    {moved : Transfer} {r : Except Fault (Option Dispatch)}
    (hw : e.waitPort deadline rounds = (e₁, .completion c moved))
    (hc : e₁.complete c moved = (e', r)) :
    (Agrees tokens e' users ∧ e'.stats = e.stats ∧ ∀ d, r ≠ .ok (some d)) ∨
    (∃ d, r = .ok (some d) ∧ d.token.isInternal = false ∧ d.token ∈ users ∧
      Agrees tokens e' (users.erase d.token) ∧
      e'.stats = { e.stats with dispatched := e.stats.dispatched + 1 }) := by
  obtain ⟨he, hans⟩ := Prod.mk.inj hw
  obtain ⟨p, host, j, rfl⟩ := Engine.waitPort_eq_beside hw
  have htokens : tokens p = (tokens e.port).erase c.token :=
    (congrArg (fun x => tokens x.port) he).symm.trans (hk.wait_completion _ _ _ _ _ c moved hans)
  cases ht : e.slab.take c.token with
  | none =>
    simp only [Engine.complete, Engine.slab_beside, ht] at hc
    obtain ⟨rfl, rfl⟩ := Prod.mk.inj hc
    refine .inl ⟨h.of_keeps h.sound.keeps_self ?_ rfl, rfl, nofun⟩
    have hnot := h.not_mem_tokens ((Slab.take_eq_none_iff _ _).mp ht)
    exact htokens.trans (Multiset.erase_of_notMem hnot)
  | some x =>
    obtain ⟨context, slab⟩ := x
    simp only [Engine.complete, Engine.slab_beside, ht] at hc
    by_cases hwake : e.wakeToken = some c.token
    · rw [Engine.wakeToken_beside, if_pos hwake] at hc
      obtain ⟨hre, rfl⟩ := Prod.mk.inj hc
      obtain ⟨hagrees, hstats⟩ :=
        (h.takeWake ht rfl htokens hwake rfl).rearmWake hk hroom rfl hre
      exact .inl ⟨hagrees, hstats, nofun⟩
    · rw [Engine.wakeToken_beside, if_neg hwake] at hc
      obtain ⟨rfl, rfl⟩ := Prod.mk.inj hc
      have hnot : c.token.isInternal = false := by
        cases hi : c.token.isInternal with
        | false => rfl
        | true =>
          have hnone := Slab.get?_of_isInternal e.slab hi
          rw [Slab.get?_of_take ht] at hnone
          cases hnone
      have hmem : c.token ∈ users :=
        (h.mem_users _).mpr ⟨h.mem_tokens_iff.mpr ⟨context, Slab.get?_of_take ht⟩, hwake⟩
      exact .inr ⟨_, rfl, hnot, hmem, h.take ht rfl htokens hwake rfl, rfl⟩

end Agrees

end Proactor
