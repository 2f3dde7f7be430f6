import Proactor.Proofs.Client
import Proactor.Session.AnyPort

/-!
# Dispatch

A callback that was given to a submitter is run for the completion of its operation, once, and
for nothing else. Which operation a completion is for is told from the history alone: it is the
last one that was put in flight under the token of the completion, unless that one ended before.
The invariant says that these operations and the contexts in the slab are the same.
-/

namespace Proactor

variable {P H : Type}

/-- The event ends whatever was in flight under a token. -/
def Event.Ends (t : Token) : Event P H → Prop
  | .completed _ c _ _ => c.token = t
  | .abandoned => True
  | _ => False

/-- The callbacks that an event runs, and what they are told. -/
def Event.runs : Event P H → List (String × Outcome)
  | .completed _ _ _ (some (cb, o)) => [(cb.tag, o)]
  | .popped cb => [(cb.tag, .done)]
  | _ => []

/-- The callback that a call on record was of. -/
def Call.ran? : Call → Option (String × Outcome)
  | .ran tag o => some (tag, o)
  | _ => none

/-- The submission at `i` put an operation in flight under `t`, and nothing that happened between
`i` and `j` ended it. -/
def Open (τ : List (Moment P H)) (i j : Nat) (t : Token) : Prop :=
  i < j ∧ (∃ cb s, τ[i]? = some (.submitted cb (.ok t), s)) ∧
    ∀ k m, i < k → k < j → τ[k]? = some m → ¬ m.1.Ends t

/-! ### What is open as a history goes on -/

section Open

variable {τ : List (Moment P H)} {m : Moment P H} {i j : Nat} {t : Token}

/-- What happens later does not matter. -/
theorem open_append (l : List (Moment P H)) (hj : j ≤ τ.length) :
    Open (τ ++ l) i j t ↔ Open τ i j t := by
  have hget : ∀ k, k < j → (τ ++ l)[k]? = τ[k]? := fun k hk =>
    List.getElem?_append_left (Nat.lt_of_lt_of_le hk hj)
  constructor
  · rintro ⟨hij, hsub, hall⟩
    rw [hget i hij] at hsub
    refine ⟨hij, hsub, fun k x hik hkj hx => ?_⟩
    exact hall k x hik hkj ((hget k hkj).trans hx)
  · rintro ⟨hij, hsub, hall⟩
    rw [← hget i hij] at hsub
    refine ⟨hij, hsub, fun k x hik hkj hx => ?_⟩
    exact hall k x hik hkj ((hget k hkj).symm.trans hx)

/-- What is open after one more thing happened was open and did not end, or has just begun. -/
theorem open_snoc : Open (τ ++ [m]) i (τ.length + 1) t ↔
    (Open τ i τ.length t ∧ ¬ m.1.Ends t) ∨
      (i = τ.length ∧ ∃ cb s, m = (.submitted cb (.ok t), s)) := by
  have hlast : (τ ++ [m])[τ.length]? = some m := List.getElem?_concat_length
  constructor
  · rintro ⟨hij, ⟨cb, s, hsub⟩, hall⟩
    rcases Nat.lt_or_eq_of_le (Nat.le_of_lt_succ hij) with hlt | rfl
    · refine .inl ⟨(open_append [m] (Nat.le_refl _)).mp ⟨hlt, ⟨cb, s, hsub⟩, ?_⟩, ?_⟩
      · exact fun k x hik hkj hx => hall k x hik (Nat.lt_succ_of_lt hkj) hx
      · exact hall τ.length m hlt (Nat.lt_succ_self _) hlast
    · exact .inr ⟨rfl, cb, s, Option.some.inj (hlast.symm.trans hsub)⟩
  · rintro (⟨hopen, hends⟩ | ⟨rfl, cb, s, rfl⟩)
    · obtain ⟨hij, hsub, hall⟩ := (open_append [m] (Nat.le_refl _)).mpr hopen
      refine ⟨Nat.lt_succ_of_lt hij, hsub, fun k x hik hkj hx => ?_⟩
      rcases Nat.lt_or_eq_of_le (Nat.le_of_lt_succ hkj) with hlt | rfl
      · exact hall k x hik hlt hx
      · rw [← Option.some.inj (hlast.symm.trans hx)]
        exact hends
    · refine ⟨Nat.lt_succ_self _, ⟨cb, s, hlast⟩, fun k x hik hkj => ?_⟩
      omega

end Open

/-! ### The invariant -/

/-- What is open after a history is what is in flight after it, and the engine's own read is
neither. -/
structure Matched (τ : List (Moment P H)) (s : Scene P H) : Prop where
  wake : ∀ t, s.engine.wakeToken = some t → ∃ context, s.engine.slab.get? t = some context
  /-- Whatever is in flight was submitted. -/
  submitted : ∀ t context, s.engine.slab.get? t = some context → s.engine.wakeToken ≠ some t →
    ∃ i, Open τ i τ.length t
  /-- Whatever is open has the context that it was given. -/
  live : ∀ i t cb s', Open τ i τ.length t → τ[i]? = some (.submitted cb (.ok t), s') →
    s.engine.wakeToken ≠ some t ∧ ∃ context, s'.engine.slab.get? t = some context ∧
      s.engine.slab.get? t = some context ∧ context.callback = cb
  unique : ∀ i i' t, Open τ i τ.length t → Open τ i' τ.length t → i = i'

/-- How the completions of a history are answered with callbacks. -/
structure ExactlyOnce [Os H] (τ : List (Moment P H)) : Prop where
  /-- A completion that names an operation in flight has that operation's callback run at once,
  with the result put right for the operation's kind. -/
  answered : ∀ (i j : Nat) (t : Token) (cb : Callback) (s s' : Scene P H) (seen : Engine P H)
    (c : Completion) (moved : Transfer) (ran : Option (Callback × Outcome)), Open τ i j t →
    τ[i]? = some (.submitted cb (.ok t), s) → τ[j]? = some (.completed seen c moved ran, s') →
    c.token = t → ∃ context, s.engine.slab.get? t = some context ∧
      seen.slab.get? t = some context ∧ context.callback = cb ∧
      ran = some (cb, .ofResult (seen.world.settle context.pinned c.result moved).2)
  /-- A callback is run for one operation only, which is in flight under the token of the
  completion. -/
  meant : ∀ (j : Nat) (seen : Engine P H) (c : Completion) (moved : Transfer) (cb : Callback)
    (o : Outcome) (s' : Scene P H), τ[j]? = some (.completed seen c moved (some (cb, o)), s') →
    ∃ i, (Open τ i j c.token ∧ ∃ s, τ[i]? = some (.submitted cb (.ok c.token), s)) ∧
      ∀ i', Open τ i' j c.token → i' = i
  /-- No operation ends twice. -/
  once : ∀ (i j j' : Nat) (t : Token) (m m' : Moment P H), Open τ i j t → Open τ i j' t →
    τ[j]? = some m → τ[j']? = some m' → m.1.Ends t → m'.1.Ends t → j = j'
  /-- A completion that names no operation in flight runs nothing. -/
  unknown : ∀ (j : Nat) (seen : Engine P H) (c : Completion) (moved : Transfer)
    (ran : Option (Callback × Outcome)) (s' : Scene P H),
    τ[j]? = some (.completed seen c moved ran, s') → seen.slab.get? c.token = none → ran = none

/-! ### Who is in flight after a step -/

/-- The operation of a user that is in flight under a token. -/
def Scene.user? (s : Scene P H) (t : Token) : Option Context :=
  if s.engine.wakeToken = some t then none else s.engine.slab.get? t

theorem Scene.user?_eq_some_iff (s : Scene P H) (t : Token) (context : Context) :
    s.user? t = some context ↔
      s.engine.wakeToken ≠ some t ∧ s.engine.slab.get? t = some context := by
  unfold Scene.user?
  by_cases h : s.engine.wakeToken = some t <;> simp [h]

/-- The same operations of users are in flight when nothing else is. -/
theorem Scene.Keeps.user?_eq {s s' : Scene P H} (h : s.Keeps s') (t : Token) :
    s'.user? t = s.user? t := by
  unfold Scene.user?
  rw [h.wakeToken, h.slab.get?]

/-- Without the engine's own read only operations of users are in flight. -/
theorem Scene.user?_of_take_wake {s : Scene P H} {c t : Token} {context : Context}
    {slab : Slab Context} (htake : s.engine.slab.take c = some (context, slab))
    (hwas : s.engine.wakeToken = some c) :
    (if t = c then none else s.user? t) = slab.get? t := by
  unfold Scene.user?
  rw [hwas, Slab.get?_take htake t]
  by_cases ht : t = c
  · rw [if_pos ht, if_pos ht]
  · have hne : some c ≠ some t := fun he => ht (Option.some.inj he).symm
    rw [if_neg ht, if_neg ht, if_neg hne]

/-- How an event changes the operations of users in flight: those that it ends are gone, one that
it puts in flight has its callback, and all others stay. -/
structure Event.Changes (ev : Event P H) (s s' : Scene P H) : Prop where
  ended : ∀ t, ev.Ends t → s'.user? t = none
  stays : ∀ t, ¬ ev.Ends t → (∀ cb, ev ≠ .submitted cb (.ok t)) → s'.user? t = s.user? t
  begun : ∀ cb t, ev = .submitted cb (.ok t) →
    s.user? t = none ∧ ∃ context, s'.user? t = some context ∧ context.callback = cb

/-- An idle event changes nothing. -/
theorem Event.changes_of_keeps {s s' : Scene P H} {ev : Event P H}
    (hev : ev.IsIdle s.engine.slab) (hk : s.Keeps s') : ev.Changes s s' where
  ended := by
    intro t hends
    rw [hk.user?_eq]
    cases ev with
    | completed seen c moved ran =>
      have hnone := hev.2.1
      obtain rfl : c.token = t := hends
      unfold Scene.user?
      rw [hnone, ite_self]
    | submitted cb r => cases hends
    | popped cb => cases hends
    | abandoned => cases hev
    | quiet => cases hends
  stays := by
    intro t _ _
    exact hk.user?_eq t
  begun := by
    rintro cb t rfl
    cases hev

/-- A completion ends what is in flight under its token, and nothing else. -/
theorem Event.changes_of_completed {s s' : Scene P H} {seen : Engine P H} {c : Completion}
    {moved : Transfer} {ran : Option (Callback × Outcome)}
    (h : ∀ t, s'.user? t = if t = c.token then none else s.user? t) :
    (Event.completed seen c moved ran).Changes s s' where
  ended := by
    rintro t rfl
    rw [h, if_pos rfl]
  stays := by
    intro t hends _
    have hne : t ≠ c.token := fun he => hends he.symm
    rw [h, if_neg hne]
  begun := by
    intro cb t hev
    cases hev

section Turnover

variable [Os H] {s s' : Scene P H} {ev : Event P H} (h : Turnover s ev s')
  (hs : s.engine.slab.Sound) (hroom : s'.engine.slab.slots.length ≤ 2 ^ 32)
  (hwake : ∀ t, s.engine.wakeToken = some t → ∃ context, s.engine.slab.get? t = some context)
include h hs hroom hwake

/-- The engine's own read, if there is one, stays in flight until it is retrieved. -/
theorem Turnover.wake_live (t : Token) (ht : s'.engine.wakeToken = some t) :
    ∃ context, s'.engine.slab.get? t = some context := by
  have hkeeps : s.Keeps s' → ∃ context, s'.engine.slab.get? t = some context := by
    intro hk
    rw [hk.wakeToken] at ht
    rw [hk.slab.get?]
    exact hwake t ht
  cases h with
  | kept hev hk => exact hkeeps hk
  | allocated id hk => exact hkeeps hk
  | borrowed id hk => exact hkeeps hk
  | gaveBack id hk => exact hkeeps hk
  | entered context hcb hslab hsame =>
    rw [hsame] at ht
    rw [hslab] at hroom ⊢
    rw [hs.get?_insert context hroom]
    split
    · exact ⟨context, rfl⟩
    · exact hwake t ht
  | woken context slab hseen htake hwas hslab hnone =>
    rw [hnone] at ht
    cases ht
  | rearmed context next slab between hseen htake hwas hslab hnew =>
    rw [hnew] at ht
    rw [hslab] at hroom ⊢
    obtain rfl := Option.some.inj ht
    exact ⟨next, by rw [(hs.take htake).get?_insert next hroom, if_pos rfl]⟩
  | @called _ c _ _ context slab hseen htake hwas hslab hsame =>
    rw [hsame] at ht
    have hne : t ≠ c.token := by
      rintro rfl
      exact hwas ht
    rw [hslab, Slab.get?_take htake, if_neg hne]
    exact hwake t ht
  | abandoned hslab hnone =>
    rw [hnone] at ht
    cases ht

/-- Every step changes what is in flight as its event says. -/
theorem Turnover.changes : ev.Changes s s' := by
  cases h with
  | kept hev hk => exact Event.changes_of_keeps hev hk
  | allocated id hk => exact Event.changes_of_keeps trivial hk
  | borrowed id hk => exact Event.changes_of_keeps trivial hk
  | gaveBack id hk => exact Event.changes_of_keeps trivial hk
  | entered context hcb hslab hsame =>
    rw [hslab] at hroom
    have hget := hs.get?_insert context hroom
    have hfresh := hs.get?_token_insert context hroom
    have hne : s.engine.wakeToken ≠ some (s.engine.slab.insert context).2 := by
      intro hw
      obtain ⟨other, hother⟩ := hwake _ hw
      rw [hfresh] at hother
      cases hother
    refine ⟨?_, ?_, ?_⟩
    · intro t hends
      cases hends
    · intro t _ hnew
      have ht : t ≠ (s.engine.slab.insert context).2 := fun he => hnew _ (by rw [he])
      unfold Scene.user?
      rw [hsame, hslab, hget, if_neg ht]
    · intro cb t hev
      cases hev
      refine ⟨?_, context, ?_, hcb⟩
      · unfold Scene.user?
        rw [hfresh, ite_self]
      · unfold Scene.user?
        rw [hsame, hslab, if_neg hne, hget, if_pos rfl]
  | woken context slab hseen htake hwas hslab hnone =>
    apply Event.changes_of_completed
    intro t
    rw [Scene.user?_of_take_wake htake hwas]
    unfold Scene.user?
    rw [hnone, hslab.get?, if_neg nofun]
  | rearmed context next slab between hseen htake hwas hslab hnew =>
    rw [hslab] at hroom
    have hget := (hs.take htake).get?_insert next hroom
    have hfresh := (hs.take htake).get?_token_insert next hroom
    apply Event.changes_of_completed
    intro t
    rw [Scene.user?_of_take_wake htake hwas]
    unfold Scene.user?
    rw [hnew, hslab, hget]
    by_cases ht : t = (slab.insert next).2
    · rw [ht, hfresh, if_pos rfl]
    · have hne : some (slab.insert next).2 ≠ some t := fun he => ht (Option.some.inj he).symm
      rw [if_neg hne, if_neg ht]
  | @called _ c _ _ context slab hseen htake hwas hslab hsame =>
    apply Event.changes_of_completed
    intro t
    unfold Scene.user?
    rw [hsame, hslab, Slab.get?_take htake]
    by_cases ht : t = c.token
    · rw [if_pos ht, if_pos ht, ite_self]
    · rw [if_neg ht, if_neg ht]
  | abandoned hslab hnone =>
    have hgone : ∀ t, s'.user? t = none := by
      intro t
      unfold Scene.user?
      rw [hslab, Slab.get?_abandon, ite_self]
    refine ⟨fun t _ => hgone t, fun t hends => absurd trivial hends, ?_⟩
    intro cb t hev
    cases hev

end Turnover

/-! ### Every step keeps the invariant -/

/-- What is open stays matched if the event says what became of it. -/
theorem Matched.snoc {τ : List (Moment P H)} {s s' : Scene P H} {ev : Event P H}
    (hm : Matched τ s) (hc : ev.Changes s s')
    (hwake : ∀ t, s'.engine.wakeToken = some t →
      ∃ context, s'.engine.slab.get? t = some context) :
    Matched (τ ++ [(ev, s')]) s' := by
  have hlen : (τ ++ [(ev, s')]).length = τ.length + 1 := by simp
  have hfresh : ∀ i t cb, Open τ i τ.length t → ev ≠ .submitted cb (.ok t) := by
    intro i t cb hopen hev
    obtain ⟨cb', s'', hsub⟩ := hopen.2.1
    obtain ⟨hne, context, _, hsome, _⟩ := hm.live i t cb' s'' hopen hsub
    have huser := (s.user?_eq_some_iff t context).mpr ⟨hne, hsome⟩
    rw [(hc.begun cb t hev).1] at huser
    cases huser
  refine ⟨hwake, ?_, ?_, ?_⟩
  · intro t context hsome hne
    rw [hlen]
    have huser := (s'.user?_eq_some_iff t context).mpr ⟨hne, hsome⟩
    have hends : ¬ ev.Ends t := by
      intro hends
      rw [hc.ended t hends] at huser
      cases huser
    by_cases hnew : ∃ cb, ev = .submitted cb (.ok t)
    · obtain ⟨cb, rfl⟩ := hnew
      exact ⟨τ.length, open_snoc.mpr (.inr ⟨rfl, cb, s', rfl⟩)⟩
    · rw [hc.stays t hends fun cb hev => hnew ⟨cb, hev⟩] at huser
      obtain ⟨hne', hsome'⟩ := (s.user?_eq_some_iff t context).mp huser
      obtain ⟨i, hi⟩ := hm.submitted t context hsome' hne'
      exact ⟨i, open_snoc.mpr (.inl ⟨hi, hends⟩)⟩
  · intro i t cb s'' hopen hsub
    rw [hlen] at hopen
    rcases open_snoc.mp hopen with ⟨hold, hends⟩ | ⟨rfl, cb', s₁, hm'⟩
    · rw [List.getElem?_append_left hold.1] at hsub
      obtain ⟨hne, context, hstart, hwas, hcb⟩ := hm.live i t cb s'' hold hsub
      have huser := hc.stays t hends fun cb => hfresh i t cb hold
      rw [(s.user?_eq_some_iff t context).mpr ⟨hne, hwas⟩] at huser
      obtain ⟨hne', hstill⟩ := (s'.user?_eq_some_iff t context).mp huser
      exact ⟨hne', context, hstart, hstill, hcb⟩
    · rw [List.getElem?_concat_length] at hsub
      obtain ⟨rfl, rfl⟩ := Prod.mk.inj (Option.some.inj hsub)
      obtain ⟨_, context, huser, hcb⟩ := hc.begun cb t rfl
      obtain ⟨hne, hsome⟩ := (s'.user?_eq_some_iff t context).mp huser
      exact ⟨hne, context, hsome, hsome, hcb⟩
  · intro i i' t hi hi'
    rw [hlen] at hi hi'
    rcases open_snoc.mp hi with ⟨hold, _⟩ | ⟨rfl, cb, s₁, hm₁⟩
    · rcases open_snoc.mp hi' with ⟨hold', _⟩ | ⟨rfl, cb, s₁, hm₁⟩
      · exact hm.unique i i' t hold hold'
      · exact absurd (Prod.mk.inj hm₁).1 (hfresh i t cb hold)
    · rcases open_snoc.mp hi' with ⟨hold', _⟩ | ⟨rfl, _⟩
      · exact absurd (Prod.mk.inj hm₁).1 (hfresh i' t cb hold')
      · rfl

section Turnover

variable [Os H]

/-- Every step keeps what is open matched. -/
theorem Matched.step {τ : List (Moment P H)} {s s' : Scene P H} {ev : Event P H}
    (hm : Matched τ s) (hs : s.engine.slab.Sound)
    (hroom : s'.engine.slab.slots.length ≤ 2 ^ 32) (h : Turnover s ev s') :
    Matched (τ ++ [(ev, s')]) s' :=
  hm.snoc (h.changes hs hroom hm.wake) (h.wake_live hs hroom hm.wake)

/-! ### Every completion is answered -/

/-- What a step can do to a completion. -/
theorem Turnover.of_completed {s s' : Scene P H} {seen : Engine P H} {c : Completion}
    {moved : Transfer} {ran : Option (Callback × Outcome)}
    (h : Turnover s (.completed seen c moved ran) s') : seen.slab = s.engine.slab ∧
      ((ran = none ∧ (s.engine.slab.get? c.token = none ∨ s.engine.wakeToken = some c.token)) ∨
      (s.engine.wakeToken ≠ some c.token ∧ ∃ context, s.engine.slab.get? c.token = some context ∧
        ran = some (context.callback,
          .ofResult (seen.world.settle context.pinned c.result moved).2))) := by
  cases h with
  | kept hev => exact ⟨hev.1, .inl ⟨hev.2.2, .inl hev.2.1⟩⟩
  | woken context slab hseen htake hwas => exact ⟨hseen, .inl ⟨rfl, .inr hwas⟩⟩
  | rearmed context next slab between hseen htake hwas => exact ⟨hseen, .inl ⟨rfl, .inr hwas⟩⟩
  | called context slab hseen htake hwas =>
    exact ⟨hseen, .inr ⟨hwas, context, Slab.get?_of_take htake, rfl⟩⟩

/-- The completion of an operation that is open is answered with that operation's callback. -/
theorem Matched.answered {τ : List (Moment P H)} {s s' s₁ : Scene P H} {seen : Engine P H}
    {c : Completion} {moved : Transfer} {ran : Option (Callback × Outcome)} {i : Nat}
    {cb : Callback} (hm : Matched τ s) (h : Turnover s (.completed seen c moved ran) s')
    (ho : Open τ i τ.length c.token) (hsub : τ[i]? = some (.submitted cb (.ok c.token), s₁)) :
    ∃ context, s₁.engine.slab.get? c.token = some context ∧
      seen.slab.get? c.token = some context ∧ context.callback = cb ∧
      ran = some (cb, .ofResult (seen.world.settle context.pinned c.result moved).2) := by
  obtain ⟨hne, context, hstart, hsome, hcb⟩ := hm.live i c.token cb s₁ ho hsub
  obtain ⟨hseen, ⟨_, hnone | hwake⟩ | ⟨_, other, hother, hran⟩⟩ := h.of_completed
  · rw [hsome] at hnone
    cases hnone
  · exact absurd hwake hne
  · obtain rfl : other = context := Option.some.inj (hother.symm.trans hsome)
    exact ⟨other, hstart, hseen ▸ hsome, hcb, hcb ▸ hran⟩

/-- A callback that is run for a completion is that of the one operation that is open. -/
theorem Matched.meant {τ : List (Moment P H)} {s s' : Scene P H} {seen : Engine P H}
    {c : Completion} {moved : Transfer} {cb : Callback} {o : Outcome} (hm : Matched τ s)
    (h : Turnover s (.completed seen c moved (some (cb, o))) s') :
    ∃ i s₁, Open τ i τ.length c.token ∧ τ[i]? = some (.submitted cb (.ok c.token), s₁) ∧
      ∀ i', Open τ i' τ.length c.token → i' = i := by
  obtain ⟨_, ⟨hran, _⟩ | ⟨hne, context, hsome, hran⟩⟩ := h.of_completed
  · cases hran
  · obtain ⟨i, ho⟩ := hm.submitted c.token context hsome hne
    obtain ⟨cb', s₁, hsub⟩ := ho.2.1
    obtain ⟨_, other, _, hother, hcb⟩ := hm.live i c.token cb' s₁ ho hsub
    obtain rfl : context = other := Option.some.inj (hsome.symm.trans hother)
    obtain rfl : cb = cb' := (Prod.mk.inj (Option.some.inj hran)).1.trans hcb
    exact ⟨i, s₁, ho, hsub, fun i' ho' => hm.unique i' i c.token ho' ho⟩

omit [Os H] in
private theorem getElem?_snoc {τ : List (Moment P H)} {m x : Moment P H} {j : Nat}
    (h : (τ ++ [m])[j]? = some x) : (j < τ.length ∧ τ[j]? = some x) ∨ (j = τ.length ∧ x = m) := by
  rcases Nat.lt_trichotomy j τ.length with hlt | rfl | hgt
  · rw [List.getElem?_append_left hlt] at h
    exact .inl ⟨hlt, h⟩
  · rw [List.getElem?_concat_length] at h
    exact .inr ⟨rfl, (Option.some.inj h).symm⟩
  · rw [List.getElem?_eq_none (by simp; omega)] at h
    cases h

/-- No history is no exception. -/
theorem exactlyOnce_nil : ExactlyOnce ([] : List (Moment P H)) where
  answered := by simp
  meant := by simp
  once := by simp
  unknown := by simp

/-- Every step answers its completion as it should. -/
theorem ExactlyOnce.step {τ : List (Moment P H)} {s s' : Scene P H} {ev : Event P H}
    (hx : ExactlyOnce τ) (hm : Matched τ s) (h : Turnover s ev s') :
    ExactlyOnce (τ ++ [(ev, s')]) := by
  have hopen : ∀ {i j t}, j ≤ τ.length → Open (τ ++ [(ev, s')]) i j t → Open τ i j t :=
    fun hj => (open_append _ hj).mp
  refine ⟨?_, ?_, ?_, ?_⟩
  · intro i j t cb s₁ s₂ seen c moved ran ho hsub hc ht
    rcases getElem?_snoc hc with ⟨hj, hc'⟩ | ⟨rfl, hlast⟩
    · have ho' := hopen (Nat.le_of_lt hj) ho
      rw [List.getElem?_append_left (Nat.lt_trans ho.1 hj)] at hsub
      exact hx.answered i j t cb s₁ s₂ seen c moved ran ho' hsub hc' ht
    · rw [List.getElem?_append_left ho.1] at hsub
      obtain ⟨rfl, rfl⟩ := Prod.mk.inj hlast
      subst ht
      exact hm.answered h (hopen (Nat.le_refl _) ho) hsub
  · intro j seen c moved cb o s₂ hc
    rcases getElem?_snoc hc with ⟨hj, hc'⟩ | ⟨rfl, hlast⟩
    · obtain ⟨i, ⟨ho, s₁, hsub⟩, huniq⟩ := hx.meant j seen c moved cb o s₂ hc'
      refine ⟨i, ⟨(open_append _ (Nat.le_of_lt hj)).mpr ho, s₁, ?_⟩, fun i' ho' => ?_⟩
      · rw [List.getElem?_append_left (Nat.lt_trans ho.1 hj)]
        exact hsub
      · exact huniq i' (hopen (Nat.le_of_lt hj) ho')
    · obtain ⟨rfl, rfl⟩ := Prod.mk.inj hlast
      obtain ⟨i, s₁, ho, hsub, huniq⟩ := hm.meant h
      refine ⟨i, ⟨(open_append _ (Nat.le_refl _)).mpr ho, s₁, ?_⟩, fun i' ho' => ?_⟩
      · rw [List.getElem?_append_left ho.1]
        exact hsub
      · exact huniq i' (hopen (Nat.le_refl _) ho')
  · intro i j j' t m m' ho ho' hj hj' he he'
    -- Whichever comes first ends what is open, so that it is not open for the other.
    rcases Nat.lt_trichotomy j j' with hlt | rfl | hgt
    · exact absurd he (ho'.2.2 j m ho.1 hlt hj)
    · rfl
    · exact absurd he' (ho.2.2 j' m' ho'.1 hgt hj')
  · intro j seen c moved ran s₂ hc hnone
    rcases getElem?_snoc hc with ⟨hj, hc'⟩ | ⟨rfl, hlast⟩
    · exact hx.unknown j seen c moved ran s₂ hc' hnone
    · obtain ⟨rfl, rfl⟩ := Prod.mk.inj hlast
      obtain ⟨hseen, ⟨hran, _⟩ | ⟨_, context, hsome, _⟩⟩ := h.of_completed
      · exact hran
      · rw [hseen, hsome] at hnone
        cases hnone

end Turnover

/-! ### The record of what was run -/

variable [CompletionPort P H] [Os H]

omit [CompletionPort P H] in
/-- Settling runs no callback. -/
theorem World.calls_settle (w : World H) (p : Pinned) (result : Int64) (t : Transfer) :
    (w.settle p result t).1.calls = w.calls := by
  simp only [World.settle]
  unfold World.finish
  split
  · rfl
  · split
    · rfl
    · unfold World.moveAccepted
      dsimp only
      split <;> rfl
  · rfl

omit [CompletionPort P H] in
private theorem calls_post (w : World H) (cb : Callback) : (w.post cb).1.calls = w.calls := by
  unfold World.post
  split
  · rfl
  · unfold World.wake
    split <;> rfl

omit [CompletionPort P H] in
private theorem runs_act (w : World H) {a : Action}
    (ha : ∀ handle content actions, a ≠ .borrow handle content actions) :
    (w.act a).calls.filterMap Call.ran? = w.calls.filterMap Call.ran? := by
  cases a with
  | post tag actions => simp [World.act, World.record, calls_post, Call.ran?]
  | peek handle =>
    simp only [World.act]
    split <;> simp [World.record, Call.ran?]
  | pending => simp [World.act, World.record, Call.ran?]
  | fill handle content =>
    simp only [World.act, World.fill]
    split <;> rfl
  | borrow handle content actions => exact absurd rfl (ha handle content actions)

omit [Os H] in
/-- Submitting runs no callback. -/
private theorem calls_place {e : Engine P H} {o : Order StorageId} {cb : Callback}
    (hs : e.slab.Sound) (hroom : (e.place o cb).1.slab.slots.length ≤ 2 ^ 32) :
    (e.place o cb).1.world.calls = e.world.calls := by
  cases hp : e.place o cb with
  | mk e' r =>
    rw [hp] at hroom
    cases r with
    | ok t =>
      obtain ⟨m, s, _, _, p, host, j, a, rfl⟩ := Engine.place_eq_ok hp
      rfl
    | error f =>
      rcases Engine.place_eq_error hs hroom hp with ⟨_, rfl⟩ | ⟨_, slab, p, host, j, a, _, rfl⟩
      · rfl
      · rfl

omit [Os H] in
/-- Putting the engine's own read in flight again runs no callback. -/
private theorem calls_rearmWake {e : Engine P H} (result : Int64) (hs : e.slab.Sound)
    (hroom : (e.rearmWake result).slab.slots.length ≤ 2 ^ 32) :
    (e.rearmWake result).world.calls = e.world.calls := by
  rcases Engine.rearmWake_cases result hs hroom with
    ⟨slab, p, host, j, a, _, he⟩ | ⟨next, m, _, _, p, host, j, a, he⟩
  · rw [he]
    rfl
  · rw [he]
    rfl

/-- The callbacks on record are those that the events ran. -/
theorem Happens.runs {s s' : Scene P H} {ev : Event P H} (h : Happens s ev s')
    (hs : s.engine.slab.Sound) (hroom : s'.engine.slab.slots.length ≤ 2 ^ 32) :
    s'.engine.world.calls.filterMap Call.ran? =
      s.engine.world.calls.filterMap Call.ran? ++ ev.runs := by
  have hsame : s'.engine.world.calls = s.engine.world.calls → ev.runs = [] →
      s'.engine.world.calls.filterMap Call.ran? =
        s.engine.world.calls.filterMap Call.ran? ++ ev.runs := by
    intro hcalls hruns
    rw [hcalls, hruns, List.append_nil]
  cases h with
  | place e b o cb => exact hsame (calls_place hs hroom) rfl
  | associate e b fd =>
    obtain ⟨p, host, j, a, he⟩ := e.associate_eq_beside fd
    exact hsame (by rw [he]; rfl) rfl
  | waited e e' b deadline rounds w hw h =>
    obtain ⟨p, host, j, rfl⟩ := Engine.waitPort_eq_beside h
    exact hsame rfl rfl
  | unknown e e' b deadline rounds c moved h ht =>
    obtain ⟨p, host, j, rfl⟩ := Engine.waitPort_eq_beside h
    exact hsame rfl rfl
  | woken e e' b deadline rounds c moved context slab h ht hwake =>
    obtain ⟨p, host, j, rfl⟩ := Engine.waitPort_eq_beside h
    have htaken : slab.Sound := Slab.Sound.take (s := e.slab) hs ht
    refine hsame ((calls_rearmWake _ htaken hroom).trans ?_) rfl
    exact World.calls_settle (e.beside p host j e.associated).world context.pinned c.result moved
  | called e e' b deadline rounds c moved context slab o h ht hwake ho =>
    obtain ⟨p, host, j, rfl⟩ := Engine.waitPort_eq_beside h
    have hcalls : ((e.beside p host j e.associated).world.settle context.pinned c.result
        moved).1.calls = e.world.calls := World.calls_settle _ context.pinned c.result moved
    simp [Engine.calling, Engine.note, World.note, World.record, Engine.withWorld, Engine.settled,
      hcalls, Call.ran?, Event.runs]
  | popped e b cb world h =>
    obtain ⟨queue, _, rfl⟩ := World.pop_eq_some h
    simp [Engine.withWorld, World.record, Call.ran?, Event.runs]
  | act e b r a ha => exact (runs_act e.world ha).trans (List.append_nil _).symm
  | post e b r cb => exact hsame (calls_post e.world cb) rfl
  | borrow e b r handle content id world h =>
    simp only [World.borrow?, Option.bind_eq_bind, Option.bind_eq_some_iff] at h
    obtain ⟨id', _, m, _, h⟩ := h
    obtain ⟨rfl, rfl⟩ := Prod.mk.inj (Option.some.inj h)
    exact hsame rfl rfl
  | abandon e b =>
    unfold Engine.abandon
    dsimp only
    split <;> split <;> exact (List.append_nil _).symm
  | _ => exact hsame rfl rfl

/-! ### Whole runs -/

omit [CompletionPort P H] [Os H] in
/-- Nothing is open in a new engine. -/
theorem Engine.IsNew.matched {e : Engine P H} (h : e.IsNew) :
    Matched ([] : List (Moment P H)) (Client.own e).scene where
  wake := by
    intro t ht
    obtain ⟨t', context, hwake, hsome⟩ := h.exists_wake
    obtain rfl : t = t' := Option.some.inj (ht.symm.trans hwake)
    exact ⟨context, hsome⟩
  submitted := by
    intro t context hsome hne
    have hnone := h.get?_eq_none hne
    exact absurd (hsome.symm.trans hnone) (by simp)
  live := by
    intro i t cb s' ho
    exact absurd ho.1 (Nat.not_lt_zero i)
  unique := by
    intro i i' t ho
    exact absurd ho.1 (Nat.not_lt_zero i)

/-- Whatever the port does, and whatever a program does with an engine, each callback given to a
submitter is run exactly once if a completion comes for its operation, in the step that retrieves
it, and never otherwise; and nothing else is ever run but posted callbacks. A token has `2 ^ 32`
indices; with more slots than that, which takes as many submissions, two operations would share
one. -/
theorem callbacks_run_exactly_once {config : Config} {port : P} {host : H} {e : Engine P H}
    (h : Engine.build config port host = .ready e) (steps : List (Step H))
    (hroom : ((Client.own e).after steps).engine.slab.slots.length ≤ 2 ^ 32) :
    ExactlyOnce ((Client.own e).history steps) ∧
      ((Client.own e).after steps).engine.world.calls.filterMap Call.ran? =
        ((Client.own e).history steps).flatMap fun m => m.1.runs := by
  have hnew := Engine.isNew_of_build h
  have hpath := (Client.own e).path_history steps
  let I (τ : List (Moment P H)) (s : Scene P H) : Prop :=
    Matched τ s ∧ ExactlyOnce τ ∧
      s.engine.world.calls.filterMap Call.ran? = τ.flatMap fun m => m.1.runs
  have hfirst : I [] (Client.own e).scene := by
    refine ⟨hnew.matched, exactlyOnce_nil, ?_⟩
    exact congrArg (List.filterMap Call.ran?) hnew.calls
  suffices hI : I ((Client.own e).history steps) ((Client.own e).after steps).scene from
    ⟨hI.2.1, hI.2.2⟩
  refine (hpath.induct hnew.sound hroom hfirst ?_).2
  rintro τ s ev s' hs hroom' hstep hturn ⟨hm, hx, hruns⟩
  refine ⟨hm.step hs hroom' hturn, hx.step hm hturn, ?_⟩
  rw [hstep.runs hs hroom', hruns]
  simp

/-- A port that hands back the completion of its first operation twice, and then one that nobody
asked for. -/
def Scripted.repeating : Scripted :=
  { waits := [.completion (.user 0) 4 0 {}, .completion (.user 0) 4 0 {},
      .completion (.token ⟨9⟩) 0 0 {}] }

/-- A write and an event, and pumps until the port has nothing left. -/
def writeThenEvent : List (Step Host) :=
  [.buffer "b" [1, 2, 3, 4], .place (.write 3 "b" none) ⟨"wrote", []⟩, .pump none 9,
    .place .event ⟨"event", []⟩, .pump none 9, .pump none 9, .shutdown 9]

theorem callbacks_run_exactly_once_of_repeating : ∃ e : Engine Scripted Host,
    Engine.build {} Scripted.repeating Host.start = .ready e ∧
    ((Client.own e).after writeThenEvent).engine.slab.slots.length ≤ 2 ^ 32 ∧
    ExactlyOnce ((Client.own e).history writeThenEvent) ∧
    ((Client.own e).history writeThenEvent).flatMap (fun m => m.1.runs) = [("wrote", ⟨0, 4⟩)] := by
  have hroom := @Client.room_of_history Scripted Host _ _ {} Scripted.repeating Host.start _ rfl
    writeThenEvent (by decide)
  refine ⟨_, rfl, hroom, ?_, by decide⟩
  exact (@callbacks_run_exactly_once Scripted Host _ _ {} Scripted.repeating Host.start _ rfl
    writeThenEvent hroom).1

end Proactor
