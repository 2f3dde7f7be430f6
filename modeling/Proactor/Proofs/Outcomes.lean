import Proactor.Proofs.Accepted
import Proactor.Proofs.Drain

/-!
# What callbacks are told

A result becomes an error number or a count. A count saturates, but of a negated failure only the
low 32 bits are told; so a failure is told as one, unless it is a multiple of `2 ^ 32`.
-/

namespace Proactor

variable {P H : Type}

/-! ### Results -/

/-- What is told of a final result. -/
structure Told (f : Int64) (o : Outcome) : Prop where
  success : 0 ≤ f.toInt → o.error = 0 ∧ (o.bytes.toNat : Int) = min f.toInt 0xFFFFFFFF
  /-- A failure can be negated, and the low half of that is told. -/
  failure : f.toInt < 0 → (-f).toInt = -f.toInt ∧ o.error = (-f).toInt32 ∧ o.bytes = 0
  /-- An error number that fits is told as it is. -/
  exact : f.toInt < 0 → -0x80000000 < f.toInt → o.error.toInt = -f.toInt
  /-- A failure is told as a success if its low half is zero, and else as a failure. -/
  zero : f.toInt < 0 → (o.error = 0 ↔ 0x100000000 ∣ f.toInt)

namespace Outcome

/-- Only the least of all results cannot be negated. -/
theorem toInt_neg {f : Int64} (hmin : f ≠ Int64.minValue) : (-f).toInt = -f.toInt := by
  have hne : f.toInt ≠ -2 ^ 63 := by
    rw [← Int64.toInt_minValue]
    exact Int64.toInt_inj.ne.mpr hmin
  have hle := f.le_toInt
  have hlt := f.toInt_lt
  rw [Int64.toInt_neg]
  exact Int.bmod_eq_of_le (by omega) (by omega)

/-- A failure is told by the low half of its negation. -/
theorem error_ofResult {f : Int64} (h : f.toInt < 0) (hmin : f ≠ Int64.minValue) :
    (ofResult f).error = (-f).toInt32 := by
  rw [ofResult, if_pos h, ← toInt_neg hmin, Int32.ofInt_int64ToInt]

theorem error_ofResult_eq_zero_iff {f : Int64} (h : f.toInt < 0) :
    (ofResult f).error = 0 ↔ 0x100000000 ∣ f.toInt := by
  rw [ofResult, if_pos h, ← Int32.toInt_inj, Int32.toInt_ofInt]
  exact Int.dvd_iff_bmod_eq_zero.symm.trans (Int.dvd_neg)

theorem bytes_ofResult_of_nonneg {f : Int64} (h : 0 ≤ f.toInt) :
    ((ofResult f).bytes.toNat : Int) = min f.toInt 0xFFFFFFFF := by
  rw [ofResult, if_neg (Int.not_lt.mpr h), UInt32.toNat_ofNat']
  omega

theorem told_ofResult {f : Int64} (hmin : f ≠ Int64.minValue) : Told f (ofResult f) where
  success h := ⟨error_ofResult_of_nonneg h, bytes_ofResult_of_nonneg h⟩
  failure h := ⟨toInt_neg hmin, error_ofResult h hmin, bytes_ofResult_of_neg h⟩
  exact h hlow := error_ofResult_of_neg h hlow
  zero h := error_ofResult_eq_zero_iff h

end Outcome

namespace World

variable [Os H] (w : World H) (p : Pinned) {result : Int64} (moved : Transfer)

/-- Putting a result right leaves it, but for an accepted connection that is moved or cannot be. -/
theorem settle_result : (w.settle p result moved).2 = result ∨
    (w.settle p result moved).2 = 0 ∨
      ∃ e : Errno, (w.settle p result moved).2 = Int64.ofInt (-e.toInt) := by
  simp only [settle]
  unfold finish
  split
  · exact .inl rfl
  · split
    · exact .inl rfl
    · unfold moveAccepted
      dsimp only
      split
      · exact .inr (.inl rfl)
      · next e _ => exact .inr (.inr ⟨e, rfl⟩)
  · exact .inl rfl

/-- Putting a result right does not make it the least of all. -/
theorem settle_ne_minValue (hmin : result ≠ Int64.minValue) :
    (w.settle p result moved).2 ≠ Int64.minValue := by
  rcases w.settle_result p moved with h | h | ⟨e, h⟩
  · exact h ▸ hmin
  · rw [h]
    decide
  · have hlow := e.le_toInt
    have hhigh := e.toInt_lt
    have he : (Int64.ofInt (-e.toInt)).toInt = -e.toInt :=
      Int64.toInt_ofInt_of_le (by omega) (by omega)
    rw [h, ← Int64.toInt_inj.ne, he, Int64.toInt_minValue]
    omega

end World

/-! ### Pumps -/

section pumps

variable [CompletionPort P H] [Os H] {e seen : Engine P H} {b : List StorageId} {c : Completion}
  {moved : Transfer} {ran : Option (Callback × Outcome)} {s : Scene P H} {context : Context}

namespace Engine

omit [CompletionPort P H] [Os H] in
theorem not_completed_of_quiet (r : Option Context) (l : List (World H × List StorageId)) :
    (.completed seen c moved ran, s) ∉ e.quietMoments r l := by
  simp [quietMoments]

omit [CompletionPort P H] in
theorem not_completed_of_posted : (.completed seen c moved ran, s) ∉ e.postedMoments b := by
  unfold postedMoments
  split
  · exact List.not_mem_nil
  · simp [not_completed_of_quiet]

/-- The moments of a completion begin with its retrieval, and nothing else is retrieved. -/
theorem of_mem_completeMoments {c' : Completion} {moved' : Transfer}
    (h : (.completed seen c moved ran, s) ∈ e.completeMoments b c' moved') :
    seen = e ∧ c = c' ∧ moved = moved' := by
  unfold completeMoments at h
  dsimp only at h
  split at h
  · cases List.mem_singleton.mp h
    exact ⟨rfl, rfl, rfl⟩
  · split at h
    · cases List.mem_singleton.mp h
      exact ⟨rfl, rfl, rfl⟩
    · rcases List.mem_cons.mp h with h | h
      · cases h
        exact ⟨rfl, rfl, rfl⟩
      · simp [not_completed_of_quiet] at h

/-- Waiting ends with the first completion of a user's operation. -/
theorem await_of_completed {deadline : Option Nat} {rounds : Nat}
    (h : (.completed seen c moved ran, s) ∈ e.awaitMoments b deadline rounds)
    (huser : seen.user? c.token = some context) :
    (e.await deadline rounds).2 =
      .dispatched ⟨c.token, .ofResult (seen.world.settle context.pinned c.result moved).2⟩ := by
  induction rounds generalizing e with
  | zero => cases h
  | succ rounds ih =>
    cases hwait : e.waitPort deadline rounds with
    | mk e₁ answer =>
      cases answer with
      | blocked => simp [awaitMoments, hwait] at h
      | unfinished => simp [awaitMoments, hwait] at h
      | panicked => simp [awaitMoments, hwait] at h
      | fault f => simp [awaitMoments, hwait] at h
      | timeout => simp [awaitMoments, hwait] at h
      | completion c₁ moved₁ =>
        simp only [awaitMoments, hwait, List.mem_append] at h
        -- It is retrieved in this round, or the round retrieves the engine's own read.
        rcases h with h | h
        · obtain ⟨rfl, rfl, rfl⟩ := of_mem_completeMoments h
          obtain ⟨hne, hget⟩ := (user?_eq_some_iff _ _ _).mp huser
          obtain ⟨slab, htake⟩ := Slab.exists_take hget
          simp only [await, hwait, complete_of_user moved htake hne]
        · cases hcomplete : e₁.complete c₁ moved₁ with
          | mk e₂ answer =>
            cases answer with
            | error f => simp [hcomplete] at h
            | ok d =>
              cases d with
              | some d => simp [hcomplete] at h
              | none =>
                cases hposted : e₂.runPosted with
                | some x => simp [hcomplete, hposted, not_completed_of_posted] at h
                | none =>
                  simp only [hcomplete, hposted, Option.isSome_none, Bool.false_eq_true,
                    if_false] at h
                  simp only [await, hwait, hcomplete, hposted]
                  exact ih h

/-- A pump that retrieves the completion of a user's operation returns what is told of it. -/
theorem pump_of_completed {timeout : Option Duration} {rounds : Nat}
    (h : (.completed seen c moved ran, s) ∈ e.pumpMoments b timeout rounds)
    (huser : seen.user? c.token = some context) :
    (e.pump timeout rounds).2 =
      .dispatched ⟨c.token, .ofResult (seen.world.settle context.pinned c.result moved).2⟩ := by
  cases hclock : Os.deadline e.world.host timeout with
  | mk host limit =>
    cases limit with
    | error _ => simp [pumpMoments, hclock] at h
    | ok deadline =>
      cases hposted : (e.withHost host).runPosted with
      | some x => simp [pumpMoments, hclock, hposted, not_completed_of_posted] at h
      | none =>
        simp only [pumpMoments, hclock, hposted, Option.isSome_none, Bool.false_eq_true, if_false]
          at h
        simp only [pump, hclock, hposted]
        rcases List.mem_cons.mp h with h | h
        · cases h
        · exact await_of_completed h huser

end Engine

end pumps

/-! ### Calls -/

/-- The callback of an operation is told this of a completion, and so is who pumps. -/
structure Delivered [CompletionPort P H] [Os H] (k : Client P H) (step : Step H) (seen : Engine P H)
    (c : Completion) (context : Context) (ran : Option (Callback × Outcome)) (s : Scene P H)
    (o : Outcome) : Prop where
  ran : ran = some (context.callback, o)
  /-- The callback has been called and has done nothing yet. -/
  running : s.running = some context
  calls : s.engine.world.calls = seen.world.calls ++ [.ran context.callback.tag o]
  returned : ∀ timeout rounds, step = .pump timeout rounds →
    (k.step step).2 = .pumped (.dispatched ⟨c.token, o⟩)

variable [CompletionPort P H] [Os H]

/-- Retrieving the completion of a user's operation calls its callback with what is told of the
result that was put right. -/
theorem Happens.calls_user {s s' : Scene P H} {seen : Engine P H} {c : Completion}
    {moved : Transfer} {ran : Option (Callback × Outcome)} {context : Context}
    (h : Happens s (.completed seen c moved ran) s') (huser : seen.user? c.token = some context) :
    let o := Outcome.ofResult (seen.world.settle context.pinned c.result moved).2
    ran = some (context.callback, o) ∧ s'.running = some context ∧
      s'.engine.world.calls = seen.world.calls ++ [.ran context.callback.tag o] := by
  obtain ⟨hnot, hget⟩ := (Engine.user?_eq_some_iff _ _ _).mp huser
  cases h with
  | unknown e e' b deadline rounds c moved h ht =>
    cases hget.symm.trans ((Slab.take_eq_none_iff _ _).mp ht)
  | woken e e' b deadline rounds c moved other slab h ht hwake => exact absurd hwake hnot
  | called e e' b deadline rounds c moved other slab o h ht hwake ho =>
    obtain rfl := Option.some.inj (hget.symm.trans (Slab.get?_of_take ht))
    subst ho
    refine ⟨rfl, rfl, ?_⟩
    exact congrArg (· ++ [Call.ran context.callback.tag _])
      (World.calls_settle seen.world context.pinned c.result moved)

/-- Whatever result is retrieved for an operation of a user, during whatever call, its callback and
the pump are told the same of it. The least of all results cannot be negated. -/
theorem outcomes_are_told (k : Client P H) (step : Step H) {seen : Engine P H} {c : Completion}
    {moved : Transfer} {ran : Option (Callback × Outcome)} {s : Scene P H} {context : Context}
    (hm : (.completed seen c moved ran, s) ∈ k.moments step)
    (huser : seen.user? c.token = some context) (hmin : c.result ≠ Int64.minValue) :
    ∃ o, Told (seen.world.settle context.pinned c.result moved).2 o ∧
      Delivered k step seen c context ran s o := by
  obtain ⟨τ₁, τ₂, hτ⟩ := List.append_of_mem hm
  have hpath := k.path_moments step
  rw [hτ] at hpath
  obtain ⟨s₁, _, hstep, _⟩ := hpath.split
  obtain ⟨hran, hrunning, hcalls⟩ := hstep.calls_user huser
  refine ⟨_, Outcome.told_ofResult (World.settle_ne_minValue _ _ moved hmin), hran, hrunning,
    hcalls, ?_⟩
  rintro timeout rounds rfl
  unfold Client.moments at hm
  dsimp only at hm
  split at hm
  · cases hm
  · next hlive =>
    simp only [Client.step, if_neg hlive]
    exact congrArg Answer.pumped (Engine.pump_of_completed hm huser)

/-- A port that hands back one event of a user with a result. -/
def Scripted.eventEnds (result : Int64) : Scripted :=
  { waits := [.completion (.user 0) result 0 {}] }

theorem outcomes_are_told_of_wide_failure : ∃ e : Engine Scripted Host,
    Engine.build {} (Scripted.eventEnds (-4294967301)) Host.start = .ready e ∧
    let k := (Client.own e).after [.place .event ⟨"event", []⟩]
    ∃ seen c moved ran s context,
      (Event.completed seen c moved ran, s) ∈ k.moments (.pump none 9) ∧
      seen.user? c.token = some context ∧ c.result ≠ Int64.minValue ∧
      (k.step (.pump none 9)).2 = .pumped (.dispatched ⟨c.token, ⟨5, 0⟩⟩) ∧
      ∃ o, Told (seen.world.settle context.pinned c.result moved).2 o ∧
        Delivered k (.pump none 9) seen c context ran s o := by
  refine ⟨_, rfl, _, ⟨Token.ofSlot 1 0, -4294967301, 0⟩, {}, _, _, _, .tail _ (.head _), rfl,
    by decide, rfl, ?_⟩
  exact outcomes_are_told _ (.pump none 9) (.tail _ (.head _)) rfl (by decide)

/-- A failure whose low half is zero is told as a success without data. -/
theorem failure_told_as_success : ∃ e : Engine Scripted Host,
    Engine.build {} (Scripted.eventEnds (-4294967296)) Host.start = .ready e ∧
    let k := (Client.own e).after [.place .event ⟨"event", []⟩]
    ∃ seen c moved s context,
      (Event.completed seen c moved (some (⟨"event", []⟩, ⟨0, 0⟩)), s) ∈ k.moments (.pump none 9) ∧
      seen.user? c.token = some context ∧ c.result ≠ Int64.minValue ∧
      (seen.world.settle context.pinned c.result moved).2.toInt < 0 ∧
      (k.step (.pump none 9)).2 = .pumped (.dispatched ⟨c.token, ⟨0, 0⟩⟩) := by
  exact ⟨_, rfl, _, ⟨Token.ofSlot 1 0, -4294967296, 0⟩, {}, _, _, .tail _ (.head _), rfl,
    by decide, by decide, rfl⟩

end Proactor
