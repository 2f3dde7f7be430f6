import Proactor.Proofs.Dispatch

/-!
# Posting

Posted callbacks are run first come, first served. Whatever an engine does, what was queued before
and what is posted meanwhile is what is run of it meanwhile and what is queued after, in this
order; a closed injector takes nothing, so that running all that is queued ends then.
-/

namespace Proactor

/-- A callback that was posted, and what the post returned. -/
structure Posting where
  callback : Callback
  answer : Except Fault Unit

namespace Posting

/-- What a post to a closed injector returns. -/
def refusal : Except Fault Unit := .error (.invalidArgument .engineShutDown)

/-- The callback, if it was queued. It is even if adding to the event counter fails then. -/
def queued? (p : Posting) : Option Callback :=
  match p.answer with
  | .ok () => some p.callback
  | .error (.system _) => some p.callback
  | .error _ => none

/-- The callback, if the post succeeded. -/
def accepted? (p : Posting) : Option Callback :=
  match p.answer with
  | .ok () => some p.callback
  | .error _ => none

/-- The callbacks queued by posts, one after the other. -/
def queued (ps : List Posting) : List Callback := ps.filterMap queued?

/-- The callbacks of the posts that succeeded, one after the other. -/
def accepted (ps : List Posting) : List Callback := ps.filterMap accepted?

@[simp] theorem queued_nil : queued [] = [] := rfl

@[simp] theorem queued_append (ps ps' : List Posting) :
    queued (ps ++ ps') = queued ps ++ queued ps' := List.filterMap_append

/-- No callback of a refused post is queued. -/
theorem queued_eq_nil {ps : List Posting} (h : ∀ p ∈ ps, p.answer = refusal) : queued ps = [] := by
  apply List.filterMap_eq_nil_iff.mpr
  intro p hp
  rw [queued?, h p hp]
  rfl

end Posting

variable {P H : Type} [Os H]

/-! ### Inside a callback -/

namespace World

mutual

/-- The posts that one action of a callback makes. -/
def actPosts (w : World H) : Action → List Posting
  | .post tag actions => [⟨⟨tag, actions⟩, (w.post ⟨tag, actions⟩).2⟩]
  | .borrow handle content actions =>
    match w.borrow? handle content with
    | some (_, w) => actsPosts w actions
    | none => []
  | _ => []

/-- The posts that actions of a callback make, one after the other. -/
def actsPosts (w : World H) : List Action → List Posting
  | [] => []
  | a :: as => actPosts w a ++ actsPosts (act w a) as

end

/-- What is posted on the way from one world to another joins the queue, unless the injector is
closed, and no callback is run. -/
structure Posts (w w' : World H) (ps : List Posting) : Prop where
  queue : w'.injector.queue = w.injector.queue ++ Posting.queued ps
  closed : w'.injector.closed = w.injector.closed
  refused : w.injector.closed = true → ∀ p ∈ ps, p.answer = Posting.refusal
  runs : w'.calls.filterMap Call.ran? = w.calls.filterMap Call.ran?

namespace Posts

variable {w w' w'' : World H} {ps ps' : List Posting}

omit [Os H] in
theorem of_eq (hinjector : w'.injector = w.injector)
    (hruns : w'.calls.filterMap Call.ran? = w.calls.filterMap Call.ran?) : Posts w w' [] where
  queue := by rw [hinjector, Posting.queued_nil, List.append_nil]
  closed := by rw [hinjector]
  refused := nofun
  runs := hruns

omit [Os H] in
theorem trans (h : Posts w w' ps) (h' : Posts w' w'' ps') : Posts w w'' (ps ++ ps') where
  queue := by rw [h'.queue, h.queue, Posting.queued_append, List.append_assoc]
  closed := h'.closed.trans h.closed
  refused := by
    intro hc p hp
    rcases List.mem_append.mp hp with hp | hp
    · exact h.refused hc p hp
    · exact h'.refused (h.closed.trans hc) p hp
  runs := h'.runs.trans h.runs

end Posts

/-- A post joins the queue, unless the injector is closed. -/
theorem posts_post (w : World H) (cb : Callback) :
    Posts w (w.post cb).1 [⟨cb, (w.post cb).2⟩] := by
  by_cases hc : w.injector.closed = true
  · have hpost : w.post cb = (w, Posting.refusal) := if_pos hc
    rw [hpost]
    refine ⟨?_, rfl, fun _ p hp => ?_, rfl⟩
    · simp [Posting.queued, Posting.queued?, Posting.refusal]
    · rw [List.mem_singleton.mp hp]
  · have hpost : w.post cb = (w.enqueue cb).wake := if_neg hc
    have hqueued : Posting.queued [⟨cb, (w.post cb).2⟩] = [cb] := by
      rw [hpost]
      unfold wake
      cases Os.eventAdd (w.enqueue cb).host (w.enqueue cb).injector.wake with
      | mk host r =>
        cases r with
        | ok u => rfl
        | error n =>
          by_cases hn : n = Errno.again
          · simp [hn, Posting.queued, Posting.queued?]
          · simp [hn, Posting.queued, Posting.queued?]
    have hwake : (w.post cb).1.injector = (w.enqueue cb).injector ∧
        (w.post cb).1.calls = w.calls := by
      rw [hpost]
      unfold wake
      split <;> exact ⟨rfl, rfl⟩
    refine ⟨?_, ?_, fun h => absurd h hc, ?_⟩
    · rw [hqueued, hwake.1]
      rfl
    · rw [hwake.1]
      rfl
    · rw [hwake.2]

omit [Os H] in
/-- A borrow changes memory only. -/
theorem borrow?_eq_some {w w' : World H} {handle : String} {content : Bytes} {id : StorageId}
    (h : w.borrow? handle content = some (id, w')) : ∃ memory, w' = { w with memory } := by
  simp only [borrow?, Option.bind_eq_bind, Option.bind_eq_some_iff] at h
  obtain ⟨_, _, m, _, h⟩ := h
  obtain ⟨_, rfl⟩ := Prod.mk.inj (Option.some.inj h)
  exact ⟨_, rfl⟩

mutual

/-- An action of a callback posts what it says. -/
theorem posts_act (w : World H) (a : Action) : Posts w (w.act a) (w.actPosts a) := by
  cases a with
  | post tag actions =>
    have hpost := posts_post w ⟨tag, actions⟩
    refine ⟨hpost.queue, hpost.closed, hpost.refused, ?_⟩
    refine (List.filterMap_append.trans ?_).trans hpost.runs
    exact List.append_nil _
  | peek handle =>
    refine .of_eq ?_ ?_
    · simp only [act]
      split <;> rfl
    · simp only [act]
      split <;> simp [record, Call.ran?]
  | pending => exact .of_eq rfl (by simp [act, record, Call.ran?])
  | fill handle content =>
    refine .of_eq ?_ ?_
    · simp only [act, fill]
      split <;> rfl
    · simp only [act, fill]
      split <;> rfl
  | borrow handle content actions =>
    cases h : w.borrow? handle content with
    | none =>
      simp only [actPosts, act, h]
      exact .of_eq rfl rfl
    | some x =>
      obtain ⟨id, w₁⟩ := x
      simp only [actPosts, act, h]
      have hin := posts_acts w₁ actions
      obtain ⟨memory, rfl⟩ := borrow?_eq_some h
      exact ⟨hin.queue, hin.closed, hin.refused, hin.runs⟩

/-- Actions of a callback post what they say. -/
theorem posts_acts (w : World H) (as : List Action) : Posts w (w.acts as) (w.actsPosts as) := by
  cases as with
  | nil => exact .of_eq rfl rfl
  | cons a as =>
    rw [acts, actsPosts]
    exact (posts_act w a).trans (posts_acts (w.act a) as)

end

/-- Settling leaves the injector alone. -/
theorem injector_settle (w : World H) (p : Pinned) (result : Int64) (t : Transfer) :
    (w.settle p result t).1.injector = w.injector := by
  simp only [settle]
  unfold finish
  split
  · rfl
  · split
    · rfl
    · unfold moveAccepted
      dsimp only
      split <;> rfl
  · rfl

end World

/-! ### What is run and what is posted at a moment -/

/-- The callback that the event calls. -/
def Event.called? : Event P H → Option Callback
  | .completed _ _ _ (some (cb, _)) => some cb
  | .popped cb => some cb
  | _ => none

/-- The posted callback that the event calls. -/
def Event.popped? : Event P H → Option Callback
  | .popped cb => some cb
  | _ => none

/-- The posts made by the callback that is called at a moment. -/
def Moment.posts (m : Moment P H) : List Posting :=
  match m.1.called? with
  | some cb => m.2.engine.world.actsPosts cb.actions
  | none => []

/-- The posted callbacks that are run, one after the other. -/
def popped (τ : List (Moment P H)) : List Callback := τ.filterMap fun m => m.1.popped?

/-- The posts that callbacks make, one after the other. -/
def postsDuring (τ : List (Moment P H)) : List Posting := τ.flatMap Moment.posts

/-- The callbacks that are run and what they are told, one after the other. -/
def runsDuring (τ : List (Moment P H)) : List (String × Outcome) := τ.flatMap fun m => m.1.runs

/-- No callback is called. -/
def Silent (τ : List (Moment P H)) : Prop := ∀ m ∈ τ, m.1.called? = none

section

variable {τ τ' : List (Moment P H)}

omit [Os H] in
@[simp] theorem popped_append : popped (τ ++ τ') = popped τ ++ popped τ' := List.filterMap_append

@[simp] theorem postsDuring_append :
    postsDuring (τ ++ τ') = postsDuring τ ++ postsDuring τ' := List.flatMap_append

omit [Os H] in
@[simp] theorem runsDuring_append :
    runsDuring (τ ++ τ') = runsDuring τ ++ runsDuring τ' := List.flatMap_append

omit [Os H] in
theorem Silent.popped (h : Silent τ) : popped τ = [] := by
  apply List.filterMap_eq_nil_iff.mpr
  intro m hm
  have hnone := h m hm
  unfold Event.called? at hnone
  unfold Event.popped?
  split at hnone <;> simp_all

theorem Silent.postsDuring (h : Silent τ) : postsDuring τ = [] := by
  apply List.flatMap_eq_nil_iff.mpr
  intro m hm
  rw [Moment.posts, h m hm]

omit [Os H] in
theorem Silent.runsDuring (h : Silent τ) : runsDuring τ = [] := by
  apply List.flatMap_eq_nil_iff.mpr
  intro m hm
  have hnone := h m hm
  unfold Event.called? at hnone
  unfold Event.runs
  split at hnone <;> simp_all

omit [Os H] in
theorem silent_nil : Silent ([] : List (Moment P H)) := by
  intro m hm
  cases hm

omit [Os H] in
theorem Silent.cons {m : Moment P H} (hm : m.1.called? = none) (h : Silent τ) :
    Silent (m :: τ) := by
  intro x hx
  rcases List.mem_cons.mp hx with rfl | hx
  · exact hm
  · exact h x hx

omit [Os H] in
theorem silent_single {m : Moment P H} (hm : m.1.called? = none) : Silent [m] :=
  Silent.cons hm silent_nil

omit [Os H] in
/-- No callback is called while one acts. -/
theorem silent_quietMoments (e : Engine P H) (r : Option Context)
    (l : List (World H × List StorageId)) : Silent (e.quietMoments r l) := by
  intro m hm
  obtain ⟨x, _, rfl⟩ := List.mem_map.mp hm
  rfl

end

/-! ### What is kept -/

namespace Engine

/-- What is posted on the way from one engine to another is run or queued after what was queued
before, in this order, and the record has what was run. -/
structure Serves (e e' : Engine P H) (ps : List Posting) (τ : List (Moment P H)) : Prop where
  queue : e.world.injector.queue ++ Posting.queued ps = popped τ ++ e'.world.injector.queue
  injected : e'.stats.injected = e.stats.injected + (popped τ).length
  shut : e'.world.injector.closed = e.world.injector.closed
  closed : e'.closed = e.closed
  leaked : e'.leaked = e.leaked
  refused : e.world.injector.closed = true → ∀ p ∈ ps, p.answer = Posting.refusal
  runs : e'.world.calls.filterMap Call.ran? = e.world.calls.filterMap Call.ran? ++ runsDuring τ

/-- Nothing is changed that has to do with posted callbacks, or with closing. -/
structure Undisturbed (e e' : Engine P H) : Prop where
  injector : e'.world.injector = e.world.injector
  injected : e'.stats.injected = e.stats.injected
  calls : e'.world.calls = e.world.calls
  closed : e'.closed = e.closed
  leaked : e'.leaked = e.leaked

variable {e e' e'' : Engine P H} {ps ps' : List Posting} {τ τ' : List (Moment P H)}

omit [Os H] in
theorem Undisturbed.refl (e : Engine P H) : Undisturbed e e := ⟨rfl, rfl, rfl, rfl, rfl⟩

omit [Os H] in
theorem Undisturbed.trans (h : Undisturbed e e') (h' : Undisturbed e' e'') : Undisturbed e e'' :=
  ⟨h'.injector.trans h.injector, h'.injected.trans h.injected, h'.calls.trans h.calls,
    h'.closed.trans h.closed, h'.leaked.trans h.leaked⟩

omit [Os H] in
/-- What has nothing to do with posted callbacks leaves them alone. -/
theorem Undisturbed.serves (h : Undisturbed e e') (hτ : Silent τ) : Serves e e' [] τ where
  queue := by rw [hτ.popped, h.injector, Posting.queued_nil, List.append_nil, List.nil_append]
  injected := by rw [hτ.popped, h.injected, List.length_nil, Nat.add_zero]
  shut := by rw [h.injector]
  closed := h.closed
  leaked := h.leaked
  refused := nofun
  runs := by rw [hτ.runsDuring, h.calls, List.append_nil]

omit [Os H] in
theorem Serves.trans (h : Serves e e' ps τ) (h' : Serves e' e'' ps' τ') :
    Serves e e'' (ps ++ ps') (τ ++ τ') where
  queue := by
    rw [Posting.queued_append, ← List.append_assoc, h.queue, List.append_assoc, h'.queue,
      popped_append, List.append_assoc]
  injected := by rw [h'.injected, h.injected, popped_append, List.length_append, Nat.add_assoc]
  shut := h'.shut.trans h.shut
  closed := h'.closed.trans h.closed
  leaked := h'.leaked.trans h.leaked
  refused := by
    intro hc p hp
    rcases List.mem_append.mp hp with hp | hp
    · exact h.refused hc p hp
    · exact h'.refused (h.shut.trans hc) p hp
  runs := by rw [h'.runs, h.runs, runsDuring_append, List.append_assoc]

/-- Something that has nothing to do with posted callbacks comes first. -/
theorem Undisturbed.before (h : Undisturbed e e') (hτ : Silent τ)
    (h' : Serves e' e'' (postsDuring τ') τ') : Serves e e'' (postsDuring (τ ++ τ')) (τ ++ τ') := by
  rw [postsDuring_append, hτ.postsDuring]
  exact (h.serves hτ).trans h'

/-- What has nothing to do with posted callbacks runs none of them and posts none. -/
theorem Undisturbed.servesSilently (h : Undisturbed e e') (hτ : Silent τ) :
    popped τ = [] ∧ Serves e e' (postsDuring τ) τ := by
  rw [hτ.postsDuring]
  exact ⟨hτ.popped, h.serves hτ⟩

/-- The moments of one callback are those of the event that calls it. -/
private theorem moments_of_callback (ev : Event P H) {cb : Callback} (e : Engine P H)
    (b : List StorageId) (r : Option Context) (s : Scene P H) (hev : ev.called? = some cb) :
    let τ := (ev, ⟨e, b, r⟩) ::
      (e.quietMoments r (e.world.actsMoments b cb.actions) ++ [(.quiet, s)])
    popped τ = ev.popped?.toList ∧ postsDuring τ = e.world.actsPosts cb.actions ∧
      runsDuring τ = ev.runs := by
  have hsilent : Silent (e.quietMoments r (e.world.actsMoments b cb.actions) ++ [(.quiet, s)]) := by
    intro m hm
    rcases List.mem_append.mp hm with hm | hm
    · exact silent_quietMoments e r _ m hm
    · rw [List.mem_singleton.mp hm]
      rfl
  refine ⟨?_, ?_, ?_⟩
  · have hrest := hsilent.popped
    unfold popped at hrest ⊢
    rw [List.filterMap_cons, hrest]
    cases ev.popped? <;> rfl
  · have hrest := hsilent.postsDuring
    unfold postsDuring at hrest ⊢
    rw [List.flatMap_cons, hrest, List.append_nil, Moment.posts, hev]
  · have hrest := hsilent.runsDuring
    unfold runsDuring at hrest ⊢
    rw [List.flatMap_cons, hrest, List.append_nil]

variable [CompletionPort P H]

/-! ### What leaves posted callbacks alone -/

omit [Os H] in
/-- A submission leaves posted callbacks alone, whatever comes of it. -/
theorem undisturbed_handOff (e : Engine P H) (s : Submission) (cb : Callback) :
    Undisturbed e (e.handOff s cb).1 := by
  obtain ⟨p, host, j, a, hb⟩ := register_eq_beside e s.fd
  rcases handOff_cases e s cb with ⟨e₁, f, hr⟩ | ⟨e₁, f, hr, hp⟩ | ⟨e₁, hr, hp⟩
  · rw [hr] at hb
    obtain rfl : e₁ = e.beside p host j a := hb
    rw [handOff_of_register_error cb hr]
    exact ⟨rfl, rfl, rfl, rfl, rfl⟩
  · rw [hr] at hb
    obtain rfl : e₁ = e.beside p host j a := hb
    rw [handOff_of_push_error hr hp]
    unfold withdraw
    split <;> exact ⟨rfl, rfl, rfl, rfl, rfl⟩
  · rw [hr] at hb
    obtain rfl : e₁ = e.beside p host j a := hb
    rw [handOff_of_push_ok hr hp]
    obtain ⟨p', host', j', a', hf⟩ := flushIfEager_eq_beside
      (((e.beside p host j a).pushed s cb).note
        (.submitted s.kind s.fd (e.slab.insert (contextOf s cb)).2)) s.kind
    exact hf.symm ▸ ⟨rfl, rfl, rfl, rfl, rfl⟩

omit [Os H] in
/-- A submitter leaves posted callbacks alone. -/
theorem undisturbed_place (e : Engine P H) (o : Order StorageId) (cb : Callback) :
    Undisturbed e (e.place o cb).1 := by
  rw [place_eq_submit]
  cases o.prepare e.world.memory e.extensions with
  | error f => exact .refl e
  | ok r =>
    have h := undisturbed_handOff (e.withMemory r.1) r.2 cb
    rw [submit_ok]
    unfold count
    split <;> exact ⟨h.injector, h.injected, h.calls, h.closed, h.leaked⟩

omit [Os H] in
/-- Putting the engine's own read in flight leaves posted callbacks alone. -/
theorem undisturbed_armWake (e : Engine P H) : Undisturbed e e.armWake.1 := by
  unfold armWake
  split
  · exact .refl e
  · next memory s hw =>
    have h := undisturbed_handOff (e.withMemory memory) s .silent
    split
    · next e₁ t hh =>
      rw [show { e with world := { e.world with memory } } = e.withMemory memory from rfl] at hh
      rw [hh] at h
      exact ⟨h.injector, h.injected, h.calls, h.closed, h.leaked⟩
    · next e₁ f hh =>
      rw [show { e with world := { e.world with memory } } = e.withMemory memory from rfl] at hh
      rw [hh] at h
      exact ⟨h.injector, h.injected, h.calls, h.closed, h.leaked⟩

omit [Os H] in
/-- What follows a completion of the engine's own read leaves posted callbacks alone. -/
theorem undisturbed_rearmWake (e : Engine P H) (result : Int64) :
    Undisturbed e (e.rearmWake result) := by
  unfold rearmWake
  split
  · exact .refl e
  split
  · exact ⟨rfl, rfl, rfl, rfl, rfl⟩
  have h := undisturbed_armWake e
  split
  · next e₁ ha =>
    rw [ha] at h
    exact h
  · next e₁ f ha =>
    rw [ha] at h
    exact ⟨h.injector, h.injected, h.calls, h.closed, h.leaked⟩

/-- A wait leaves posted callbacks alone. -/
theorem undisturbed_waitPort {deadline : Option Nat} {rounds : Nat} {w : Waited}
    (h : e.waitPort deadline rounds = (e', w)) : Undisturbed e e' := by
  obtain ⟨p, host, j, rfl⟩ := waitPort_eq_beside h
  exact ⟨rfl, rfl, rfl, rfl, rfl⟩

/-! ### What runs callbacks -/

omit [CompletionPort P H] in
/-- Running the first posted callback takes it from the queue, and what it posts joins the
queue. -/
theorem serves_posted {d : Dispatch} (b : List StorageId) (h : e.runPosted = some (e', d)) :
    Serves e e' (postsDuring (e.postedMoments b)) (e.postedMoments b) := by
  unfold runPosted at h
  split at h
  · cases h
  · next cb world hpop =>
    obtain ⟨rfl, _⟩ := Prod.mk.inj (Option.some.inj h)
    simp only [postedMoments, hpop]
    let e₁ := e.withWorld (world.record (.ran cb.tag .done))
    obtain ⟨hpopped, hposts, hruns⟩ := moments_of_callback (.popped cb) e₁ b none
      ⟨(e₁.withWorld (e₁.world.acts cb.actions)).countInjected, b, none⟩ rfl
    have hacts := World.posts_acts e₁.world cb.actions
    obtain ⟨queue, hqueue, rfl⟩ := World.pop_eq_some hpop
    refine ⟨?_, ?_, hacts.closed, rfl, rfl, ?_, ?_⟩
    · rw [hposts, hpopped, hqueue]
      exact congrArg (cb :: ·) hacts.queue.symm
    · rw [hpopped]
      rfl
    · rw [hposts]
      exact hacts.refused
    · rw [hruns]
      refine hacts.runs.trans ?_
      exact List.filterMap_append

/-- A completion runs no posted callback. If it is not of a user's operation, no callback is
called at all. -/
theorem serves_complete (e : Engine P H) (b : List StorageId) (c : Completion)
    (moved : Transfer) :
    (Silent (e.completeMoments b c moved) ∧ Undisturbed e (e.complete c moved).1 ∧
      ∀ d, (e.complete c moved).2 ≠ .ok (some d)) ∨
    (popped (e.completeMoments b c moved) = [] ∧
      (∃ d, (e.complete c moved).2 = .ok (some d) ∧ d.token.isInternal = false) ∧
      Serves e (e.complete c moved).1 (postsDuring (e.completeMoments b c moved))
        (e.completeMoments b c moved)) := by
  cases ht : e.slab.take c.token with
  | none =>
    simp only [completeMoments, complete, ht]
    exact .inl ⟨Silent.cons rfl silent_nil, ⟨rfl, rfl, rfl, rfl, rfl⟩, by simp⟩
  | some x =>
    obtain ⟨context, slab⟩ := x
    let settled := e.settled slab (e.world.settle context.pinned c.result moved).1
    have hsettled : Undisturbed e settled :=
      ⟨World.injector_settle e.world context.pinned c.result moved, rfl,
        World.calls_settle e.world context.pinned c.result moved, rfl, rfl⟩
    by_cases hwake : e.wakeToken = some c.token
    · have hrearm := undisturbed_rearmWake { settled with wakeToken := none }
        (e.world.settle context.pinned c.result moved).2
      have hnone : Undisturbed settled { settled with wakeToken := none } :=
        ⟨rfl, rfl, rfl, rfl, rfl⟩
      simp only [completeMoments, complete, ht, if_pos hwake]
      exact .inl ⟨Silent.cons rfl silent_nil, hsettled.trans (hnone.trans hrearm), by simp⟩
    · let o := Outcome.ofResult (e.world.settle context.pinned c.result moved).2
      let e₁ := settled.calling c.token context o
      have hend : (e.complete c moved).1 =
          (e₁.withWorld (e₁.world.acts context.callback.actions)).countDispatched := by
        simp only [complete, ht, if_neg hwake]
        rfl
      simp only [completeMoments, ht, if_neg hwake]
      obtain ⟨hpopped, hposts, hruns⟩ := moments_of_callback
        (.completed e c moved (some (context.callback, o))) e₁ b (some context)
        ⟨(e.complete c moved).1, b, none⟩ rfl
      have hacts := World.posts_acts e₁.world context.callback.actions
      have hinjector : e₁.world.injector = e.world.injector := hsettled.injector
      refine .inr ⟨hpopped, ?_, ?_, ?_, ?_, ?_, ?_, ?_, ?_⟩
      · refine ⟨⟨c.token, o⟩, ?_, (Slab.take_cases ht).1⟩
        simp only [complete, ht, if_neg hwake]
        rfl
      · rw [hposts, hpopped, hend, ← hinjector]
        exact hacts.queue.symm
      · rw [hpopped, hend]
        rfl
      · rw [hend, ← hinjector]
        exact hacts.closed
      · rw [hend]
        rfl
      · rw [hend]
        rfl
      · rw [hposts, ← hinjector]
        exact hacts.refused
      · rw [hruns, hend, ← hsettled.calls]
        refine hacts.runs.trans ?_
        exact List.filterMap_append

/-- What a pump reports of the posted callbacks that it runs: none is run, or the first, which
goes under the next bookkeeping name. -/
def Reports (e : Engine P H) (ran : List Callback) (p : Pumped) : Prop :=
  (ran = [] ∧ ∀ d, p = .dispatched d → d.token.isInternal = false) ∨
    ∃ cb, e.world.injector.queue.head? = some cb ∧ ran = [cb] ∧
      p = .dispatched ⟨.internal (UInt64.ofNat e.stats.injected), .done⟩

omit [CompletionPort P H] [Os H] in
/-- It does not matter what happened before that has nothing to do with posted callbacks. -/
theorem Reports.of_undisturbed {ran : List Callback} {p : Pumped} (h : Reports e' ran p)
    (hu : Undisturbed e e') : Reports e ran p := by
  unfold Reports at h ⊢
  rw [hu.injector, hu.injected] at h
  exact h

omit [CompletionPort P H] in
/-- The posted callback that is run is the first, and is reported under the next bookkeeping
name. -/
theorem popped_postedMoments {d : Dispatch} (b : List StorageId)
    (h : e.runPosted = some (e', d)) :
    ∃ cb, e.world.injector.queue.head? = some cb ∧ popped (e.postedMoments b) = [cb] ∧
      runsDuring (e.postedMoments b) = [(cb.tag, .done)] ∧
      d = ⟨.internal (UInt64.ofNat e.stats.injected), .done⟩ := by
  unfold runPosted at h
  split at h
  · cases h
  · next cb world hpop =>
    obtain ⟨rfl, rfl⟩ := Prod.mk.inj (Option.some.inj h)
    let e₁ := e.withWorld (world.record (.ran cb.tag .done))
    obtain ⟨hpopped, _, hruns⟩ := moments_of_callback (.popped cb) e₁ b none
      ⟨(e₁.withWorld (e₁.world.acts cb.actions)).countInjected, b, none⟩ rfl
    obtain ⟨queue, hqueue, rfl⟩ := World.pop_eq_some hpop
    simp only [postedMoments, hpop]
    exact ⟨cb, by rw [hqueue]; rfl, hpopped, hruns, trivial⟩

/-- From one engine to another posted callbacks are served in order, and what is run of them is
reported. -/
def ServesPump (e e' : Engine P H) (τ : List (Moment P H)) (p : Pumped) : Prop :=
  Serves e e' (postsDuring τ) τ ∧ Reports e (popped τ) p

omit [CompletionPort P H] in
/-- Running a posted callback serves it. -/
theorem servesPump_posted {d : Dispatch} (b : List StorageId) (h : e.runPosted = some (e', d)) :
    ServesPump e e' (e.postedMoments b) (.dispatched d) := by
  obtain ⟨cb, hhead, hpopped, _, hd⟩ := popped_postedMoments b h
  exact ⟨serves_posted b h, .inr ⟨cb, hhead, hpopped, congrArg Pumped.dispatched hd⟩⟩

omit [CompletionPort P H] in
theorem Undisturbed.servesPump {p : Pumped} (h : Undisturbed e e') (hτ : Silent τ)
    (hp : ∀ d, p ≠ .dispatched d) : ServesPump e e' τ p := by
  obtain ⟨hpopped, hs⟩ := h.servesSilently hτ
  exact ⟨hs, .inl ⟨hpopped, fun d hd => absurd hd (hp d)⟩⟩

omit [CompletionPort P H] in
theorem ServesPump.after {p : Pumped} (h' : ServesPump e' e'' τ' p) (h : Undisturbed e e')
    (hτ : Silent τ) : ServesPump e e'' (τ ++ τ') p := by
  refine ⟨h.before hτ h'.1, ?_⟩
  rw [popped_append, hτ.popped, List.nil_append]
  exact h'.2.of_undisturbed h

/-- Waiting for completions serves posted callbacks. -/
theorem serves_await (e : Engine P H) (b : List StorageId) (deadline : Option Nat)
    (rounds : Nat) :
    ServesPump e (e.await deadline rounds).1 (e.awaitMoments b deadline rounds)
      (e.await deadline rounds).2 := by
  induction rounds generalizing e with
  | zero => exact (Undisturbed.refl e).servesPump silent_nil (by simp [await])
  | succ rounds ih =>
    cases h : e.waitPort deadline rounds with
    | mk e₁ w =>
      have hwait := undisturbed_waitPort h
      cases w with
      | blocked =>
        simp only [awaitMoments, await, h]
        exact hwait.servesPump (silent_single rfl) (by simp)
      | unfinished =>
        simp only [awaitMoments, await, h]
        exact hwait.servesPump (silent_single rfl) (by simp)
      | panicked =>
        simp only [awaitMoments, await, h]
        exact hwait.servesPump (silent_single rfl) (by simp)
      | fault f =>
        simp only [awaitMoments, await, h]
        exact hwait.servesPump (silent_single rfl) (by simp)
      | timeout =>
        simp only [awaitMoments, await, h]
        have hcount : Undisturbed e₁ e₁.countTimeout := ⟨rfl, rfl, rfl, rfl, rfl⟩
        exact (hwait.trans hcount).servesPump (Silent.cons rfl (silent_single rfl)) (by simp)
      | completion c moved =>
        have hc := serves_complete e₁ b c moved
        cases hr : e₁.complete c moved with
        | mk e₂ r =>
          rw [hr] at hc
          rcases hc with ⟨hsilent, hu, hno⟩ | ⟨hpopped, ⟨d, rfl, hint⟩, hs⟩
          · have hboth := hwait.trans hu
            cases r with
            | error f =>
              simp only [awaitMoments, await, h, hr, List.append_nil]
              exact hboth.servesPump hsilent (by simp)
            | ok o =>
              cases o with
              | some d => exact absurd rfl (hno d)
              | none =>
                cases hp : e₂.runPosted with
                | some x =>
                  have hposted := servesPump_posted b hp
                  simpa [awaitMoments, await, h, hr, hp] using hposted.after hboth hsilent
                | none => simpa [awaitMoments, await, h, hr, hp] using (ih e₂).after hboth hsilent
          · simp only [awaitMoments, await, h, hr, List.append_nil]
            refine ⟨hwait.before silent_nil hs, .inl ⟨hpopped, fun d' hd => ?_⟩⟩
            obtain rfl := Pumped.dispatched.inj hd
            exact hint

/-- A pump serves posted callbacks. -/
theorem serves_pump (e : Engine P H) (b : List StorageId) (timeout : Option Duration)
    (rounds : Nat) :
    ServesPump e (e.pump timeout rounds).1 (e.pumpMoments b timeout rounds)
      (e.pump timeout rounds).2 := by
  cases hd : Os.deadline e.world.host timeout with
  | mk host limit =>
    have hclock : Undisturbed e (e.withHost host) := ⟨rfl, rfl, rfl, rfl, rfl⟩
    have hfirst : Silent [((.quiet, ⟨e.withHost host, b, none⟩) : Moment P H)] := silent_single rfl
    cases limit with
    | error _ => simpa [pumpMoments, pump, hd] using hclock.servesPump hfirst (by simp)
    | ok deadline =>
      cases hp : (e.withHost host).runPosted with
      | some x =>
        have hposted := servesPump_posted b hp
        simpa [pumpMoments, pump, hd, hp] using hposted.after hclock hfirst
      | none =>
        have hwait := serves_await (e.withHost host) b deadline rounds
        simpa [pumpMoments, pump, hd, hp] using hwait.after hclock hfirst

/-! ### Draining -/

omit [Os H] [CompletionPort P H] in
/-- Nothing joins the queue of a closed injector. -/
theorem Serves.queue_of_closed (h : Serves e e' ps τ) (hc : e.world.injector.closed = true) :
    e.world.injector.queue = popped τ ++ e'.world.injector.queue := by
  have hqueue := h.queue
  rw [Posting.queued_eq_nil (h.refused hc), List.append_nil] at hqueue
  exact hqueue

omit [CompletionPort P H] in
/-- Running posted callbacks serves them in order. -/
theorem serves_runAllPosted (e : Engine P H) (b : List StorageId) (n : Nat) :
    Serves e (e.runAllPosted n) (postsDuring (e.allPostedMoments b n))
      (e.allPostedMoments b n) := by
  induction n generalizing e with
  | zero => exact (Undisturbed.refl e).serves silent_nil
  | succ n ih =>
    cases hp : e.runPosted with
    | none =>
      simp only [allPostedMoments, runAllPosted, hp]
      exact (Undisturbed.refl e).serves silent_nil
    | some x =>
      simp only [allPostedMoments, runAllPosted, hp, postsDuring_append]
      exact (serves_posted b hp).trans (ih x.1)

/-- Posted callbacks are run until there is none left. -/
inductive RunsOut : Engine P H → Engine P H → Prop where
  | done {e : Engine P H} (h : e.runPosted = none) : RunsOut e e
  | next {e e₁ e' : Engine P H} {d : Dispatch} (h : e.runPosted = some (e₁, d))
    (hrest : RunsOut e₁ e') : RunsOut e e'

omit [CompletionPort P H] in
theorem runPosted_eq_none_iff (e : Engine P H) :
    e.runPosted = none ↔ e.world.injector.queue = [] := by
  rw [← World.pop_eq_none_iff]
  unfold runPosted
  cases e.world.pop <;> simp

omit [CompletionPort P H] in
/-- None is left when the last one was run. -/
theorem RunsOut.queue (h : RunsOut e e') : e'.world.injector.queue = [] := by
  induction h with
  | done h => exact (runPosted_eq_none_iff _).mp h
  | next h hrest ih => exact ih

omit [CompletionPort P H] in
/-- Running the first posted callback takes it off the queue of a closed injector, and nothing
joins that queue. No other callback is run. -/
theorem runPosted_of_closed {d : Dispatch} (hc : e.world.injector.closed = true)
    (h : e.runPosted = some (e', d)) :
    ∃ cb, e.world.injector.queue = cb :: e'.world.injector.queue ∧
      e'.world.injector.closed = true ∧
      e'.world.calls.filterMap Call.ran? =
        e.world.calls.filterMap Call.ran? ++ [(cb.tag, .done)] := by
  obtain ⟨cb, _, hpopped, hruns, _⟩ := popped_postedMoments [] h
  have hs := serves_posted [] h
  have hqueue := hs.queue_of_closed hc
  rw [hpopped] at hqueue
  exact ⟨cb, hqueue, hs.shut.trans hc, hruns ▸ hs.runs⟩

omit [CompletionPort P H] in
/-- Running the callbacks in the queue of a closed injector comes to an end after as many as there
are, whatever they post. -/
theorem runsOut_of_closed (e : Engine P H) (hc : e.world.injector.closed = true) :
    RunsOut e (e.runAllPosted e.world.injector.queue.length) := by
  generalize hn : e.world.injector.queue.length = n
  induction n generalizing e with
  | zero => exact .done ((runPosted_eq_none_iff e).mpr (List.eq_nil_of_length_eq_zero hn))
  | succ n ih =>
    cases hp : e.runPosted with
    | none =>
      rw [(runPosted_eq_none_iff e).mp hp] at hn
      cases hn
    | some x =>
      obtain ⟨e₁, d⟩ := x
      obtain ⟨cb, hqueue, hclosed, _⟩ := runPosted_of_closed hc hp
      rw [hqueue] at hn
      simp only [runAllPosted, hp]
      exact .next hp (ih e₁ hclosed (Nat.succ.inj hn))

/-- Retrieving completions while an engine is drained runs no posted callback. -/
theorem serves_drainPort (e : Engine P H) (b : List StorageId) (deadline rounds : Nat) :
    popped (e.drainPortMoments b deadline rounds) = [] ∧
      Serves e (e.drainPort deadline rounds).1
        (postsDuring (e.drainPortMoments b deadline rounds))
        (e.drainPortMoments b deadline rounds) := by
  induction rounds generalizing e with
  | zero => exact (Undisturbed.refl e).servesSilently silent_nil
  | succ rounds ih =>
    by_cases hlive : e.slab.live = 0
    · simp only [drainPortMoments, drainPort, if_pos hlive]
      exact (Undisturbed.refl e).servesSilently silent_nil
    by_cases hover : deadline ≤ (Os.now e.world.host).2
    · simp only [drainPortMoments, drainPort, if_neg hlive, if_pos hover]
      have hclock : Undisturbed e (e.withHost (Os.now e.world.host).1) := ⟨rfl, rfl, rfl, rfl, rfl⟩
      exact hclock.servesSilently (silent_single rfl)
    cases h : e.waitPort (some deadline) rounds with
    | mk e₁ w =>
      obtain ⟨he, hw⟩ := Prod.mk.inj ((waitPort_some e deadline rounds).symm.trans h)
      have hwait := undisturbed_waitPort h
      simp only [drainPortMoments, drainPort, if_neg hlive, if_neg hover, h, withHost] at he hw ⊢
      simp only [he, hw]
      cases w with
      | blocked => exact hwait.servesSilently (silent_single rfl)
      | unfinished => exact hwait.servesSilently (silent_single rfl)
      | panicked => exact hwait.servesSilently (silent_single rfl)
      | timeout => exact hwait.servesSilently (silent_single rfl)
      | fault f =>
        have hnote : Undisturbed e₁ (e₁.note (.drainAborted f)) := ⟨rfl, rfl, rfl, rfl, rfl⟩
        exact (hwait.trans hnote).servesSilently (Silent.cons rfl (silent_single rfl))
      | completion c moved =>
        have hc : popped (e₁.completeMoments b c moved) = [] ∧ Serves e (e₁.complete c moved).1
            (postsDuring (e₁.completeMoments b c moved)) (e₁.completeMoments b c moved) := by
          rcases serves_complete e₁ b c moved with ⟨hsilent, hu, _⟩ | ⟨hpopped, _, hs⟩
          · exact (hwait.trans hu).servesSilently hsilent
          · exact ⟨hpopped, hwait.before silent_nil hs⟩
        obtain ⟨hpopped, hs⟩ := hc
        cases hr : e₁.complete c moved with
        | mk e₂ r =>
          rw [hr] at hs
          cases r with
          | ok d =>
            obtain ⟨hpopped', hs'⟩ := ih e₂
            simp only [hr, popped_append, postsDuring_append, hpopped, hpopped']
            exact ⟨rfl, hs.trans hs'⟩
          | error f =>
            obtain ⟨hpopped', hs'⟩ := ih (e₂.note (.drainFault f))
            have hnote : Undisturbed e₂ (e₂.note (.drainFault f)) := ⟨rfl, rfl, rfl, rfl, rfl⟩
            have hquiet : Silent [((.quiet, ⟨e₂.note (.drainFault f), b, none⟩) : Moment P H)] :=
              silent_single rfl
            have hrest := hnote.before hquiet hs'
            simp only [hr, popped_append, postsDuring_append, hpopped]
            exact ⟨hpopped', hs.trans hrest⟩

omit [CompletionPort P H] in
/-- Adding to the event counter leaves posted callbacks alone. -/
theorem undisturbed_releaseWake (e : Engine P H) : Undisturbed e e.releaseWake := by
  unfold releaseWake World.wake
  split
  · cases Os.eventAdd e.world.host e.world.injector.wake with
    | mk host r =>
      cases r with
      | ok u => exact ⟨rfl, rfl, rfl, rfl, rfl⟩
      | error f =>
        by_cases hf : f = Errno.again
        · simp only [if_pos hf]
          exact ⟨rfl, rfl, rfl, rfl, rfl⟩
        · simp only [if_neg hf]
          exact ⟨rfl, rfl, rfl, rfl, rfl⟩
  · exact .refl e

omit [CompletionPort P H] in
/-- A drain without any time is to be over when it begins. -/
theorem drainStart_of_isZero (hzero : e.config.drainTimeout.isZero = true) :
    e.drainStart.2 = (Os.now e.releaseWake.world.host).2 := by
  have hconfig : e.releaseWake.config = e.config := by
    unfold releaseWake
    split
    · split <;> rfl
    · rfl
  have hbudget : e.releaseWake.config.drainTimeout.nanoseconds = 0 := by
    rw [hconfig]
    exact beq_iff_eq.mp hzero
  rw [drainStart, hbudget]
  rfl

omit [CompletionPort P H] in
/-- A drain without any time is late from the beginning. -/
theorem late_of_isZero (hclock : ∀ h : H, (Os.now h).2 ≤ (Os.now (Os.now h).1).2)
    (hzero : e.config.drainTimeout.isZero = true) :
    e.drainStart.2 ≤ (Os.now e.drainStart.1.world.host).2 := by
  rw [drainStart_of_isZero hzero]
  exact hclock e.releaseWake.world.host

/-- Draining serves posted callbacks. A drain of an engine that is closed to posts runs all of
them, if it ends. -/
theorem serves_drain (e : Engine P H) (b : List StorageId) (rounds : Nat) :
    Serves e (e.drain rounds).1 (postsDuring (e.drainMoments b rounds)) (e.drainMoments b rounds) ∧
      (e.world.injector.closed = true → ∀ e', e.drain rounds = (e', .ok ()) →
        ∃ e₁, e.drainStart.1.drainPort e.drainStart.2 rounds = (e₁, .ok ()) ∧ RunsOut e₁ e') := by
  have hclock : Undisturbed e.releaseWake e.drainStart.1 := ⟨rfl, rfl, rfl, rfl, rfl⟩
  have hstart := (undisturbed_releaseWake e).trans hclock
  have hfirst : Silent [((.quiet, ⟨e.releaseWake, b, none⟩) : Moment P H),
      (.quiet, ⟨e.drainStart.1, b, none⟩)] := Silent.cons rfl (silent_single rfl)
  rw [drainMoments, drain_eq]
  by_cases hfits : e.drainStart.2 < endOfTime
  · obtain ⟨_, hport⟩ := serves_drainPort e.drainStart.1 b e.drainStart.2 rounds
    simp only [if_pos hfits]
    cases hd : e.drainStart.1.drainPort e.drainStart.2 rounds with
    | mk e₁ ended =>
      rw [hd] at hport
      cases ended with
      | error halt =>
        simp only [List.append_nil]
        exact ⟨hstart.before hfirst hport, fun _ e' he => by cases he⟩
      | ok u =>
        have hposted := serves_runAllPosted e₁ b e₁.world.injector.queue.length
        have hboth := hport.trans hposted
        rw [← postsDuring_append] at hboth
        refine ⟨hstart.before hfirst hboth, fun hc e' he => ⟨e₁, rfl, ?_⟩⟩
        obtain ⟨rfl, _⟩ := Prod.mk.inj he
        refine runsOut_of_closed e₁ (hport.shut.trans ?_)
        rw [hstart.injector]
        exact hc
  · simp only [if_neg hfits]
    exact ⟨(hstart.servesSilently hfirst).2, fun _ e' he => by cases he⟩

end Engine

end Proactor
