import Proactor.Proofs.Posting
import Proactor.Session.AnyPort

/-!
# Posted callbacks in order

Over a whole run the posted callbacks that were run are the first of those that were posted, and
the count of them says how many. A shutdown that returns runs the others too before it gives up the
queue; one that panics before its drain runs none of them, and they stay in the queue; a drop gives
it up at once. Once an engine is closed nothing is queued any more. The calls of a run come one
after the other: nobody posts while a pump is blocked in a wait.
-/

namespace Proactor

variable {P H : Type} [CompletionPort P H] [Os H]

/-! ### Closing -/

namespace Engine

/-- What becomes of posted callbacks when an engine is given up. -/
structure GivesUp (e e' : Engine P H) : Prop where
  queue : e'.world.injector.queue = []
  shut : e'.world.injector.closed = e.world.injector.closed
  injected : e'.stats.injected = e.stats.injected
  calls : e'.world.calls = e.world.calls
  closed : e'.closed = e.closed

omit [Os H] in
/-- Giving up an engine empties its queue. -/
theorem givesUp_abandon (e : Engine P H) : GivesUp e e.abandon.1 := by
  unfold abandon
  dsimp only
  split <;> split <;> exact ⟨rfl, rfl, rfl, rfl, rfl⟩

variable {e : Engine P H}

/-- The moments of a shutdown are those of its drain, as far as callbacks are concerned. -/
theorem moments_of_shutdown (hlive : e.closed = false) (b : List StorageId) (rounds : Nat) :
    popped (e.shutdownMoments b rounds) = popped (e.closeToPosts.drainMoments b rounds) ∧
      postsDuring (e.shutdownMoments b rounds) =
        postsDuring (e.closeToPosts.drainMoments b rounds) ∧
      runsDuring (e.shutdownMoments b rounds) =
        runsDuring (e.closeToPosts.drainMoments b rounds) := by
  have hnot : ¬ e.closed = true := by simp [hlive]
  let first : List (Moment P H) := [(.quiet, ⟨e.closeToPosts, b, none⟩)]
  have hfirst : Silent first := silent_single rfl
  obtain ⟨last, hmoments, hlast⟩ : ∃ last, e.shutdownMoments b rounds =
      first ++ (e.closeToPosts.drainMoments b rounds ++ last) ∧ Silent last := by
    refine ⟨_, if_neg hnot, ?_⟩
    split
    · exact silent_nil
    · exact silent_single rfl
  rw [hmoments]
  simp only [popped_append, postsDuring_append, runsDuring_append, hfirst.popped, hlast.popped,
    hfirst.postsDuring, hlast.postsDuring, hfirst.runsDuring, hlast.runsDuring, List.nil_append,
    List.append_nil, and_self]

/-- A shutdown first drains the engine, closed to posts, and gives it up when that has ended. -/
theorem shutdown_cases (hlive : e.closed = false) (rounds : Nat) :
    (∃ e₁ halt, e.closeToPosts.drain rounds = (e₁, .error halt) ∧
        e.shutdown rounds = (e₁, .error halt)) ∨
      ∃ e₁ n, e.closeToPosts.drain rounds = (e₁, .ok ()) ∧
        e.shutdown rounds = (e₁.abandon.1, .ok n) := by
  simp only [shutdown, hlive, Bool.false_eq_true, if_false]
  cases h : e.closeToPosts.drain rounds with
  | mk e₁ ended =>
    cases ended with
    | error halt => exact .inl ⟨e₁, halt, rfl, rfl⟩
    | ok u => exact .inr ⟨e₁, _, rfl, rfl⟩

end Engine

/-! ### Clients -/

namespace Client

/-- The posts made during one call, by the callbacks that it runs or by the program itself. -/
def posts (c : Client P H) : Step H → List Posting
  | .post cb => [⟨cb, (c.engine.world.post cb).2⟩]
  | s => postsDuring (c.moments s)

/-- The posts made during calls, one after the other. -/
def postings (c : Client P H) : List (Step H) → List Posting
  | [] => []
  | s :: steps => c.posts s ++ (c.step s).1.postings steps

/-- The call drops the engine, or is a shutdown that returns. -/
def ends (c : Client P H) (s : Step H) : Bool :=
  !c.gone && match s with
    | .drop => true
    | .shutdown rounds => (c.engine.shutdown rounds).2.toBool
    | _ => false

/-- The engine was dropped, or shut down by a call that returned. -/
def finished (c : Client P H) : List (Step H) → Bool
  | [] => false
  | s :: steps => c.ends s || (c.step s).1.finished steps

/-- The call begins to close the engine. -/
def closes (c : Client P H) (s : Step H) : Bool :=
  !c.gone && match s with
    | .drop => true
    | .shutdown _ => true
    | _ => false

/-- What a call is to the engine: it uses the engine, closes it, posts to it, or is beside it and
changes no more of it than its memory and its host. -/
inductive Does (c : Client P H) :
    Step H → Client P H → List Posting → List (Moment P H) → Prop
  | place {o : Order String} {o' : Order StorageId} {cb : Callback} {τ : List (Moment P H)}
      (hlive : c.gone = false) (hτ : Silent τ) :
      Does c (.place o cb) { c with engine := (c.engine.place o' cb).1 } [] τ
  | pump {timeout : Option Duration} {rounds : Nat} (hlive : c.gone = false) :
      Does c (.pump timeout rounds) { c with engine := (c.engine.pump timeout rounds).1 }
        (postsDuring (c.engine.pumpMoments c.borrows timeout rounds))
        (c.engine.pumpMoments c.borrows timeout rounds)
  | post {cb : Callback} {τ : List (Moment P H)} (hτ : Silent τ) :
      Does c (.post cb) { c with engine := c.engine.withWorld (c.engine.world.post cb).1 }
        [⟨cb, (c.engine.world.post cb).2⟩] τ
  | associate {fd : Fd} {τ : List (Moment P H)} (hlive : c.gone = false) (hτ : Silent τ) :
      Does c (.associate fd) { c with engine := (c.engine.associate fd).1 } [] τ
  | dissociate {fd : Fd} {τ : List (Moment P H)} (hlive : c.gone = false) (hτ : Silent τ) :
      Does c (.dissociate fd) { c with engine := (c.engine.dissociate fd).1 } [] τ
  | close {s : Step H} {c' : Client P H} {ps : List Posting} {τ : List (Moment P H)}
      (hcloses : c.closes s = true) : Does c s c' ps τ
  | aside {s : Step H} {τ : List (Moment P H)} (memory : Memory) (host : H)
      (borrows : List StorageId) (hτ : Silent τ) :
      Does c s { c with engine := (c.engine.withHost host).withMemory memory, borrows } [] τ

/-- It may be that a call changes nothing. -/
theorem Does.nothing (c : Client P H) {s : Step H} {τ : List (Moment P H)} (hτ : Silent τ) :
    Does c s c [] τ := .aside c.engine.world.memory c.engine.world.host c.borrows hτ

/-- Every call is one of these. -/
theorem does_step (c : Client P H) (s : Step H) :
    c.Does s (c.step s).1 (c.posts s) (c.moments s) := by
  obtain ⟨e, b, gone⟩ := c
  have hquiet : ∀ s' : Scene P H, Silent [((.quiet, s') : Moment P H)] :=
    fun _ => silent_single rfl
  cases s with
  | place o cb =>
    cases gone with
    | true => exact .nothing _ silent_nil
    | false =>
      cases ho : (Client.mk e b false).resolve o with
      | none =>
        simp only [posts, moments, step, ho]
        exact .nothing _ silent_nil
      | some o' =>
        simp only [posts, moments, step, ho]
        exact .place rfl (silent_single rfl)
  | pump timeout rounds =>
    cases gone with
    | true => exact .nothing _ silent_nil
    | false => exact .pump rfl
  | post cb => exact .post (hquiet _)
  | associate fd =>
    cases gone with
    | true => exact .nothing _ (hquiet _)
    | false => exact .associate rfl (hquiet _)
  | dissociate fd =>
    cases gone with
    | true => exact .nothing _ (hquiet _)
    | false => exact .dissociate rfl (hquiet _)
  | buffer handle content => exact .aside _ e.world.host b (Silent.cons rfl (hquiet _))
  | clone handle of_ =>
    cases hf : e.world.memory.find? of_ with
    | none =>
      simp only [posts, moments, step, hf]
      exact .nothing _ (hquiet _)
    | some id =>
      simp only [posts, moments, step, hf]
      exact .aside _ e.world.host b (hquiet _)
  | fill handle content =>
    obtain ⟨memory, hfill⟩ : ∃ memory, e.world.fill handle content = { e.world with memory } := by
      unfold World.fill
      split <;> exact ⟨_, rfl⟩
    simp only [posts, moments, step, hfill]
    exact .aside memory e.world.host b (hquiet _)
  | peek handle => exact .nothing _ (hquiet _)
  | borrow handle content =>
    cases hw : e.world.borrow? handle content with
    | none =>
      simp only [posts, moments, step, hw]
      exact .nothing _ (hquiet _)
    | some x =>
      obtain ⟨id, world⟩ := x
      obtain ⟨memory, rfl⟩ := World.borrow?_eq_some hw
      simp only [posts, moments, step, hw]
      exact .aside memory e.world.host (id :: b) (hquiet _)
  | scribble id content =>
    by_cases hid : id ∈ b
    · simp only [posts, moments, step, if_pos hid]
      exact .aside _ e.world.host b (hquiet _)
    · simp only [posts, moments, step, if_neg hid]
      exact .nothing _ (hquiet _)
  | giveBack id =>
    by_cases hid : id ∈ b
    · simp only [posts, moments, step, if_pos hid]
      exact .aside _ e.world.host (b.erase id) (hquiet _)
    · simp only [posts, moments, step, if_neg hid]
      exact .nothing _ (hquiet _)
  | outside host => exact .aside e.world.memory host b (hquiet _)
  | shutdown rounds =>
    cases gone with
    | true => exact .nothing _ silent_nil
    | false => exact .close rfl
  | drop =>
    cases gone with
    | true => exact .nothing _ silent_nil
    | false => exact .close rfl

/-- Every call but those that close the engine serves posted callbacks in order. -/
theorem serves_step (c : Client P H) (s : Step H) (h : c.closes s = false) :
    c.engine.Serves (c.step s).1.engine (c.posts s) (c.moments s) ∧
      (c.step s).1.gone = c.gone := by
  have hdoes := c.does_step s
  generalize (c.step s).1 = c', c.posts s = ps, c.moments s = τ at hdoes ⊢
  cases hdoes with
  | place _ hτ => exact ⟨(c.engine.undisturbed_place _ _).serves hτ, rfl⟩
  | pump _ => exact ⟨(c.engine.serves_pump c.borrows _ _).1, rfl⟩
  | @post cb _ hτ =>
    have hpost := c.engine.world.posts_post cb
    refine ⟨⟨?_, ?_, hpost.closed, rfl, rfl, hpost.refused, ?_⟩, rfl⟩
    · rw [hτ.popped]
      exact hpost.queue.symm
    · rw [hτ.popped]
      rfl
    · rw [hτ.runsDuring]
      exact hpost.runs.trans (List.append_nil _).symm
  | @associate fd _ _ hτ =>
    obtain ⟨p, host, j, a, he⟩ := c.engine.associate_eq_beside fd
    have hsame : c.engine.Undisturbed (c.engine.associate fd).1 := by
      rw [he]
      exact ⟨rfl, rfl, rfl, rfl, rfl⟩
    exact ⟨hsame.serves hτ, rfl⟩
  | dissociate _ hτ => exact ⟨Engine.Undisturbed.serves ⟨rfl, rfl, rfl, rfl, rfl⟩ hτ, rfl⟩
  | close hcloses => exact absurd (h.symm.trans hcloses) (by decide)
  | aside memory host borrows hτ =>
    exact ⟨Engine.Undisturbed.serves ⟨rfl, rfl, rfl, rfl, rfl⟩ hτ, rfl⟩

/-! ### Whole runs -/

/-- After calls in which `ps` was posted, `τ` happened, and the engine was closed or not. -/
structure Orderly (c : Client P H) (ps : List Posting) (τ : List (Moment P H))
    (finished : Bool) : Prop where
  shut : c.engine.world.injector.closed = c.gone
  closed : c.engine.closed = c.gone
  live : c.gone = false → finished = false
  /-- Nothing is given up before. -/
  kept : c.gone = false → c.engine.leaked = []
  injected : c.engine.stats.injected = (popped τ).length
  /-- What was run are the first of those queued. -/
  first : popped τ <+: Posting.queued ps
  /-- The others still wait, until the engine is closed. -/
  waiting : finished = false → Posting.queued ps = popped τ ++ c.engine.world.injector.queue
  dropped : finished = true → c.engine.world.injector.queue = []
  runs : c.engine.world.calls.filterMap Call.ran? = runsDuring τ

namespace Orderly

variable {c : Client P H} {ps ps' : List Posting} {τ τ' : List (Moment P H)} {finished : Bool}

omit [CompletionPort P H] [Os H] in
/-- Serving posted callbacks keeps them in order, also when nothing can be posted any more. -/
theorem serve (h : Orderly c ps τ finished) (c' : Client P H)
    (hs : c.engine.Serves c'.engine ps' τ') (hgone : c'.gone = c.gone) :
    Orderly c' (ps ++ ps') (τ ++ τ') finished where
  shut := by rw [hs.shut, h.shut, hgone]
  closed := by rw [hs.closed, h.closed, hgone]
  live := fun hlive => h.live (hgone.symm.trans hlive)
  kept := fun hlive => hs.leaked.trans (h.kept (hgone.symm.trans hlive))
  injected := by rw [hs.injected, h.injected, popped_append, List.length_append]
  first := by
    rw [popped_append, Posting.queued_append]
    cases finished with
    | false =>
      rw [h.waiting rfl, List.append_assoc, hs.queue, ← List.append_assoc]
      exact List.prefix_append _ _
    | true =>
      have hgone : c.gone = true := by
        cases hg : c.gone with
        | true => rfl
        | false => cases h.live hg
      have hqueue := hs.queue_of_closed (h.shut.trans hgone)
      rw [h.dropped rfl] at hqueue
      obtain ⟨hpopped, _⟩ := List.append_eq_nil_iff.mp hqueue.symm
      rw [hpopped, List.append_nil]
      exact h.first.trans (List.prefix_append _ _)
  waiting := by
    intro hended
    rw [popped_append, Posting.queued_append, h.waiting hended, List.append_assoc, hs.queue,
      List.append_assoc]
  dropped := by
    intro hended
    have hgone : c.gone = true := by
      cases hg : c.gone with
      | true => rfl
      | false => exact absurd (hended.symm.trans (h.live hg)) (by decide)
    have hqueue := hs.queue_of_closed (h.shut.trans hgone)
    rw [h.dropped hended] at hqueue
    exact (List.append_eq_nil_iff.mp hqueue.symm).2
  runs := by rw [hs.runs, h.runs, runsDuring_append]

omit [CompletionPort P H] [Os H] in
/-- Closing an engine first shuts its injector. -/
theorem closeToPosts (h : Orderly c ps τ finished) :
    Orderly { c with engine := c.engine.closeToPosts, gone := true } ps τ finished where
  shut := rfl
  closed := rfl
  live := nofun
  kept := nofun
  injected := h.injected
  first := h.first
  waiting := h.waiting
  dropped := h.dropped
  runs := h.runs

omit [CompletionPort P H] [Os H] in
/-- Giving up an engine empties its queue. -/
theorem givesUp {e' : Engine P H} (h : Orderly c ps τ finished) (hgone : c.gone = true)
    (hg : c.engine.GivesUp e') : Orderly { c with engine := e' } ps τ true where
  shut := hg.shut.trans h.shut
  closed := hg.closed.trans h.closed
  live := fun hlive => absurd (hgone.symm.trans hlive) (by decide)
  kept := fun hlive => absurd (hgone.symm.trans hlive) (by decide)
  injected := hg.injected.trans h.injected
  first := h.first
  waiting := nofun
  dropped := fun _ => hg.queue
  runs := by rw [hg.calls, h.runs]

omit [CompletionPort P H] [Os H] in
/-- It matters only which callbacks were run. -/
theorem of_moments (h : Orderly c ps τ finished) (τ' : List (Moment P H))
    (hpopped : popped τ' = popped τ) (hruns : runsDuring τ' = runsDuring τ) :
    Orderly c ps τ' finished where
  shut := h.shut
  closed := h.closed
  live := h.live
  kept := h.kept
  injected := hpopped ▸ h.injected
  first := hpopped ▸ h.first
  waiting := hpopped ▸ h.waiting
  dropped := h.dropped
  runs := h.runs.trans hruns.symm

/-- A shutdown keeps posted callbacks in order. -/
theorem shutdown (h : Orderly c ps τ finished) (hlive : c.gone = false) (rounds : Nat) :
    Orderly (c.step (.shutdown rounds)).1 (ps ++ c.posts (.shutdown rounds))
      (τ ++ c.moments (.shutdown rounds)) (finished || c.ends (.shutdown rounds)) := by
  obtain ⟨e, b, gone⟩ := c
  obtain rfl : gone = false := hlive
  obtain ⟨hs, _⟩ := e.closeToPosts.serves_drain b rounds
  obtain ⟨hpopped, hposts, hruns⟩ := Engine.moments_of_shutdown h.closed b rounds
  have hdrained := h.closeToPosts.serve ⟨(e.closeToPosts.drain rounds).1, b, true⟩ hs rfl
  have hsame := hdrained.of_moments (τ ++ e.shutdownMoments b rounds)
    (by rw [popped_append, popped_append, hpopped])
    (by rw [runsDuring_append, runsDuring_append, hruns])
  rw [← hposts] at hsame
  rcases Engine.shutdown_cases h.closed rounds with ⟨e₁, halt, hd, he⟩ | ⟨e₁, n, hd, he⟩
  · rw [hd] at hsame
    simpa [posts, moments, Client.step, ends, he, Except.toBool] using hsame
  · rw [hd] at hsame
    have hgave := hsame.givesUp rfl e₁.givesUp_abandon
    simpa [posts, moments, Client.step, ends, he, Except.toBool] using hgave

/-- A drop keeps posted callbacks in order. -/
theorem drop (h : Orderly c ps τ finished) (hlive : c.gone = false) :
    Orderly (c.step .drop).1 (ps ++ c.posts .drop) (τ ++ c.moments .drop)
      (finished || c.ends .drop) := by
  obtain ⟨e, b, gone⟩ := c
  obtain rfl : gone = false := hlive
  have hnot : ¬ e.closed = true := fun hc => Bool.noConfusion (hc.symm.trans h.closed)
  have hdrop : e.drop = e.closeToPosts.abandon.1 := if_neg hnot
  have hmoments : e.dropMoments b = [(.quiet, ⟨e.closeToPosts, b, none⟩),
      (.abandoned, ⟨e.closeToPosts.abandon.1, b, none⟩)] := if_neg hnot
  have hsilent : Silent (e.dropMoments b) := by
    rw [hmoments]
    exact Silent.cons rfl (silent_single rfl)
  have hgave := h.closeToPosts.givesUp rfl e.closeToPosts.givesUp_abandon
  have hsame := hgave.of_moments (τ ++ e.dropMoments b)
    (by rw [popped_append, hsilent.popped, List.append_nil])
    (by rw [runsDuring_append, hsilent.runsDuring, List.append_nil])
  simpa [posts, moments, Client.step, ends, hdrop, hsilent.postsDuring] using hsame

/-- Every call keeps posted callbacks in order. -/
theorem step (h : Orderly c ps τ finished) (s : Step H) :
    Orderly (c.step s).1 (ps ++ c.posts s) (τ ++ c.moments s) (finished || c.ends s) := by
  by_cases hc : c.closes s = true
  · unfold closes at hc
    obtain ⟨hlive, hs⟩ := Bool.and_eq_true_iff.mp hc
    have hlive : c.gone = false := (Bool.not_eq_true' _).mp hlive
    cases s with
    | shutdown rounds => exact h.shutdown hlive rounds
    | drop => exact h.drop hlive
    | _ => cases hs
  · obtain ⟨hs, hgone⟩ := c.serves_step s (Bool.eq_false_iff.mpr hc)
    have hends : c.ends s = false := by
      unfold closes at hc
      unfold ends
      cases hg : c.gone with
      | true => rfl
      | false =>
        rw [hg] at hc
        cases s with
        | shutdown rounds => exact absurd rfl hc
        | drop => exact absurd rfl hc
        | _ => rfl
    rw [hends, Bool.or_false]
    exact h.serve _ hs hgone

/-- Calls keep posted callbacks in order, one after the other. -/
theorem after (h : Orderly c ps τ finished) (steps : List (Step H)) :
    Orderly (c.after steps) (ps ++ c.postings steps) (τ ++ c.history steps)
      (finished || c.finished steps) := by
  induction steps generalizing c ps τ finished with
  | nil => simpa [Client.after, postings, history, Client.finished] using h
  | cons s steps ih =>
    have hrest := ih (h.step s)
    simpa [Client.after, postings, history, Client.finished, Bool.or_assoc] using hrest

end Orderly

end Client

/-- Nothing was posted to a new engine. -/
theorem Engine.orderly_of_build {config : Config} {port : P} {host : H} {e : Engine P H}
    (h : Engine.build config port host = .ready e) :
    Client.Orderly (Client.own e) [] ([] : List (Moment P H)) false := by
  have hnew := Engine.isNew_of_build h
  obtain ⟨x, host', wake, journal, e', n, harm, rfl⟩ := Engine.armWake_of_build h
  have hu := Engine.undisturbed_armWake
    (Engine.fresh config x (Extensions.resolve port host).port host' wake journal)
  rw [harm] at hu
  refine ⟨?_, hnew.closed, fun _ => rfl, fun _ => hnew.leaked, ?_, List.prefix_rfl, fun _ => ?_,
    nofun, ?_⟩
  · exact congrArg Injector.closed hu.injector
  · exact congrArg Stats.injected hnew.stats
  · exact (congrArg Injector.queue hu.injector).symm
  · exact congrArg (List.filterMap Call.ran?) hnew.calls

/-- No callback is called any more after an engine was closed. -/
theorem Client.silent_of_gone (c : Client P H) (hgone : c.gone = true) (s : Step H) :
    Silent (c.moments s) := by
  have hdoes := c.does_step s
  generalize (c.step s).1 = c', c.posts s = ps, c.moments s = τ at hdoes ⊢
  cases hdoes with
  | pump hlive => exact absurd (hlive.symm.trans hgone) (by decide)
  | close hcloses => simp [closes, hgone] at hcloses
  | place _ hτ => exact hτ
  | post hτ => exact hτ
  | associate _ hτ => exact hτ
  | dissociate _ hτ => exact hτ
  | aside _ _ _ hτ => exact hτ

namespace Client.Orderly

variable {c : Client P H} {ps : List Posting} {τ : List (Moment P H)} {finished : Bool}

end Client.Orderly

end Proactor
