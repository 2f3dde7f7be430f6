import Proactor.Engine.Close
import Proactor.Proofs.Submission

/-!
# Histories

What happens to an engine, one thing at a time, down to what user code does inside a callback.
Each thing leads from one scene to the next, where a scene is all that user code can tell apart
at that moment: the engine with its world, the borrows that are running, and the operation whose
callback is being run. The calls of an engine are paths of such steps.
-/

namespace Proactor

/-- One thing that happens to an engine. -/
inductive Event (P H : Type) where
  /-- A submitter was called with a callback. -/
  | submitted (cb : Callback) (answer : Except Fault Token)
  /-- A wait returned a completion to the engine `seen`; the callback that was run for it. -/
  | completed (seen : Engine P H) (c : Completion) (moved : Transfer)
      (ran : Option (Callback × Outcome))
  /-- A posted callback was taken from the queue and run. -/
  | popped (cb : Callback)
  /-- What was in flight was given up. -/
  | abandoned
  /-- Something that neither starts nor ends an operation. -/
  | quiet

/-- All that user code can tell apart at one moment. -/
structure Scene (P H : Type) where
  engine : Engine P H
  /-- The storages that user code has borrowed, the latest first. -/
  borrows : List StorageId := []
  /-- The operation whose callback is being run. -/
  running : Option Context := none

/-- Something that happens, and the scene right after it. -/
abbrev Moment (P H : Type) := Event P H × Scene P H

variable {P H : Type}

/-- The engine with another world. -/
def Engine.withWorld (e : Engine P H) (world : World H) : Engine P H := { e with world }

/-- The engine with another slab and another world, as a completion leaves it. -/
def Engine.settled (e : Engine P H) (slab : Slab Context) (world : World H) : Engine P H :=
  { e with slab, world }

/-- The engine with one more dispatch counted. -/
def Engine.countDispatched (e : Engine P H) : Engine P H :=
  { e with stats := { e.stats with dispatched := e.stats.dispatched + 1 } }

/-- The engine with one more posted callback counted. -/
def Engine.countInjected (e : Engine P H) : Engine P H :=
  { e with stats := { e.stats with injected := e.stats.injected + 1 } }

variable [CompletionPort P H] [Os H]

/-- The engine at the moment at which the callback of an operation is called. -/
def Engine.calling (e : Engine P H) (token : Token) (context : Context) (o : Outcome) :
    Engine P H :=
  (e.note (.dispatched context.kind context.fd token o)).withWorld
    ((e.note (.dispatched context.kind context.fd token o)).world.record
      (.ran context.callback.tag o))

/-- One thing happens, and leads from one scene to another. -/
inductive Happens : Scene P H → Event P H → Scene P H → Prop where
  | place (e : Engine P H) (b : List StorageId) (o : Order StorageId) (cb : Callback) :
    Happens ⟨e, b, none⟩ (.submitted cb (e.place o cb).2) ⟨(e.place o cb).1, b, none⟩
  | associate (e : Engine P H) (b : List StorageId) (fd : Fd) :
    Happens ⟨e, b, none⟩ .quiet ⟨(e.associate fd).1, b, none⟩
  | dissociate (e : Engine P H) (b : List StorageId) (fd : Fd) :
    Happens ⟨e, b, none⟩ .quiet ⟨(e.dissociate fd).1, b, none⟩
  /-- A wait ends without a completion. -/
  | waited (e e' : Engine P H) (b : List StorageId) (deadline : Option Nat) (rounds : Nat)
      (w : Waited) (hw : ∀ c moved, w ≠ .completion c moved)
      (h : e.waitPort deadline rounds = (e', w)) :
    Happens ⟨e, b, none⟩ .quiet ⟨e', b, none⟩
  /-- A wait returns a completion that names no context. -/
  | unknown (e e' : Engine P H) (b : List StorageId) (deadline : Option Nat) (rounds : Nat)
      (c : Completion) (moved : Transfer)
      (h : e.waitPort deadline rounds = (e', .completion c moved))
      (ht : e'.slab.take c.token = none) :
    Happens ⟨e, b, none⟩ (.completed e' c moved none)
      ⟨e'.note (.unknownToken c.token c.result), b, none⟩
  /-- A wait returns the completion of the engine's own read. -/
  | woken (e e' : Engine P H) (b : List StorageId) (deadline : Option Nat) (rounds : Nat)
      (c : Completion) (moved : Transfer) (context : Context) (slab : Slab Context)
      (h : e.waitPort deadline rounds = (e', .completion c moved))
      (ht : e'.slab.take c.token = some (context, slab)) (hwake : e'.wakeToken = some c.token) :
    Happens ⟨e, b, none⟩ (.completed e' c moved none)
      ⟨({ e'.settled slab (e'.world.settle context.pinned c.result moved).1 with
          wakeToken := none }).rearmWake (e'.world.settle context.pinned c.result moved).2, b,
        none⟩
  /-- A wait returns the completion of a user's operation, and its callback is called. -/
  | called (e e' : Engine P H) (b : List StorageId) (deadline : Option Nat) (rounds : Nat)
      (c : Completion) (moved : Transfer) (context : Context) (slab : Slab Context)
      (o : Outcome) (h : e.waitPort deadline rounds = (e', .completion c moved))
      (ht : e'.slab.take c.token = some (context, slab)) (hwake : e'.wakeToken ≠ some c.token)
      (ho : o = .ofResult (e'.world.settle context.pinned c.result moved).2) :
    Happens ⟨e, b, none⟩ (.completed e' c moved (some (context.callback, o)))
      ⟨(e'.settled slab (e'.world.settle context.pinned c.result moved).1).calling c.token
        context o, b, some context⟩
  /-- The callback of an operation returns. -/
  | returned (e : Engine P H) (b : List StorageId) (context : Context) :
    Happens ⟨e, b, some context⟩ .quiet ⟨e.countDispatched, b, none⟩
  /-- A posted callback is called. -/
  | popped (e : Engine P H) (b : List StorageId) (cb : Callback) (world : World H)
      (h : e.world.pop = some (cb, world)) :
    Happens ⟨e, b, none⟩ (.popped cb) ⟨e.withWorld (world.record (.ran cb.tag .done)), b, none⟩
  /-- A posted callback returns. -/
  | injected (e : Engine P H) (b : List StorageId) :
    Happens ⟨e, b, none⟩ .quiet ⟨e.countInjected, b, none⟩
  /-- User code acts, inside a callback or outside. -/
  | act (e : Engine P H) (b : List StorageId) (r : Option Context) (a : Action)
      (ha : ∀ handle content actions, a ≠ .borrow handle content actions) :
    Happens ⟨e, b, r⟩ .quiet ⟨e.withWorld (e.world.act a), b, r⟩
  | post (e : Engine P H) (b : List StorageId) (r : Option Context) (cb : Callback) :
    Happens ⟨e, b, r⟩ .quiet ⟨e.withWorld (e.world.post cb).1, b, r⟩
  | alloc (e : Engine P H) (b : List StorageId) (r : Option Context) (content : Bytes) :
    Happens ⟨e, b, r⟩ .quiet ⟨e.withMemory (e.world.memory.alloc content).1, b, r⟩
  | bind (e : Engine P H) (b : List StorageId) (r : Option Context) (handle : String)
      (id : StorageId) :
    Happens ⟨e, b, r⟩ .quiet ⟨e.withMemory (e.world.memory.bind handle id), b, r⟩
  /-- A borrow begins. -/
  | borrow (e : Engine P H) (b : List StorageId) (r : Option Context) (handle : String)
      (content : Bytes) (id : StorageId) (world : World H)
      (h : e.world.borrow? handle content = some (id, world)) :
    Happens ⟨e, b, r⟩ .quiet ⟨e.withWorld world, id :: b, r⟩
  /-- A running borrow writes. -/
  | scribble (e : Engine P H) (b : List StorageId) (r : Option Context) (id : StorageId)
      (content : Bytes) (h : id ∈ b) :
    Happens ⟨e, b, r⟩ .quiet
      ⟨e.withMemory (e.world.memory.modifyBytes id (Bytes.overwrite · content)), b, r⟩
  /-- A running borrow ends. -/
  | giveBack (e : Engine P H) (b : List StorageId) (r : Option Context) (id : StorageId)
      (h : id ∈ b) :
    Happens ⟨e, b, r⟩ .quiet ⟨e.withWorld (e.world.release id), b.erase id, r⟩
  /-- Time passes on the host, or something is noted, or a time limit is counted. -/
  | aside (e : Engine P H) (b : List StorageId) (r : Option Context) (host : H)
      (journal : List Notice) (timeouts : Nat) :
    Happens ⟨e, b, r⟩ .quiet
      ⟨{ e with
          world := { e.world with host, journal }
          stats := { e.stats with timeouts } }, b, r⟩
  | closeToPosts (e : Engine P H) (b : List StorageId) :
    Happens ⟨e, b, none⟩ .quiet ⟨e.closeToPosts, b, none⟩
  | abandon (e : Engine P H) (b : List StorageId) :
    Happens ⟨e, b, none⟩ .abandoned ⟨e.abandon.1, b, none⟩

/-- Things that happen one after the other, from one scene to another. -/
inductive Path (s₀ : Scene P H) : List (Moment P H) → Scene P H → Prop where
  | refl : Path s₀ [] s₀
  | snoc {τ : List (Moment P H)} {s s' : Scene P H} {ev : Event P H} :
    Path s₀ τ s → Happens s ev s' → Path s₀ (τ ++ [(ev, s')]) s'

/-- What stands somewhere in a list stands at its end or before it. -/
theorem append_singleton_eq_append_cons {α : Type} {front before after : List α}
    {last x : α} (h : front ++ [last] = before ++ x :: after) :
    (front = before ∧ last = x ∧ after = []) ∨
      ∃ rest, front = before ++ x :: rest ∧ after = rest ++ [last] := by
  rcases List.eq_nil_or_concat after with rfl | ⟨rest, y, rfl⟩
  · obtain ⟨hfront, hlast⟩ := List.append_inj' h rfl
    exact .inl ⟨hfront, List.singleton_inj.mp hlast, rfl⟩
  · have h : front ++ [last] = (before ++ x :: rest) ++ [y] := by
      rw [h, List.concat_eq_append, List.append_assoc, List.cons_append]
    obtain ⟨hfront, hlast⟩ := List.append_inj' h rfl
    obtain rfl := List.singleton_inj.mp hlast
    exact .inr ⟨rest, hfront, List.concat_eq_append⟩

namespace Path

variable {s s' s'' : Scene P H} {τ τ' : List (Moment P H)} {ev : Event P H}

theorem single (h : Happens s ev s') : Path s [(ev, s')] s' := .snoc .refl h

theorem trans (h : Path s τ s') (h' : Path s' τ' s'') : Path s (τ ++ τ') s'' := by
  induction h' with
  | refl => simpa using h
  | snoc _ hstep ih =>
    rw [← List.append_assoc]
    exact .snoc ih hstep

theorem cons (h : Happens s ev s') (h' : Path s' τ s'') : Path s ((ev, s') :: τ) s'' :=
  (single h).trans h'

/-- Each thing on a path happens between what came before and what comes after. -/
theorem split {m : Moment P H} (h : Path s (τ ++ m :: τ') s'') :
    ∃ s₁, Path s τ s₁ ∧ Happens s₁ m.1 m.2 ∧ Path m.2 τ' s'' := by
  generalize hall : τ ++ m :: τ' = all at h
  induction h generalizing τ' with
  | refl => simp at hall
  | @snoc before s₁ s₂ ev hbefore hlast ih =>
    rcases append_singleton_eq_append_cons hall.symm with ⟨rfl, rfl, rfl⟩ | ⟨rest, rfl, rfl⟩
    · exact ⟨s₁, hbefore, hlast, .refl⟩
    · obtain ⟨s₃, hfirst, hstep, hrest⟩ := ih rfl
      exact ⟨s₃, hfirst, hstep, hrest.snoc hlast⟩

end Path

end Proactor
