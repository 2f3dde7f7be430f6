import Proactor.Proofs.Posting

/-!
# Posters

Posts that threads make at the same time. A post looks whether the injector is closed, puts its
callback into the queue, and adds to the event counter; in between it is the turn of others. A
post that nobody comes between is the post that an injector makes in one go.
-/

namespace Proactor

variable {H : Type}

/-- How far a post has come. -/
inductive PostStage where
  | called
  /-- The injector was open when it looked. -/
  | admitted
  /-- Its callback is in the queue, and the event counter was not added to yet. -/
  | queued
  | returned (answer : Except Fault Unit)
  deriving DecidableEq

/-- A post that a thread makes. -/
structure Poster where
  callback : Callback
  stage : PostStage := .called

namespace Poster

/-- The callbacks that the next step of a post puts into the queue. -/
def entering (p : Poster) : List Callback :=
  match p.stage with
  | .admitted => [p.callback]
  | _ => []

/-- The callback of the post was put into the queue. -/
def hasEntered (p : Poster) : Bool :=
  match p.stage with
  | .queued => true
  | .returned answer => (Posting.queued? ⟨p.callback, answer⟩).isSome
  | _ => false

variable [Os H]

/-- One step of a post. -/
def step (p : Poster) (w : World H) : World H × Poster :=
  match p.stage with
  | .called =>
    (w, { p with stage := if w.injector.closed then .returned Posting.refusal else .admitted })
  | .admitted => (w.enqueue p.callback, { p with stage := .queued })
  | .queued => (w.wake.1, { p with stage := .returned w.wake.2 })
  | .returned _ => (w, p)

/-- So many steps of a post that nobody comes between. -/
def steps (p : Poster) (w : World H) : Nat → World H × Poster
  | 0 => (w, p)
  | n + 1 => (p.step w).2.steps (p.step w).1 n

/-- A post that nobody comes between is over after three steps, and does what a post in one go
does. -/
theorem steps_eq_post (cb : Callback) (w : World H) :
    steps ⟨cb, .called⟩ w 3 = ((w.post cb).1, ⟨cb, .returned (w.post cb).2⟩) := by
  by_cases hclosed : w.injector.closed = true
  · have hpost : w.post cb = (w, Posting.refusal) := if_pos hclosed
    rw [hpost]
    simp only [steps, step, if_pos hclosed]
  · have hpost : w.post cb = (w.enqueue cb).wake := if_neg hclosed
    rw [hpost]
    simp only [steps, step, if_neg hclosed]

theorem callback_step (p : Poster) (w : World H) :
    (p.step w).2.callback = p.callback := by
  unfold step
  cases p.stage <;> rfl

/-- A step of a post touches the host and the queue only. -/
theorem step_eq (p : Poster) (w : World H) : ∃ host, (p.step w).1 = { w with
    host
    injector := { w.injector with queue := w.injector.queue ++ p.entering } } := by
  unfold step entering
  cases p.stage with
  | queued =>
    simp only [List.append_nil]
    unfold World.wake
    split <;> exact ⟨_, rfl⟩
  | _ => exact ⟨w.host, by simp [World.enqueue]⟩

/-- A post puts its callback into the queue once, in the step after it was admitted. -/
theorem hasEntered_step (p : Poster) (w : World H) :
    (p.step w).2.hasEntered = (p.hasEntered || decide (p.stage = .admitted)) := by
  obtain ⟨callback, stage⟩ := p
  cases stage with
  | called =>
    simp only [step]
    split <;> rfl
  | queued =>
    simp only [step]
    unfold World.wake
    split
    · rfl
    · split <;> rfl
  | admitted => rfl
  | returned answer => exact (Bool.or_false _).symm

/-- The callbacks that a step puts into the queue make the difference. -/
theorem toNat_hasEntered_step (p : Poster) (w : World H) :
    (p.step w).2.hasEntered.toNat = p.hasEntered.toNat + p.entering.length := by
  rw [hasEntered_step]
  obtain ⟨callback, stage⟩ := p
  cases stage with
  | returned answer => simp [entering]
  | _ => rfl

/-- A post that has not been admitted yet is not admitted to a closed injector, so that its callback
stays where it is. -/
theorem step_of_closed {p : Poster} {w : World H} (hclosed : w.injector.closed = true)
    (h : p.stage ≠ .admitted) :
    (p.step w).2.stage ≠ .admitted ∧ (p.step w).2.hasEntered = p.hasEntered := by
  constructor
  · obtain ⟨callback, stage⟩ := p
    cases stage with
    | called => simp [step, hclosed]
    | admitted => exact absurd rfl h
    | queued => exact nofun
    | returned answer => exact nofun
  · rw [hasEntered_step, decide_eq_false h, Bool.or_false]

end Poster

end Proactor
