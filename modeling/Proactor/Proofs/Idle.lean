import Proactor.Proofs.Stability

/-!
# Buffers at rest

The bytes of a buffer that nobody holds are those that the program left there: an engine writes
only to what it was lent, so that what a callback finds in the buffers of its operation stays
there until the program uses them again.
-/

namespace Proactor

variable {P H : Type} [CompletionPort P H] [Os H]

/-- From a scene on, nobody holds a storage, and user code does not fill it. -/
def LeftAlone (id : StorageId) (s : Scene P H) : List (Moment P H) → Prop
  | [] => True
  | m :: τ => m.2.lend? id = some .idle ∧ ¬ s.Fills id m.2 ∧ LeftAlone id m.2 τ

omit [CompletionPort P H] [Os H] in
/-- No operation in flight holds a storage that is idle. -/
theorem Scene.Settled.not_mem_leases_of_idle {s : Scene P H} (h : s.Settled) {t : Token}
    {context : Context} (hget : s.engine.slab.get? t = some context) {id : StorageId}
    (hid : s.lend? id = some .idle) : id ∉ context.pinned.leases := by
  intro hmem
  obtain ⟨slab, htake⟩ := Slab.exists_take hget
  have hholder : context ∈ s.holders :=
    List.mem_append_left _ ((Slab.occupants_take htake).symm.subset List.mem_cons_self)
  cases hid.symm.trans (h.exclusive.others context hholder id hmem)

/-- Only user code that fills it changes the bytes of a storage that nobody holds. -/
theorem Happens.bytes_of_idle {s s' : Scene P H} {ev : Event P H} (h : Happens s ev s')
    (hs : s.engine.slab.Sound) (hroom : s'.engine.slab.slots.length ≤ 2 ^ 32)
    (hsettled : s.Settled) {id : StorageId} (hid : s.lend? id = some .idle)
    (hid' : s'.lend? id = some .idle) (hfill : ¬ s.Fills id s') : s'.bytes id = s.bytes id := by
  apply h.bytes_eq hs hroom hsettled hid nofun fun _ => ⟨hid', hfill⟩
  intro seen c moved ran context _ hget
  exact hsettled.not_mem_leases_of_idle hget hid

/-- A path on which nothing happens ends where it begins. -/
theorem Path.eq_of_nil {s s' : Scene P H} (h : Path s [] s') : s' = s := by
  generalize hnil : ([] : List (Moment P H)) = τ at h
  cases h with
  | refl => rfl
  | snoc hbefore hlast => simp at hnil

/-- The first thing on a path happens where it begins. -/
theorem Path.uncons {s s' : Scene P H} {m : Moment P H} {τ : List (Moment P H)}
    (h : Path s (m :: τ) s') : Happens s m.1 m.2 ∧ Path m.2 τ s' := by
  obtain ⟨s₁, hbefore, hstep, hrest⟩ := Path.split (τ := []) h
  obtain rfl := hbefore.eq_of_nil
  exact ⟨hstep, hrest⟩

/-- A storage that is left alone along a path keeps its bytes. -/
theorem Path.bytes_of_leftAlone {s s' : Scene P H} {τ : List (Moment P H)} (hpath : Path s τ s')
    (hfirst : s.Standing) (hroom : s'.engine.slab.slots.length ≤ 2 ^ 32) {id : StorageId}
    (hid : s.lend? id = some .idle) (hτ : LeftAlone id s τ) :
    s'.lend? id = some .idle ∧ s'.bytes id = s.bytes id := by
  induction τ generalizing s with
  | nil =>
    obtain rfl := hpath.eq_of_nil
    exact ⟨hid, rfl⟩
  | cons m τ ih =>
    obtain ⟨hstep, hrest⟩ := hpath.uncons
    obtain ⟨hidle, hfill, hτ⟩ := hτ
    have hroom₁ := Nat.le_trans hrest.length_slots_le hroom
    have hstanding := (Path.single hstep).standing hfirst hroom₁
    have hbytes := hstep.bytes_of_idle hfirst.upright.sound hroom₁ hfirst.settled hid hidle hfill
    obtain ⟨hlast, hsame⟩ := ih hrest hstanding hidle hτ
    exact ⟨hlast, hsame.trans hbytes⟩

/-- What is left alone from a scene on stays as it is there. -/
def StaysIdle (s : Scene P H) (τ : List (Moment P H)) : Prop :=
  ∀ id, s.lend? id = some .idle → ∀ τ₁ x τ₂, τ = τ₁ ++ x :: τ₂ → LeftAlone id s (τ₁ ++ [x]) →
    x.2.lend? id = some .idle ∧ x.2.bytes id = s.bytes id

/-- Whatever else happens on a path, it stays. -/
theorem Path.staysIdle {s s' : Scene P H} {τ : List (Moment P H)} (hpath : Path s τ s')
    (hfirst : s.Standing) (hroom : s'.engine.slab.slots.length ≤ 2 ^ 32) : StaysIdle s τ := by
  rintro id hid τ₁ x τ₂ rfl hτ
  obtain ⟨s₁, hbefore, hstep, hafter⟩ := hpath.split
  have hroom₁ := Nat.le_trans hafter.length_slots_le hroom
  exact (hbefore.snoc hstep).bytes_of_leftAlone hfirst hroom₁ hid hτ

end Proactor
