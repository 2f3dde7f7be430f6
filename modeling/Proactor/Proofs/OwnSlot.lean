import Mathlib.Data.List.Basic
import Proactor.Proofs.Turnover

/-!
# What putting a read in flight can touch

A slab with a vacant slot on record occupies that slot next, and nothing else about it changes,
whether the port takes the operation or not. So the engine's own read stays in the slot in which it
was, and all that may be changed besides is the registration of its event counter.
-/

namespace Proactor

namespace Slab

variable {α : Type} {i : UInt32} {s s' s'' : Slab α}

/-! ### Tokens that name nobody -/

/-- Why a token names nobody in a slab. -/
inductive Misses (s : Slab α) (t : Token) : Prop where
  /-- It is a bookkeeping name. -/
  | internal (hname : t.isInternal = true)
  /-- There is no slot with its index. -/
  | outOfRange (hname : t.isInternal = false) (hindex : s.slots.length ≤ t.index.toNat)
  /-- Its slot is in another generation. -/
  | otherGeneration {slot : Slot α} (hname : t.isInternal = false)
    (hslot : s.slots[t.index.toNat]? = some slot) (hgen : slot.generation ≠ t.generation)
  /-- Its slot is vacant. -/
  | vacant {slot : Slot α} (hname : t.isInternal = false)
    (hslot : s.slots[t.index.toNat]? = some slot) (hgen : slot.generation = t.generation)
    (hvacant : slot.occupant = none)

/-- There is no other reason. -/
theorem get?_eq_none_iff_misses (s : Slab α) (t : Token) : s.get? t = none ↔ s.Misses t := by
  constructor
  · intro h
    cases hname : t.isInternal with
    | true => exact .internal hname
    | false =>
      cases hslot : s.slots[t.index.toNat]? with
      | none => exact .outOfRange hname (List.getElem?_eq_none_iff.mp hslot)
      | some slot =>
        by_cases hgen : slot.generation = t.generation
        · refine .vacant hname hslot hgen ?_
          simpa [get?, hname, hslot, hgen] using h
        · exact .otherGeneration hname hslot hgen
  · intro h
    cases h with
    | internal hname => exact get?_of_isInternal s hname
    | outOfRange hname hindex => simp [get?, hname, List.getElem?_eq_none hindex]
    | otherGeneration hname hslot hgen => simp [get?, hname, hslot, hgen]
    | vacant hname hslot hgen hvacant => simp [get?, hname, hslot, hgen, hvacant]

/-! ### One slot -/

/-- From one slab to another one slot may have changed, and no other. The vacant ones among the
others are on record in the same order. -/
structure SameBut (i : UInt32) (s s' : Slab α) : Prop where
  slots : ∀ j : Nat, j ≠ i.toNat → s'.slots[j]? = s.slots[j]?
  free : s'.free.filter (· ≠ i) = s.free.filter (· ≠ i)
  length : s'.slots.length = s.slots.length

theorem SameBut.refl (i : UInt32) (s : Slab α) : SameBut i s s := ⟨fun _ _ => rfl, rfl, rfl⟩

theorem SameBut.trans (h : SameBut i s s') (h' : SameBut i s' s'') : SameBut i s s'' where
  slots j hj := (h'.slots j hj).trans (h.slots j hj)
  free := h'.free.trans h.free
  length := h'.length.trans h.length

/-- Taking out vacates the slot of the occupant, and records it. -/
theorem sameBut_take {t : Token} {a : α} (h : s.take t = some (a, s')) :
    SameBut t.index s s' ∧ s'.free = t.index :: s.free := by
  obtain ⟨_, _, rfl⟩ := take_cases h
  refine ⟨⟨fun j hj => ?_, ?_, ?_⟩, rfl⟩
  · exact List.getElem?_set_ne (Ne.symm hj)
  · simp
  · exact List.length_set

/-- Inserting occupies the slot vacated last. -/
theorem sameBut_insert {free : List UInt32} (h : s.free = i :: free) (a : α) :
    SameBut i s (s.insert a).1 ∧ (s.insert a).2.index = i := by
  simp only [insert, h]
  refine ⟨⟨fun j hj => ?_, ?_, ?_⟩, Token.index_ofSlot _ _⟩
  · exact List.getElem?_modify_ne _ _ (Ne.symm hj)
  · simp [h]
  · exact List.length_modify _ _ _

end Slab

namespace Engine

variable {P H : Type} {i : UInt32} {fd : Fd} {e e' e'' : Engine P H}

/-- From one engine to another one slot may have changed and the registration of one descriptor,
and no others. -/
structure TouchesOnly (i : UInt32) (fd : Fd) (e e' : Engine P H) : Prop where
  slab : e.slab.SameBut i e'.slab
  associated : ∀ other, other ≠ fd → (other ∈ e'.associated ↔ other ∈ e.associated)

theorem TouchesOnly.refl (i : UInt32) (fd : Fd) (e : Engine P H) : TouchesOnly i fd e e :=
  ⟨.refl i e.slab, fun _ _ => .rfl⟩

theorem TouchesOnly.trans (h : TouchesOnly i fd e e') (h' : TouchesOnly i fd e' e'') :
    TouchesOnly i fd e e'' where
  slab := h.slab.trans h'.slab
  associated other hne := (h'.associated other hne).trans (h.associated other hne)

/-- What a slab and the registrations do not show is not touched. -/
theorem TouchesOnly.of_eq (h : TouchesOnly i fd e e') (hslab : e''.slab = e'.slab)
    (hassociated : e''.associated = e'.associated) : TouchesOnly i fd e e'' where
  slab := hslab ▸ h.slab
  associated := hassociated ▸ h.associated

/-- Taking a context back vacates its slot. -/
theorem touchesOnly_withdraw (e : Engine P H) (t : Token) (fd : Fd) :
    TouchesOnly t.index fd e (e.withdraw t) := by
  unfold withdraw
  split
  · next context slab htake => exact ⟨(Slab.sameBut_take htake).1, fun _ _ => .rfl⟩
  · exact .refl _ _ e

variable [CompletionPort P H]

/-- Registering a descriptor touches no other one. -/
theorem touchesOnly_register (e : Engine P H) (i : UInt32) (fd : Fd) :
    TouchesOnly i fd e (e.register fd).1 := by
  unfold register associate
  split
  · split
    · exact .refl i fd e
    · dsimp only
      split
      · exact ⟨.refl i e.slab, fun other hne => by simp [hne]⟩
      · exact (TouchesOnly.refl i fd e).of_eq rfl rfl
  · exact .refl i fd e

/-- A flush touches neither slots nor registrations. -/
theorem TouchesOnly.flushIfEager (h : TouchesOnly i fd e e') (kind : Kind) :
    TouchesOnly i fd e (e'.flushIfEager kind) := by
  unfold Engine.flushIfEager flushBehind
  split
  · dsimp only
    split <;> exact h.of_eq rfl rfl
  · exact h

/-- Handing off a submission touches the slot vacated last and the registration of its
descriptor. -/
theorem touchesOnly_handOff {free : List UInt32} (hfree : e.slab.free = i :: free)
    (s : Submission) (cb : Callback) : TouchesOnly i s.fd e (e.handOff s cb).1 := by
  have hregister := e.touchesOnly_register i s.fd
  obtain ⟨p, host, j, a, hbeside⟩ := register_eq_beside e s.fd
  obtain ⟨hinsert, hindex⟩ := Slab.sameBut_insert hfree (contextOf s cb)
  rcases handOff_cases e s cb with ⟨e₁, f, hr⟩ | ⟨e₁, f, hr, hp⟩ | ⟨e₁, hr, hp⟩
  all_goals
    rw [hr] at hregister hbeside
    obtain rfl : e₁ = e.beside p host j a := hbeside
  · rw [handOff_of_register_error cb hr]
    exact hregister.of_eq rfl rfl
  · rw [handOff_of_push_error hr hp]
    have hpushed : TouchesOnly i s.fd e ((e.beside p host j a).pushed s cb) :=
      ⟨hinsert, hregister.associated⟩
    have hback := touchesOnly_withdraw ((e.beside p host j a).pushed s cb)
      (e.slab.insert (contextOf s cb)).2 s.fd
    rw [hindex] at hback
    exact (hpushed.trans hback).of_eq rfl rfl
  · rw [handOff_of_push_ok hr hp]
    have hpushed : TouchesOnly i s.fd e (((e.beside p host j a).pushed s cb).note
        (.submitted s.kind s.fd (e.slab.insert (contextOf s cb)).2)) :=
      ⟨hinsert, hregister.associated⟩
    exact hpushed.flushIfEager s.kind

/-- Putting the engine's own read in flight touches the slot vacated last and the registration of
its event counter. -/
theorem touchesOnly_armWake {free : List UInt32} (hfree : e.slab.free = i :: free) :
    TouchesOnly i e.world.injector.wake e e.armWake.1 := by
  unfold armWake
  split
  · exact .refl _ _ e
  · next m s hw =>
    obtain ⟨_, hfd, _, _⟩ := Submission.wake_eq_ok hw
    have h : TouchesOnly i s.fd e ((e.withMemory m).handOff s .silent).1 :=
      have hhanded := touchesOnly_handOff (e := e.withMemory m) hfree s .silent
      ⟨hhanded.slab, hhanded.associated⟩
    rw [hfd] at h
    split
    · next e₁ t hh =>
      have he : ((e.withMemory m).handOff s .silent).1 = e₁ := congrArg Prod.fst hh
      rw [he] at h
      exact h.of_eq rfl rfl
    · next e₁ f hh =>
      have he : ((e.withMemory m).handOff s .silent).1 = e₁ := congrArg Prod.fst hh
      rw [he] at h
      exact h

/-- What follows a completion of the engine's own read touches no more than that. -/
theorem touchesOnly_rearmWake {free : List UInt32} (hfree : e.slab.free = i :: free)
    (result : Int64) : TouchesOnly i e.world.injector.wake e (e.rearmWake result) := by
  have h := touchesOnly_armWake hfree
  unfold rearmWake
  split
  · exact .refl _ _ e
  split
  · exact (TouchesOnly.refl _ _ e).of_eq rfl rfl
  split
  · next e₁ ha =>
    rw [ha] at h
    exact h
  · next e₁ f ha =>
    rw [ha] at h
    exact h.of_eq rfl rfl

end Engine

end Proactor
