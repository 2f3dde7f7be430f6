import Mathlib.Algebra.Group.Nat.Defs
import Mathlib.Data.List.Basic
import Mathlib.Data.List.Nodup
import Proactor.Slab

/-!
# What a slab keeps

A sound slab holds each of its occupants under one token. Inserting adds one occupant under a
token that named none, and taking one out leaves all others where they are. Both need no more
slots than a token has indices for: in a larger slab two occupants would have the same token.
-/

namespace Proactor.Slab

variable {α : Type}

/-- The numbers of vacant slots are kept once each, no generation is beyond what a token
carries, the count is that of the occupants, and every slot has an index. -/
structure Sound (s : Slab α) : Prop where
  nodup_free : s.free.Nodup
  vacant : ∀ i ∈ s.free, ∃ slot, s.slots[i.toNat]? = some slot ∧ slot.occupant = none
  generation_lt : ∀ slot ∈ s.slots, slot.generation.toNat < 2 ^ 31
  live_eq : s.live = s.occupants.length
  length_le : s.slots.length ≤ 2 ^ 32

/-- A slab without slots is sound. -/
theorem sound_empty : Sound ({} : Slab α) where
  nodup_free := List.nodup_nil
  vacant := by simp
  generation_lt := by simp
  live_eq := rfl
  length_le := by simp

theorem toNat_nextGeneration_lt (g : UInt32) : (nextGeneration g).toNat < 2 ^ 31 := by
  have h : (g.toNat + 1) % 2 ^ 31 < 2 ^ 31 := Nat.mod_lt _ (by decide)
  simp only [nextGeneration, UInt32.toNat_ofNat']
  omega

/-- A token reaches the occupant of the slot it names, in the generation it names. -/
theorem get?_eq_some_iff (s : Slab α) (t : Token) (a : α) :
    s.get? t = some a ↔ t.isInternal = false ∧
      ∃ slot, s.slots[t.index.toNat]? = some slot ∧ slot.generation = t.generation ∧
        slot.occupant = some a := by
  unfold get?
  cases ht : t.isInternal with
  | true => simp
  | false =>
    cases hs : s.slots[t.index.toNat]? with
    | none => simp
    | some slot => simp

/-! ### Slots that are set or added -/

/-- Only the tokens of one slot are affected when that slot is set. -/
theorem get?_of_set {s r : Slab α} {i : UInt32} {slot : Slot α}
    (h : r.slots = s.slots.set i.toNat slot) (hi : i.toNat < s.slots.length) (u : Token) :
    r.get? u = if u.isInternal = false ∧ u.index = i then
      (if slot.generation = u.generation then slot.occupant else none) else s.get? u := by
  unfold get?
  cases hu : u.isInternal with
  | true => simp
  | false =>
    by_cases hx : u.index = i
    · subst hx
      simp [h, hi]
    · have hn : i.toNat ≠ u.index.toNat := fun he => hx (UInt32.toNat_inj.mp he.symm)
      simp [h, hx, List.getElem?_set_ne hn]

/-- Only the tokens of one slot are affected when that slot is added. -/
theorem get?_of_append {s r : Slab α} {slot : Slot α}
    (h : r.slots = s.slots ++ [slot]) (hs : s.slots.length < 2 ^ 32) (u : Token) :
    r.get? u = if u.isInternal = false ∧ u.index = UInt32.ofNat s.slots.length then
      (if slot.generation = u.generation then slot.occupant else none) else s.get? u := by
  have hn : (UInt32.ofNat s.slots.length).toNat = s.slots.length := by
    simp only [UInt32.toNat_ofNat']
    omega
  unfold get?
  cases hu : u.isInternal with
  | true => simp
  | false =>
    by_cases hx : u.index = UInt32.ofNat s.slots.length
    · simp [h, hx, hn]
    · have hne : u.index.toNat ≠ s.slots.length := by
        intro he
        exact hx (UInt32.toNat_inj.mp (he.trans hn.symm))
      simp only [h, hx, and_false, ite_false]
      rcases Nat.lt_or_gt_of_ne hne with hlt | hgt
      · rw [List.getElem?_append_left hlt]
      · rw [List.getElem?_eq_none (by simp; omega), List.getElem?_eq_none (by omega)]

/-- The occupants when one slot is set: what it held is replaced by what it holds. -/
theorem occupants_of_set {s r : Slab α} {i : Nat} {old slot : Slot α}
    (h : r.slots = s.slots.set i slot) (hi : s.slots[i]? = some old) :
    (old.occupant.toList ++ r.occupants).Perm (slot.occupant.toList ++ s.occupants) := by
  obtain ⟨hlt, hget⟩ := List.getElem?_eq_some_iff.mp hi
  have hs : s.slots = s.slots.take i ++ old :: s.slots.drop (i + 1) := by
    rw [← hget, List.getElem_cons_drop, List.take_append_drop]
  have hr : r.slots = s.slots.take i ++ slot :: s.slots.drop (i + 1) := by
    rw [h, List.set_eq_take_append_cons_drop, if_pos hlt]
  have hocc : ∀ x : Slot α, (s.slots.take i ++ x :: s.slots.drop (i + 1)).filterMap Slot.occupant =
      (s.slots.take i).filterMap Slot.occupant ++
        (x.occupant.toList ++ (s.slots.drop (i + 1)).filterMap Slot.occupant) := by
    intro x
    cases hx : x.occupant <;> simp [hx]
  have ho' : r.occupants = _ := (congrArg (List.filterMap Slot.occupant) hr).trans (hocc slot)
  have ho : s.occupants = _ := (congrArg (List.filterMap Slot.occupant) hs).trans (hocc old)
  rw [ho, ho']
  -- Both sides are the same three parts and the two slots' occupants, in another order.
  have hswap : ∀ p x y z : List α, (x ++ (p ++ (y ++ z))).Perm (y ++ (p ++ (x ++ z))) := by
    intro p x y z
    calc (x ++ (p ++ (y ++ z))).Perm (p ++ (x ++ (y ++ z))) := by
          simpa using (@List.perm_append_comm _ x p).append_right (y ++ z)
      List.Perm _ (p ++ (y ++ (x ++ z))) := by
          simpa using ((@List.perm_append_comm _ x y).append_right z).append_left p
      List.Perm _ (y ++ (p ++ (x ++ z))) := by
          simpa using (@List.perm_append_comm _ p y).append_right (x ++ z)
  exact hswap _ _ _ _

/-- The occupants when one slot is added. -/
theorem occupants_of_append {s r : Slab α} {slot : Slot α} (h : r.slots = s.slots ++ [slot]) :
    r.occupants = s.occupants ++ slot.occupant.toList := by
  cases ho : slot.occupant <;> simp [occupants, h, ho]

/-! ### Inserting -/

/-- Inserting sets a vacant slot if there is one on record, and adds a slot otherwise. -/
theorem Sound.insert_cases {s : Slab α} (hs : s.Sound) (a : α) :
    (∃ i free slot, s.free = i :: free ∧ s.slots[i.toNat]? = some slot ∧ slot.occupant = none ∧
      s.insert a =
        ({ slots := s.slots.set i.toNat { slot with occupant := some a }, free,
           live := s.live + 1 }, Token.ofSlot i slot.generation)) ∨
    (s.free = [] ∧ s.insert a =
      ({ s with slots := s.slots ++ [{ occupant := some a }], live := s.live + 1 },
        Token.ofSlot (UInt32.ofNat s.slots.length) 0)) := by
  cases hf : s.free with
  | nil => exact .inr ⟨rfl, by simp [insert, hf]⟩
  | cons i free =>
    obtain ⟨slot, hslot, hvacant⟩ := hs.vacant i (by simp [hf])
    obtain ⟨hlt, hget⟩ := List.getElem?_eq_some_iff.mp hslot
    refine .inl ⟨i, free, slot, rfl, hslot, hvacant, ?_⟩
    simp [insert, hf, generationAt, List.modify_eq_set_getElem?, hslot]

/-- From one slab to the other no slot is given up, and one is added at most, and only if none is
vacant. -/
structure Grows (s s' : Slab α) : Prop where
  le : s.slots.length ≤ s'.slots.length
  le_add : s'.slots.length ≤ s.slots.length + if s.free = [] then 1 else 0

theorem Grows.refl (s : Slab α) : s.Grows s := ⟨Nat.le_refl _, Nat.le_add_right _ _⟩

/-- A slab grows as one does that has as many slots. -/
theorem Grows.of_length_eq {s s₁ s' : Slab α} (h : s.Grows s₁)
    (hlen : s'.slots.length = s₁.slots.length) : s.Grows s' :=
  ⟨hlen ▸ h.le, hlen ▸ h.le_add⟩

/-- Where a slot is vacant none is added. -/
theorem Grows.length_eq {s s' : Slab α} (h : s.Grows s') (hfree : s.free ≠ []) :
    s'.slots.length = s.slots.length := by
  have hadd := h.le_add
  rw [if_neg hfree] at hadd
  exact Nat.le_antisymm hadd h.le

/-- Inserting adds a slot only if none is vacant. -/
theorem grows_insert (s : Slab α) (a : α) : s.Grows (s.insert a).1 := by
  unfold insert
  split
  · next index free hfree => constructor <;> simp
  · next hfree => constructor <;> simp [hfree]

/-- Inserting counts one occupant more. -/
theorem live_insert (s : Slab α) (a : α) : (s.insert a).1.live = s.live + 1 := by
  unfold insert
  split <;> rfl

section insert

variable {s : Slab α} (hs : s.Sound) (a : α) (hroom : (s.insert a).1.slots.length ≤ 2 ^ 32)
include hs

/-- Inserting adds one occupant to those there are. -/
theorem Sound.occupants_insert : (s.insert a).1.occupants.Perm (a :: s.occupants) := by
  rcases hs.insert_cases a with ⟨i, free, slot, _, hslot, hvacant, he⟩ | ⟨_, he⟩
  · have h := occupants_of_set (r := (s.insert a).1) (by rw [he]) hslot
    simpa [hvacant] using h
  · have h := occupants_of_append (s := s) (r := (s.insert a).1) (by rw [he])
    rw [h]
    exact List.perm_append_singleton a s.occupants

include hroom

/-- The token of a new occupant named none before. -/
theorem Sound.get?_token_insert : s.get? (s.insert a).2 = none := by
  rcases hs.insert_cases a with ⟨i, free, slot, _, hslot, hvacant, he⟩ | ⟨_, he⟩
  · rw [he, Option.eq_none_iff_forall_ne_some]
    intro b hb
    obtain ⟨_, slot', hslot', _, hb'⟩ := (get?_eq_some_iff _ _ _).mp hb
    rw [Token.index_ofSlot, hslot] at hslot'
    cases hslot'
    simp [hvacant] at hb'
  · rw [he] at hroom ⊢
    have hn : (UInt32.ofNat s.slots.length).toNat = s.slots.length := by
      simp only [List.length_append, List.length_singleton] at hroom
      simp only [UInt32.toNat_ofNat']
      omega
    simp [get?, hn]

/-- The new occupant is reached by its token, and every other token reaches what it did. -/
theorem Sound.get?_insert (u : Token) :
    (s.insert a).1.get? u = if u = (s.insert a).2 then some a else s.get? u := by
  rcases hs.insert_cases a with ⟨i, free, slot, _, hslot, hvacant, he⟩ | ⟨_, he⟩
  · obtain ⟨hlt, hget⟩ := List.getElem?_eq_some_iff.mp hslot
    have hg : slot.generation.toNat < 2 ^ 31 :=
      hs.generation_lt slot (hget ▸ List.getElem_mem hlt)
    have hset := get?_of_set (s := s) (r := (s.insert a).1) (by rw [he]) hlt u
    simp only [he, Token.eq_ofSlot_iff hg] at hset ⊢
    rw [hset]
    by_cases hx : u.isInternal = false ∧ u.index = i
    · obtain ⟨hi, rfl⟩ := hx
      by_cases hgen : slot.generation = u.generation
      · simp [hi, hgen]
      · have hget? : s.get? u = none := by
          simp [get?, hi, hslot, hgen]
        simp [hi, hgen, Ne.symm hgen, hget?]
    · rw [if_neg hx, if_neg fun h => hx ⟨h.1, h.2.1⟩]
  · have hlen : s.slots.length < 2 ^ 32 := by
      simp only [he, List.length_append, List.length_singleton] at hroom
      omega
    have happ := get?_of_append (s := s) (r := (s.insert a).1) (by rw [he]) hlen u
    simp only [he, Token.eq_ofSlot_iff (show (0 : UInt32).toNat < 2 ^ 31 by decide)] at happ ⊢
    rw [happ]
    by_cases hx : u.isInternal = false ∧ u.index = UInt32.ofNat s.slots.length
    · have hn : (UInt32.ofNat s.slots.length).toNat = s.slots.length := by
        simp only [UInt32.toNat_ofNat']
        omega
      have hget? : s.get? u = none := by simp [get?, hx.2, hn]
      by_cases hgen : u.generation = 0
      · simp [hx, hgen]
      · simp [hx, hgen, Ne.symm hgen, hget?]
    · rw [if_neg hx, if_neg fun h => hx ⟨h.1, h.2.1⟩]

/-- A slab stays sound when something is inserted. -/
theorem Sound.insert : (s.insert a).1.Sound := by
  have hocc := hs.occupants_insert a
  have hlive : (s.insert a).1.live = (s.insert a).1.occupants.length := by
    rw [live_insert, hocc.length_eq, List.length_cons, hs.live_eq]
  rcases hs.insert_cases a with ⟨i, free, slot, hfree, hslot, hvacant, he⟩ | ⟨hfree, he⟩
  · obtain ⟨hlt, hget⟩ := List.getElem?_eq_some_iff.mp hslot
    have hnd := List.nodup_cons.mp (hfree ▸ hs.nodup_free)
    refine ⟨?_, ?_, ?_, hlive, hroom⟩
    · rw [he]
      exact hnd.2
    · intro j hj
      rw [he] at hj ⊢
      obtain ⟨slot', hslot', hv⟩ := hs.vacant j (by rw [hfree]; exact List.mem_cons_of_mem i hj)
      have hne : i.toNat ≠ j.toNat := by
        intro h
        rw [UInt32.toNat_inj.mp h] at hnd
        exact hnd.1 hj
      exact ⟨slot', by rw [List.getElem?_set_ne hne]; exact hslot', hv⟩
    · intro x hx
      rw [he] at hx
      rcases List.mem_or_eq_of_mem_set hx with hx | rfl
      · exact hs.generation_lt x hx
      · exact hs.generation_lt slot (hget ▸ List.getElem_mem hlt)
  · refine ⟨?_, ?_, ?_, hlive, hroom⟩
    · rw [he]
      exact hs.nodup_free
    · intro j hj
      rw [he] at hj
      simp [hfree] at hj
    · intro x hx
      rw [he, List.mem_append, List.mem_singleton] at hx
      rcases hx with hx | rfl
      · exact hs.generation_lt x hx
      · exact Nat.two_pow_pos 31

end insert

/-! ### Taking out -/

/-- Taking out vacates the slot of the occupant, which moves to its next generation. -/
theorem take_cases {s s' : Slab α} {t : Token} {a : α} (h : s.take t = some (a, s')) :
    t.isInternal = false ∧
      (∃ slot, s.slots[t.index.toNat]? = some slot ∧ slot.generation = t.generation ∧
        slot.occupant = some a) ∧
      s' = { slots := s.slots.set t.index.toNat ⟨nextGeneration t.generation, none⟩
             free := t.index :: s.free
             live := s.live - 1 } := by
  obtain ⟨b, hb, he⟩ := Option.map_eq_some_iff.mp h
  obtain ⟨rfl, rfl⟩ := Prod.mk.inj he
  obtain ⟨hi, hslot⟩ := (get?_eq_some_iff s t b).mp hb
  exact ⟨hi, hslot, rfl⟩

/-- Whoever is taken out is who the token named. -/
theorem get?_of_take {s s' : Slab α} {t : Token} {a : α} (h : s.take t = some (a, s')) :
    s.get? t = some a := by
  obtain ⟨b, hb, he⟩ := Option.map_eq_some_iff.mp h
  rw [hb, (Prod.mk.inj he).1]

/-- Whoever a token names can be taken out. -/
theorem exists_take {s : Slab α} {t : Token} {a : α} (h : s.get? t = some a) :
    ∃ s', s.take t = some (a, s') := by
  simp [take, h]

/-- Taking out neither adds a slot nor gives one up. -/
theorem length_slots_take {s s' : Slab α} {t : Token} {a : α} (h : s.take t = some (a, s')) :
    s'.slots.length = s.slots.length := by
  obtain ⟨_, _, rfl⟩ := take_cases h
  simp

/-- The slot that was vacated is the next to be occupied. -/
theorem free_take {s s' : Slab α} {t : Token} {a : α} (h : s.take t = some (a, s')) :
    s'.free ≠ [] := by
  obtain ⟨_, _, rfl⟩ := take_cases h
  exact List.cons_ne_nil _ _

/-- The token of whoever was taken out names nobody, and every other token reaches what it
did. -/
theorem get?_take {s s' : Slab α} {t : Token} {a : α} (h : s.take t = some (a, s'))
    (u : Token) : s'.get? u = if u = t then none else s.get? u := by
  obtain ⟨hi, ⟨slot, hslot, hgen, hocc⟩, he⟩ := take_cases h
  obtain ⟨hlt, _⟩ := List.getElem?_eq_some_iff.mp hslot
  have hset := get?_of_set (s := s) (r := s') (by rw [he]) hlt u
  rw [hset]
  by_cases hx : u.isInternal = false ∧ u.index = t.index
  · by_cases hu : u = t
    · simp [hu, hi]
    · -- Of the tokens of one slot only that of its generation reaches anything.
      have hne : slot.generation ≠ u.generation := by
        intro hg
        apply hu
        rw [← Token.ofSlot_index_generation hx.1, ← Token.ofSlot_index_generation hi, hx.2,
          ← hgen, hg]
      have hget? : s.get? u = none := by simp [get?, hx.1, hx.2, hslot, hne]
      simp [hx, hu, hget?]
  · have hu : u ≠ t := by
      rintro rfl
      exact hx ⟨hi, rfl⟩
    rw [if_neg hx, if_neg hu]

/-- Taking out removes one occupant from those there are. -/
theorem occupants_take {s s' : Slab α} {t : Token} {a : α} (h : s.take t = some (a, s')) :
    s.occupants.Perm (a :: s'.occupants) := by
  obtain ⟨_, ⟨slot, hslot, _, hocc⟩, he⟩ := take_cases h
  have hp := occupants_of_set (s := s) (r := s') (by rw [he]) hslot
  simpa [hocc] using hp.symm

/-- A slab stays sound when somebody is taken out. -/
theorem Sound.take {s s' : Slab α} {t : Token} {a : α} (hs : s.Sound)
    (h : s.take t = some (a, s')) : s'.Sound := by
  have hocc := (occupants_take h).length_eq
  obtain ⟨_, ⟨slot, hslot, _, hslotocc⟩, rfl⟩ := take_cases h
  obtain ⟨hlt, _⟩ := List.getElem?_eq_some_iff.mp hslot
  refine ⟨?_, ?_, ?_, ?_, by simpa using hs.length_le⟩
  · refine List.nodup_cons.mpr ⟨?_, hs.nodup_free⟩
    intro hmem
    obtain ⟨slot', hslot', hv⟩ := hs.vacant t.index hmem
    rw [hslot] at hslot'
    cases hslot'
    simp [hslotocc] at hv
  · intro j hj
    by_cases hjt : j = t.index
    · subst hjt
      exact ⟨⟨nextGeneration t.generation, none⟩, by simp [hlt], rfl⟩
    · obtain ⟨slot', hslot', hv⟩ := hs.vacant j (List.mem_of_ne_of_mem hjt hj)
      have hne : t.index.toNat ≠ j.toNat := fun he => hjt (UInt32.toNat_inj.mp he.symm)
      exact ⟨slot', by rw [List.getElem?_set_ne hne]; exact hslot', hv⟩
  · intro x hx
    rcases List.mem_or_eq_of_mem_set hx with hx | rfl
    · exact hs.generation_lt x hx
    · exact toNat_nextGeneration_lt t.generation
  · rw [List.length_cons, ← hs.live_eq] at hocc
    exact Nat.sub_eq_of_eq_add hocc

/-- Taking out counts one occupant less. -/
theorem Sound.live_take {s s' : Slab α} {t : Token} {a : α} (hs : s.Sound)
    (h : s.take t = some (a, s')) : s.live = s'.live + 1 := by
  rw [hs.live_eq, (hs.take h).live_eq, (occupants_take h).length_eq, List.length_cons]

/-- The second slab is sound and keeps the same occupants under the same tokens. -/
structure Keeps (s s' : Slab α) : Prop where
  sound : s'.Sound
  occupants : s'.occupants.Perm s.occupants
  live : s'.live = s.live
  get? : ∀ u, s'.get? u = s.get? u
  length_le : s.slots.length ≤ s'.slots.length

theorem Sound.keeps_self {s : Slab α} (hs : s.Sound) : s.Keeps s :=
  ⟨hs, .refl _, rfl, fun _ => rfl, Nat.le_refl _⟩

/-- What was just inserted can be taken out again, and that leaves the occupants there were. -/
theorem Sound.take_insert {s : Slab α} (hs : s.Sound) (a : α)
    (hroom : (s.insert a).1.slots.length ≤ 2 ^ 32) :
    ∃ s', (s.insert a).1.take (s.insert a).2 = some (a, s') ∧ s.Keeps s' := by
  have hget : (s.insert a).1.get? (s.insert a).2 = some a := by
    simp [hs.get?_insert a hroom]
  obtain ⟨s', h⟩ := exists_take hget
  have hsound := hs.insert a hroom
  have hlive := hsound.live_take h
  have hocc := (occupants_take h).symm.trans (hs.occupants_insert a)
  refine ⟨s', h, hsound.take h, hocc.cons_inv, ?_, ?_, ?_⟩
  · rw [live_insert] at hlive
    omega
  · intro u
    rw [get?_take h, hs.get?_insert a hroom]
    by_cases hu : u = (s.insert a).2
    · simp [hu, hs.get?_token_insert a hroom]
    · simp [hu]
  · rw [length_slots_take h]
    exact (s.grows_insert a).le

/-! ### Giving up everything -/

/-- A slab that was given up holds nobody. -/
@[simp] theorem occupants_abandon (s : Slab α) : s.abandon.occupants = [] := by
  simp [abandon, occupants, List.filterMap_map]

/-- No token reaches anybody in a slab that was given up. -/
@[simp] theorem get?_abandon (s : Slab α) (t : Token) : s.abandon.get? t = none := by
  rw [Option.eq_none_iff_forall_ne_some]
  intro a h
  obtain ⟨_, slot, hslot, _, hocc⟩ := (get?_eq_some_iff _ _ _).mp h
  obtain ⟨x, _, rfl⟩ := by simpa [abandon] using hslot
  simp at hocc

/-- A slab stays sound when it is given up. -/
theorem Sound.abandon {s : Slab α} (hs : s.Sound) : s.abandon.Sound where
  nodup_free := hs.nodup_free
  vacant := by
    intro i hi
    obtain ⟨slot, hslot, _⟩ := hs.vacant i hi
    exact ⟨{ slot with occupant := none }, by simp [Slab.abandon, hslot], rfl⟩
  generation_lt := by
    intro slot hslot
    obtain ⟨x, hx, rfl⟩ := List.mem_map.mp hslot
    exact hs.generation_lt x hx
  live_eq := by simp [Slab.abandon, occupants, List.filterMap_map]
  length_le := by simpa [Slab.abandon] using hs.length_le

/-! ### The tokens in use -/

/-- The tokens of all occupants, by the number of their slots. -/
def tokens (s : Slab α) : List Token :=
  s.slots.zipIdx.filterMap fun x => x.1.occupant.map fun _ =>
    Token.ofSlot (UInt32.ofNat x.2) x.1.generation

section tokens

variable {s : Slab α} (hs : s.Sound)
include hs

private theorem Sound.toNat_ofNat {i : Nat} (hi : i < s.slots.length) :
    (UInt32.ofNat i).toNat = i := by
  have hlen := hs.length_le
  simp only [UInt32.toNat_ofNat']
  omega

/-- The tokens of a slab are those that name an occupant. -/
theorem Sound.mem_tokens (t : Token) : t ∈ s.tokens ↔ ∃ a, s.get? t = some a := by
  unfold tokens
  rw [List.mem_filterMap]
  constructor
  · rintro ⟨⟨slot, i⟩, hmem, htoken⟩
    obtain ⟨a, hocc, rfl⟩ := Option.map_eq_some_iff.mp htoken
    have hslot := List.mem_zipIdx_iff_getElem?.mp hmem
    obtain ⟨hi, _⟩ := List.getElem?_eq_some_iff.mp hslot
    have hgen := hs.generation_lt slot (List.mem_of_getElem? hslot)
    refine ⟨a, (get?_eq_some_iff _ _ _).mpr ⟨Token.isInternal_ofSlot _ _, slot, ?_, ?_, hocc⟩⟩
    · rw [Token.index_ofSlot, hs.toNat_ofNat hi]
      exact hslot
    · apply UInt32.toNat_inj.mp
      rw [Token.toNat_generation_ofSlot]
      exact (Nat.mod_eq_of_lt hgen).symm
  · rintro ⟨a, hget⟩
    obtain ⟨hint, slot, hslot, hgen, hocc⟩ := (get?_eq_some_iff _ _ _).mp hget
    refine ⟨(slot, t.index.toNat), List.mem_zipIdx_iff_getElem?.mpr hslot, ?_⟩
    simp only [hocc, Option.map_some, UInt32.ofNat_toNat, hgen]
    exact congrArg some (Token.ofSlot_index_generation hint)

/-- No token is listed twice. -/
theorem Sound.nodup_tokens : s.tokens.Nodup := by
  have hnodup : s.slots.zipIdx.Nodup := by
    apply List.Nodup.of_map Prod.snd
    rw [List.zipIdx_map_snd]
    exact List.nodup_range'
  refine List.pairwise_filterMap.mpr (hnodup.imp_of_mem ?_)
  rintro x y hx hy hne t ht t' ht' rfl
  obtain ⟨_, _, rfl⟩ := Option.map_eq_some_iff.mp ht
  obtain ⟨_, _, htoken⟩ := Option.map_eq_some_iff.mp ht'
  have hslot := List.mem_zipIdx_iff_getElem?.mp hx
  have hslot' := List.mem_zipIdx_iff_getElem?.mp hy
  obtain ⟨hi, _⟩ := List.getElem?_eq_some_iff.mp hslot
  obtain ⟨hi', _⟩ := List.getElem?_eq_some_iff.mp hslot'
  have hindex := congrArg Token.index htoken
  rw [Token.index_ofSlot, Token.index_ofSlot] at hindex
  have heq : x.2 = y.2 := by rw [← hs.toNat_ofNat hi, ← hs.toNat_ofNat hi', hindex]
  rw [heq, hslot'] at hslot
  exact hne (Prod.ext (Option.some.inj hslot).symm heq)

/-- There are as many tokens as occupants. -/
theorem Sound.length_tokens : s.tokens.length = s.live := by
  have hslots : s.slots = s.slots.zipIdx.map Prod.fst := (List.zipIdx_map_fst 0 s.slots).symm
  have hocc : s.occupants = s.slots.zipIdx.filterMap fun x => x.1.occupant := by
    unfold occupants
    conv_lhs => rw [hslots]
    exact List.filterMap_map
  rw [hs.live_eq, hocc, tokens, List.length_filterMap_eq_countP, List.length_filterMap_eq_countP]
  simp

/-- There is an occupant if a token names one. -/
theorem Sound.live_pos {t : Token} {a : α} (h : s.get? t = some a) : 0 < s.live := by
  rw [← hs.length_tokens]
  exact List.length_pos_of_mem ((hs.mem_tokens t).mpr ⟨a, h⟩)

end tokens

end Proactor.Slab
