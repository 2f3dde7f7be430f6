import Proactor.Proofs.Slab

/-!
# A slot occupied anew

Slabs that differ in one slot only, which is occupied in both. Whoever is taken out of that slot
and put back is in the same slot again, the one vacated last, so that no other token is affected
and the tokens given out next are the same.
-/

namespace Proactor

/-- The token names this slot, in any generation. -/
def Token.Names (t : Token) (index : UInt32) : Prop := t.isInternal = false ∧ t.index = index

namespace Slab

variable {α : Type}

/-- The slabs are sound, and differ in one slot only, which is occupied in both. -/
structure Alike (index : UInt32) (s s' : Slab α) : Prop where
  sound : s.Sound
  sound' : s'.Sound
  free : s'.free = s.free
  live : s'.live = s.live
  length : s'.slots.length = s.slots.length
  slots : ∀ i, i ≠ index.toNat → s'.slots[i]? = s.slots[i]?
  occupied : ∃ slot, s.slots[index.toNat]? = some slot ∧ slot.occupant ≠ none
  occupied' : ∃ slot, s'.slots[index.toNat]? = some slot ∧ slot.occupant ≠ none

/-- Whoever a token names occupies the slot that it names. -/
theorem names_of_get? {s : Slab α} {t : Token} {a : α} (h : s.get? t = some a) :
    t.Names t.index ∧
      ∃ slot, s.slots[t.index.toNat]? = some slot ∧ slot.occupant ≠ none := by
  obtain ⟨hi, slot, hslot, _, hocc⟩ := (get?_eq_some_iff _ _ _).mp h
  exact ⟨⟨hi, rfl⟩, slot, hslot, by simp [hocc]⟩

namespace Alike

variable {index : UInt32} {s s' s'' : Slab α}

theorem symm (h : Alike index s s') : Alike index s' s where
  sound := h.sound'
  sound' := h.sound
  free := h.free.symm
  live := h.live.symm
  length := h.length.symm
  slots i hi := (h.slots i hi).symm
  occupied := h.occupied'
  occupied' := h.occupied

theorem trans (h : Alike index s s') (h' : Alike index s' s'') : Alike index s s'' where
  sound := h.sound
  sound' := h'.sound'
  free := h'.free.trans h.free
  live := h'.live.trans h.live
  length := h'.length.trans h.length
  slots i hi := (h'.slots i hi).trans (h.slots i hi)
  occupied := h.occupied
  occupied' := h'.occupied'

/-- The slots that are vacant are others. -/
theorem not_mem_free (h : Alike index s s') : index ∉ s.free := by
  intro hmem
  obtain ⟨slot, hslot, hvacant⟩ := h.sound.vacant index hmem
  obtain ⟨slot', hslot', hocc⟩ := h.occupied
  obtain rfl := Option.some.inj (hslot.symm.trans hslot')
  exact hocc hvacant

/-- A token that does not name the slot reaches the same. -/
theorem get?_eq (h : Alike index s s') {t : Token} (ht : ¬ t.Names index) :
    s'.get? t = s.get? t := by
  cases hi : t.isInternal with
  | true => rw [get?_of_isInternal s hi, get?_of_isInternal s' hi]
  | false =>
    have hne : t.index.toNat ≠ index.toNat := fun he => ht ⟨hi, UInt32.toNat_inj.mp he⟩
    simp only [get?, h.slots _ hne]

/-- The slabs stay alike when a slot that is not the one is set in both. -/
theorem set (h : Alike index s s') {r r' : Slab α} {i : Nat} (hi : i ≠ index.toNat)
    {slot : Slot α} (hr : r.slots = s.slots.set i slot) (hr' : r'.slots = s'.slots.set i slot)
    (hsound : r.Sound) (hsound' : r'.Sound) (hfree : r'.free = r.free)
    (hlive : r'.live = r.live) : Alike index r r' where
  sound := hsound
  sound' := hsound'
  free := hfree
  live := hlive
  length := by rw [hr, hr', List.length_set, List.length_set, h.length]
  slots j hj := by
    rw [hr, hr']
    by_cases hij : i = j
    · simp only [hij, List.getElem?_set_self', h.slots j hj]
    · rw [List.getElem?_set_ne hij, List.getElem?_set_ne hij, h.slots j hj]
  occupied := by
    obtain ⟨slot', hslot', hocc⟩ := h.occupied
    exact ⟨slot', by rw [hr, List.getElem?_set_ne hi]; exact hslot', hocc⟩
  occupied' := by
    obtain ⟨slot', hslot', hocc⟩ := h.occupied'
    exact ⟨slot', by rw [hr', List.getElem?_set_ne hi]; exact hslot', hocc⟩

/-- The slabs stay alike when both get another slot. -/
theorem append (h : Alike index s s') {r r' : Slab α} {slot : Slot α}
    (hr : r.slots = s.slots ++ [slot]) (hr' : r'.slots = s'.slots ++ [slot]) (hsound : r.Sound)
    (hsound' : r'.Sound) (hfree : r'.free = r.free) (hlive : r'.live = r.live) :
    Alike index r r' where
  sound := hsound
  sound' := hsound'
  free := hfree
  live := hlive
  length := by rw [hr, hr', List.length_append, List.length_append, h.length]
  slots i hi := by
    rw [hr, hr']
    rcases Nat.lt_or_ge i s.slots.length with hlt | hge
    · rw [List.getElem?_append_left hlt, List.getElem?_append_left (h.length ▸ hlt), h.slots i hi]
    · rw [List.getElem?_append_right hge, List.getElem?_append_right (h.length ▸ hge), h.length]
  occupied := by
    obtain ⟨slot', hslot', hocc⟩ := h.occupied
    obtain ⟨hlt, _⟩ := List.getElem?_eq_some_iff.mp hslot'
    exact ⟨slot', by rw [hr, List.getElem?_append_left hlt]; exact hslot', hocc⟩
  occupied' := by
    obtain ⟨slot', hslot', hocc⟩ := h.occupied'
    obtain ⟨hlt, _⟩ := List.getElem?_eq_some_iff.mp hslot'
    exact ⟨slot', by rw [hr', List.getElem?_append_left hlt]; exact hslot', hocc⟩

/-- Whoever does not occupy the slot is taken out of both. -/
theorem take (h : Alike index s s') {t : Token} (ht : ¬ t.Names index) {a : α} {r : Slab α}
    (htake : s.take t = some (a, r)) : ∃ r', s'.take t = some (a, r') ∧ Alike index r r' := by
  obtain ⟨hi, _, hr⟩ := take_cases htake
  have hget : s'.get? t = some a := (h.get?_eq ht).trans (get?_of_take htake)
  obtain ⟨r', htake'⟩ := exists_take hget
  obtain ⟨_, _, hr'⟩ := take_cases htake'
  have hne : t.index.toNat ≠ index.toNat := fun he => ht ⟨hi, UInt32.toNat_inj.mp he⟩
  refine ⟨r', htake', h.set hne (congrArg Slab.slots hr) (congrArg Slab.slots hr')
    (h.sound.take htake) (h.sound'.take htake') ?_ ?_⟩
  · rw [hr, hr', h.free]
  · rw [hr, hr', h.live]

/-- There is room in the second slab if there is in the first. -/
theorem length_insert (h : Alike index s s') (a : α) :
    (s'.insert a).1.slots.length = (s.insert a).1.slots.length := by
  unfold Slab.insert
  rw [h.free]
  cases s.free with
  | nil => simp only [List.length_append, h.length, List.length_singleton]
  | cons i free => simp only [List.length_modify, h.length]

/-- Whoever is put into both gets the same slot and the same token, and not the one slot. -/
theorem insert (h : Alike index s s') (a : α)
    (hroom : (s.insert a).1.slots.length ≤ 2 ^ 32) :
    (s'.insert a).2 = (s.insert a).2 ∧ ¬ (s.insert a).2.Names index ∧
      Alike index (s.insert a).1 (s'.insert a).1 := by
  have hsound := h.sound.insert a hroom
  have hsound' := h.sound'.insert a ((h.length_insert a).symm ▸ hroom)
  have hlive : (s'.insert a).1.live = (s.insert a).1.live := by
    rw [live_insert, live_insert, h.live]
  rcases h.sound.insert_cases a with ⟨i, free, slot, hfree, hslot, _, he⟩ | ⟨hfree, he⟩
  · -- The slot vacated last is the same, and it is not the one that is occupied.
    have hne : i ≠ index := by
      rintro rfl
      exact h.not_mem_free (by rw [hfree]; exact List.mem_cons_self)
    have hne' : i.toNat ≠ index.toNat := fun hn => hne (UInt32.toNat_inj.mp hn)
    rcases h.sound'.insert_cases a with ⟨i', free', slot', hfree', hslot', _, he'⟩ | ⟨hfree', _⟩
    · rw [h.free, hfree] at hfree'
      obtain ⟨rfl, rfl⟩ := List.cons.inj hfree'
      rw [h.slots _ hne', hslot] at hslot'
      obtain rfl := Option.some.inj hslot'
      refine ⟨by rw [he, he'], fun hnames => hne ?_,
        h.set hne' (by rw [he]) (by rw [he']) hsound hsound' (by rw [he, he']) hlive⟩
      rw [he] at hnames
      exact (Token.index_ofSlot _ _).symm.trans hnames.2
    · rw [h.free, hfree] at hfree'
      cases hfree'
  · -- The new slot has the same number, which is beyond that of the one that is occupied.
    rcases h.sound'.insert_cases a with ⟨i', free', slot', hfree', _⟩ | ⟨_, he'⟩
    · rw [h.free, hfree] at hfree'
      cases hfree'
    · refine ⟨by rw [he, he', h.length], fun hnames => ?_,
        h.append (by rw [he]) (by rw [he']) hsound hsound' (by rw [he, he']; exact h.free) hlive⟩
      rw [he] at hnames
      rw [he, List.length_append] at hroom
      have hlength : s.slots.length < 2 ^ 32 := hroom
      obtain ⟨slot, hslot, _⟩ := h.occupied
      obtain ⟨hlt, _⟩ := List.getElem?_eq_some_iff.mp hslot
      have hto : (UInt32.ofNat s.slots.length).toNat = s.slots.length := by
        rw [UInt32.toNat_ofNat', Nat.mod_eq_of_lt hlength]
      rw [← (Token.index_ofSlot _ _).symm.trans hnames.2, hto] at hlt
      exact Nat.lt_irrefl _ hlt

end Alike

/-- Whoever is put into a slab right after somebody was taken out gets the same slot, and nothing
else is changed. -/
theorem Sound.alike_take_insert {s r : Slab α} (hs : s.Sound) {t : Token} {a : α}
    (htake : s.take t = some (a, r)) (b : α) :
    (r.insert b).2.Names t.index ∧ (r.insert b).1.get? (r.insert b).2 = some b ∧
      Alike t.index s (r.insert b).1 := by
  have hget := get?_of_take htake
  obtain ⟨hi, ⟨slot, hslot, _, hocc⟩, hr⟩ := take_cases htake
  obtain ⟨hlt, _⟩ := List.getElem?_eq_some_iff.mp hslot
  have hsound := hs.take htake
  have hlength : (r.insert b).1.slots.length = s.slots.length := by
    rw [(r.grows_insert b).length_eq (free_take htake), length_slots_take htake]
  have hroom : (r.insert b).1.slots.length ≤ 2 ^ 32 := hlength ▸ hs.length_le
  have hlive : (r.insert b).1.live = s.live := by
    rw [live_insert, hs.live_take htake]
  refine ⟨?_, ?_, hs, hsound.insert b hroom, ?_, hlive, hlength, ?_,
    ⟨slot, hslot, by simp [hocc]⟩, ?_⟩
  · rw [hr]
    exact ⟨Token.isInternal_ofSlot _ _, Token.index_ofSlot _ _⟩
  · rw [hsound.get?_insert b hroom, if_pos rfl]
  · rw [hr]
    rfl
  · intro i hne
    rw [hr]
    simp [Slab.insert, Ne.symm hne]
  · rw [hr]
    simp [Slab.insert, hlt]

end Slab

end Proactor
