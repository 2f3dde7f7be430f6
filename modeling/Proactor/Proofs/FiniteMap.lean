import Mathlib.Data.Finmap
import Proactor.Proofs.Slab

/-!
# Slabs as finite maps

Seen through its tokens a slab is a finite map, in which inserting chooses a token that is not in
use. Calls on the two are related by what they return, so that the map can be told from the
answers alone. The slots follow the map: every vacant one is on record, every occupied one is
reached by the token of its generation, and there are as many as there ever were occupants at
once.
-/

namespace Proactor

/-- A finite map from tokens. -/
abbrev TokenMap (α : Type) := Finmap fun _ : Token => α

namespace Slab

variable {α : Type}

/-- A call on a slab. -/
inductive Op (α : Type) where
  | insert (a : α)
  | take (t : Token)
  | contains (t : Token)

/-- What a call on a slab returns. -/
inductive Returned (α : Type) where
  | token (t : Token)
  | taken (a : Option α)
  | flag (b : Bool)

/-- One call. -/
def call (s : Slab α) : Op α → Slab α × Returned α
  | .insert a => ((s.insert a).1, .token (s.insert a).2)
  | .take t =>
    match s.take t with
    | some (a, s') => (s', .taken (some a))
    | none => (s, .taken none)
  | .contains t => (s, .flag (s.contains t))

/-- The slab after calls, one after the other. -/
def after (s : Slab α) : List (Op α) → Slab α
  | [] => s
  | op :: ops => (s.call op).1.after ops

/-- Calls and what they return, one after the other. -/
def exchanges (s : Slab α) : List (Op α) → List (Op α × Returned α)
  | [] => []
  | op :: ops => (op, (s.call op).2) :: (s.call op).1.exchanges ops

/-- A call on a finite map that chooses the tokens itself. -/
inductive MapCall (m : TokenMap α) : Op α → Returned α → TokenMap α → Prop where
  | inserted (a : α) (t : Token) (hname : t.isInternal = false) (hnew : t ∉ m) :
    MapCall m (.insert a) (.token t) (m.insert t a)
  | taken (t : Token) (a : α) (h : m.lookup t = some a) :
    MapCall m (.take t) (.taken (some a)) (m.erase t)
  | missed (t : Token) (h : t ∉ m) : MapCall m (.take t) (.taken none) m
  | found (t : Token) (h : t ∈ m) : MapCall m (.contains t) (.flag true) m
  | unfound (t : Token) (h : t ∉ m) : MapCall m (.contains t) (.flag false) m

/-- Calls on a finite map, one after the other, and the largest number of its entries on the
way. -/
inductive MapCalls : TokenMap α → List (Op α × Returned α) → Nat → TokenMap α → Prop where
  | nil (m : TokenMap α) : MapCalls m [] m.keys.card m
  | cons {m m₁ m' : TokenMap α} {op : Op α} {r : Returned α} {rest : List (Op α × Returned α)}
    {n : Nat} (h : MapCall m op r m₁) (hrest : MapCalls m₁ rest n m') :
    MapCalls m ((op, r) :: rest) (max m.keys.card n) m'

/-- The exchange vacated a slot. -/
def vacates (i : UInt32) : Op α × Returned α → Bool
  | (.take t, .taken (some _)) => t.index == i
  | _ => false

/-! ### All vacant slots are on record -/

/-- A sound slab in which no vacant slot is forgotten. -/
structure Tidy (s : Slab α) : Prop extends Sound s where
  recorded : ∀ (i : UInt32) (slot : Slot α), s.slots[i.toNat]? = some slot →
    slot.occupant = none → i ∈ s.free

theorem tidy_empty : Tidy ({} : Slab α) where
  toSound := sound_empty
  recorded := by simp

section

variable {s : Slab α} (hs : s.Tidy)
include hs

/-- No vacant slot is forgotten when something is inserted. -/
theorem Tidy.insert (a : α) (hroom : (s.insert a).1.slots.length ≤ 2 ^ 32) :
    (s.insert a).1.Tidy := by
  refine ⟨hs.toSound.insert a hroom, fun j slot hslot hvacant => ?_⟩
  rcases hs.insert_cases a with ⟨i, free, old, hfree, hold, _, he⟩ | ⟨hfree, he⟩
  · rw [he] at hslot ⊢
    by_cases hij : i.toNat = j.toNat
    · obtain ⟨hlt, _⟩ := List.getElem?_eq_some_iff.mp hold
      rw [← hij, List.getElem?_set_self hlt] at hslot
      obtain rfl := Option.some.inj hslot
      cases hvacant
    · rw [List.getElem?_set_ne hij] at hslot
      have hmem := hs.recorded j slot hslot hvacant
      rw [hfree] at hmem
      exact List.mem_of_ne_of_mem (fun h => hij (congrArg UInt32.toNat h.symm)) hmem
  · rw [he] at hslot ⊢
    rcases Nat.lt_or_ge j.toNat s.slots.length with hlt | hge
    · rw [List.getElem?_append_left hlt] at hslot
      exact hs.recorded j slot hslot hvacant
    · rw [List.getElem?_append_right hge, List.getElem?_singleton] at hslot
      split at hslot
      · obtain rfl := Option.some.inj hslot
        cases hvacant
      · cases hslot

/-- No vacant slot is forgotten when somebody is taken out. -/
theorem Tidy.take {s' : Slab α} {t : Token} {a : α} (h : s.take t = some (a, s')) :
    s'.Tidy := by
  refine ⟨hs.toSound.take h, fun j slot hslot hvacant => ?_⟩
  obtain ⟨_, _, rfl⟩ := take_cases h
  by_cases hj : j = t.index
  · rw [hj]
    exact List.mem_cons_self
  · have hne : t.index.toNat ≠ j.toNat := fun he => hj (UInt32.toNat_inj.mp he.symm)
    rw [List.getElem?_set_ne hne] at hslot
    exact List.mem_cons_of_mem _ (hs.recorded j slot hslot hvacant)

/-- No vacant slot is forgotten in a call. -/
theorem Tidy.call (op : Op α) (hroom : (s.call op).1.slots.length ≤ 2 ^ 32) :
    (s.call op).1.Tidy := by
  cases op with
  | insert a => exact hs.insert a hroom
  | take t =>
    cases ht : s.take t with
    | some x =>
      simp only [Slab.call, ht]
      exact hs.take ht
    | none =>
      simp only [Slab.call, ht]
      exact hs
  | contains t => exact hs

/-- The numbers on record are those of the vacant slots. -/
theorem Tidy.mem_free_iff (i : UInt32) :
    i ∈ s.free ↔ ∃ slot, s.slots[i.toNat]? = some slot ∧ slot.occupant = none :=
  ⟨hs.vacant i, fun ⟨slot, hslot, hvacant⟩ => hs.recorded i slot hslot hvacant⟩

omit hs in
/-- There are no more occupants than slots. -/
theorem Sound.live_le (hs : s.Sound) : s.live ≤ s.slots.length := by
  rw [hs.live_eq]
  exact List.length_filterMap_le _ _

/-- If no slot is on record as vacant, all are occupied. -/
theorem Tidy.live_eq_length (hfree : s.free = []) : s.live = s.slots.length := by
  have hall : ∀ slot ∈ s.slots, slot.occupant.isSome = true := by
    intro slot hmem
    obtain ⟨i, hi, hget⟩ := List.getElem_of_mem hmem
    have hlen := hs.length_le
    have hn : (UInt32.ofNat i).toNat = i := by
      simp only [UInt32.toNat_ofNat']
      omega
    cases hocc : slot.occupant with
    | some a => rfl
    | none =>
      have hslot : s.slots[(UInt32.ofNat i).toNat]? = some slot := by
        rw [hn, List.getElem?_eq_getElem hi, hget]
      have hrec := hs.recorded (UInt32.ofNat i) slot hslot hocc
      rw [hfree] at hrec
      cases hrec
  rw [hs.live_eq]
  exact List.filterMap_length_eq_length.mpr hall

end

/-! ### One call -/

/-- The slab keeps under each token what the map does. -/
structure Represents (s : Slab α) (m : TokenMap α) : Prop where
  get? : ∀ t, s.get? t = m.lookup t
  live : s.live = m.keys.card

theorem represents_empty : Represents ({} : Slab α) ∅ where
  get? t := by simp [Slab.get?]
  live := rfl

/-- A slab answers whether it knows a token as the map does. -/
theorem Represents.contains_iff {s : Slab α} {m : TokenMap α} (h : s.Represents m) (t : Token) :
    s.contains t = true ↔ t ∈ m := by
  rw [Slab.contains, h.get?, Finmap.lookup_isSome]

/-- Inserting is inserting in the map, under a token that the map does not have. -/
theorem Represents.insert {s : Slab α} {m : TokenMap α} (h : s.Represents m) (hs : s.Tidy)
    (a : α) (hroom : (s.insert a).1.slots.length ≤ 2 ^ 32) :
    MapCall m (.insert a) (.token (s.insert a).2) (m.insert (s.insert a).2 a) ∧
      (s.insert a).1.Represents (m.insert (s.insert a).2 a) := by
  have hget := hs.get?_insert a hroom
  have hnew : (s.insert a).2 ∉ m := by
    rw [← Finmap.lookup_eq_none, ← h.get?]
    exact hs.get?_token_insert a hroom
  have hname : (s.insert a).2.isInternal = false := by
    have hsome : (s.insert a).1.get? (s.insert a).2 = some a := by rw [hget, if_pos rfl]
    exact ((get?_eq_some_iff _ _ _).mp hsome).1
  refine ⟨.inserted a _ hname hnew, fun t => ?_, ?_⟩
  · rw [hget]
    by_cases ht : t = (s.insert a).2
    · rw [ht, if_pos rfl, Finmap.lookup_insert]
    · rw [if_neg ht, Finmap.lookup_insert_of_ne _ ht, h.get?]
  · have hkeys : (m.insert (s.insert a).2 a).keys = Insert.insert (s.insert a).2 m.keys := by
      ext t
      rw [Finmap.mem_keys, Finmap.mem_insert, Finset.mem_insert, Finmap.mem_keys]
    rw [hkeys, Finset.card_insert_of_notMem (fun hm => hnew (Finmap.mem_keys.mp hm)), ← h.live]
    exact live_insert s a

/-- Taking somebody out is erasing in the map. -/
theorem Represents.take {s s' : Slab α} {m : TokenMap α} (h : s.Represents m) (hs : s.Tidy)
    {t : Token} {a : α} (ht : s.take t = some (a, s')) :
    MapCall m (.take t) (.taken (some a)) (m.erase t) ∧ s'.Represents (m.erase t) := by
  have hsome : m.lookup t = some a := by rw [← h.get?, get?_of_take ht]
  refine ⟨.taken t a hsome, fun u => ?_, ?_⟩
  · rw [get?_take ht]
    by_cases hu : u = t
    · rw [hu, if_pos rfl, Finmap.lookup_erase]
    · rw [if_neg hu, Finmap.lookup_erase_ne hu, h.get?]
  · have hmem : t ∈ m.keys := Finmap.mem_keys.mpr (Finmap.mem_of_lookup_eq_some hsome)
    have hlive := hs.live_take ht
    rw [Finmap.keys_erase, Finset.card_erase_of_mem hmem, ← h.live, hlive]
    rfl

/-- Every call on a tidy slab is the call on the map, and leaves the slab tidy. -/
theorem Represents.call {s : Slab α} {m : TokenMap α} (h : s.Represents m) (hs : s.Tidy)
    (op : Op α) (hroom : (s.call op).1.slots.length ≤ 2 ^ 32) :
    (s.call op).1.Tidy ∧ ∃ m', MapCall m op (s.call op).2 m' ∧ (s.call op).1.Represents m' := by
  cases op with
  | insert a => exact ⟨hs.insert a hroom, _, h.insert hs a hroom⟩
  | take t =>
    cases ht : s.take t with
    | some x =>
      obtain ⟨a, s'⟩ := x
      simp only [Slab.call, ht]
      exact ⟨hs.take ht, _, h.take hs ht⟩
    | none =>
      have hnot : t ∉ m := by
        rw [← Finmap.lookup_eq_none, ← h.get?]
        exact (take_eq_none_iff s t).mp ht
      simp only [Slab.call, ht]
      exact ⟨hs, m, .missed t hnot, h⟩
  | contains t =>
    refine ⟨hs, m, ?_, h⟩
    simp only [Slab.call]
    cases hc : s.contains t with
    | true => exact .found t ((h.contains_iff t).mp hc)
    | false => exact .unfound t fun hm => by simp [(h.contains_iff t).mpr hm] at hc

/-- A call adds a slot only if there would be more occupants than slots otherwise. -/
theorem Tidy.length_call {s : Slab α} (hs : s.Tidy) (op : Op α)
    (hroom : (s.call op).1.slots.length ≤ 2 ^ 32) :
    (s.call op).1.slots.length = max s.slots.length (s.call op).1.live := by
  cases op with
  | insert a =>
    have hle := (hs.insert a hroom).live_le
    have hgrows := s.grows_insert a
    have hlive := live_insert s a
    simp only [Slab.call] at hle ⊢
    by_cases hfree : s.free = []
    · have hadd := hgrows.le_add
      have hall := hs.live_eq_length hfree
      rw [if_pos hfree] at hadd
      omega
    · have hlen := hgrows.length_eq hfree
      omega
  | take t =>
    cases ht : s.take t with
    | some x =>
      have hle := (hs.take ht).live_le
      have hlen := length_slots_take ht
      simp only [Slab.call, ht]
      omega
    | none =>
      have hle := hs.live_le
      simp only [Slab.call, ht]
      omega
  | contains t =>
    have hle := hs.live_le
    simp only [Slab.call]
    omega

theorem length_slots_call_le (s : Slab α) (op : Op α) :
    s.slots.length ≤ (s.call op).1.slots.length := by
  cases op with
  | insert a => exact (s.grows_insert a).le
  | take t =>
    cases ht : s.take t with
    | some x =>
      simp only [Slab.call, ht]
      exact Nat.le_of_eq (length_slots_take ht).symm
    | none => simp [Slab.call, ht]
  | contains t => exact Nat.le_refl _

/-! ### Generations -/

theorem Sound.generationAt_lt {s : Slab α} (hs : s.Sound) (i : UInt32) :
    (s.generationAt i).toNat < 2 ^ 31 := by
  unfold generationAt
  cases h : s.slots[i.toNat]? with
  | none => simp
  | some slot => exact hs.generation_lt slot (List.mem_of_getElem? h)

theorem generationAt_insert {s : Slab α} (hs : s.Sound) (a : α) (i : UInt32) :
    (s.insert a).1.generationAt i = s.generationAt i := by
  unfold generationAt
  rcases hs.insert_cases a with ⟨j, free, slot, _, hslot, _, he⟩ | ⟨_, he⟩
  · rw [he]
    by_cases hji : j.toNat = i.toNat
    · obtain ⟨hlt, _⟩ := List.getElem?_eq_some_iff.mp hslot
      rw [← hji, List.getElem?_set_self hlt, hslot]
      rfl
    · rw [List.getElem?_set_ne hji]
  · rw [he]
    rcases Nat.lt_trichotomy i.toNat s.slots.length with hlt | heq | hgt
    · rw [List.getElem?_append_left hlt]
    · rw [heq, List.getElem?_concat_length, List.getElem?_eq_none (Nat.le_refl _)]
      rfl
    · rw [List.getElem?_eq_none (by simp; omega), List.getElem?_eq_none (by omega)]

theorem generationAt_take {s s' : Slab α} {t : Token} {a : α} (h : s.take t = some (a, s'))
    (i : UInt32) :
    s'.generationAt i = if t.index = i then nextGeneration (s.generationAt i)
      else s.generationAt i := by
  obtain ⟨_, ⟨slot, hslot, hgen, _⟩, rfl⟩ := take_cases h
  obtain ⟨hlt, _⟩ := List.getElem?_eq_some_iff.mp hslot
  unfold generationAt
  by_cases hi : t.index = i
  · subst hi
    rw [if_pos rfl, List.getElem?_set_self hlt, hslot]
    simp only [Option.map_some, Option.getD_some, hgen]
  · have hne : t.index.toNat ≠ i.toNat := fun he => hi (UInt32.toNat_inj.mp he)
    rw [if_neg hi, List.getElem?_set_ne hne]

/-- The generation of a slot moves on when the slot is vacated, and comes round. -/
theorem toNat_generationAt_call {s : Slab α} (hs : s.Sound) (op : Op α) (i : UInt32) :
    ((s.call op).1.generationAt i).toNat =
      ((s.generationAt i).toNat + if vacates i (op, (s.call op).2) then 1 else 0) % 2 ^ 31 := by
  have hlt := hs.generationAt_lt i
  have hsame : (s.generationAt i).toNat = ((s.generationAt i).toNat + 0) % 2 ^ 31 :=
    (Nat.mod_eq_of_lt hlt).symm
  cases op with
  | insert a =>
    simp only [call, vacates]
    rw [generationAt_insert hs]
    exact hsame
  | take t =>
    cases ht : s.take t with
    | none =>
      simp only [call, ht, vacates]
      exact hsame
    | some x =>
      obtain ⟨a, s'⟩ := x
      simp only [call, ht, vacates, generationAt_take ht, beq_iff_eq]
      by_cases hi : t.index = i
      · rw [if_pos hi, if_pos hi]
        simp only [nextGeneration, UInt32.toNat_ofNat']
        omega
      · rw [if_neg hi, if_neg hi]
        exact hsame
  | contains t => exact hsame

/-! ### Whole runs -/

/-- The largest number of entries is not less than the first. -/
theorem MapCalls.card_le {m m' : TokenMap α} {l : List (Op α × Returned α)} {n : Nat}
    (h : MapCalls m l n m') : m.keys.card ≤ n := by
  cases h with
  | nil => exact Nat.le_refl _
  | cons h hrest => exact Nat.le_max_left _ _

theorem length_slots_after_le (s : Slab α) (ops : List (Op α)) :
    s.slots.length ≤ (s.after ops).slots.length := by
  induction ops generalizing s with
  | nil => exact Nat.le_refl _
  | cons op ops ih => exact Nat.le_trans (s.length_slots_call_le op) (ih (s.call op).1)

/-- Calls on a tidy slab are calls on the map that it represents. -/
theorem Represents.after {s : Slab α} {m : TokenMap α} (h : s.Represents m) (hs : s.Tidy)
    (ops : List (Op α)) (hroom : (s.after ops).slots.length ≤ 2 ^ 32) :
    (s.after ops).Tidy ∧ ∃ m' n, MapCalls m (s.exchanges ops) n m' ∧
      (s.after ops).Represents m' ∧ (s.after ops).slots.length = max s.slots.length n := by
  induction ops generalizing s m with
  | nil =>
    refine ⟨hs, m, m.keys.card, .nil m, h, ?_⟩
    rw [← h.live]
    exact (Nat.max_eq_left hs.live_le).symm
  | cons op ops ih =>
    have hroom₁ : (s.call op).1.slots.length ≤ 2 ^ 32 :=
      Nat.le_trans ((s.call op).1.length_slots_after_le ops) hroom
    obtain ⟨htidy, m₁, hcall, h₁⟩ := h.call hs op hroom₁
    obtain ⟨hend, m', n, hcalls, h', hlen⟩ := ih h₁ htidy hroom
    refine ⟨hend, m', max m.keys.card n, .cons hcall hcalls, h', ?_⟩
    have hlen₁ := hs.length_call op hroom₁
    have hmost := hcalls.card_le
    have hlive := hs.live_le
    rw [← h₁.live] at hmost
    rw [← h.live]
    simp only [Slab.after]
    omega

/-- The generation of a slot counts how often it was vacated. -/
theorem toNat_generationAt_after {s : Slab α} (hs : s.Tidy) (ops : List (Op α))
    (hroom : (s.after ops).slots.length ≤ 2 ^ 32) (i : UInt32) :
    ((s.after ops).generationAt i).toNat =
      ((s.generationAt i).toNat + (s.exchanges ops).countP (vacates i)) % 2 ^ 31 := by
  induction ops generalizing s with
  | nil => exact (Nat.mod_eq_of_lt (hs.generationAt_lt i)).symm
  | cons op ops ih =>
    have hroom₁ : (s.call op).1.slots.length ≤ 2 ^ 32 :=
      Nat.le_trans ((s.call op).1.length_slots_after_le ops) hroom
    simp only [Slab.after, exchanges, List.countP_cons]
    rw [ih (hs.call op hroom₁) hroom, toNat_generationAt_call hs.toSound, Nat.mod_add_mod]
    congr 1
    omega

/-- What a slab has in common with the map that it represents. -/
structure Mirrors (s : Slab α) (m : TokenMap α) : Prop where
  /-- The slab knows the tokens of the map, and under each the same occupant. -/
  contains : ∀ t, s.contains t = true ↔ t ∈ m
  get? : ∀ t, s.get? t = m.lookup t
  live : s.live = m.keys.card
  isEmpty : s.live = 0 ↔ m = ∅
  /-- The vacant slots are on record once each, and no others. -/
  nodup_free : s.free.Nodup
  mem_free : ∀ i, i ∈ s.free ↔ ∃ slot, s.slots[i.toNat]? = some slot ∧ slot.occupant = none
  /-- Every occupant is reached by the token of its slot and of the slot's generation. -/
  reached : ∀ (i : UInt32) (slot : Slot α) (a : α), s.slots[i.toNat]? = some slot →
    slot.occupant = some a → m.lookup (Token.ofSlot i slot.generation) = some a

theorem Represents.mirrors {s : Slab α} {m : TokenMap α} (h : s.Represents m) (hs : s.Tidy) :
    s.Mirrors m where
  contains := h.contains_iff
  get? := h.get?
  live := h.live
  isEmpty := by
    rw [h.live, Finset.card_eq_zero]
    constructor
    · intro hk
      apply Finmap.ext_lookup
      intro t
      rw [Finmap.lookup_empty, Finmap.lookup_eq_none, ← Finmap.mem_keys, hk]
      exact Finset.notMem_empty t
    · rintro rfl
      exact Finmap.keys_empty
  nodup_free := hs.nodup_free
  mem_free := hs.mem_free_iff
  reached := by
    intro i slot a hslot hocc
    have hgen := hs.generation_lt slot (List.mem_of_getElem? hslot)
    rw [← h.get?, get?_eq_some_iff]
    refine ⟨Token.isInternal_ofSlot i slot.generation, slot, ?_, ?_, hocc⟩
    · rw [Token.index_ofSlot]
      exact hslot
    · apply UInt32.toNat_inj.mp
      rw [Token.toNat_generation_ofSlot]
      exact (Nat.mod_eq_of_lt hgen).symm

/-- Whatever is inserted into a slab that began empty, taken out and asked for, in whatever order
and with whatever tokens, the slab answers as a finite map from tokens does, has as many slots as
the map had entries at most, and counts with the generation of each slot how often it was vacated,
so that it comes round after `2 ^ 31` times. A token has `2 ^ 32` indices; with more slots than
that two occupants would have one token. -/
theorem slab_answers_as_finite_map (ops : List (Op α))
    (hroom : (({} : Slab α).after ops).slots.length ≤ 2 ^ 32) :
    ∃ (m : TokenMap α) (n : Nat), MapCalls ∅ (({} : Slab α).exchanges ops) n m ∧
      (({} : Slab α).after ops).Mirrors m ∧ (({} : Slab α).after ops).slots.length = n ∧
      ∀ (i : UInt32) (slot : Slot α), (({} : Slab α).after ops).slots[i.toNat]? = some slot →
        slot.generation.toNat = (({} : Slab α).exchanges ops).countP (vacates i) % 2 ^ 31 := by
  obtain ⟨hs, m, n, hcalls, h, hlen⟩ := represents_empty.after tidy_empty ops hroom
  refine ⟨m, n, hcalls, h.mirrors hs, hlen.trans (Nat.zero_max n), fun i slot hslot => ?_⟩
  have hgen := toNat_generationAt_after tidy_empty ops hroom i
  have hat : (({} : Slab α).after ops).generationAt i = slot.generation := by
    rw [generationAt, hslot]
    rfl
  rw [← hat, hgen]
  exact congrArg (· % 2 ^ 31) (Nat.zero_add _)

/-- Two occupants come, one goes and is asked for again under its old token, others are asked for
under a bookkeeping name and under a slot that there is not, and a third takes the vacated slot. -/
def comeAndGo : List (Op String) :=
  [.insert "a", .insert "b", .take ⟨0⟩, .take ⟨0⟩, .take (.internal 0), .take (.ofSlot 99 0),
    .insert "c", .contains ⟨0⟩, .contains (.ofSlot 0 1)]

theorem slab_answers_as_finite_map_of_stale :
    (({} : Slab String).after comeAndGo).slots.length ≤ 2 ^ 32 ∧
    (∃ (m : TokenMap String) (n : Nat), MapCalls ∅ (({} : Slab String).exchanges comeAndGo) n m ∧
      (({} : Slab String).after comeAndGo).Mirrors m ∧
      (({} : Slab String).after comeAndGo).slots.length = n ∧
      ∀ (i : UInt32) (slot : Slot String),
        (({} : Slab String).after comeAndGo).slots[i.toNat]? = some slot → slot.generation.toNat =
          (({} : Slab String).exchanges comeAndGo).countP (vacates i) % 2 ^ 31) ∧
    (({} : Slab String).after comeAndGo).slots.length = 2 ∧
    (({} : Slab String).after comeAndGo).get? (.ofSlot 0 1) = some "c" :=
  ⟨by decide, slab_answers_as_finite_map comeAndGo (by decide), by decide, by decide⟩

end Slab

end Proactor
