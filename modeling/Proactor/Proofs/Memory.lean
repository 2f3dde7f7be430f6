import Mathlib.Data.List.Basic
import Proactor.Memory

/-!
# Lending storages

Several storages are lent one after the other, each only while it is idle. Giving all of them
back leads to the memory there was before. Nothing that is lent, borrowed or given back changes
a byte, and nothing that is written changes who holds what.
-/

namespace Proactor.Memory

/-- Two memories are the same if their handles, their holders and their bytes are. -/
theorem ext_of_lend?_of_bytes {m m' : Memory} (hh : m.handles = m'.handles)
    (hl : ∀ id, m.lend? id = m'.lend? id) (hb : ∀ id, m.bytes id = m'.bytes id) : m = m' := by
  have hs : m.storages = m'.storages := by
    apply List.ext_getElem?
    intro id
    have hlid := hl id
    have hbid := hb id
    cases h : m.storages[id]? with
    | none =>
      cases h' : m'.storages[id]? with
      | none => rfl
      | some s => simp [lend?, h, h'] at hlid
    | some s =>
      cases h' : m'.storages[id]? with
      | none => simp [lend?, h, h'] at hlid
      | some s' =>
        obtain ⟨b, l⟩ := s
        obtain ⟨b', l'⟩ := s'
        simp only [lend?, bytes, h, h', Option.map_some, Option.some.injEq,
          Option.getD_some] at hlid hbid
        rw [hlid, hbid]
  cases m
  cases m'
  simp_all

/-! ### Holders, bytes and handles after each change -/

@[simp] theorem bytes_release (m : Memory) (id other : StorageId) :
    (m.release id).bytes other = m.bytes other := bytes_setLend m id other .idle

@[simp] theorem handles_release (m : Memory) (id : StorageId) :
    (m.release id).handles = m.handles := rfl

/-- A storage that is given back is idle. -/
theorem lend?_release (m : Memory) (id other : StorageId) :
    (m.release id).lend? other =
      if other = id then (m.lend? other).map fun _ => .idle else m.lend? other := by
  rw [release, lend?_setLend]
  simp only [eq_comm]

/-- The storages that are given back are idle. -/
theorem lend?_releaseAll (m : Memory) (ids : List StorageId) (other : StorageId) :
    (m.releaseAll ids).lend? other =
      if other ∈ ids then (m.lend? other).map fun _ => .idle else m.lend? other := by
  induction ids generalizing m with
  | nil => simp [releaseAll]
  | cons id ids ih =>
    rw [releaseAll, List.foldl_cons, ← releaseAll, ih, lend?_release]
    by_cases h : other = id
    · cases m.lend? other <;> simp [h]
    · simp [h]

@[simp] theorem bytes_releaseAll (m : Memory) (ids : List StorageId) (other : StorageId) :
    (m.releaseAll ids).bytes other = m.bytes other := by
  induction ids generalizing m with
  | nil => rfl
  | cons id ids ih =>
    rw [releaseAll, List.foldl_cons, ← releaseAll, ih, bytes_release]

@[simp] theorem handles_releaseAll (m : Memory) (ids : List StorageId) :
    (m.releaseAll ids).handles = m.handles := by
  induction ids generalizing m with
  | nil => rfl
  | cons id ids ih =>
    rw [releaseAll, List.foldl_cons, ← releaseAll, ih, handles_release]

/-- A new storage is idle. -/
theorem lend?_alloc (m : Memory) (content : Bytes) (other : StorageId) :
    (m.alloc content).1.lend? other =
      if other = m.storages.length then some .idle else m.lend? other := by
  by_cases h : other = m.storages.length
  · simp [alloc, lend?, h]
  · simp only [alloc, lend?, if_neg h]
    rcases Nat.lt_or_gt_of_ne h with hlt | hgt
    · rw [List.getElem?_append_left hlt]
    · rw [List.getElem?_eq_none (by simp; omega), List.getElem?_eq_none (by omega)]

theorem isIdle_eq_true_iff (m : Memory) (id : StorageId) :
    m.isIdle id = true ↔ m.lend? id = some .idle := by
  simp [isIdle]

/-- Only an idle storage is lent. -/
theorem lease?_eq_some_iff (m m' : Memory) (id : StorageId) :
    m.lease? id = some m' ↔ m.lend? id = some .idle ∧ m' = m.setLend id .lent := by
  rw [lease?, Option.ite_none_right_eq_some, isIdle_eq_true_iff, Option.some.injEq]
  exact and_congr_right fun _ => eq_comm

/-- Only an idle storage is borrowed. -/
theorem borrow?_eq_some_iff (m m' : Memory) (id : StorageId) :
    m.borrow? id = some m' ↔ m.lend? id = some .idle ∧ m' = m.setLend id .borrowed := by
  rw [borrow?, Option.ite_none_right_eq_some, isIdle_eq_true_iff, Option.some.injEq]
  exact and_congr_right fun _ => eq_comm

/-- Only an idle storage is filled, and its holder does not change. -/
theorem lend?_fill? {m m' : Memory} {id : StorageId} {content : Bytes} {n : Nat}
    (h : m.fill? id content = some (m', n)) (other : StorageId) :
    m'.lend? other = m.lend? other := by
  unfold fill? at h
  split at h
  · simp only [Option.some.injEq, Prod.mk.injEq] at h
    rw [← h.1, lend?_modifyBytes]
  · simp at h

/-! ### Several storages -/

/-- Lends several storages, each of which has to be idle when its turn comes. -/
def leaseAll? (m : Memory) (ids : List StorageId) : Option Memory := ids.foldlM lease? m

theorem leaseAll?_cons (m : Memory) (id : StorageId) (ids : List StorageId) :
    m.leaseAll? (id :: ids) = (m.lease? id).bind (leaseAll? · ids) := by
  simp [leaseAll?, List.foldlM_cons]

/-- Storages lent together are lent once each, and were idle. -/
theorem idle_of_leaseAll? {m m' : Memory} {ids : List StorageId}
    (h : m.leaseAll? ids = some m') :
    ids.Nodup ∧ ∀ id ∈ ids, m.lend? id = some .idle := by
  induction ids generalizing m with
  | nil => simp
  | cons id ids ih =>
    rw [leaseAll?_cons, Option.bind_eq_some_iff] at h
    obtain ⟨m₁, h₁, h₂⟩ := h
    obtain ⟨hidle, rfl⟩ := (lease?_eq_some_iff _ _ _).mp h₁
    obtain ⟨hnd, hall⟩ := ih h₂
    have hother : ∀ x ∈ ids, x ≠ id ∧ m.lend? x = some .idle := by
      intro x hx
      have hx' := hall x hx
      rw [lend?_setLend] at hx'
      by_cases he : id = x
      · simp [he] at hx'
      · exact ⟨Ne.symm he, by simpa [he] using hx'⟩
    refine ⟨List.nodup_cons.mpr ⟨fun hmem => (hother id hmem).1 rfl, hnd⟩, ?_⟩
    intro x hx
    rcases List.mem_cons.mp hx with rfl | hx
    · exact hidle
    · exact (hother x hx).2

/-- Storages lent together are lent, and the holders of all others stay. -/
theorem lend?_leaseAll? {m m' : Memory} {ids : List StorageId}
    (h : m.leaseAll? ids = some m') (other : StorageId) :
    m'.lend? other = if other ∈ ids then some .lent else m.lend? other := by
  induction ids generalizing m with
  | nil => simp_all [leaseAll?]
  | cons id ids ih =>
    rw [leaseAll?_cons, Option.bind_eq_some_iff] at h
    obtain ⟨m₁, h₁, h₂⟩ := h
    obtain ⟨hidle, rfl⟩ := (lease?_eq_some_iff _ _ _).mp h₁
    rw [ih h₂, lend?_setLend]
    by_cases he : id = other
    · subst he
      simp [hidle]
    · simp [he, Ne.symm he]

/-- Lending changes no bytes and no handles. -/
theorem bytes_leaseAll? {m m' : Memory} {ids : List StorageId} (h : m.leaseAll? ids = some m') :
    (∀ other, m'.bytes other = m.bytes other) ∧ m'.handles = m.handles := by
  induction ids generalizing m with
  | nil => simp_all [leaseAll?]
  | cons id ids ih =>
    rw [leaseAll?_cons, Option.bind_eq_some_iff] at h
    obtain ⟨m₁, h₁, h₂⟩ := h
    obtain ⟨_, rfl⟩ := (lease?_eq_some_iff _ _ _).mp h₁
    obtain ⟨hbytes, hhandles⟩ := ih h₂
    exact ⟨fun other => (hbytes other).trans (bytes_setLend m id other .lent), hhandles⟩

/-- Giving back what was lent leads to the memory there was before. -/
theorem releaseAll_leaseAll? {m m' : Memory} {ids : List StorageId}
    (h : m.leaseAll? ids = some m') : m'.releaseAll ids = m := by
  obtain ⟨hbytes, hhandles⟩ := bytes_leaseAll? h
  obtain ⟨_, hidle⟩ := idle_of_leaseAll? h
  apply ext_of_lend?_of_bytes
  · rw [handles_releaseAll, hhandles]
  · intro id
    rw [lend?_releaseAll, lend?_leaseAll? h]
    by_cases hid : id ∈ ids
    · simp [hid, hidle id hid]
    · simp [hid]
  · intro id
    rw [bytes_releaseAll, hbytes]

end Proactor.Memory
