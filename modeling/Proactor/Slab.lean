import Proactor.Token

/-!
# Slabs

Numbered slots that hold what is in flight, each occupant under a token made of the number of
its slot and the slot's generation. The slot vacated last is occupied next, and vacating a slot
moves it to its next generation, so that an old token never reaches a new occupant until the
generations of that slot have come round.
-/

namespace Proactor

/-- A place for an occupant. -/
structure Slot (α : Type) where
  generation : UInt32 := 0
  occupant : Option α
  deriving Repr

/-- Slots by number, and the numbers of the vacant ones, the one vacated last first. -/
structure Slab (α : Type) where
  slots : List (Slot α) := []
  free : List UInt32 := []
  live : Nat := 0
  deriving Repr

namespace Slab

variable {α : Type}

/-- The generation after `g`; it comes round after `2 ^ 31`. -/
def nextGeneration (g : UInt32) : UInt32 := UInt32.ofNat ((g.toNat + 1) % 0x80000000)

/-- The generation of a slot. -/
def generationAt (s : Slab α) (index : UInt32) : UInt32 :=
  ((s.slots[index.toNat]?).map Slot.generation).getD 0

/-- Occupies the slot vacated last, or a new one; the token names the occupant. -/
def insert (s : Slab α) (a : α) : Slab α × Token :=
  match s.free with
  | index :: free =>
    ({ slots := s.slots.modify index.toNat fun slot => { slot with occupant := some a }
       free
       live := s.live + 1 },
      Token.ofSlot index (s.generationAt index))
  | [] =>
    ({ s with slots := s.slots ++ [{ occupant := some a }], live := s.live + 1 },
      Token.ofSlot (UInt32.ofNat s.slots.length) 0)

/-- The occupant that a token names. -/
def get? (s : Slab α) (t : Token) : Option α :=
  if t.isInternal then none
  else match s.slots[t.index.toNat]? with
    | some slot => if slot.generation = t.generation then slot.occupant else none
    | none => none

/-- Takes out the occupant that a token names, and vacates its slot. -/
def take (s : Slab α) (t : Token) : Option (α × Slab α) :=
  (s.get? t).map fun a =>
    (a, { slots := s.slots.set t.index.toNat ⟨nextGeneration t.generation, none⟩
          free := t.index :: s.free
          live := s.live - 1 })

/-- A token names an occupant. -/
def contains (s : Slab α) (t : Token) : Bool := (s.get? t).isSome

/-- All occupants, by the number of their slots. -/
def occupants (s : Slab α) : List α := s.slots.filterMap Slot.occupant

/-- The slab with no occupants left; nothing else about it changes. -/
def abandon (s : Slab α) : Slab α :=
  { s with slots := s.slots.map fun slot => { slot with occupant := none }, live := 0 }

/-- Only a token that names an occupant takes one out. -/
theorem take_eq_none_iff (s : Slab α) (t : Token) : s.take t = none ↔ s.get? t = none := by
  simp [take]

/-- A bookkeeping name names no occupant. -/
theorem get?_of_isInternal (s : Slab α) {t : Token} (h : t.isInternal = true) :
    s.get? t = none := by
  simp [get?, h]

end Slab

end Proactor
