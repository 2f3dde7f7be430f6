/-!
# Tokens

A token is the 64-bit name under which an operation is handed to a completion port and under
which its completion comes back. The low 32 bits are the index of a slot, the next 31 bits the
generation of that slot, and the top bit marks names that belong to no slot at all: the
bookkeeping names, numbered by a sequence. The two kinds never meet.
-/

namespace Proactor

/-- The 64-bit name of an operation. -/
structure Token where
  raw : UInt64
  deriving DecidableEq, Repr, Inhabited

namespace Token

/-- The name of slot `index` in its `generation`, of which the low 31 bits count. -/
def ofSlot (index generation : UInt32) : Token :=
  ⟨UInt64.ofNat (generation.toNat % 0x80000000 * 0x100000000 + index.toNat)⟩

/-- The bookkeeping name with number `seq`, of which the low 63 bits count. -/
def internal (seq : UInt64) : Token :=
  ⟨UInt64.ofNat (0x8000000000000000 + seq.toNat % 0x8000000000000000)⟩

/-- The low 32 bits. -/
def index (t : Token) : UInt32 := UInt32.ofNat (t.raw.toNat % 0x100000000)

/-- The 31 bits above the index. -/
def generation (t : Token) : UInt32 := UInt32.ofNat (t.raw.toNat / 0x100000000 % 0x80000000)

/-- The top bit: the token names no slot. -/
def isInternal (t : Token) : Bool := decide (0x8000000000000000 ≤ t.raw.toNat)

/-- The 63 bits below the top one: the number of a bookkeeping name. -/
def sequence (t : Token) : UInt64 := UInt64.ofNat (t.raw.toNat % 0x8000000000000000)

/-- The written form: `internal#n`, or index and generation with a point between them. -/
def text (t : Token) : String :=
  if t.isInternal then "internal#" ++ t.sequence.toNat.repr
  else t.index.toNat.repr ++ "." ++ t.generation.toNat.repr

theorem toNat_raw_ofSlot (index generation : UInt32) :
    (ofSlot index generation).raw.toNat = generation.toNat % 0x80000000 * 0x100000000 + index.toNat := by
  have hi := index.toNat_lt
  have hg : generation.toNat % 0x80000000 < 0x80000000 := Nat.mod_lt _ (by decide)
  simp only [ofSlot, UInt64.toNat_ofNat']
  omega

theorem toNat_raw_internal (seq : UInt64) :
    (internal seq).raw.toNat = 0x8000000000000000 + seq.toNat % 0x8000000000000000 := by
  have hs : seq.toNat % 0x8000000000000000 < 0x8000000000000000 := Nat.mod_lt _ (by decide)
  simp only [internal, UInt64.toNat_ofNat']
  omega

@[simp] theorem index_ofSlot (index generation : UInt32) :
    (ofSlot index generation).index = index := by
  have hi := index.toNat_lt
  have hr := toNat_raw_ofSlot index generation
  apply UInt32.toNat_inj.mp
  simp only [Token.index, UInt32.toNat_ofNat', hr]
  omega

@[simp] theorem toNat_generation_ofSlot (index generation : UInt32) :
    (ofSlot index generation).generation.toNat = generation.toNat % 0x80000000 := by
  have hi := index.toNat_lt
  have hr := toNat_raw_ofSlot index generation
  simp only [Token.generation, UInt32.toNat_ofNat', hr]
  omega

@[simp] theorem isInternal_ofSlot (index generation : UInt32) :
    (ofSlot index generation).isInternal = false := by
  have hi := index.toNat_lt
  have hg : generation.toNat % 0x80000000 < 0x80000000 := Nat.mod_lt _ (by decide)
  have hr := toNat_raw_ofSlot index generation
  simp only [isInternal, hr, decide_eq_false_iff_not]
  omega

/-- A token that names a slot is made of the index and the generation that it names. -/
theorem ofSlot_index_generation {t : Token} (h : t.isInternal = false) :
    ofSlot t.index t.generation = t := by
  have hi : t.index.toNat = t.raw.toNat % 0x100000000 := by
    simp only [index, UInt32.toNat_ofNat']
    omega
  have hg : t.generation.toNat = t.raw.toNat / 0x100000000 % 0x80000000 := by
    simp only [generation, UInt32.toNat_ofNat']
    omega
  have ht : t.raw.toNat < 0x8000000000000000 := by simpa [isInternal] using h
  have hr : (ofSlot t.index t.generation).raw = t.raw := by
    apply UInt64.toNat_inj.mp
    rw [toNat_raw_ofSlot, hi, hg]
    omega
  cases t
  exact congrArg Token.mk hr

/-- The slot and the generation below `2 ^ 31` under which something is kept are read back. -/
theorem eq_ofSlot_iff {t : Token} {i g : UInt32} (hg : g.toNat < 0x80000000) :
    t = ofSlot i g ↔ t.isInternal = false ∧ t.index = i ∧ t.generation = g := by
  constructor
  · rintro rfl
    refine ⟨isInternal_ofSlot i g, index_ofSlot i g, ?_⟩
    apply UInt32.toNat_inj.mp
    rw [toNat_generation_ofSlot, Nat.mod_eq_of_lt hg]
  · rintro ⟨h, rfl, rfl⟩
    exact (ofSlot_index_generation h).symm

@[simp] theorem isInternal_internal (seq : UInt64) : (internal seq).isInternal = true := by
  have hr := toNat_raw_internal seq
  simp only [isInternal, hr, decide_eq_true_eq]
  omega

end Token

end Proactor
