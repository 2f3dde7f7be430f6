/-!
# Byte strings

A byte string is a list of bytes, first byte first. Memory is written by overwriting the front
of what is there: nothing is written past the end, and the length never changes. Integers are
laid out little-endian or big-endian in a fixed number of bytes.
-/

namespace Proactor

/-- A byte string, first byte first. -/
abbrev Bytes := List UInt8

namespace Bytes

/-- `n` zero bytes. -/
def zeros (n : Nat) : Bytes := List.replicate n 0

/-- `dst` with its front replaced by as much of `src` as it has room for. -/
def overwrite (dst src : Bytes) : Bytes := src.take dst.length ++ dst.drop src.length

/-- `dst` overwritten by `src` from `offset` on; the bytes before `offset` stay. -/
def overwriteFrom (dst : Bytes) (offset : Nat) (src : Bytes) : Bytes :=
  dst.take offset ++ overwrite (dst.drop offset) src

/-- `n` in `width` bytes, the low byte first; higher bytes are dropped. -/
def ofNatLE : Nat → Nat → Bytes
  | 0, _ => []
  | width + 1, n => UInt8.ofNat n :: ofNatLE width (n / 256)

/-- The number whose low byte comes first. -/
def toNatLE : Bytes → Nat
  | [] => 0
  | b :: bs => b.toNat + 256 * toNatLE bs

/-- `n` in `width` bytes, the high byte first. -/
def ofNatBE (width n : Nat) : Bytes := (ofNatLE width n).reverse

/-- The number whose high byte comes first. -/
def toNatBE (bs : Bytes) : Nat := toNatLE bs.reverse

@[simp] theorem length_zeros (n : Nat) : (zeros n).length = n := by simp [zeros]

/-- Overwriting never changes how many bytes there are. -/
@[simp] theorem length_overwrite (dst src : Bytes) : (overwrite dst src).length = dst.length := by
  simp only [overwrite, List.length_append, List.length_take, List.length_drop]
  omega

@[simp] theorem length_overwriteFrom (dst : Bytes) (offset : Nat) (src : Bytes) :
    (overwriteFrom dst offset src).length = dst.length := by
  simp only [overwriteFrom, List.length_append, length_overwrite, List.length_take,
    List.length_drop]
  omega

/-- What fits is written exactly. -/
theorem take_overwrite (dst src : Bytes) (h : src.length ≤ dst.length) :
    (overwrite dst src).take src.length = src := by
  simp [overwrite, List.take_of_length_le h]

@[simp] theorem length_ofNatLE (width n : Nat) : (ofNatLE width n).length = width := by
  induction width generalizing n with
  | zero => rfl
  | succ width ih => simp [ofNatLE, ih]

@[simp] theorem length_ofNatBE (width n : Nat) : (ofNatBE width n).length = width := by
  simp [ofNatBE]

end Bytes

end Proactor
