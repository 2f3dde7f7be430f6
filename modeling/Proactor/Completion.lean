import Proactor.Token

/-!
# Completions

What a port hands back for an operation: the token it was pushed under and a signed result,
negative for a failure. A callback sees the result as a pair of an error number and a byte
count, of which at most one is nonzero.
-/

namespace Proactor

/-- The record a port hands back when an operation is over. -/
structure Completion where
  token : Token
  /-- Bytes moved or a new descriptor; a negated error number if it failed. -/
  result : Int64
  /-- Bits that only the port gives a meaning to. -/
  flags : UInt32 := 0
  deriving DecidableEq, Repr, Inhabited

/-- What a callback is told. -/
structure Outcome where
  error : Int32
  bytes : UInt32
  deriving DecidableEq, Repr, Inhabited

namespace Outcome

/-- The outcome of a result: the low 32 bits of the negated failure, or the count, which
saturates. -/
def ofResult (result : Int64) : Outcome :=
  if result.toInt < 0 then ⟨Int32.ofInt (-result.toInt), 0⟩
  else ⟨0, UInt32.ofNat (min result.toInt.toNat 0xFFFFFFFF)⟩

/-- The outcome of a posted callback, and of an event without data. -/
def done : Outcome := ⟨0, 0⟩

/-- A failure moves no bytes. -/
theorem bytes_ofResult_of_neg {result : Int64} (h : result.toInt < 0) :
    (ofResult result).bytes = 0 := by
  simp [ofResult, h]

/-- A success carries no error. -/
theorem error_ofResult_of_nonneg {result : Int64} (h : 0 ≤ result.toInt) :
    (ofResult result).error = 0 := by
  simp [ofResult, Int.not_lt.mpr h]

end Outcome

/-- The outcome a completion stands for. -/
def Completion.outcome (c : Completion) : Outcome := Outcome.ofResult c.result

end Proactor
