/-!
# Readable values

The values that settings hold and their text. An integer is an optional sign and decimal
digits of the ASCII range, and its value has to fit; a minus sign is for signed types only. A
truth value is one of two words, a character is exactly one character, and a text is itself.
-/

namespace Proactor

/-- Types whose values settings can hold. -/
class Readable (α : Type) where
  /-- The value that a text writes, all of it. -/
  read? : String → Option α
  /-- The text of a value. -/
  write : α → String

namespace Readable

/-- The number that ASCII digits write, at least one of them. -/
def readDigits? (cs : List Char) : Option Nat :=
  if cs.isEmpty || !cs.all Char.isDigit then none
  else some (cs.foldl (fun n c => n * 10 + (c.toNat - '0'.toNat)) 0)

/-- Digits behind an optional plus sign. -/
def readNat? : List Char → Option Nat
  | '+' :: cs => readDigits? cs
  | cs => readDigits? cs

/-- Digits behind an optional sign. -/
def readInt? : List Char → Option Int
  | '-' :: cs => (readDigits? cs).map (fun n => -(n : Int))
  | cs => (readNat? cs).map (fun n => (n : Int))

/-- A number below `2 ^ bits`. -/
def readUnsigned? (bits : Nat) (s : String) : Option Nat :=
  (readNat? s.toList).filter (· < Nat.pow 2 bits)

/-- A number that `bits` bits hold in two's complement. -/
def readSigned? (bits : Nat) (s : String) : Option Int :=
  (readInt? s.toList).filter (fun n => decide (-(Int.pow 2 (bits - 1)) ≤ n ∧ n < Int.pow 2 (bits - 1)))

instance : Readable UInt8 := ⟨fun s => (readUnsigned? 8 s).map UInt8.ofNat, (·.toNat.repr)⟩
instance : Readable UInt16 := ⟨fun s => (readUnsigned? 16 s).map UInt16.ofNat, (·.toNat.repr)⟩
instance : Readable UInt32 := ⟨fun s => (readUnsigned? 32 s).map UInt32.ofNat, (·.toNat.repr)⟩
instance : Readable UInt64 := ⟨fun s => (readUnsigned? 64 s).map UInt64.ofNat, (·.toNat.repr)⟩
instance : Readable Int8 := ⟨fun s => (readSigned? 8 s).map Int8.ofInt, (·.toInt.repr)⟩
instance : Readable Int32 := ⟨fun s => (readSigned? 32 s).map Int32.ofInt, (·.toInt.repr)⟩
instance : Readable Int64 := ⟨fun s => (readSigned? 64 s).map Int64.ofInt, (·.toInt.repr)⟩

/-- Exactly the words `true` and `false`. -/
def readBool? (s : String) : Option Bool :=
  if s = "true" then some true else if s = "false" then some false else none

instance : Readable Bool := ⟨readBool?, fun b => if b then "true" else "false"⟩

/-- Exactly one character. -/
def readChar? (s : String) : Option Char :=
  match s.toList with
  | [c] => some c
  | _ => none

instance : Readable Char := ⟨readChar?, fun c => String.ofList [c]⟩

instance : Readable String := ⟨some, id⟩

end Readable

end Proactor
