import Mathlib.Algebra.Group.Nat.Defs
import Mathlib.Logic.Basic
import Mathlib.Logic.Function.Defs
import Proactor.Proofs.DottedText
import Proactor.Token

/-!
# Tokens

Every token is either a bookkeeping name, which the top bit tells, or made of the slot and the
generation that are read out of it. Of a generation 31 bits count, of the number of a bookkeeping
name 63, and nothing else is lost by packing. No two tokens are written alike.
-/

namespace Proactor.Token

/-! ### Packing -/

/-- A token is a bookkeeping name if bit 63 is set. -/
theorem isInternal_eq_testBit (t : Token) : t.isInternal = t.raw.toNat.testBit 63 := by
  have ht := t.raw.toNat_lt
  rw [isInternal, Nat.testBit_eq_decide_div_mod_eq, decide_eq_decide]
  omega

theorem toNat_sequence (t : Token) : t.sequence.toNat = t.raw.toNat % 0x8000000000000000 := by
  simp only [sequence, UInt64.toNat_ofNat']
  omega

/-- The number of a bookkeeping name is read back, up to the bit that does not count. -/
theorem toNat_sequence_internal (seq : UInt64) :
    (internal seq).sequence.toNat = seq.toNat % 0x8000000000000000 := by
  rw [toNat_sequence, toNat_raw_internal]
  omega

/-- A bookkeeping name is made of the number that is read out of it. -/
theorem internal_sequence {t : Token} (h : t.isInternal = true) : internal t.sequence = t := by
  have ht := t.raw.toNat_lt
  have htop : 0x8000000000000000 ≤ t.raw.toNat := of_decide_eq_true h
  have hraw : (internal t.sequence).raw = t.raw := by
    apply UInt64.toNat_inj.mp
    rw [toNat_raw_internal, toNat_sequence]
    omega
  cases t
  exact congrArg Token.mk hraw

/-- The tokens that are not made of the slot and the generation read out of them are the
bookkeeping names. -/
theorem ne_ofSlot_iff (t : Token) : t ≠ ofSlot t.index t.generation ↔ t.isInternal = true := by
  constructor
  · intro hne
    by_contra hslot
    exact hne (ofSlot_index_generation ((Bool.not_eq_true _).mp hslot)).symm
  · intro hinternal he
    rw [he, isInternal_ofSlot] at hinternal
    cases hinternal

/-- No name of a slot is a bookkeeping name. -/
theorem ofSlot_ne_internal (index generation : UInt32) (seq : UInt64) :
    ofSlot index generation ≠ internal seq := by
  intro he
  have hsame := congrArg isInternal he
  rw [isInternal_ofSlot, isInternal_internal] at hsame
  cases hsame

/-- Two slots have one name only if they are the same slot in the same generation, up to the bit
of the generation that does not count. -/
theorem ofSlot_eq_ofSlot_iff (i i' g g' : UInt32) : ofSlot i g = ofSlot i' g' ↔
    i = i' ∧ g.toNat % 0x80000000 = g'.toNat % 0x80000000 := by
  constructor
  · intro he
    have hindex := congrArg index he
    have hgeneration := congrArg (fun t => t.generation.toNat) he
    rw [index_ofSlot, index_ofSlot] at hindex
    simp only [toNat_generation_ofSlot] at hgeneration
    exact ⟨hindex, hgeneration⟩
  · rintro ⟨rfl, hg⟩
    simp only [ofSlot, hg]

/-! ### The written form -/

theorem toList_text_of_internal {t : Token} (h : t.isInternal = true) :
    t.text.toList = "internal#".toList ++ Nat.toDigits 10 t.sequence.toNat := by
  rw [text, if_pos h, String.toList_append, Nat.toList_repr]

theorem toList_text_of_slot {t : Token} (h : t.isInternal = false) :
    t.text.toList = Nat.toDigits 10 t.index.toNat ++ '.' :: Nat.toDigits 10 t.generation.toNat := by
  rw [text, if_neg (Bool.eq_false_iff.mp h), String.toList_append, String.toList_append,
    Nat.toList_repr, Nat.toList_repr, List.append_assoc]
  rfl

/-- Numbers with the same decimal digits are the same. -/
theorem toDigits_inj {m n : Nat} (h : Nat.toDigits 10 m = Nat.toDigits 10 n) : m = n := by
  rw [← Nat.ofDigitChars_ten_toDigits (n := m), h, Nat.ofDigitChars_ten_toDigits]

theorem isDigit_of_mem (n : Nat) : ∀ d ∈ Nat.toDigits 10 n, d.isDigit := fun _ hd =>
  Nat.isDigit_of_mem_toDigits (by decide) (by decide) hd

/-- The point ends the number of the slot. -/
theorem pointed_inj {i i' g g' : Nat}
    (h : Nat.toDigits 10 i ++ '.' :: Nat.toDigits 10 g =
      Nat.toDigits 10 i' ++ '.' :: Nat.toDigits 10 g') : i = i' ∧ g = g' := by
  have hleft := Ipv4.takeWhile_dropWhile_of_noDigit (isDigit_of_mem i)
    (Ipv4.noDigit_point (Nat.toDigits 10 g))
  have hright := Ipv4.takeWhile_dropWhile_of_noDigit (isDigit_of_mem i')
    (Ipv4.noDigit_point (Nat.toDigits 10 g'))
  rw [h] at hleft
  have hslot := hleft.1.symm.trans hright.1
  have hrest := hleft.2.symm.trans hright.2
  exact ⟨toDigits_inj hslot, toDigits_inj (List.cons.inj hrest).2⟩

/-- A bookkeeping name is written with a letter first, and no name of a slot is. -/
theorem text_ne_of_isInternal {t t' : Token} (h : t.isInternal = true)
    (h' : t'.isInternal = false) : t.text ≠ t'.text := by
  intro he
  have hchars := congrArg String.toList he
  rw [toList_text_of_internal h, toList_text_of_slot h'] at hchars
  cases hdigits : Nat.toDigits 10 t'.index.toNat with
  | nil => exact Nat.toDigits_ne_nil hdigits
  | cons d ds =>
    rw [hdigits] at hchars
    obtain ⟨hd, _⟩ := List.cons.inj hchars
    have hdigit : d.isDigit := isDigit_of_mem _ d (hdigits ▸ List.mem_cons_self)
    rw [← hd] at hdigit
    exact absurd hdigit (by decide)

/-- No two tokens are written alike. -/
theorem text_injective : Function.Injective text := by
  intro t t' he
  have hchars := congrArg String.toList he
  cases h : t.isInternal <;> cases h' : t'.isInternal
  case false.false =>
    rw [toList_text_of_slot h, toList_text_of_slot h'] at hchars
    obtain ⟨hindex, hgeneration⟩ := pointed_inj hchars
    rw [← ofSlot_index_generation h, ← ofSlot_index_generation h', UInt32.toNat_inj.mp hindex,
      UInt32.toNat_inj.mp hgeneration]
  case true.true =>
    rw [toList_text_of_internal h, toList_text_of_internal h'] at hchars
    have hsequence := toDigits_inj (List.append_cancel_left hchars)
    rw [← internal_sequence h, ← internal_sequence h', UInt64.toNat_inj.mp hsequence]
  case true.false => exact absurd he (text_ne_of_isInternal h h')
  case false.true => exact absurd he.symm (text_ne_of_isInternal h' h)

/-! ### Main statement -/

/-- What is packed into a token can be read back, and be seen in its text. -/
structure TellsApart : Prop where
  /-- The top bit tells bookkeeping names. -/
  topBit : ∀ t : Token, t.isInternal = t.raw.toNat.testBit 63
  /-- Every other token, and no bookkeeping name, is made of what is read out of it. -/
  kinds : ∀ t : Token, Xor (t.isInternal = true) (t = ofSlot t.index t.generation)
  slots : ∀ i g : UInt32, (ofSlot i g).isInternal = false ∧ (ofSlot i g).index = i ∧
    (ofSlot i g).generation.toNat = g.toNat % 2 ^ 31
  numbers : ∀ s : UInt64, (internal s).isInternal = true ∧
    (internal s).sequence.toNat = s.toNat % 2 ^ 63
  apart : ∀ (i g : UInt32) (s : UInt64), ofSlot i g ≠ internal s
  same : ∀ i i' g g' : UInt32, ofSlot i g = ofSlot i' g' ↔
    i = i' ∧ g.toNat % 2 ^ 31 = g'.toNat % 2 ^ 31
  /-- Different tokens have different texts. -/
  written : Function.Injective text

/-- Tokens are told apart by what was packed into them, and so are their texts. -/
theorem tokens_are_told_apart : TellsApart where
  topBit := isInternal_eq_testBit
  kinds t := by
    by_cases h : t = ofSlot t.index t.generation
    · exact .inr ⟨h, fun hinternal => (ne_ofSlot_iff t).mpr hinternal h⟩
    · exact .inl ⟨(ne_ofSlot_iff t).mp h, h⟩
  slots i g := ⟨isInternal_ofSlot i g, index_ofSlot i g, toNat_generation_ofSlot i g⟩
  numbers s := ⟨isInternal_internal s, toNat_sequence_internal s⟩
  apart := ofSlot_ne_internal
  same := ofSlot_eq_ofSlot_iff
  written := text_injective

example : (internal 5).text = "internal#5" ∧ (ofSlot 42 0xffffffff).text = "42.2147483647" := by
  decide +kernel

end Proactor.Token
