import Mathlib.Data.List.Basic
import Mathlib.Data.List.TakeWhile
import Proactor.Address.Ipv4

/-!
# Dotted text

Reading and printing IPv4 hosts. An octet is read from the front of a text, as far as the digits
go. What is read there are the printed octets and nothing else, so the texts that are read as
hosts are the printed ones.
-/

namespace Proactor.Ipv4

/-! ### Decimal digits -/

/-- A digit is below ten. -/
theorem digitValue_lt {c : Char} (h : c.isDigit) : digitValue c < 10 := by
  have hrange := Char.isDigit_iff_toNat.mp h
  change 48 ≤ c.toNat ∧ c.toNat ≤ 57 at hrange
  change c.toNat - 48 < 10
  omega

/-- Only zero is written with the digit of zero. -/
theorem digitValue_pos {c : Char} (h : c.isDigit) (hzero : c ≠ '0') : 0 < digitValue c := by
  have hrange := Char.isDigit_iff_toNat.mp h
  change 48 ≤ c.toNat ∧ c.toNat ≤ 57 at hrange
  have hne : c.toNat ≠ 48 := fun he => hzero (Char.toNat_inj.mp he)
  change 0 < c.toNat - 48
  omega

/-- A digit is the text of its value. -/
theorem toDigits_digitValue {c : Char} (h : c.isDigit) : Nat.toDigits 10 (digitValue c) = [c] := by
  have hrange := Char.isDigit_iff_toNat.mp h
  change 48 ≤ c.toNat ∧ c.toNat ≤ 57 at hrange
  rw [Nat.toDigits_of_lt_base (digitValue_lt h), List.singleton_inj]
  apply Char.toNat_inj.mp
  rw [Nat.toNat_digitChar_of_lt_ten (digitValue_lt h)]
  change 48 + (c.toNat - 48) = c.toNat
  omega

/-- The value of digits, as the library has it. -/
theorem digitsValue_eq_ofDigitChars (ds : List Char) :
    digitsValue ds = Nat.ofDigitChars 10 ds 0 := by
  rw [Nat.ofDigitChars_eq_foldl]
  simp only [digitsValue, digitValue, Nat.mul_comm]

/-- Digits behind the text of a number that is not zero make the text of a number. -/
theorem toDigits_append {n : Nat} {ds : List Char} (hn : 0 < n) (hds : ∀ d ∈ ds, d.isDigit) :
    Nat.toDigits 10 n ++ ds = Nat.toDigits 10 (Nat.ofDigitChars 10 ds n) := by
  induction ds generalizing n with
  | nil => rw [List.append_nil, Nat.ofDigitChars_nil]
  | cons c ds ih =>
    obtain ⟨hc, hds⟩ := List.forall_mem_cons.mp hds
    calc Nat.toDigits 10 n ++ c :: ds
        = Nat.toDigits 10 n ++ Nat.toDigits 10 (digitValue c) ++ ds := by
          rw [toDigits_digitValue hc, List.append_assoc, List.singleton_append]
      _ = Nat.toDigits 10 (10 * n + digitValue c) ++ ds := by
          rw [Nat.toDigits_append_toDigits (by decide) hn (digitValue_lt hc)]
      _ = Nat.toDigits 10 (Nat.ofDigitChars 10 (c :: ds) n) := by
          rw [ih (by omega) hds, Nat.ofDigitChars_cons]
          rfl

/-- Digits of which the first of several is not zero are the text of the number they write. -/
theorem toDigits_digitsValue {ds : List Char} (hne : ds ≠ []) (hds : ∀ d ∈ ds, d.isDigit)
    (hzero : 1 < ds.length → ds.head? ≠ some '0') : Nat.toDigits 10 (digitsValue ds) = ds := by
  rw [digitsValue_eq_ofDigitChars]
  cases ds with
  | nil => exact absurd rfl hne
  | cons c ds =>
    obtain ⟨hc, hds⟩ := List.forall_mem_cons.mp hds
    have hfirst : Nat.ofDigitChars 10 (c :: ds) 0 = Nat.ofDigitChars 10 ds (digitValue c) := by
      rw [Nat.ofDigitChars_cons, Nat.mul_zero, Nat.zero_add]
      rfl
    rw [hfirst]
    cases ds with
    | nil => rw [Nat.ofDigitChars_nil, toDigits_digitValue hc]
    | cons d ds =>
      have hc0 : c ≠ '0' := fun he => hzero (by simp) (congrArg some he)
      rw [← toDigits_append (digitValue_pos hc hc0) hds, toDigits_digitValue hc,
        List.singleton_append]

/-- The text of a number that is not zero does not begin with a zero. -/
theorem head?_toDigits {n : Nat} (hn : 0 < n) : (Nat.toDigits 10 n).head? ≠ some '0' := by
  induction n using Nat.strongRecOn with
  | ind n ih =>
    by_cases hten : n < 10
    · rw [Nat.toDigits_of_lt_base hten, List.head?_singleton]
      intro h
      have hzero := congrArg Char.toNat (Option.some.inj h)
      rw [Nat.toNat_digitChar_of_lt_ten hten] at hzero
      change 48 + n = 48 at hzero
      omega
    · rw [Nat.toDigits_of_base_le (by decide) (by omega),
        List.head?_append_of_ne_nil _ Nat.toDigits_ne_nil]
      exact ih (n / 10) (by omega) (by omega)

/-! ### Octets -/

/-- The text of an octet: one to three digits, without a leading zero. -/
theorem octetText_digits (o : UInt8) : (octetText o).length ≤ 3 ∧
    (∀ d ∈ octetText o, d.isDigit) ∧
    (1 < (octetText o).length → (octetText o).head? ≠ some '0') ∧
    digitsValue (octetText o) = o.toNat := by
  have ho := o.toNat_lt
  refine ⟨?_, ?_, ?_, ?_⟩
  · exact (Nat.length_toDigits_le_iff (by decide) (by decide)).mpr (by omega)
  · intro d hd
    exact Nat.isDigit_of_mem_toDigits (by decide) (by decide) hd
  · intro hlong
    apply head?_toDigits
    apply Nat.pos_of_ne_zero
    intro hzero
    rw [octetText, hzero, Nat.toDigits_zero] at hlong
    exact absurd hlong (by decide)
  · rw [digitsValue_eq_ofDigitChars, octetText, Nat.ofDigitChars_ten_toDigits]

/-- No digit stands at the front. -/
def NoDigit (cs : List Char) : Prop := ∀ c, cs.head? = some c → c.isDigit = false

/-- Digits end where none follows. -/
theorem takeWhile_dropWhile_of_noDigit {ds rest : List Char} (hds : ∀ d ∈ ds, d.isDigit)
    (hrest : NoDigit rest) : (ds ++ rest).takeWhile Char.isDigit = ds ∧
      (ds ++ rest).dropWhile Char.isDigit = rest := by
  rw [List.takeWhile_append_of_pos hds, List.dropWhile_append_of_pos hds]
  cases rest with
  | nil => exact ⟨List.append_nil ds, rfl⟩
  | cons c rest =>
    have hc : c.isDigit = false := hrest c rfl
    rw [List.takeWhile_cons_of_neg (by simp [hc]), List.dropWhile_cons_of_neg (by simp [hc])]
    exact ⟨List.append_nil ds, rfl⟩

/-- What is left behind digits has no digit at its front. -/
theorem noDigit_dropWhile (cs : List Char) : NoDigit (cs.dropWhile Char.isDigit) := by
  intro c hc
  have hnot := List.head?_dropWhile_not Char.isDigit cs
  rw [hc] at hnot
  exact hnot

/-- Octets are read where they are printed. -/
theorem readOctet_eq_some_iff {cs rest : List Char} {o : UInt8} :
    readOctet cs = some (o, rest) ↔ cs = octetText o ++ rest ∧ NoDigit rest := by
  constructor
  · intro h
    simp only [readOctet] at h
    split at h
    · cases h
    split at h
    · cases h
    split at h
    · cases h
    · next hlength hzero hvalue =>
      obtain ⟨ho, hrest⟩ := Prod.mk.inj (Option.some.inj h)
      have htext : octetText o = cs.takeWhile Char.isDigit := by
        rw [octetText, ← ho, UInt8.toNat_ofNat', Nat.mod_eq_of_lt (by omega)]
        apply toDigits_digitsValue
        · intro hnil
          rw [hnil] at hlength
          exact hlength (.inl rfl)
        · intro d hd
          exact List.mem_takeWhile_imp hd
        · intro hlong hhead
          exact hzero ⟨hlong, hhead⟩
      rw [htext, ← hrest]
      exact ⟨List.takeWhile_append_dropWhile.symm, noDigit_dropWhile cs⟩
  · rintro ⟨rfl, hrest⟩
    obtain ⟨hlength, hdigits, hzero, hvalue⟩ := octetText_digits o
    obtain ⟨htake, hdrop⟩ := takeWhile_dropWhile_of_noDigit hdigits hrest
    have hpos : 0 < (octetText o).length := Nat.length_toDigits_pos
    have ho := o.toNat_lt
    simp only [readOctet, htake, hdrop, hvalue, UInt8.ofNat_toNat]
    rw [if_neg (by omega), if_neg (fun h => hzero h.1 h.2), if_neg (by omega)]

/-- Behind a point too. -/
theorem readPointOctet_eq_some_iff {cs rest : List Char} {o : UInt8} :
    readPointOctet cs = some (o, rest) ↔ cs = '.' :: (octetText o ++ rest) ∧ NoDigit rest := by
  unfold readPointOctet
  split
  · rw [readOctet_eq_some_iff, List.cons.injEq, eq_self_iff_true, true_and]
  · next hpoint =>
    constructor
    · intro h
      cases h
    · rintro ⟨rfl, _⟩
      exact absurd rfl (hpoint _)

/-! ### Hosts -/

/-- A point is no digit. -/
theorem noDigit_point (cs : List Char) : NoDigit ('.' :: cs) := by
  intro c hc
  obtain rfl := Option.some.inj hc
  decide

/-- What is read as a host are its dotted characters. -/
theorem ofChars?_eq_some_iff {cs : List Char} {ip : Ipv4} :
    ofChars? cs = some ip ↔ cs = ip.chars := by
  simp only [ofChars?, Option.bind_eq_bind, Option.bind_eq_some_iff, Prod.exists]
  constructor
  · rintro ⟨a, cs₁, ha, b, cs₂, hb, c, cs₃, hc, d, cs₄, hd, hend⟩
    obtain ⟨rfl, _⟩ := readOctet_eq_some_iff.mp ha
    obtain ⟨rfl, _⟩ := readPointOctet_eq_some_iff.mp hb
    obtain ⟨rfl, _⟩ := readPointOctet_eq_some_iff.mp hc
    obtain ⟨rfl, _⟩ := readPointOctet_eq_some_iff.mp hd
    split at hend
    · next hempty =>
      obtain rfl := Option.some.inj hend
      rw [List.isEmpty_iff.mp hempty, List.append_nil]
      rfl
    · cases hend
  · rintro rfl
    refine ⟨ip.a, _, readOctet_eq_some_iff.mpr ⟨rfl, noDigit_point _⟩,
      ip.b, _, readPointOctet_eq_some_iff.mpr ⟨rfl, noDigit_point _⟩,
      ip.c, _, readPointOctet_eq_some_iff.mpr ⟨rfl, noDigit_point _⟩,
      ip.d, [], readPointOctet_eq_some_iff.mpr ⟨by rw [List.append_nil], nofun⟩, rfl⟩

/-- The text that is read as a host is the one it is printed as. -/
theorem ofText?_eq_some_iff {s : String} {ip : Ipv4} : ofText? s = some ip ↔ s = ip.text := by
  rw [ofText?, ofChars?_eq_some_iff, text, ← String.toList_inj, String.toList_ofList]

/-- Only the text of a host is read. -/
theorem ofText?_eq_none_iff {s : String} : ofText? s = none ↔ ∀ ip : Ipv4, s ≠ ip.text := by
  rw [Option.eq_none_iff_forall_ne_some]
  exact forall_congr' fun ip => not_congr ofText?_eq_some_iff

example : ofText? "10.0.0.1" = some ⟨10, 0, 0, 1⟩ ∧ ofText? "10.0.0.01" = none := by decide

end Proactor.Ipv4
