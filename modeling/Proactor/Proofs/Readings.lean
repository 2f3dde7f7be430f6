import Mathlib.Algebra.Group.Nat.Defs
import Mathlib.Data.List.Basic
import Mathlib.Data.List.TakeWhile
import Proactor.Environment
import Proactor.Proofs.DottedText

/-!
# Readings

What a text says when it is read: a number in decimal digits, maybe with a plus sign before them,
or one of a few words for a truth value, in either case with blanks around it. Whatever does not
say anything is not read. The bytes of a variable are the text of which they are the encoding.
-/

namespace Proactor

/-! ### Blanks around a text -/

namespace Text

/-- A text is a core with blanks around it, and the core begins and ends without one. -/
structure IsCore (cs core : List Char) : Prop where
  around : ∃ front back, cs = front ++ (core ++ back) ∧ (∀ c ∈ front, isBlank c) ∧
    ∀ c ∈ back, isBlank c
  first : ∀ c, core.head? = some c → isBlank c = false
  last : ∀ c, core.getLast? = some c → isBlank c = false

theorem isBlank_of_head?_dropWhile {cs : List Char} {c : Char}
    (h : (cs.dropWhile isBlank).head? = some c) : isBlank c = false := by
  have hnot := List.head?_dropWhile_not isBlank cs
  rw [h] at hnot
  exact hnot

theorem dropWhile_of_head? {cs : List Char} (h : ∀ c, cs.head? = some c → isBlank c = false) :
    cs.dropWhile isBlank = cs := by
  cases cs with
  | nil => rfl
  | cons c cs => exact List.dropWhile_cons_of_neg (by simp [h c rfl])

/-- What is between the blanks is the core. -/
theorem isCore_trimChars (cs : List Char) : IsCore cs (trimChars cs) := by
  let rest := cs.dropWhile isBlank
  let back := (rest.reverse.takeWhile isBlank).reverse
  have hrest : rest = trimChars cs ++ back := by
    rw [← List.reverse_inj, List.reverse_append, trimChars, List.reverse_reverse,
      List.reverse_reverse]
    exact List.takeWhile_append_dropWhile.symm
  refine ⟨⟨cs.takeWhile isBlank, back, ?_, ?_, ?_⟩, ?_, ?_⟩
  · rw [← hrest]
    exact List.takeWhile_append_dropWhile.symm
  · exact fun c hc => List.mem_takeWhile_imp hc
  · exact fun c hc => List.mem_takeWhile_imp (List.mem_reverse.mp hc)
  · intro c hc
    have hrestHead : rest.head? = some c := by
      rw [hrest, List.head?_append, hc]
      rfl
    exact isBlank_of_head?_dropWhile hrestHead
  · intro c hc
    rw [trimChars, List.getLast?_reverse] at hc
    exact isBlank_of_head?_dropWhile hc

/-- There is one core. -/
theorem trimChars_eq_iff {cs core : List Char} : trimChars cs = core ↔ IsCore cs core := by
  constructor
  · rintro rfl
    exact isCore_trimChars cs
  · rintro ⟨⟨front, back, rfl, hfront, hback⟩, hfirst, hlast⟩
    have hstart : (front ++ (core ++ back)).dropWhile isBlank = (core ++ back).dropWhile isBlank :=
      List.dropWhile_append_of_pos hfront
    rw [trimChars, hstart]
    cases core with
    | nil =>
      rw [List.nil_append, List.dropWhile_eq_nil_iff.mpr hback]
      rfl
    | cons c core =>
      have hcore : (c :: core ++ back).dropWhile isBlank = c :: core ++ back :=
        dropWhile_of_head? fun d hd => hfirst d hd
      have hend : ((c :: core).reverse).dropWhile isBlank = (c :: core).reverse :=
        dropWhile_of_head? fun d hd => hlast d (by rwa [List.head?_reverse] at hd)
      rw [hcore, List.reverse_append,
        List.dropWhile_append_of_pos fun d hd => hback d (List.mem_reverse.mp hd), hend,
        List.reverse_reverse]

theorem toList_trim (s : String) : (trim s).toList = trimChars s.toList :=
  String.toList_ofList

theorem toList_lower (s : String) : (lower s).toList = s.toList.map Char.toLower :=
  String.toList_ofList

end Text

/-! ### Numbers -/

namespace Readable

/-- Decimal digits, at least one, and the number that they write. -/
structure IsDecimal (ds : List Char) (n : Nat) : Prop where
  nonempty : ds ≠ []
  digits : ∀ d ∈ ds, d.isDigit
  value : Nat.ofDigitChars 10 ds 0 = n

/-- Decimal digits, maybe behind a plus sign. -/
def IsNumber (cs : List Char) (n : Nat) : Prop :=
  IsDecimal cs n ∨ ∃ ds, cs = '+' :: ds ∧ IsDecimal ds n

theorem readDigits?_eq_some_iff {cs : List Char} {n : Nat} :
    readDigits? cs = some n ↔ IsDecimal cs n := by
  have hvalue : cs.foldl (fun n c => n * 10 + (c.toNat - '0'.toNat)) 0 =
      Nat.ofDigitChars 10 cs 0 := Ipv4.digitsValue_eq_ofDigitChars cs
  unfold readDigits?
  rw [hvalue]
  constructor
  · intro h
    split at h
    · cases h
    · next hgood =>
      obtain ⟨hne, hall⟩ := not_or.mp (by simpa only [Bool.or_eq_true] using hgood)
      refine ⟨by simpa using hne, ?_, Option.some.inj h⟩
      simpa using hall
  · rintro ⟨hne, hall, rfl⟩
    have hgood : (cs.isEmpty || !cs.all Char.isDigit) = false := by
      simpa [hne] using hall
    rw [hgood]
    rfl

theorem readNat?_eq_some_iff {cs : List Char} {n : Nat} :
    readNat? cs = some n ↔ IsNumber cs n := by
  unfold readNat? IsNumber
  split
  · next ds =>
    -- A plus sign is no digit, so what is behind it has to be read.
    rw [readDigits?_eq_some_iff]
    constructor
    · exact fun h => .inr ⟨ds, rfl, h⟩
    · rintro (h | ⟨ds', he, h⟩)
      · exact absurd (h.digits '+' List.mem_cons_self) (by decide)
      · exact (List.cons.inj he).2 ▸ h
  · next hsign =>
    rw [readDigits?_eq_some_iff]
    constructor
    · exact .inl
    · rintro (h | ⟨ds, he, _⟩)
      · exact h
      · exact absurd he (hsign ds)

/-- What is read as an unsigned number is a number that fits. -/
theorem readUnsigned?_eq_some_iff {bits n : Nat} {s : String} :
    readUnsigned? bits s = some n ↔ IsNumber s.toList n ∧ n < 2 ^ bits := by
  rw [readUnsigned?, Option.filter_eq_some_iff, readNat?_eq_some_iff, decide_eq_true_iff]
  rfl

theorem read?_uint32_eq_some_iff {s : String} {n : UInt32} :
    (read? s : Option UInt32) = some n ↔ IsNumber s.toList n.toNat := by
  have hread : (read? s : Option UInt32) = (readUnsigned? 32 s).map UInt32.ofNat := rfl
  rw [hread, Option.map_eq_some_iff]
  constructor
  · rintro ⟨m, hm, rfl⟩
    obtain ⟨hnumber, hfits⟩ := readUnsigned?_eq_some_iff.mp hm
    rwa [UInt32.toNat_ofNat_of_lt' hfits]
  · intro h
    exact ⟨n.toNat, readUnsigned?_eq_some_iff.mpr ⟨h, n.toNat_lt⟩, UInt32.ofNat_toNat⟩

theorem read?_uint64_eq_some_iff {s : String} {n : UInt64} :
    (read? s : Option UInt64) = some n ↔ IsNumber s.toList n.toNat := by
  have hread : (read? s : Option UInt64) = (readUnsigned? 64 s).map UInt64.ofNat := rfl
  rw [hread, Option.map_eq_some_iff]
  constructor
  · rintro ⟨m, hm, rfl⟩
    obtain ⟨hnumber, hfits⟩ := readUnsigned?_eq_some_iff.mp hm
    rwa [UInt64.toNat_ofNat_of_lt' hfits]
  · intro h
    exact ⟨n.toNat, readUnsigned?_eq_some_iff.mpr ⟨h, n.toNat_lt⟩, UInt64.ofNat_toNat⟩

end Readable

/-! ### Flags and variables -/

namespace Environment

/-- The words for a truth value. -/
def flagWords : Bool → List String
  | true => ["1", "true", "yes", "on"]
  | false => ["0", "false", "no", "off"]

/-- The word for a truth value, in capital or small letters. -/
def IsFlag (cs : List Char) (b : Bool) : Prop :=
  ∃ word ∈ flagWords b, cs.map Char.toLower = word.toList

theorem flagWord?_eq_some_iff {s : String} {b : Bool} :
    flagWord? s = some b ↔ IsFlag (Text.trimChars s.toList) b := by
  have hlower : ∀ word : String, (Text.trimChars s.toList).map Char.toLower = word.toList ↔
      Text.lower (Text.trim s) = word := by
    intro word
    rw [← Text.toList_trim, ← Text.toList_lower, String.toList_inj]
  simp only [IsFlag, hlower, exists_eq_right']
  unfold flagWord?
  dsimp only
  generalize Text.lower (Text.trim s) = word
  constructor
  · intro h
    split at h
    · next hyes =>
      obtain rfl := Option.some.inj h
      exact List.contains_iff_mem.mp hyes
    · split at h
      · next hno =>
        obtain rfl := Option.some.inj h
        exact List.contains_iff_mem.mp hno
      · cases h
  · intro h
    cases b with
    | true => exact if_pos (List.contains_iff_mem.mpr h)
    | false =>
      have hno : ¬ ["1", "true", "yes", "on"].contains word = true := by
        simp only [flagWords, List.mem_cons, List.not_mem_nil, or_false] at h
        rcases h with rfl | rfl | rfl | rfl <;> decide
      exact (if_neg hno).trans (if_pos (List.contains_iff_mem.mpr h))

/-- Bytes are the text of which they are the encoding. -/
theorem textOf?_eq_some_iff {value : Bytes} {s : String} :
    textOf? value = some s ↔ value = s.toUTF8.data.toList := by
  unfold textOf? String.fromUTF8?
  constructor
  · intro h
    split at h
    · obtain rfl := Option.some.inj h
      rfl
    · cases h
  · rintro rfl
    exact dif_pos s.isValidUTF8

theorem text?_eq_some_iff {env : Environment} {key : String} {s : String} :
    env.text? key = some s ↔ env.entries.lookup key = some s.toUTF8.data.toList := by
  rw [text?, Option.bind_eq_some_iff]
  constructor
  · rintro ⟨value, hvalue, htext⟩
    exact hvalue.trans (congrArg some (textOf?_eq_some_iff.mp htext))
  · intro h
    exact ⟨_, h, textOf?_eq_some_iff.mpr rfl⟩

end Environment

end Proactor
