import Proactor.Proofs.FiniteMap

/-!
# When an old token comes back

A token carries the generation that its slot had when it was issued, and the slot moves on by one
each time it is vacated. So an old token can be issued again, or reach anybody, only after its slot
was vacated a multiple of `2 ^ 31` times, and after that many times it does.
-/

namespace Proactor.Slab

variable {α : Type}

/-- The token that an exchange issued. -/
def issued? : Op α × Returned α → Option Token
  | (.insert _, .token t) => some t
  | _ => none

/-- The exchange shows that the token names somebody. -/
def resolves (t : Token) : Op α × Returned α → Bool
  | (.take u, .taken (some _)) => u == t
  | (.contains u, .flag true) => u == t
  | _ => false

/-! ### Parts of a run -/

theorem after_append (s : Slab α) (ops ops' : List (Op α)) :
    s.after (ops ++ ops') = (s.after ops).after ops' := by
  induction ops generalizing s with
  | nil => rfl
  | cons op ops ih => exact ih (s.call op).1

theorem exchanges_append (s : Slab α) (ops ops' : List (Op α)) :
    s.exchanges (ops ++ ops') = s.exchanges ops ++ (s.after ops).exchanges ops' := by
  induction ops generalizing s with
  | nil => rfl
  | cons op ops ih => exact congrArg (_ :: ·) (ih (s.call op).1)

/-- Where what was returned is cut in two, the calls are cut in two as well. -/
theorem exists_of_exchanges_eq_append {s : Slab α} {ops : List (Op α)}
    {l l' : List (Op α × Returned α)} (h : s.exchanges ops = l ++ l') :
    ∃ ops₁ ops₂, ops = ops₁ ++ ops₂ ∧ s.exchanges ops₁ = l ∧
      (s.after ops₁).exchanges ops₂ = l' := by
  induction l generalizing s ops with
  | nil => exact ⟨[], ops, rfl, rfl, h⟩
  | cons x l ih =>
    cases ops with
    | nil => cases h
    | cons op ops =>
      obtain ⟨hx, hrest⟩ := List.cons.inj h
      obtain ⟨ops₁, ops₂, hops, hl, hl'⟩ := ih hrest
      refine ⟨op :: ops₁, ops₂, by rw [hops, List.cons_append], ?_, hl'⟩
      rw [exchanges, hx, hl]

/-- An exchange was a call on the slab that there was then. -/
theorem exists_of_exchanges_eq_cons {s : Slab α} {ops : List (Op α)} {x : Op α × Returned α}
    {l : List (Op α × Returned α)} (h : s.exchanges ops = x :: l) :
    ∃ ops', ops = x.1 :: ops' ∧ x.2 = (s.call x.1).2 ∧ (s.call x.1).1.exchanges ops' = l := by
  cases ops with
  | nil => cases h
  | cons op ops =>
    obtain ⟨rfl, hrest⟩ := List.cons.inj h
    exact ⟨ops, rfl, rfl, hrest⟩

/-- The slab stays tidy on the way. -/
theorem Tidy.after {s : Slab α} (hs : s.Tidy) (ops : List (Op α))
    (hroom : (s.after ops).slots.length ≤ 2 ^ 32) : (s.after ops).Tidy := by
  induction ops generalizing s with
  | nil => exact hs
  | cons op ops ih => exact ih (hs.call op (Nat.le_trans (length_slots_after_le _ ops) hroom)) hroom

/-! ### Tokens and generations -/

theorem call_take {s s' : Slab α} {t : Token} {a : α} (h : s.take t = some (a, s')) :
    s.call (.take t) = (s', .taken (some a)) := by
  simp only [call, h]

/-- A token that names somebody carries the generation of its slot. -/
theorem generationAt_of_get? {s : Slab α} {t : Token} {a : α} (h : s.get? t = some a) :
    s.generationAt t.index = t.generation := by
  obtain ⟨_, slot, hslot, hgen, _⟩ := (get?_eq_some_iff s t a).mp h
  rw [generationAt, hslot]
  exact hgen

/-- An exchange that shows a token to name somebody was had with a slab in which it does. -/
theorem exists_of_resolves {s : Slab α} {t : Token} {op : Op α}
    (h : resolves t (op, (s.call op).2) = true) : ∃ a, s.get? t = some a := by
  cases op with
  | insert a => cases h
  | take u =>
    cases hu : s.take u with
    | none =>
      simp only [call, hu] at h
      cases h
    | some x =>
      simp only [call, hu, resolves, beq_iff_eq] at h
      rw [← h]
      exact ⟨x.1, get?_of_take hu⟩
  | contains u =>
    cases hu : s.contains u with
    | false =>
      simp only [call, hu] at h
      cases h
    | true =>
      simp only [call, hu, resolves, beq_iff_eq] at h
      rw [← h]
      exact Option.isSome_iff_exists.mp hu

/-- Whoever a token names stays until the slot is vacated. -/
theorem Tidy.get?_call {s : Slab α} (hs : s.Tidy) {t : Token} {a : α} (h : s.get? t = some a)
    (op : Op α) (hroom : (s.call op).1.slots.length ≤ 2 ^ 32)
    (hkept : vacates t.index (op, (s.call op).2) = false) : (s.call op).1.get? t = some a := by
  cases op with
  | insert b =>
    have hne : t ≠ (s.insert b).2 := by
      intro he
      rw [he, hs.get?_token_insert b hroom] at h
      cases h
    simp only [Slab.call]
    rw [hs.get?_insert b hroom, if_neg hne]
    exact h
  | take u =>
    cases hu : s.take u with
    | none =>
      simp only [Slab.call, hu]
      exact h
    | some x =>
      simp only [Slab.call, hu, vacates, beq_eq_false_iff_ne] at hkept ⊢
      have hne : t ≠ u := by
        intro he
        exact hkept (congrArg Token.index he.symm)
      rw [get?_take hu, if_neg hne]
      exact h
  | contains u => exact h

section

variable {s : Slab α} (hs : s.Tidy) {t : Token} (ops : List (Op α))
  (hroom : (s.after ops).slots.length ≤ 2 ^ 32)
include hs hroom

/-- Whoever a token names stays for as long as the slot is not vacated. -/
theorem Tidy.get?_after {a : α} (h : s.get? t = some a)
    (hkept : (s.exchanges ops).countP (vacates t.index) = 0) : (s.after ops).get? t = some a := by
  induction ops generalizing s with
  | nil => exact h
  | cons op ops ih =>
    have hroom₁ := Nat.le_trans (length_slots_after_le (s.call op).1 ops) hroom
    rw [exchanges, List.countP_cons, Nat.add_eq_zero_iff] at hkept
    apply ih (hs.call op hroom₁) hroom _ hkept.1
    apply hs.get?_call h op hroom₁
    by_contra hvacated
    simp [hvacated] at hkept

/-- A slot is at the same generation again only if it was vacated a multiple of `2 ^ 31` times. -/
theorem Tidy.dvd_vacations (h : s.generationAt t.index = t.generation)
    (h' : (s.after ops).generationAt t.index = t.generation) :
    2 ^ 31 ∣ (s.exchanges ops).countP (vacates t.index) := by
  have hgen := toNat_generationAt_after hs ops hroom t.index
  have hlt := hs.generationAt_lt t.index
  rw [h'] at hgen
  rw [h] at hgen hlt
  omega

/-- A token that names somebody is issued again only after its slot was vacated a positive
multiple of `2 ^ 31` times. -/
theorem Tidy.exists_turns {a b : α} (h : s.get? t = some a)
    (hroom' : ((s.after ops).insert b).1.slots.length ≤ 2 ^ 32)
    (hagain : ((s.after ops).insert b).2 = t) :
    ∃ k, 0 < k ∧ (s.exchanges ops).countP (vacates t.index) = k * 2 ^ 31 := by
  have hs' := hs.after ops hroom
  have hnew : (s.after ops).get? t = none := by
    rw [← hagain]
    exact hs'.get?_token_insert b hroom'
  have hget : ((s.after ops).insert b).1.get? t = some b := by
    rw [hs'.get?_insert b hroom', if_pos hagain.symm]
  have hgen : (s.after ops).generationAt t.index = t.generation := by
    rw [← generationAt_insert hs'.toSound b]
    exact generationAt_of_get? hget
  obtain ⟨k, hk⟩ := hs.dvd_vacations ops hroom (generationAt_of_get? h) hgen
  refine ⟨k, Nat.pos_of_ne_zero fun hzero => ?_, by rw [hk, Nat.mul_comm]⟩
  rw [hzero, Nat.mul_zero] at hk
  rw [hs.get?_after ops hroom h hk] at hnew
  cases hnew

omit hs in
/-- A token whose occupant was taken out names somebody only after that and later vacations of its
slot are `2 ^ 31` in number. -/
theorem Tidy.le_vacations_of_take {s₀ : Slab α} (hs₀ : s₀.Tidy) {a b : α}
    (htake : s₀.take t = some (a, s)) (h : (s.after ops).get? t = some b) :
    2 ^ 31 ≤ 1 + (s.exchanges ops).countP (vacates t.index) := by
  have hcall := call_take htake
  have hgen₀ := generationAt_of_get? (get?_of_take htake)
  have hroom₀ : (s₀.after (.take t :: ops)).slots.length ≤ 2 ^ 32 := by
    rw [Slab.after, hcall]
    exact hroom
  have hdvd := hs₀.dvd_vacations (.take t :: ops) hroom₀ hgen₀ (by
    rw [Slab.after, hcall]
    exact generationAt_of_get? h)
  simp only [exchanges, hcall, List.countP_cons, vacates, beq_self_eq_true, if_pos] at hdvd
  have hle := Nat.le_of_dvd (Nat.succ_pos _) hdvd
  omega

end

/-! ### Issued twice -/

/-- Between the two times that a token is issued its slot is vacated a positive multiple of
`2 ^ 31` times. -/
theorem Tidy.turns_between {s : Slab α} (hs : s.Tidy) {ops : List (Op α)}
    (hroom : (s.after ops).slots.length ≤ 2 ^ 32) {l₁ l₂ l₃ : List (Op α × Returned α)} {a b : α}
    {t : Token}
    (h : s.exchanges ops = l₁ ++ (.insert a, .token t) :: (l₂ ++ (.insert b, .token t) :: l₃)) :
    ∃ k, 0 < k ∧ l₂.countP (vacates t.index) = k * 2 ^ 31 := by
  obtain ⟨ops₁, rest, rfl, _, hrest⟩ := exists_of_exchanges_eq_append h
  obtain ⟨rest, rfl, hfirst, hrest⟩ := exists_of_exchanges_eq_cons hrest
  obtain ⟨ops₂, rest, rfl, hbetween, hrest⟩ := exists_of_exchanges_eq_append hrest
  obtain ⟨ops₃, rfl, hsecond, _⟩ := exists_of_exchanges_eq_cons hrest
  rw [after_append] at hroom
  simp only [Slab.after, after_append, Slab.call] at hroom hfirst hsecond hbetween
  generalize hs₁ : s.after ops₁ = s₁ at hroom hfirst hsecond hbetween
  have hroom₃ := Nat.le_trans (length_slots_after_le _ ops₃) hroom
  have hroom₂ := Nat.le_trans (Grows.le (grows_insert _ b)) hroom₃
  have hroom₁ := Nat.le_trans (length_slots_after_le _ ops₂) hroom₂
  have htidy₁ : s₁.Tidy := by
    rw [← hs₁]
    apply hs.after ops₁
    rw [hs₁]
    exact Nat.le_trans (Grows.le (grows_insert _ a)) hroom₁
  obtain rfl := Returned.token.inj hfirst
  have hget : (s₁.insert a).1.get? (s₁.insert a).2 = some a := by
    rw [htidy₁.get?_insert a hroom₁, if_pos rfl]
  rw [← hbetween]
  exact (htidy₁.insert a hroom₁).exists_turns ops₂ hroom₂ hget hroom₃ (Returned.token.inj hsecond).symm

/-- Two entries of a list, one before the other, cut it in three. -/
theorem exists_eq_of_sublist {β : Type} {x y : β} {l : List β} (h : [x, y].Sublist l) :
    ∃ l₁ l₂ l₃, l = l₁ ++ x :: (l₂ ++ y :: l₃) := by
  obtain ⟨r₁, r₂, rfl, hx, hy⟩ := List.cons_sublist_iff.mp h
  obtain ⟨l₁, l₂, rfl⟩ := List.append_of_mem hx
  obtain ⟨l₂', l₃, rfl⟩ := List.append_of_mem (List.singleton_sublist.mp hy)
  exact ⟨l₁, l₂ ++ l₂', l₃, by simp⟩

/-- In a run that never vacates a slot `2 ^ 31` times no token is issued twice. -/
theorem Tidy.nodup_issued {s : Slab α} (hs : s.Tidy) {ops : List (Op α)}
    (hroom : (s.after ops).slots.length ≤ 2 ^ 32)
    (hfew : ∀ i, (s.exchanges ops).countP (vacates i) < 2 ^ 31) :
    ((s.exchanges ops).filterMap issued?).Nodup := by
  refine List.pairwise_filterMap.mpr (List.pairwise_iff_forall_sublist.mpr ?_)
  intro x y hxy t hx t' hy he
  subst he
  obtain ⟨l₁, l₂, l₃, h⟩ := exists_eq_of_sublist hxy
  obtain ⟨opx, rx⟩ := x
  obtain ⟨opy, ry⟩ := y
  cases opx <;> cases rx <;> cases hx
  cases opy <;> cases ry <;> cases hy
  obtain ⟨k, hk, hcount⟩ := hs.turns_between hroom h
  have hle := hfew t.index
  rw [h] at hle
  simp only [List.countP_append, List.countP_cons] at hle
  omega

/-- In a run that never vacates a slot `2 ^ 31` times a token whose occupant was taken out is not
seen to name anybody from then on. -/
theorem Tidy.stale {s : Slab α} (hs : s.Tidy) {ops : List (Op α)}
    (hroom : (s.after ops).slots.length ≤ 2 ^ 32)
    (hfew : ∀ i, (s.exchanges ops).countP (vacates i) < 2 ^ 31)
    {l l' : List (Op α × Returned α)} {t : Token} {a : α}
    (h : s.exchanges ops = l ++ (.take t, .taken (some a)) :: l') :
    (∀ x ∈ l', resolves t x = false) ∧ (s.after ops).get? t = none := by
  have hcount := hfew t.index
  rw [h] at hcount
  simp only [List.countP_append, List.countP_cons, vacates, beq_self_eq_true, if_pos] at hcount
  obtain ⟨ops₁, rest, rfl, _, hrest⟩ := exists_of_exchanges_eq_append h
  obtain ⟨ops₂, rfl, htaken, hrest⟩ := exists_of_exchanges_eq_cons hrest
  rw [after_append] at hroom ⊢
  generalize hs₁ : s.after ops₁ = s₁ at hroom htaken hrest ⊢
  have htidy₁ : s₁.Tidy := by
    rw [← hs₁]
    apply hs.after ops₁
    rw [hs₁]
    exact Nat.le_trans (length_slots_after_le s₁ _) hroom
  obtain ⟨s₂, htake⟩ : ∃ s₂, s₁.take t = some (a, s₂) := by
    cases ht : s₁.take t with
    | none => simp [Slab.call, ht] at htaken
    | some x =>
      simp only [Slab.call, ht, Returned.taken.injEq, Option.some.injEq] at htaken
      exact ⟨x.2, by rw [htaken]⟩
  simp only [Slab.after, Slab.call, htake] at hroom hrest ⊢
  -- At any point of what follows too little has been vacated for the token to reach anybody.
  have hnone : ∀ ops₃ ops₄, ops₂ = ops₃ ++ ops₄ → (s₂.after ops₃).get? t = none := by
    intro ops₃ ops₄ hops
    rw [Option.eq_none_iff_forall_ne_some]
    intro b hb
    have hroom₃ : (s₂.after ops₃).slots.length ≤ 2 ^ 32 := by
      rw [hops, after_append] at hroom
      exact Nat.le_trans (length_slots_after_le _ ops₄) hroom
    have hle := Tidy.le_vacations_of_take ops₃ hroom₃ htidy₁ htake hb
    rw [← hrest, hops, exchanges_append, List.countP_append] at hcount
    omega
  refine ⟨fun x hx => ?_, hnone ops₂ [] (List.append_nil _).symm⟩
  obtain ⟨l₃, l₄, rfl⟩ := List.append_of_mem hx
  obtain ⟨ops₃, rest, hops, _, hrest⟩ := exists_of_exchanges_eq_append hrest
  obtain ⟨_, _, hcall, _⟩ := exists_of_exchanges_eq_cons hrest
  by_contra hresolves
  rw [Bool.not_eq_false, ← Prod.eta x, hcall] at hresolves
  obtain ⟨b, hb⟩ := exists_of_resolves hresolves
  rw [hnone ops₃ rest hops] at hb
  cases hb

/-! ### All the way round -/

/-- A slab with one slot, which is vacant. -/
def vacant (g : UInt32) : Slab α where
  slots := [⟨g, none⟩]
  free := [0]

/-- A slab with one slot and somebody in it. -/
def occupied (a : α) (g : UInt32) : Slab α where
  slots := [⟨g, some a⟩]
  live := 1

/-- The slot is occupied and vacated. -/
def turn (a : α) (g : UInt32) : List (Op α) := [.insert a, .take (.ofSlot 0 g)]

theorem call_insert_vacant (a : α) (g : UInt32) :
    (vacant g).call (.insert a) = (occupied a g, .token (.ofSlot 0 g)) := rfl

section

variable (a : α) {g : UInt32} (hg : g.toNat < 2 ^ 31)
include hg

theorem generation_ofSlot (i : UInt32) : (Token.ofSlot i g).generation = g :=
  ((Token.eq_ofSlot_iff hg).mp rfl).2.2

theorem get?_occupied : (occupied a g).get? (.ofSlot 0 g) = some a := by
  rw [get?_eq_some_iff]
  exact ⟨Token.isInternal_ofSlot 0 g, ⟨g, some a⟩, by rw [Token.index_ofSlot]; rfl,
    (generation_ofSlot hg 0).symm, rfl⟩

theorem take_occupied :
    (occupied a g).take (.ofSlot 0 g) = some (a, vacant (nextGeneration g)) := by
  unfold take
  rw [get?_occupied a hg, Option.map_some, generation_ofSlot hg, Token.index_ofSlot]
  simp only [occupied, vacant, UInt32.toNat_zero, List.set_cons_zero, Nat.sub_self]

theorem call_take_occupied : (occupied a g).call (.take (.ofSlot 0 g)) =
    (vacant (nextGeneration g), .taken (some a)) :=
  call_take (take_occupied a hg)

theorem after_turn : (vacant g).after (turn a g) = vacant (nextGeneration g) := by
  rw [turn, Slab.after, call_insert_vacant, Slab.after, call_take_occupied a hg, Slab.after]

theorem exchanges_turn : (vacant g).exchanges (turn a g) =
    [(.insert a, .token (.ofSlot 0 g)), (.take (.ofSlot 0 g), .taken (some a))] := by
  rw [turn, exchanges, call_insert_vacant, exchanges, call_take_occupied a hg, exchanges]

end

/-- The generation of a slot that was vacated `n` times. -/
def nthGeneration (n : Nat) : UInt32 := UInt32.ofNat (n % 2 ^ 31)

theorem toNat_nthGeneration_lt (n : Nat) : (nthGeneration n).toNat < 2 ^ 31 := by
  rw [nthGeneration, UInt32.toNat_ofNat']
  omega

theorem nextGeneration_nthGeneration (n : Nat) :
    nextGeneration (nthGeneration n) = nthGeneration (n + 1) := by
  apply UInt32.toNat_inj.mp
  simp only [nextGeneration, nthGeneration, UInt32.toNat_ofNat']
  omega

/-- What is inserted into an empty slab is answered as if there were a vacant slot. -/
theorem after_insert_empty (a : α) (ops : List (Op α)) :
    ({} : Slab α).after (.insert a :: ops) =
      (vacant (nthGeneration 0)).after (.insert a :: ops) := rfl

theorem exchanges_insert_empty (a : α) (ops : List (Op α)) :
    ({} : Slab α).exchanges (.insert a :: ops) =
      (vacant (nthGeneration 0)).exchanges (.insert a :: ops) := rfl

/-- The slot is occupied and vacated `k` times, after it was vacated `n` times. -/
def turns (a : α) (n k : Nat) : List (Op α) :=
  (List.range' n k).flatMap fun i => turn a (nthGeneration i)

/-- The first of some turns, and the others. -/
theorem turns_succ (a : α) (n k : Nat) :
    turns a n (k + 1) = turn a (nthGeneration n) ++ turns a (n + 1) k := by
  rw [turns, List.range'_succ, List.flatMap_cons]
  rfl

/-- Each turn takes the slot to its next generation. -/
theorem after_turns (a : α) (n k : Nat) :
    (vacant (nthGeneration n)).after (turns a n k) = vacant (nthGeneration (n + k)) := by
  induction k generalizing n with
  | zero => rfl
  | succ k ih =>
    rw [turns_succ, after_append, after_turn a (toNat_nthGeneration_lt n),
      nextGeneration_nthGeneration, ih, Nat.add_right_comm, Nat.add_assoc]

/-- Each turn vacates the slot once. -/
theorem countP_turns (a : α) (n k : Nat) :
    ((vacant (nthGeneration n)).exchanges (turns a n k)).countP (vacates 0) = k := by
  induction k generalizing n with
  | zero => rfl
  | succ k ih =>
    have hlt := toNat_nthGeneration_lt n
    rw [turns_succ, exchanges_append, List.countP_append, exchanges_turn a hlt, after_turn a hlt,
      nextGeneration_nthGeneration, ih, Nat.add_comm k]
    simp [vacates]

/-- As soon as the generations of the slot have come round, its first token is issued again. -/
theorem exists_reissued (a b : α) {k : Nat} (hround : nthGeneration (k + 1) = nthGeneration 0) :
    ∃ (ops : List (Op α)) (t : Token) (between : List (Op α × Returned α)),
      ({} : Slab α).exchanges ops =
        (.insert a, .token t) :: (.take t, .taken (some a)) ::
          (between ++ [(.insert b, .token t)]) ∧
      (({} : Slab α).exchanges ops).countP (vacates t.index) = k + 1 ∧
      (({} : Slab α).after ops).slots.length = 1 ∧
      (({} : Slab α).after ops).get? t = some b := by
  have hlt := toNat_nthGeneration_lt 0
  have hcount := countP_turns a 0 (k + 1)
  have hturns : (vacant (nthGeneration 0)).after (turns a 0 (k + 1)) =
      vacant (nthGeneration 0) := by
    rw [after_turns, Nat.zero_add, hround]
  have hfirst : turns a 0 (k + 1) ++ [.insert b] =
      .insert a :: (.take (.ofSlot 0 (nthGeneration 0)) :: turns a 1 k ++ [.insert b]) := by
    rw [turns_succ]
    rfl
  have hafter : ({} : Slab α).after (turns a 0 (k + 1) ++ [.insert b]) =
      occupied b (nthGeneration 0) := by
    rw [hfirst, after_insert_empty, ← hfirst, after_append, hturns]
    rfl
  have hexchanges : ({} : Slab α).exchanges (turns a 0 (k + 1) ++ [.insert b]) =
      (vacant (nthGeneration 0)).exchanges (turns a 0 (k + 1)) ++
        [(.insert b, .token (.ofSlot 0 (nthGeneration 0)))] := by
    rw [hfirst, exchanges_insert_empty, ← hfirst, exchanges_append, hturns]
    rfl
  refine ⟨turns a 0 (k + 1) ++ [.insert b], .ofSlot 0 (nthGeneration 0),
    (vacant (nextGeneration (nthGeneration 0))).exchanges (turns a 1 k), ?_⟩
  rw [hafter, hexchanges]
  refine ⟨?_, ?_, rfl, get?_occupied b hlt⟩
  · rw [turns_succ, exchanges_append, exchanges_turn a hlt, after_turn a hlt]
    rfl
  · rw [List.countP_append, Token.index_ofSlot, hcount]
    rfl

/-- A token that was issued is issued again only after its slot was vacated a positive multiple of
`2 ^ 31` times since. So if no slot is vacated that often, all tokens that are issued are
different, and one whose occupant was taken out is never seen to name anybody again, and names
nobody in the end. And the bound is what it takes: `2 ^ 31` times are enough for an old token to
reach a new occupant. -/
theorem old_token_returns_only_after_full_turns (ops : List (Op α))
    (hroom : (({} : Slab α).after ops).slots.length ≤ 2 ^ 32) :
    (∀ l₁ l₂ l₃ a b t, ({} : Slab α).exchanges ops =
        l₁ ++ (.insert a, .token t) :: (l₂ ++ (.insert b, .token t) :: l₃) →
      ∃ k, 0 < k ∧ l₂.countP (vacates t.index) = k * 2 ^ 31) ∧
    ((∀ i, (({} : Slab α).exchanges ops).countP (vacates i) < 2 ^ 31) →
      ((({} : Slab α).exchanges ops).filterMap issued?).Nodup ∧
      ∀ l l' t a, ({} : Slab α).exchanges ops = l ++ (.take t, .taken (some a)) :: l' →
        (∀ x ∈ l', resolves t x = false) ∧ (({} : Slab α).after ops).get? t = none) ∧
    ∀ a b : α, ∃ (ops' : List (Op α)) (t : Token) (between : List (Op α × Returned α)),
      ({} : Slab α).exchanges ops' =
        (.insert a, .token t) :: (.take t, .taken (some a)) ::
          (between ++ [(.insert b, .token t)]) ∧
      (({} : Slab α).exchanges ops').countP (vacates t.index) = 2 ^ 31 ∧
      (({} : Slab α).after ops').slots.length = 1 ∧
      (({} : Slab α).after ops').get? t = some b := by
  refine ⟨?_, fun hfew => ⟨?_, ?_⟩, ?_⟩
  · intro l₁ l₂ l₃ a b t h
    exact tidy_empty.turns_between hroom h
  · exact tidy_empty.nodup_issued hroom hfew
  · intro l l' t a h
    exact tidy_empty.stale hroom hfew h
  · intro a b
    have hround : nthGeneration ((2 ^ 31 - 1) + 1) = nthGeneration 0 := rfl
    exact exists_reissued a b hround

/-- In the run in which the first slot changes hands its old token reaches nobody, while the new
occupant is there under another. -/
theorem old_token_returns_only_after_full_turns_of_stale :
    (({} : Slab String).after comeAndGo).slots.length ≤ 2 ^ 32 ∧
    (∀ i, (({} : Slab String).exchanges comeAndGo).countP (vacates i) < 2 ^ 31) ∧
    ((({} : Slab String).exchanges comeAndGo).filterMap issued?).Nodup ∧
    (({} : Slab String).after comeAndGo).get? ⟨0⟩ = none ∧
    (({} : Slab String).after comeAndGo).get? (.ofSlot 0 1) = some "c" := by
  have hroom : (({} : Slab String).after comeAndGo).slots.length ≤ 2 ^ 32 := by decide
  have hfew : ∀ i, (({} : Slab String).exchanges comeAndGo).countP (vacates i) < 2 ^ 31 := by
    intro i
    exact Nat.lt_of_le_of_lt List.countP_le_length (by decide)
  obtain ⟨hnodup, hstale⟩ := (old_token_returns_only_after_full_turns comeAndGo hroom).2.1 hfew
  obtain ⟨_, hnone⟩ := hstale (({} : Slab String).exchanges [.insert "a", .insert "b"]) _ ⟨0⟩ "a" rfl
  exact ⟨hroom, hfew, hnodup, hnone, by decide⟩

end Proactor.Slab
