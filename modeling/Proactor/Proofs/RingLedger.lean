import Proactor.Port.Ring
import Proactor.Proofs.PortRuns

/-!
# The ledger of a ring

A ring port shares an operation with its host: an entry waits to be taken, is carried out, and its
completion waits to be reaped. What the host has of it is kept in a ledger: the tokens of the
entries that it carries out, and those of the completions that it has posted. Nothing else is
asked of a host than that it keeps its ledger; it may post at any time and in any order.
-/

namespace Proactor

/-- What a host has of a ring: for each of its states, the tokens of the operations that it carries
out, in no order, and those of the completions it has posted, the oldest first. -/
structure Ledger (H : Type) where
  fd : Fd
  running : H → Multiset Token
  posted : H → List Token

namespace Ledger

variable {H : Type}

/-- All tokens that a host has. -/
def tokens (l : Ledger H) (h : H) : Multiset Token := l.running h + l.posted h

/-- From one moment to another a host took entries, completions were reaped from the front, and
besides the host only posted what it carried out. -/
def Moves (l : Ledger H) (h : H) (taken : List Entry) (reaped : List Completion) (h' : H) : Prop :=
  ∃ more : List Token,
    l.posted h ++ more = reaped.map Completion.token ++ l.posted h' ∧
    l.running h + entryTokens taken = l.running h' + more

/-- A host went on by itself. -/
def GoesOn (l : Ledger H) (h h' : H) : Prop := l.Moves h [] [] h'

namespace Moves

variable {l : Ledger H} {h h' h'' : H} {taken taken' : List Entry}
  {reaped reaped' : List Completion}

theorem refl (l : Ledger H) (h : H) : l.Moves h [] [] h := ⟨[], by simp, rfl⟩

theorem trans (m : l.Moves h taken reaped h') (m' : l.Moves h' taken' reaped' h'') :
    l.Moves h (taken ++ taken') (reaped ++ reaped') h'' := by
  obtain ⟨more, hposted, hrunning⟩ := m
  obtain ⟨more', hposted', hrunning'⟩ := m'
  refine ⟨more ++ more', ?_, ?_⟩
  · rw [← List.append_assoc, hposted, List.append_assoc, hposted', List.map_append,
      List.append_assoc]
  · calc l.running h + entryTokens (taken ++ taken')
        = l.running h + entryTokens taken + entryTokens taken' := by
          rw [entryTokens_append, add_assoc]
      _ = l.running h' + entryTokens taken' + more := by
          rw [hrunning, add_right_comm]
      _ = l.running h'' + ↑(more ++ more') := by
          rw [hrunning', ← Multiset.coe_add, add_assoc, add_comm (more' : Multiset Token)]

/-- What a host had and took is what was reaped and what it has now. -/
theorem tokens (m : l.Moves h taken reaped h') :
    l.tokens h + entryTokens taken = completionTokens reaped + l.tokens h' := by
  obtain ⟨more, hposted, hrunning⟩ := m
  have hposted' : (l.posted h : Multiset Token) + more = completionTokens reaped + l.posted h' := by
    rw [completionTokens, Multiset.coe_add, Multiset.coe_add, hposted]
  calc l.tokens h + entryTokens taken
      = l.running h + entryTokens taken + l.posted h := by rw [Ledger.tokens, add_right_comm]
    _ = l.running h' + (l.posted h + more) := by
        rw [hrunning, add_assoc, add_comm (l.posted h : Multiset Token)]
    _ = completionTokens reaped + l.tokens h' := by
        rw [hposted', Ledger.tokens, add_left_comm]

end Moves

end Ledger

/-- How many entries the host took. -/
def Entered.count : Entered → Nat
  | .taken n | .blocked n => n
  | .failed _ => 0

/-- A host keeps its ledger of a ring: entries that it takes are the first ones it was offered, and
it carries them out; what is reaped is the oldest completion it has posted; and a clock is only a
clock. -/
structure Ledger.IsKept {H : Type} [RingOs H] (l : Ledger H) : Prop where
  now : ∀ h : H, l.GoesOn h (Os.now h).1
  count_le : ∀ (h : H) (m : Memory) (entries : List Entry) (patience : Patience),
    (RingOs.enter h l.fd m entries patience).2.count ≤ entries.length
  enter : ∀ (h : H) (m : Memory) (entries : List Entry) (patience : Patience),
    l.Moves h (entries.take (RingOs.enter h l.fd m entries patience).2.count) []
      (RingOs.enter h l.fd m entries patience).1
  reap : ∀ h : H, l.Moves h [] ((RingOs.reap h l.fd).2.toList.map Prod.fst) (RingOs.reap h l.fd).1

namespace Ring

variable {H : Type} {l : Ledger H} {p p' p'' : Ring} {h h' h'' : H} {n n' : Nat}
  {reaped reaped' : List Completion}

/-- All tokens that a ring port and its host have. -/
def tokens (l : Ledger H) (p : Ring) (h : H) : Multiset Token := entryTokens p.queued + l.tokens h

/-- The counts of a ring port are right, its queue is no larger than the ring, and no name for
bookkeeping is under way. -/
structure Sound (l : Ledger H) (p : Ring) (h : H) : Prop where
  fd : p.parameters.fd = l.fd
  room : p.queued.length ≤ p.parameters.submissions
  pending : p.pending = p.queued.length
  inflight : p.inflight = (p.tokens l h).card
  users : ∀ t ∈ p.tokens l h, t.isInternal = false

/-- A ring port and its host carry on: so many entries are taken off the queue, completions are
handed back, and both are counted. -/
structure Carries (l : Ledger H) (p : Ring) (h : H) (n : Nat) (reaped : List Completion)
    (p' : Ring) (h' : H) : Prop where
  parameters : p'.parameters = p.parameters
  count_le : n ≤ p.queued.length
  queued : p'.queued = p.queued.drop n
  pending : p'.pending = p.pending - n
  inflight : p'.inflight = p.inflight - reaped.length
  moves : l.Moves h (p.queued.take n) reaped h'

namespace Carries

theorem of_goesOn (p : Ring) (m : l.GoesOn h h') : Carries l p h 0 [] p h' where
  parameters := rfl
  count_le := Nat.zero_le _
  queued := rfl
  pending := rfl
  inflight := rfl
  moves := m

theorem refl (l : Ledger H) (p : Ring) (h : H) : Carries l p h 0 [] p h := of_goesOn p (.refl l h)

theorem trans (c : Carries l p h n reaped p' h') (c' : Carries l p' h' n' reaped' p'' h'') :
    Carries l p h (n + n') (reaped ++ reaped') p'' h'' where
  parameters := c'.parameters.trans c.parameters
  count_le := by
    have hle := c'.count_le
    rw [c.queued, List.length_drop] at hle
    have hle' := c.count_le
    omega
  queued := by rw [c'.queued, c.queued, List.drop_drop]
  pending := by rw [c'.pending, c.pending, Nat.sub_sub]
  inflight := by rw [c'.inflight, c.inflight, Nat.sub_sub, List.length_append]
  moves := by
    have m := c.moves.trans c'.moves
    rwa [c.queued, ← List.take_add] at m

/-- Nothing is lost: what is gone was handed back. -/
theorem tokens (c : Carries l p h n reaped p' h') :
    p.tokens l h = completionTokens reaped + p'.tokens l h' := by
  calc p.tokens l h
      = entryTokens (p.queued.drop n) + (l.tokens h + entryTokens (p.queued.take n)) := by
        rw [Ring.tokens, ← List.take_append_drop n p.queued, entryTokens_append]
        simp only [List.take_append_drop]
        ac_rfl
    _ = completionTokens reaped + p'.tokens l h' := by
        rw [c.moves.tokens, Ring.tokens, c.queued, add_left_comm]

end Carries

/-- A port that carries on stays sound. -/
theorem Sound.carries (s : Sound l p h) (c : Carries l p h n reaped p' h') : Sound l p' h' where
  fd := by rw [c.parameters, s.fd]
  room := by
    have hroom := s.room
    rw [c.parameters, c.queued, List.length_drop]
    omega
  pending := by rw [c.pending, c.queued, s.pending, List.length_drop]
  inflight := by
    rw [c.inflight, s.inflight, c.tokens, Multiset.card_add, card_completionTokens,
      Nat.add_sub_cancel_left]
  users t ht := by
    apply s.users t
    rw [c.tokens]
    exact Multiset.mem_add.mpr (.inr ht)

/-- A queued entry under the name of an operation keeps a port sound. -/
theorem Sound.queue (s : Sound l p h) (hroom : p.hasRoom = true) {entry : Entry}
    (huser : entry.token.isInternal = false) :
    Sound l (p.queue entry) h ∧ (p.queue entry).tokens l h = entry.token ::ₘ p.tokens l h := by
  have htokens : (p.queue entry).tokens l h = entry.token ::ₘ p.tokens l h := by
    simp only [Ring.tokens, Ring.queue, entryTokens_append]
    rw [add_comm (entryTokens p.queued), add_assoc]
    rfl
  refine ⟨⟨s.fd, ?_, ?_, ?_, ?_⟩, htokens⟩
  · have hlt := of_decide_eq_true hroom
    simp only [Ring.queue, List.length_append, List.length_singleton]
    omega
  · simp only [Ring.queue, s.pending, List.length_append, List.length_singleton]
  · rw [htokens, Multiset.card_cons, ← s.inflight]
    rfl
  · intro t ht
    rw [htokens, Multiset.mem_cons] at ht
    rcases ht with rfl | ht
    · exact huser
    · exact s.users t ht

variable [RingOs H]

/-! ### What a call does -/

/-- Entering a ring takes so many entries off its queue. -/
theorem carries_enter (hl : l.IsKept) (s : Sound l p h) (m : Memory) (patience : Patience) :
    Carries l p h (p.enter h m patience).2.count [] (p.taken (p.enter h m patience).2.count)
      (p.enter h m patience).1 where
  parameters := rfl
  count_le := by
    rw [Ring.enter, s.fd]
    exact hl.count_le h m p.queued patience
  queued := rfl
  pending := rfl
  inflight := rfl
  moves := by
    rw [Ring.enter, s.fd]
    exact hl.enter h m p.queued patience

/-- Reaping takes the oldest completion, for no bookkeeping is under way that would be skipped. -/
theorem carries_reap (hl : l.IsKept) (s : Sound l p h) (rounds : Nat) :
    Carries l p h 0 ((p.reap h rounds).2.2.toList.map Prod.fst) (p.reap h rounds).1
      (p.reap h rounds).2.1 := by
  cases rounds with
  | zero => exact .refl l p h
  | succ rounds =>
    have m := hl.reap h
    rw [← s.fd] at m
    unfold Ring.reap
    cases hr : RingOs.reap h p.parameters.fd with
    | mk host x =>
      rw [hr] at m
      cases x with
      | none => exact .of_goesOn p m
      | some x =>
        have hmem : x.1.token ∈ p.tokens l h := by
          have htokens := m.tokens
          rw [Ring.tokens, ← add_zero (l.tokens h), ← entryTokens_nil, htokens]
          simp [completionTokens]
        dsimp only
        rw [if_neg (by simp [s.users _ hmem])]
        exact ⟨rfl, Nat.zero_le _, rfl, rfl, rfl, m⟩

/-- A flush takes so many entries off the queue, and says how many, if it does not fail. -/
theorem carries_flush (hl : l.IsKept) (s : Sound l p h) (m : Memory) :
    ∃ n, Carries l p h n [] (p.flush h m).port (p.flush h m).host ∧
      ((p.flush h m).answer = .ok n ∨
        ∃ f, (p.flush h m).answer = .error f ∧ f ≠ .system Errno.busy ∧ n = 0) := by
  unfold Ring.flush
  split
  · exact ⟨0, .refl l p h, .inl rfl⟩
  · have c := carries_enter hl s m .now
    cases he : p.enter h m .now with
    | mk host x =>
      rw [he] at c
      cases x with
      | taken n => exact ⟨n, c, .inl rfl⟩
      | blocked n => exact ⟨n, c, .inl rfl⟩
      | failed e =>
        dsimp only
        split
        · exact ⟨0, .of_goesOn p c.moves, .inl rfl⟩
        · next hnot =>
          refine ⟨0, .of_goesOn p c.moves, .inr ⟨_, rfl, fun heq => hnot ?_, rfl⟩⟩
          rw [Fault.system.inj heq]
          rfl

end Ring

end Proactor
