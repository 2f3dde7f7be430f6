import Proactor.Proofs.RingLedger

/-!
# The books of a ring port

Entries leave the queue of a ring port in four places: when it is flushed, when a push finds it
full, and when a wait enters the ring with and without a deadline. Completions are reaped wherever
a wait can end. Nothing is lost on any of these ways as long as the host keeps its ledger, and no
wait ends for want of time before all that was queued has been offered.
-/

namespace Proactor

/-! ### Hosts that remember -/

/-- A host, and what it was offered on rings, the oldest first. -/
structure Offered (H : Type) where
  host : H
  offers : List (List Entry) := []

namespace Offered

variable {H : Type}

/-- The host went on. -/
def on {α : Type} (o : Offered H) (r : H × α) : Offered H × α := ({ o with host := r.1 }, r.2)

instance [Os H] : Os (Offered H) where
  now o := o.on (Os.now o.host)
  now_lt o := Os.now_lt o.host
  eventCreate o := o.on (Os.eventCreate o.host)
  eventAdd o fd := o.on (Os.eventAdd o.host fd)
  duplicate o old new := o.on (Os.duplicate o.host old new)
  close o fd := { o with host := Os.close o.host fd }
  socketName o fd := Os.socketName o.host fd
  socketOption o fd option := Os.socketOption o.host fd option

/-- A host that remembers does as the host itself does. -/
instance [RingOs H] : RingOs (Offered H) where
  setup o submissions completions := o.on (RingOs.setup o.host submissions completions)
  enter o fd m entries patience :=
    { o with offers := o.offers ++ [entries] }.on (RingOs.enter o.host fd m entries patience)
  reap o fd := o.on (RingOs.reap o.host fd)
  offers o opcode := RingOs.offers o.host opcode

end Offered

namespace Ledger

variable {H : Type}

/-- The ledger of a host is that of the host that remembers. -/
def remembered (l : Ledger H) : Ledger (Offered H) where
  fd := l.fd
  running o := l.running o.host
  posted o := l.posted o.host

theorem IsKept.remembered [RingOs H] {l : Ledger H} (hl : l.IsKept) : l.remembered.IsKept where
  now o := hl.now o.host
  count_le o := hl.count_le o.host
  enter o := hl.enter o.host
  reap o := hl.reap o.host

end Ledger

namespace Ring

variable {H : Type} [RingOs H] {l : Ledger H} {p p' : Ring} {h h' : H} {n : Nat}

/-! ### What a push does -/

/-- The ways a push ends: perhaps after a flush the entry is queued where there is room, or it is
refused. -/
inductive Pushed (l : Ledger H) (p : Ring) (h : H) (entry : Entry) :
    Reply Ring H (Except Fault Unit) → Prop
  | accepted {n : Nat} {p' : Ring} {h' : H} (c : Carries l p h n [] p' h')
      (hroom : p'.hasRoom = true) : Pushed l p h entry (p'.accepted h' entry)
  | refused {n : Nat} {p' : Ring} {h' : H} (c : Carries l p h n [] p' h') (f : Fault) :
    Pushed l p h entry { port := p', host := h', answer := .error f }

/-- Every push ends in one of the ways. -/
theorem pushed (hl : l.IsKept) (s : Sound l p h) (m : Memory) (entry : Entry) :
    Pushed l p h entry (p.push h m entry) := by
  obtain ⟨n, c, _⟩ := carries_flush hl s m
  unfold Ring.push
  split
  · exact .refused (.refl l p h) _
  · split
    · next hroom => exact .accepted (.refl l p h) hroom
    · dsimp only
      split
      · exact .refused c _
      · split
        · next hroom => exact .accepted c hroom
        · exact .refused c _

/-- A push that is refused puts nothing anywhere. -/
theorem tokens_of_push_error (hl : l.IsKept) (s : Sound l p h) {m : Memory} {entry : Entry}
    {f : Fault} (hf : (p.push h m entry).answer = .error f) :
    (p.push h m entry).port.tokens l (p.push h m entry).host = p.tokens l h := by
  cases hr : p.push h m entry with
  | mk port host notices answer =>
    have hp := pushed hl s m entry
    rw [hr] at hf hp
    cases hp with
    | accepted c hroom => cases hf
    | refused c => exact (c.tokens.trans (zero_add _)).symm

/-- A push to a full queue flushes it. If the flush fails, so does the push; else the entry is
queued if the flush freed a place, and the ring is busy if it did not. -/
theorem push_of_full (hl : l.IsKept) (s : Sound l p h) {entry : Entry} (m : Memory)
    (hissued : entry.opcode ∈ Opcode.issued) (hfull : p.hasRoom = false) :
    (p.push h m entry).answer = match (p.flush h m).answer with
      | .error f => .error f
      | .ok _ =>
        if (p.flush h m).port.queued.length < p.queued.length then .ok ()
        else .error (.system Errno.busy) := by
  have hlong := of_decide_eq_false hfull
  have hroom := s.room
  obtain ⟨n, c, _⟩ := carries_flush hl s m
  have hparameters := c.parameters
  have hiff : (p.flush h m).port.hasRoom = true ↔
      (p.flush h m).port.queued.length < p.queued.length := by
    rw [Ring.hasRoom, decide_eq_true_eq, hparameters]
    omega
  unfold Ring.push
  rw [if_neg (by simpa using hissued), if_neg (by simp [hfull])]
  cases ha : (p.flush h m).answer with
  | error f => simp only [ha]
  | ok taken =>
    simp only [ha]
    by_cases hfreed : (p.flush h m).port.queued.length < p.queued.length
    · rw [if_pos hfreed, if_pos (hiff.mpr hfreed)]
      rfl
    · rw [if_neg hfreed, if_neg fun hhas => hfreed (hiff.mp hhas)]

/-- A push finds the ring busy only if its queue was full and the flush freed no place in it. -/
theorem full_of_push_busy (hl : l.IsKept) (s : Sound l p h) {m : Memory} {entry : Entry}
    (hbusy : (p.push h m entry).answer = .error (.system Errno.busy)) :
    p.hasRoom = false ∧ (p.flush h m).port.queued = p.queued := by
  by_cases hissued : entry.opcode ∈ Opcode.issued
  · cases hroom : p.hasRoom with
    | true =>
      unfold Ring.push at hbusy
      rw [if_neg (by simpa using hissued), if_pos hroom] at hbusy
      cases hbusy
    | false =>
      refine ⟨rfl, ?_⟩
      rw [push_of_full hl s m hissued hroom] at hbusy
      obtain ⟨n, c, hok | ⟨f, herr, hne, _⟩⟩ := carries_flush hl s m
      · rw [hok] at hbusy
        dsimp only at hbusy
        split at hbusy
        · cases hbusy
        · next hnot =>
          have hle := c.count_le
          rw [c.queued, List.length_drop] at hnot
          have hzero : n = 0 := by omega
          rw [c.queued, hzero, List.drop_zero]
      · rw [herr] at hbusy
        exact absurd (Except.error.inj hbusy) hne
  · unfold Ring.push at hbusy
    rw [if_pos (by simpa using hissued)] at hbusy
    cases hbusy

/-! ### What a wait does -/

/-- A wait leaves behind what was there, but for the completion that it hands back. -/
def Delivers (l : Ledger H) (p : Ring) (h : H) (r : Reply Ring H Waited) : Prop :=
  ∃ n, Carries l p h n r.answer.completion?.toList r.port r.host

omit [RingOs H] in
theorem Carries.delivers {r : Reply Ring H Waited} (c : Carries l p h n [] p' h')
    (d : Delivers l p' h' r) : Delivers l p h r := by
  obtain ⟨n', c'⟩ := d
  exact ⟨n + n', c.trans c'⟩

theorem delivers_lastReap (hl : l.IsKept) (s : Sound l p h) (rounds : Nat) :
    Delivers l p h (p.lastReap h rounds) := by
  have c := carries_reap hl s rounds
  unfold Ring.lastReap
  split
  · next hr =>
    rw [hr] at c
    exact ⟨0, c⟩
  · next hr =>
    rw [hr] at c
    exact ⟨0, c⟩

theorem delivers_lastFlush (hl : l.IsKept) (s : Sound l p h) (m : Memory) (rounds : Nat) :
    Delivers l p h (p.lastFlush h m rounds) := by
  obtain ⟨n, c, _⟩ := carries_flush hl s m
  unfold Ring.lastFlush
  dsimp only
  split
  · exact ⟨n, c⟩
  · exact c.delivers (delivers_lastReap hl (s.carries c) rounds)

/-- The ways in which entering the ring goes. If it is too late, there is a last flush. Else the wait
ends with no completion, or goes on with the entries that were not taken. -/
inductive Enters (m : Memory) (rounds : Nat) (again : Ring → H → Reply Ring H Waited) (p : Ring)
    (h : H) : Reply Ring H Waited → Prop
  | late : Enters m rounds again p h (p.lastFlush (Os.now h).1 m rounds)
  | ended {h' : H} (hclock : h' = h ∨ h' = (Os.now h).1) (patience : Patience) {w : Waited}
      (hw : w.completion? = none) : Enters m rounds again p h
        { port := p.taken (p.enter h' m patience).2.count, host := (p.enter h' m patience).1
          answer := w }
  | again {h' : H} (hclock : h' = h ∨ h' = (Os.now h).1) (patience : Patience) :
    Enters m rounds again p h
      (again (p.taken (p.enter h' m patience).2.count) (p.enter h' m patience).1)
  | timed {h' : H} (hclock : h' = h ∨ h' = (Os.now h).1) (patience : Patience) (deadline : Nat) :
    Enters m rounds again p h (afterTimed deadline rounds
      (p.taken (p.enter h' m patience).2.count) (p.enter h' m patience).1 again)

/-- Entering the ring goes one of the ways; an entry that fails takes nothing. -/
theorem enters_enterUntil (m : Memory) (deadline : Option Nat) (rounds : Nat)
    (again : Ring → H → Reply Ring H Waited) (p : Ring) (h : H) :
    Enters m rounds again p h (enterUntil m deadline rounds p h again) := by
  unfold Ring.enterUntil
  split
  · have hended := @Enters.ended H _ m rounds again p h h (.inl rfl) .forever
    have hagain := @Enters.again H _ m rounds again p h h (.inl rfl) .forever
    cases he : p.enter h m .forever with
    | mk host x =>
      rw [he] at hended hagain
      cases x with
      | taken n => exact hagain
      | blocked n => exact hended rfl
      | failed e =>
        dsimp only
        split
        · exact hagain
        · exact hended rfl
  · next d =>
    dsimp only
    split
    · exact .late
    · let patience : Patience := .until_ ⟨d - (Os.now h).2⟩
      have hended := @Enters.ended H _ m rounds again p h _ (.inr rfl) patience
      have htimed := @Enters.timed H _ m rounds again p h _ (.inr rfl) patience d
      cases he : p.enter (Os.now h).1 m patience with
      | mk host x =>
        rw [he] at hended htimed
        cases x with
        | taken n => exact htimed
        | blocked n => exact hended rfl
        | failed e =>
          dsimp only
          split
          · exact htimed
          · exact hended rfl

theorem delivers_afterTimed (hl : l.IsKept) (s : Sound l p h)
    {again : Ring → H → Reply Ring H Waited}
    (hagain : ∀ p' h', Sound l p' h' → Delivers l p' h' (again p' h')) (deadline rounds : Nat) :
    Delivers l p h (afterTimed deadline rounds p h again) := by
  have c : Carries l p h 0 [] p (Os.isOver h (some deadline)).1 := .of_goesOn p (hl.now h)
  unfold Ring.afterTimed
  split
  · next hover =>
    rw [hover] at c
    exact c.delivers (delivers_lastReap hl (s.carries c) rounds)
  · next hover =>
    rw [hover] at c
    exact c.delivers (hagain _ _ (s.carries c))

/-- However entering the ring goes, what follows has what is left. -/
theorem Enters.delivers (hl : l.IsKept) (s : Sound l p h) {m : Memory} {rounds : Nat}
    {again : Ring → H → Reply Ring H Waited}
    (hagain : ∀ p' h', Sound l p' h' → Delivers l p' h' (again p' h')) {r : Reply Ring H Waited}
    (hr : Enters m rounds again p h r) : Delivers l p h r := by
  have hclocked : ∀ {h'}, h' = h ∨ h' = (Os.now h).1 → Carries l p h 0 [] p h' := by
    rintro _ (rfl | rfl)
    · exact .refl l p _
    · exact .of_goesOn p (hl.now h)
  cases hr with
  | late =>
    have c := hclocked (.inr rfl)
    exact c.delivers (delivers_lastFlush hl (s.carries c) m rounds)
  | ended hclock patience hw =>
    have c := hclocked hclock
    have c' := carries_enter hl (s.carries c) m patience
    apply c.delivers
    rw [Delivers, hw]
    exact ⟨_, c'⟩
  | again hclock patience =>
    have c := hclocked hclock
    have c' := carries_enter hl (s.carries c) m patience
    exact (c.trans c').delivers (hagain _ _ (s.carries (c.trans c')))
  | timed hclock patience deadline =>
    have c := hclocked hclock
    have c' := carries_enter hl (s.carries c) m patience
    exact (c.trans c').delivers (delivers_afterTimed hl (s.carries (c.trans c')) hagain _ _)

theorem delivers_waitUntil (hl : l.IsKept) (m : Memory) (deadline : Option Nat) (rounds : Nat) :
    ∀ (p : Ring) (h : H), Sound l p h → Delivers l p h (waitUntil m deadline rounds p h) := by
  induction rounds with
  | zero => exact fun p h _ => ⟨0, .refl l p h⟩
  | succ rounds ih =>
    intro p h s
    have c := carries_reap hl s rounds
    unfold Ring.waitUntil
    split
    · next hr =>
      rw [hr] at c
      exact ⟨0, c⟩
    · next hr =>
      rw [hr] at c
      exact c.delivers ((enters_enterUntil m deadline rounds _ _ _).delivers hl (s.carries c) ih)

/-- A wait takes nothing but the completion that it hands back. -/
theorem delivers_wait (hl : l.IsKept) (s : Sound l p h) (m : Memory) (rounds : Nat)
    (timeout : Option Duration) : Delivers l p h (p.wait rounds h m timeout) := by
  have c : Carries l p h 0 [] p (Os.deadline h timeout).1 := by
    cases timeout with
    | none => exact .refl l p h
    | some d => exact .of_goesOn p (hl.now h)
  unfold Ring.wait
  cases hd : Os.deadline h timeout with
  | mk h' limit =>
    rw [hd] at c
    cases limit with
    | error _ => exact ⟨0, c⟩
    | ok deadline => exact c.delivers (delivers_waitUntil hl m deadline rounds p h' (s.carries c))

/-! ### What a run does -/

/-- Whatever a ring port is asked, it takes the entry that it accepts and hands back one completion
at most. -/
theorem put_conserves (hl : l.IsKept) (s : Sound l p h) (ask : PortAsk)
    (husers : ∀ entry ∈ (ask.put completionPort p h).answer.taken?,
      entry.token.isInternal = false) :
    Sound l (ask.put completionPort p h).port (ask.put completionPort p h).host ∧
    entryTokens (ask.put completionPort p h).answer.taken?.toList + p.tokens l h =
      completionTokens (ask.put completionPort p h).answer.returned?.toList +
        (ask.put completionPort p h).port.tokens l (ask.put completionPort p h).host := by
  cases ask with
  | push m entry =>
    change (∀ e ∈ (PortCall.push entry (p.push h m entry).answer).taken?, _) at husers
    change Sound l (p.push h m entry).port (p.push h m entry).host ∧
      entryTokens (PortCall.push entry (p.push h m entry).answer).taken?.toList + p.tokens l h =
        0 + (p.push h m entry).port.tokens l (p.push h m entry).host
    cases hr : p.push h m entry with
    | mk port host notices answer =>
      have hp := pushed hl s m entry
      rw [hr] at hp husers
      cases hp with
      | accepted c hroom =>
        obtain ⟨s', htokens⟩ := (s.carries c).queue hroom (husers entry rfl)
        refine ⟨s', ?_⟩
        rw [c.tokens, completionTokens_nil, zero_add, zero_add]
        exact htokens.symm
      | refused c =>
        refine ⟨s.carries c, ?_⟩
        exact (zero_add _).trans c.tokens
  | flush m =>
    obtain ⟨n, c, _⟩ := carries_flush hl s m
    exact ⟨s.carries c, (zero_add _).trans c.tokens⟩
  | wait m rounds timeout =>
    obtain ⟨n, c⟩ := delivers_wait hl s m rounds timeout
    exact ⟨s.carries c, (zero_add _).trans c.tokens⟩

/-- Nothing is lost in a run: it is one call after the other, and between them the host posts. -/
theorem conserves_of_run (hl : l.IsKept) (s : Sound l p h) {calls : List PortCall}
    {notices : List Notice} (run : PortRun completionPort l.GoesOn p h calls notices p' h')
    (husers : ∀ entry ∈ takenIn calls, entry.token.isInternal = false) :
    Sound l p' h' ∧
    entryTokens (takenIn calls) + p.tokens l h =
      completionTokens (returnedIn calls) + p'.tokens l h' := by
  induction run with
  | start => exact ⟨s, rfl⟩
  | @call calls notices p₁ h₁ run h₂ hon ask ih =>
    rw [takenIn_append, takenIn_singleton] at husers ⊢
    rw [returnedIn_append, returnedIn_singleton, entryTokens_append, completionTokens_append]
    obtain ⟨s₁, hrun⟩ := ih fun entry he => husers entry (List.mem_append_left _ he)
    have con : Carries l p₁ h₁ 0 [] p₁ h₂ := .of_goesOn p₁ hon
    obtain ⟨s₂, hcall⟩ := put_conserves hl (s₁.carries con) ask fun entry he =>
      husers entry (List.mem_append_right _ (Option.mem_toList.mpr he))
    have hon' : p₁.tokens l h₁ = p₁.tokens l h₂ := con.tokens.trans (zero_add _)
    refine ⟨s₂, ?_⟩
    rw [add_right_comm, hrun, hon', add_right_comm, add_assoc, hcall, add_assoc]

/-! ### What a wait offers -/

/-- A wait forgets no offer, and if it ends for want of time it has offered all that was queued
when it began. -/
structure Offers (p : Ring) (o : Offered H) (r : Reply Ring (Offered H) Waited) : Prop where
  keeps : o.offers <+: r.host.offers
  all : r.answer = .timeout → p.pending ≠ 0 → o.offers ++ [p.queued] <+: r.host.offers

omit [RingOs H] in
/-- It is enough that what was queued was offered first. -/
theorem Offers.of_offered {p : Ring} {o : Offered H} {r : Reply Ring (Offered H) Waited}
    (hoffered : o.offers ++ [p.queued] <+: r.host.offers) : Offers p o r where
  keeps := (List.prefix_append _ _).trans hoffered
  all _ _ := hoffered

/-- Reaping offers nothing and queues nothing. -/
theorem reap_offers (p : Ring) (rounds : Nat) : ∀ o : Offered H,
    (p.reap o rounds).2.1.offers = o.offers ∧ (p.reap o rounds).1.queued = p.queued ∧
      (p.reap o rounds).1.pending = p.pending := by
  induction rounds with
  | zero => exact fun _ => ⟨rfl, rfl, rfl⟩
  | succ rounds ih =>
    intro o
    have hone : (RingOs.reap o p.parameters.fd).1.offers = o.offers := rfl
    unfold Ring.reap
    split
    · next hr =>
      rw [hr] at hone
      exact ⟨hone, rfl, rfl⟩
    · next hr =>
      rw [hr] at hone
      split
      · obtain ⟨hoffers, hrest⟩ := ih _
        exact ⟨hoffers.trans hone, hrest⟩
      · exact ⟨hone, rfl, rfl⟩

theorem lastReap_offers (p : Ring) (o : Offered H) (rounds : Nat) :
    (p.lastReap o rounds).host.offers = o.offers := by
  have hreap := (p.reap_offers rounds o).1
  unfold Ring.lastReap
  split
  · next hr =>
    rw [hr] at hreap
    exact hreap
  · next hr =>
    rw [hr] at hreap
    exact hreap

/-- A flush offers all that is queued, if there is anything. -/
theorem flush_offers (p : Ring) (o : Offered H) (m : Memory) :
    (p.flush o m).host.offers = if p.pending = 0 then o.offers else o.offers ++ [p.queued] := by
  have hone : (p.enter o m .now).1.offers = o.offers ++ [p.queued] := rfl
  unfold Ring.flush
  split
  · rfl
  · split
    · next he =>
      rw [he] at hone
      exact hone
    · next he =>
      rw [he] at hone
      exact hone
    · next he =>
      rw [he] at hone
      split <;> exact hone

theorem lastFlush_offers (p : Ring) (o : Offered H) (m : Memory) (rounds : Nat) :
    Offers p o (p.lastFlush o m rounds) := by
  have hflush := p.flush_offers o m
  have hoffers : (p.lastFlush o m rounds).host.offers = (p.flush o m).host.offers := by
    unfold Ring.lastFlush
    dsimp only
    split
    · rfl
    · exact lastReap_offers _ _ _
  by_cases hp : p.pending = 0
  · rw [hflush, if_pos hp] at hoffers
    exact ⟨hoffers ▸ List.prefix_rfl, fun _ hne => absurd hp hne⟩
  · rw [hflush, if_neg hp] at hoffers
    exact .of_offered (hoffers ▸ List.prefix_rfl)

theorem afterTimed_offers {again : Ring → Offered H → Reply Ring (Offered H) Waited}
    (hagain : ∀ p o, o.offers <+: (again p o).host.offers) (p : Ring) (o : Offered H)
    (deadline rounds : Nat) :
    o.offers <+: (afterTimed deadline rounds p o again).host.offers := by
  have hone : (Os.isOver o (some deadline)).1.offers = o.offers := rfl
  unfold Ring.afterTimed
  split
  · next hover =>
    rw [hover] at hone
    rw [lastReap_offers]
    exact hone ▸ List.prefix_rfl
  · next hover =>
    rw [hover] at hone
    exact hone ▸ hagain _ _

/-- Entering the ring offers all that is queued, and without entering it there is a last flush. -/
theorem Enters.offers {again : Ring → Offered H → Reply Ring (Offered H) Waited}
    (hagain : ∀ p o, o.offers <+: (again p o).host.offers) {p : Ring} {o : Offered H} {m : Memory}
    {rounds : Nat} {r : Reply Ring (Offered H) Waited} (hr : Enters m rounds again p o r) :
    Offers p o r := by
  have hclocked : ∀ {o' : Offered H}, o' = o ∨ o' = (Os.now o).1 → o'.offers = o.offers := by
    rintro _ (rfl | rfl) <;> rfl
  cases hr with
  | late =>
    obtain ⟨hkeeps, hall⟩ := p.lastFlush_offers (Os.now o).1 m rounds
    exact ⟨hkeeps, hall⟩
  | ended hclock patience hw =>
    apply Offers.of_offered
    rw [← hclocked hclock]
    exact List.prefix_rfl
  | @again o' hclock patience =>
    apply Offers.of_offered
    rw [← hclocked hclock]
    exact hagain _ (p.enter o' m patience).1
  | @timed o' hclock patience deadline =>
    apply Offers.of_offered
    rw [← hclocked hclock]
    exact afterTimed_offers hagain _ (p.enter o' m patience).1 _ _

theorem waitUntil_offers (m : Memory) (deadline : Option Nat) (rounds : Nat) :
    ∀ (p : Ring) (o : Offered H), Offers p o (waitUntil m deadline rounds p o) := by
  induction rounds with
  | zero => exact fun p o => ⟨List.prefix_rfl, nofun⟩
  | succ rounds ih =>
    intro p o
    obtain ⟨hoffers, hqueued, hpending⟩ := p.reap_offers rounds o
    unfold Ring.waitUntil
    split
    · next hr =>
      rw [hr] at hoffers
      exact ⟨hoffers ▸ List.prefix_rfl, nofun⟩
    · next p' o' hr =>
      rw [hr] at hoffers hqueued hpending
      obtain ⟨hkeeps, hall⟩ := (enters_enterUntil m deadline rounds _ p' o').offers
        fun p o => (ih p o).keeps
      simp only at hoffers hqueued hpending
      rw [hoffers] at hkeeps hall
      rw [hqueued, hpending] at hall
      exact ⟨hkeeps, hall⟩

/-- A wait that ends for want of time has offered all that was queued. -/
theorem wait_offers (p : Ring) (o : Offered H) (m : Memory) (rounds : Nat)
    (timeout : Option Duration) : Offers p o (p.wait rounds o m timeout) := by
  have hone : (Os.deadline o timeout).1.offers = o.offers := by
    cases timeout <;> rfl
  unfold Ring.wait
  cases hd : Os.deadline o timeout with
  | mk o' limit =>
    rw [hd] at hone
    cases limit with
    | error _ => exact ⟨hone ▸ List.prefix_rfl, nofun⟩
    | ok deadline =>
      obtain ⟨hkeeps, hall⟩ := waitUntil_offers m deadline rounds p o'
      rw [hone] at hkeeps hall
      exact ⟨hkeeps, hall⟩

/-! ### A host that keeps its ledger -/

/-- A host that carries out what it takes from a ring only while somebody waits, and the oldest
first. -/
structure Clerk where
  clock : Nat := 0
  running : List Token := []
  posted : List Token := []

namespace Clerk

/-- Takes all entries, and ends one operation if somebody waits. -/
def enter (c : Clerk) (entries : List Entry) (patience : Patience) : Clerk × Entered :=
  match patience, c.running ++ entries.map Entry.token with
  | .now, running => ({ c with running }, .taken entries.length)
  | _, t :: running => ({ c with running, posted := c.posted ++ [t] }, .taken entries.length)
  | .until_ d, [] => ({ c with clock := c.clock + d.nanoseconds }, .failed Errno.timedOut)
  | .forever, [] => (c, .blocked 0)

/-- Takes the oldest completion. -/
def reap (c : Clerk) : Clerk × Option (Completion × Transfer) :=
  match c.posted with
  | [] => (c, none)
  | t :: posted => ({ c with posted }, some ({ token := t, result := 0 }, {}))

instance : RingOs Clerk where
  now c := ({ c with clock := c.clock + 1 }, clockAt c.clock)
  now_lt c := clockAt_lt c.clock
  eventCreate c := (c, .error Errno.tooManyFiles)
  eventAdd c _ := (c, .error Errno.badDescriptor)
  duplicate c _ _ := (c, .error Errno.badDescriptor)
  close c _ := c
  socketName _ _ := none
  socketOption _ _ _ := .error Errno.notSocket
  setup c _ _ := (c, .error Errno.tooManyFiles)
  enter c _ _ entries patience := c.enter entries patience
  reap c _ := c.reap
  offers _ _ := true

/-- What a clerk has of a ring. -/
def ledger : Ledger Clerk where
  fd := 3
  running c := c.running
  posted c := c.posted

theorem ledger_isKept : ledger.IsKept where
  now c := .refl ledger c
  count_le c m entries patience := by
    change (c.enter entries patience).2.count ≤ entries.length
    unfold enter
    split <;> simp [Entered.count]
  enter c m entries patience := by
    change ledger.Moves c (entries.take (c.enter entries patience).2.count) []
      (c.enter entries patience).1
    unfold enter
    split
    · exact ⟨[], by simp [ledger], by simp [ledger, entryTokens, Entered.count]⟩
    · next t running _ hrunning =>
      refine ⟨[t], by simp [ledger], ?_⟩
      simp only [Entered.count, List.take_length, ledger, entryTokens, Multiset.coe_add, hrunning]
      exact Multiset.coe_eq_coe.mpr (List.perm_append_singleton t running).symm
    · exact .refl ledger c
    · exact .refl ledger c
  reap c := by
    change ledger.Moves c [] (c.reap.2.toList.map Prod.fst) c.reap.1
    unfold reap
    split
    · exact .refl ledger c
    · next t posted hposted =>
      exact ⟨[], by simp [ledger, hposted], rfl⟩

/-- An operation that needs nothing, under the name of a slot. -/
def nop (index : UInt32) : Entry := { token := .ofSlot index 0, opcode := Opcode.nop }

end Clerk

/-! ### The books -/

/-- What a ring port does when it is asked next. -/
structure Answers (l : Ledger H) (p : Ring) (o : Offered H) : Prop where
  /-- A push that is refused puts nothing anywhere. -/
  refused : ∀ (m : Memory) (entry : Entry) (f : Fault), (p.push o m entry).answer = .error f →
    (p.push o m entry).port.tokens l (p.push o m entry).host.host = p.tokens l o.host
  /-- A full queue is flushed, and the push is tried again. -/
  full : ∀ (m : Memory) (entry : Entry), entry.opcode ∈ Opcode.issued → p.hasRoom = false →
    (p.push o m entry).answer = match (p.flush o m).answer with
      | .error f => .error f
      | .ok _ =>
        if (p.flush o m).port.queued.length < p.queued.length then .ok ()
        else .error (.system Errno.busy)
  /-- The ring is busy only if a flush of a full queue freed no place. -/
  busy : ∀ (m : Memory) (entry : Entry),
    (p.push o m entry).answer = .error (.system Errno.busy) →
    p.hasRoom = false ∧ (p.flush o m).port.queued = p.queued
  /-- A wait that hands nothing back has reaped nothing, and nothing is gone. -/
  kept : ∀ (m : Memory) (rounds : Nat) (timeout : Option Duration),
    (p.wait rounds o m timeout).answer.completion? = none →
    l.posted o.host <+: l.posted (p.wait rounds o m timeout).host.host ∧
    (p.wait rounds o m timeout).port.tokens l (p.wait rounds o m timeout).host.host =
      p.tokens l o.host
  /-- A wait that ends for want of time has first offered all that was queued. -/
  offered : ∀ (m : Memory) (rounds : Nat) (timeout : Option Duration),
    (p.wait rounds o m timeout).answer = .timeout →
    p.queued = [] ∨ o.offers ++ [p.queued] <+: (p.wait rounds o m timeout).host.offers

theorem Sound.answers (hl : l.IsKept) {o : Offered H} (s : Sound l.remembered p o) :
    Answers l p o where
  refused m entry f hf := tokens_of_push_error hl.remembered s hf
  full m entry hissued hfull := push_of_full hl.remembered s m hissued hfull
  busy m entry hbusy := full_of_push_busy hl.remembered s hbusy
  kept m rounds timeout hw := by
    obtain ⟨n, c⟩ := delivers_wait hl.remembered s m rounds timeout
    rw [hw] at c
    obtain ⟨more, hmore, _⟩ := c.moves
    exact ⟨⟨more, hmore⟩, (c.tokens.trans (zero_add _)).symm⟩
  offered m rounds timeout hw := by
    by_cases hempty : p.queued = []
    · exact .inl hempty
    · refine .inr ((p.wait_offers o m rounds timeout).all hw ?_)
      rw [s.pending]
      exact fun hzero => hempty (List.eq_nil_of_length_eq_zero hzero)

/-- The books of a ring port that began with nothing, as they stand after the calls, and what it
does next, when the host has gone on by itself once more. -/
structure Balanced (l : Ledger H) (calls : List PortCall) (p : Ring) (o : Offered H) : Prop where
  /-- What was taken was handed back, waits to be taken by the host, is carried out by the host, or
  waits to be reaped. -/
  tokens : entryTokens (takenIn calls) =
    completionTokens (returnedIn calls) + entryTokens p.queued + l.running o.host + l.posted o.host
  inflight : (takenIn calls).length = (returnedIn calls).length + p.inflight
  pending : p.pending = p.queued.length
  next : ∀ o' : Offered H, l.GoesOn o.host o'.host → Answers l p o'

/-- A ring port whose host keeps its ledger loses nothing and hands nothing back twice, whatever it
is asked, and whenever and in which order the host posts. -/
theorem ring_port_balances (hl : l.IsKept) {parameters : RingParameters} {o o' : Offered H}
    {calls : List PortCall} {notices : List Notice} (hfd : parameters.fd = l.fd)
    (hrunning : l.running o.host = 0) (hposted : l.posted o.host = [])
    (run : PortRun completionPort l.remembered.GoesOn { parameters } o calls notices p o')
    (husers : ∀ entry ∈ takenIn calls, entry.token.isInternal = false) :
    Balanced l calls p o' := by
  have hnone : ({ parameters } : Ring).tokens l.remembered o = 0 := by
    simp [Ring.tokens, Ledger.tokens, Ledger.remembered, hrunning, hposted]
  have hnew : Sound l.remembered ({ parameters } : Ring) o := by
    refine ⟨hfd, Nat.zero_le _, rfl, ?_, ?_⟩
    · rw [hnone]
      rfl
    · rw [hnone]
      exact fun t ht => absurd ht (Multiset.notMem_zero t)
  obtain ⟨s, htokens⟩ := conserves_of_run hl.remembered hnew run husers
  rw [hnone, add_zero] at htokens
  refine ⟨?_, ?_, s.pending, fun o'' hon => (s.carries (.of_goesOn p hon)).answers hl⟩
  · rw [htokens, Ring.tokens, Ledger.tokens, ← add_assoc, ← add_assoc]
    rfl
  · have hcard := congrArg Multiset.card htokens
    rwa [Multiset.card_add, card_entryTokens, card_completionTokens, ← s.inflight] at hcard

/-- Three entries are taken by a ring of two, with a flush for the third. A wait hands the first one
back, and one for which there is no time only offers what is queued. -/
theorem ring_port_balances_of_clerk : ∃ calls notices p o,
    PortRun completionPort Clerk.ledger.remembered.GoesOn { parameters := ⟨3, 2, 4⟩ }
      { host := {} } calls notices p o ∧
    (takenIn calls).map Entry.token = [.ofSlot 0 0, .ofSlot 1 0, .ofSlot 2 0, .ofSlot 3 0] ∧
    (returnedIn calls).map Completion.token = [.ofSlot 0 0] ∧ p.inflight = 3 ∧
    (∀ entry ∈ takenIn calls, entry.token.isInternal = false) ∧
    Balanced Clerk.ledger calls p o := by
  have run : PortRun completionPort Clerk.ledger.remembered.GoesOn { parameters := ⟨3, 2, 4⟩ }
      { host := {} } _ _ _ _ :=
    .call (.call (.call (.call (.call (.call .start
      _ (.refl _ _) (.push {} (Clerk.nop 0)))
      _ (.refl _ _) (.push {} (Clerk.nop 1)))
      _ (.refl _ _) (.push {} (Clerk.nop 2)))
      _ (.refl _ _) (.wait {} 9 none))
      _ (.refl _ _) (.push {} (Clerk.nop 3)))
      _ (.refl _ _) (.wait {} 9 (some .zero))
  refine ⟨_, _, _, _, run, by decide +kernel, by decide +kernel, by decide +kernel,
    by decide +kernel, ?_⟩
  exact ring_port_balances Clerk.ledger_isKept rfl rfl rfl run (by decide +kernel)

end Ring

end Proactor
