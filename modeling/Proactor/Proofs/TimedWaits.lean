import Proactor.Proofs.PollingPort

/-!
# Waits with a time limit

A wait of a polling port looks at the clock when a poll has found nothing, and not when polling has
told of readiness. So it ends at its time limit, unless polling tells again and again of readiness
from which nothing comes; such a wait does not end, however late it is.
-/

namespace Proactor

/-- A poll with a time limit ends. -/
def PollOs.EndsInTime (H : Type) [PollOs H] : Prop :=
  ∀ (host : H) (fds : List (Fd × Interest)) (milliseconds : Nat),
    (PollOs.poll host fds (some milliseconds)).2 ≠ .blocked

/-- The wait returns: with a completion, at its time limit, or with a fault. -/
def Waited.Returns (w : Waited) : Prop := w ≠ .unfinished ∧ w ≠ .blocked ∧ w ≠ .panicked

namespace Polling

/-- A wait between two of its rounds. -/
structure Waiting (H : Type) where
  port : Polling
  host : H
  notices : List Notice := []

variable {H : Type} [PollOs H]

namespace Waiting

variable (m : Memory) (deadline : Nat)

/-- A wait as it begins. -/
def begin (p : Polling) (host : H) : Waiting H := { port := p, host := (Os.now host).1 }

/-- What the poll of the next round tells. -/
def polled (w : Waiting H) : H × Polled :=
  PollOs.poll (Os.now w.host).1 w.port.interests
    (some (ceilMilliseconds ⟨deadline - (Os.now w.host).2⟩))

/-- The clock, read after the poll of the next round. -/
def clock (w : Waiting H) : Nat := (Os.now (w.polled deadline).1).2

/-- The wait after the next round, unless it ends with that. -/
def next? (w : Waiting H) : Option (Waiting H) :=
  if w.port.ready = [] ∧ w.port.parked ≠ [] then
    match w.polled deadline with
    | (host, .ready at_) =>
      let tried := w.port.advance host m at_
      some ⟨tried.1, tried.2.1, w.notices ++ tried.2.2⟩
    | (host, .timeout) =>
      if deadline ≤ (Os.now host).2 then none else some ⟨w.port, (Os.now host).1, w.notices⟩
    | _ => none
  else none

/-- The wait after so many rounds, unless it has ended. -/
def after (w : Waiting H) : Nat → Option (Waiting H)
  | 0 => some w
  | rounds + 1 => (w.after rounds).bind (next? m deadline)

/-- What comes of a wait that is granted so many more rounds. -/
def finish (rounds : Nat) (w : Waiting H) : Reply Polling H Waited :=
  waitUntil m (some deadline) rounds w.port w.host w.notices

/-- The wait returns, however many rounds it is granted beyond some. -/
def Ends (w : Waiting H) : Prop :=
  ∃ rounds r, r.answer.Returns ∧ ∀ more, w.finish m deadline (rounds + more) = r

/-- Polling tells of readiness in the next round, and nothing comes of it. -/
def Vain (w : Waiting H) : Prop :=
  w.port.ready = [] ∧ w.port.parked ≠ [] ∧
    ∃ host at_, w.polled deadline = (host, .ready at_) ∧ (w.port.advance host m at_).1 = w.port

/-- The wait goes on for ever, and from some round on every round is in vain. -/
def InVain (w : Waiting H) : Prop :=
  ∃ n, ∀ rounds, n ≤ rounds → ∃ w', w.after m deadline rounds = some w' ∧ w'.Vain m deadline

/-- As long as the wait goes on the clock goes on, and is at the deadline at some time. -/
def TimePasses (w : Waiting H) : Prop :=
  ∃ n, ∀ rounds w', n ≤ rounds → w.after m deadline rounds = some w' → deadline ≤ w'.clock deadline

variable {m : Memory} {deadline : Nat} {w w' : Waiting H}

/-! ### One round -/

/-- A wait goes on in two ways: polling has told of readiness, or it has found nothing and there is
time left. -/
theorem next?_cases (h : w.next? m deadline = some w') :
    w.port.ready = [] ∧ w.port.parked ≠ [] ∧
      ((∃ host at_, w.polled deadline = (host, .ready at_) ∧
          w' = ⟨(w.port.advance host m at_).1, (w.port.advance host m at_).2.1,
            w.notices ++ (w.port.advance host m at_).2.2⟩) ∨
        ∃ host, w.polled deadline = (host, .timeout) ∧ (Os.now host).2 < deadline ∧
          w' = ⟨w.port, (Os.now host).1, w.notices⟩) := by
  unfold next? at h
  split at h
  · next hgoes =>
    refine ⟨hgoes.1, hgoes.2, ?_⟩
    split at h
    · next host at_ hpoll => exact .inl ⟨host, at_, hpoll, (Option.some.inj h).symm⟩
    · next host hpoll =>
      split at h
      · cases h
      · next hleft => exact .inr ⟨host, hpoll, Nat.not_le.mp hleft, (Option.some.inj h).symm⟩
    · cases h
  · cases h

/-- A round after which the wait goes on is followed by the rest of it. -/
theorem finish_of_next? (h : w.next? m deadline = some w') (rounds : Nat) :
    w.finish m deadline (rounds + 1) = w'.finish m deadline rounds := by
  obtain ⟨hready, hparked, ⟨host, at_, hpoll, rfl⟩ | ⟨host, hpoll, hleft, rfl⟩⟩ := next?_cases h
  · unfold polled at hpoll
    simp [finish, waitUntil, hready, hparked, Os.remaining, hpoll]
  · unfold polled at hpoll
    simp [finish, waitUntil, hready, hparked, Os.remaining, hpoll, Os.isOver, Nat.not_le.mpr hleft]

/-- A wait ends if its next round ends it. -/
theorem Ends.of_round (p : Polling) (host : H) (answer : Waited)
    (h : ∀ rounds, w.finish m deadline (rounds + 1) = p.ended host w.notices answer)
    (hreturns : answer.Returns) : w.Ends m deadline :=
  ⟨1, _, hreturns, fun more => Nat.add_comm 1 more ▸ h more⟩

/-- A round after which the wait does not go on ends it. -/
theorem ends_of_next?_eq_none (hends : PollOs.EndsInTime H) (h : w.next? m deadline = none) :
    w.Ends m deadline := by
  cases hready : w.port.ready with
  | cons first ready =>
    refine .of_round { w.port with ready } w.host (.completion first.1 first.2)
      (fun rounds => ?_) ⟨nofun, nofun, nofun⟩
    rw [finish, waitUntil, hready]
  | nil =>
    by_cases hparked : w.port.parked = []
    · let slept := PollOs.sleep (Os.now w.host).1 ⟨deadline - (Os.now w.host).2⟩
      refine .of_round w.port slept .timeout (fun rounds => ?_) ⟨nofun, nofun, nofun⟩
      simp [finish, waitUntil, hready, hparked, Os.remaining, waitForNothing, slept]
    cases hpoll : w.polled deadline with
    | mk host told =>
      have hpoll' := hpoll
      unfold polled at hpoll'
      cases told with
      | blocked => exact absurd (congrArg Prod.snd hpoll) (hends _ _ _)
      | failed e =>
        by_cases he : e = Errno.interrupted
        · refine .of_round w.port host .timeout (fun rounds => ?_) ⟨nofun, nofun, nofun⟩
          simp [finish, waitUntil, hready, hparked, Os.remaining, hpoll', he]
        · refine .of_round w.port host (.fault (.system e)) (fun rounds => ?_) ⟨nofun, nofun, nofun⟩
          simp [finish, waitUntil, hready, hparked, Os.remaining, hpoll', he]
      | ready at_ => simp [next?, hready, hparked, hpoll] at h
      | timeout =>
        have hlate : deadline ≤ (Os.now host).2 := by
          simpa [next?, hready, hparked, hpoll] using h
        refine .of_round w.port (Os.now host).1 .timeout (fun rounds => ?_) ⟨nofun, nofun, nofun⟩
        simp [finish, waitUntil, hready, hparked, Os.remaining, hpoll', Os.isOver, hlate]

/-- Behind the deadline, a round after which the wait goes on has been told of readiness. -/
theorem polled_of_next? (h : w.next? m deadline = some w') (hlate : deadline ≤ w.clock deadline) :
    ∃ host at_, w.polled deadline = (host, .ready at_) ∧
      w'.port = (w.port.advance host m at_).1 := by
  obtain ⟨_, _, ⟨host, at_, hpoll, rfl⟩ | ⟨host, hpoll, hleft, _⟩⟩ := next?_cases h
  · exact ⟨host, at_, hpoll, rfl⟩
  · rw [clock, hpoll] at hlate
    exact absurd hleft (Nat.not_lt.mpr hlate)

end Waiting

/-- What is tried again without a result is parked still. -/
theorem progress_of_no_result (m : Memory) (at_ : Nat → Readiness) (parked : List Parked) :
    ∀ (host : H) (i : Nat), (progress m at_ host i parked).2.2 = [] →
      (progress m at_ host i parked).2.1 = parked := by
  induction parked with
  | nil => exact fun _ _ _ => rfl
  | cons first rest ih =>
    intro host i h
    simp only [progress] at h ⊢
    cases hretry : (retry host m first (at_ i)).2 with
    | none =>
      simp only [hretry] at h ⊢
      rw [ih _ _ h]
    | some x =>
      simp only [hretry] at h
      cases h

/-- If nothing is queued after polling, the port is as it was. -/
theorem advance_of_no_result {p : Polling} {host : H} {m : Memory} {at_ : Nat → Readiness}
    (h : (p.advance host m at_).1.ready = []) : (p.advance host m at_).1 = p := by
  obtain ⟨hready, hresults⟩ := List.append_eq_nil_iff.mp h
  have hparked := progress_of_no_result m at_ p.parked host 0 hresults
  simp only [advance, hparked, hresults, List.append_nil]

namespace Waiting

variable {m : Memory} {deadline : Nat} {w w' : Waiting H}

/-! ### All rounds -/

/-- What comes of a wait is what comes of it after some rounds. -/
theorem finish_of_after {k : Nat} (h : w.after m deadline k = some w') (rounds : Nat) :
    w.finish m deadline (k + rounds) = w'.finish m deadline rounds := by
  induction k generalizing w' rounds with
  | zero =>
    obtain rfl := Option.some.inj h
    rw [Nat.zero_add]
  | succ k ih =>
    obtain ⟨w₁, hw₁, hnext⟩ := Option.bind_eq_some_iff.mp h
    rw [Nat.add_right_comm, Nat.add_assoc, ih hw₁, finish_of_next? hnext]

/-- A wait that ends after some rounds ends. -/
theorem Ends.of_after {k : Nat} (h : w.after m deadline k = some w') (hends : w'.Ends m deadline) :
    w.Ends m deadline := by
  obtain ⟨rounds, r, hreturns, hr⟩ := hends
  refine ⟨k + rounds, r, hreturns, fun more => ?_⟩
  rw [Nat.add_assoc, finish_of_after h, hr]

/-- A wait that does not end goes on after every number of rounds. -/
theorem exists_after_of_not_ends (hends : PollOs.EndsInTime H) (h : ¬ w.Ends m deadline)
    (k : Nat) : ∃ w', w.after m deadline k = some w' := by
  induction k with
  | zero => exact ⟨w, rfl⟩
  | succ k ih =>
    obtain ⟨w₁, hw₁⟩ := ih
    cases hnext : w₁.next? m deadline with
    | none => exact absurd (.of_after hw₁ (ends_of_next?_eq_none hends hnext)) h
    | some w₂ => exact ⟨w₂, by rw [after, hw₁, Option.bind_some, hnext]⟩

/-- A wait that goes on for ever does not end. -/
theorem not_ends_of_after (h : ∀ k, ∃ w', w.after m deadline k = some w') :
    ¬ w.Ends m deadline := by
  rintro ⟨rounds, r, ⟨hfinished, _, _⟩, hr⟩
  obtain ⟨w', hw'⟩ := h rounds
  have hall := finish_of_after hw' 0
  rw [hr 0] at hall
  exact hfinished (congrArg Reply.answer hall)

/-- A wait that goes on after some rounds has gone on before. -/
theorem exists_after_of_le {j k : Nat} (hle : j ≤ k) (h : w.after m deadline k = some w') :
    ∃ w₁, w.after m deadline j = some w₁ := by
  induction hle generalizing w' with
  | refl => exact ⟨w', h⟩
  | step _ ih =>
    obtain ⟨w₁, hw₁, _⟩ := Option.bind_eq_some_iff.mp h
    exact ih hw₁

/-- Behind the deadline a wait goes on only in vain: had something come of a round, the next one
would hand it back. -/
theorem InVain.of_not_ends (hends : PollOs.EndsInTime H) (hclock : w.TimePasses m deadline)
    (h : ¬ w.Ends m deadline) : w.InVain m deadline := by
  obtain ⟨n, hlate⟩ := hclock
  refine ⟨n, fun k hk => ?_⟩
  obtain ⟨w₂, hw₂⟩ := exists_after_of_not_ends hends h (k + 2)
  obtain ⟨w₁, hw₁, hnext₁⟩ := Option.bind_eq_some_iff.mp hw₂
  obtain ⟨w', hw', hnext⟩ := Option.bind_eq_some_iff.mp hw₁
  obtain ⟨hready, hparked, _⟩ := next?_cases hnext
  obtain ⟨host, at_, hpoll, hport⟩ := polled_of_next? hnext (hlate k w' hk hw')
  refine ⟨w', hw', hready, hparked, host, at_, hpoll, advance_of_no_result ?_⟩
  rw [← hport]
  exact (next?_cases hnext₁).1

theorem InVain.not_ends (h : w.InVain m deadline) : ¬ w.Ends m deadline := by
  obtain ⟨n, hn⟩ := h
  apply not_ends_of_after
  intro k
  obtain ⟨w', hw', _⟩ := hn (max n k) (Nat.le_max_left n k)
  exact exists_after_of_le (Nat.le_max_right n k) hw'

end Waiting

/-- When the time limit of a wait that begins now is over. -/
def limit (host : H) (timeout : Duration) : Nat := (Os.now host).2 + timeout.nanoseconds

/-- A wait with a time limit returns, however many rounds it is granted beyond some. -/
def WaitEnds (p : Polling) (host : H) (m : Memory) (timeout : Duration) : Prop :=
  ∃ rounds r, r.answer.Returns ∧ ∀ more, p.wait (rounds + more) host m (some timeout) = r

theorem wait_of_limit_lt {p : Polling} {host : H} {m : Memory} {timeout : Duration}
    (h : limit host timeout < endOfTime) (rounds : Nat) :
    p.wait rounds host m (some timeout) =
      (Waiting.begin p host).finish m (limit host timeout) rounds := by
  unfold limit at h
  simp [wait, Os.deadline, Os.later, h, Except.map, Waiting.finish, Waiting.begin, limit]

/-- A wait whose time limit no clock can tell panics, however many rounds it is granted. -/
theorem wait_of_le_limit {p : Polling} {host : H} {m : Memory} {timeout : Duration}
    (h : endOfTime ≤ limit host timeout) (rounds : Nat) :
    (p.wait rounds host m (some timeout)).answer = .panicked := by
  have hlate : ¬ (Os.now host).2 + timeout.nanoseconds < endOfTime := Nat.not_lt.mpr h
  simp [wait, Os.deadline, Os.later, hlate, Except.map, ended]

/-- On a host whose polls end in time, a wait ends after finitely many rounds if its time limit
comes, unless from some round on polling tells of readiness from which nothing comes: then the wait
goes on for ever, since the clock is looked at only when polling has found nothing. A time limit
that no clock can tell is refused by a panic. -/
theorem timed_waits_end_unless_in_vain (p : Polling) (host : H) (m : Memory) (timeout : Duration)
    (hends : PollOs.EndsInTime H)
    (hclock : (Waiting.begin p host).TimePasses m (limit host timeout)) :
    p.WaitEnds host m timeout ↔
      limit host timeout < endOfTime ∧ ¬ (Waiting.begin p host).InVain m (limit host timeout) := by
  by_cases htold : limit host timeout < endOfTime
  · have hwait : p.WaitEnds host m timeout ↔ (Waiting.begin p host).Ends m (limit host timeout) := by
      simp only [WaitEnds, Waiting.Ends, wait_of_limit_lt htold]
    rw [hwait, and_iff_right htold]
    constructor
    · exact fun h hvain => hvain.not_ends h
    · exact fun h => not_not.mp fun hnot => h (.of_not_ends hends hclock hnot)
  · refine iff_of_false ?_ fun h => htold h.1
    rintro ⟨rounds, r, ⟨_, _, hreturns⟩, hr⟩
    have hpanics := wait_of_le_limit (p := p) (m := m) (Nat.not_lt.mp htold) (rounds + 0)
    rw [hr 0] at hpanics
    exact hreturns hpanics

/-! ### On a host -/

theorem endsInTime_host : PollOs.EndsInTime Host := by
  intro host fds milliseconds h
  have hpoll : (host.pollAll fds (some milliseconds)).2 = .blocked := h
  unfold Host.pollAll at hpoll
  dsimp only at hpoll
  split at hpoll <;> cases hpoll

/-- A read of a descriptor. -/
def readOf (fd : Fd) : Entry :=
  { token := .ofSlot 0 0, opcode := Opcode.read, fdWord := Entry.wordOfFd fd
    payload := .data ⟨0, 0, 8⟩ }

/-- A read of an empty pipe is parked, and a wait for it ends at its time limit. -/
theorem timed_waits_end_unless_in_vain_of_pipe :
    let p := ((ofConfig 8).push (hostOfPipe []) {} (readOf 0)).port
    PollOs.EndsInTime Host ∧
    (Waiting.begin p (hostOfPipe [])).TimePasses {} (limit (hostOfPipe []) (.ofMilliseconds 10)) ∧
    (p.wait 1 (hostOfPipe []) {} (some (.ofMilliseconds 10))).answer = .timeout ∧
    (p.WaitEnds (hostOfPipe []) {} (.ofMilliseconds 10) ↔
      limit (hostOfPipe []) (.ofMilliseconds 10) < endOfTime ∧
        ¬ (Waiting.begin p (hostOfPipe [])).InVain {}
          (limit (hostOfPipe []) (.ofMilliseconds 10))) := by
  intro p
  have hover : (p.wait 1 (hostOfPipe []) {} (some (.ofMilliseconds 10))).answer = .timeout := rfl
  have hclock : (Waiting.begin p (hostOfPipe [])).TimePasses {}
      (limit (hostOfPipe []) (.ofMilliseconds 10)) := by
    refine ⟨0, fun rounds w' _ h => ?_⟩
    cases rounds with
    | zero =>
      obtain rfl := Option.some.inj h
      decide +kernel
    | succ rounds =>
      -- The first round ends the wait, so there is none after it.
      obtain ⟨w₁, hw₁⟩ := Waiting.exists_after_of_le (Nat.le_add_left 1 rounds) h
      have hall := congrArg Reply.answer (Waiting.finish_of_after hw₁ 0)
      cases hover.symm.trans hall
  exact ⟨endsInTime_host, hclock, hover,
    timed_waits_end_unless_in_vain p _ {} _ endsInTime_host hclock⟩

/-- Two local sockets for datagrams, of which the one under descriptor 3 is shut for receiving. -/
def shutPair (clock : Nat) : Host :=
  { ((Host.start.makePair .datagram).1.shutDown 3 0).1 with clock }

/-- A read of a shut socket is parked, polls ready and has to wait, round after round. -/
theorem after_shutPair (deadline k : Nat) :
    let p := ((ofConfig 8).push (shutPair 0) {} (readOf 3)).port
    (Waiting.begin p (shutPair 0)).after {} deadline k =
      some ⟨p, shutPair (100 * (k + 1)), []⟩ := by
  intro p
  -- Whatever the clock shows, nothing else has changed after a round.
  have hround : ∀ c, Waiting.next? {} deadline ⟨p, shutPair c, []⟩ =
      some ⟨p, shutPair (c + 100), []⟩ := fun c => rfl
  induction k with
  | zero => rfl
  | succ k ih => rw [Waiting.after, ih, Option.bind_some, hround, Nat.mul_succ 100 (k + 1)]

/-- A wait for a read of a shut socket never ends, though its time limit is over. -/
theorem shut_socket_holds_a_timed_wait :
    let p := ((ofConfig 8).push (shutPair 0) {} (readOf 3)).port
    PollOs.EndsInTime Host ∧
    (Waiting.begin p (shutPair 0)).TimePasses {} (limit (shutPair 0) (.ofMilliseconds 10)) ∧
    ∀ rounds, (p.wait rounds (shutPair 0) {} (some (.ofMilliseconds 10))).answer = .unfinished := by
  intro p
  refine ⟨endsInTime_host, ?_, ?_⟩
  · refine ⟨10000000, fun rounds w' hrounds h => ?_⟩
    obtain rfl := Option.some.inj ((after_shutPair _ rounds).symm.trans h)
    have hclock : Waiting.clock (limit (shutPair 0) (.ofMilliseconds 10))
        ⟨p, shutPair (100 * (rounds + 1)), []⟩ = clockAt (100 * (rounds + 1) + 200) := rfl
    have hlimit : limit (shutPair 0) (.ofMilliseconds 10) = 10000100 := rfl
    rw [hclock, hlimit, clockAt, endOfTime]
    omega
  · intro rounds
    have hall := Waiting.finish_of_after
      (after_shutPair (limit (shutPair 0) (.ofMilliseconds 10)) rounds) 0
    exact congrArg Reply.answer hall

end Polling

end Proactor
