import Proactor.Proofs.Agreement
import Proactor.Proofs.PortRuns
import Proactor.Session.AnyPort

/-!
# The books of a polling port

A polling port holds what it took in two places: results that are queued, and operations that are
parked. Whatever polling and the tried calls come to, an operation goes from one to the other or
stays, and a wait that hands a completion back takes it off the front of the queue. So nothing is
lost and nothing is handed back twice.
-/

namespace Proactor.Polling

/-- The completions in the queue, the oldest first. -/
def queue (p : Polling) : List Completion := p.ready.map Prod.fst

/-- The operations that are parked, the oldest first. -/
def parkedEntries (p : Polling) : List Entry := p.parked.map Parked.entry

/-- The tokens of all that the port holds, in no order. -/
def tokens (p : Polling) : Multiset Token :=
  completionTokens p.queue + entryTokens p.parkedEntries

/-- There is one token for each operation in flight. -/
theorem card_tokens (p : Polling) : p.tokens.card = p.inflight := by
  simp [tokens, queue, parkedEntries, inflight]

/-- Nothing is lost between two states of a port: what it held and took, it handed back or holds,
and what was queued goes out in that order. -/
structure Conserves (p : Polling) (taken : List Entry) (notices : List Notice)
    (returned : List Completion) (p' : Polling) : Prop where
  tokens : entryTokens taken + p.tokens = completionTokens returned + p'.tokens
  order : p.queue ++ completedIn notices = returned ++ p'.queue

namespace Conserves

variable {p p' p'' : Polling} {taken taken' : List Entry} {notices notices' : List Notice}
  {returned returned' : List Completion}

theorem refl (p : Polling) : Conserves p [] [] [] p where
  tokens := rfl
  order := by simp [completedIn]

theorem trans (h : Conserves p taken notices returned p')
    (h' : Conserves p' taken' notices' returned' p'') :
    Conserves p (taken ++ taken') (notices ++ notices') (returned ++ returned') p'' where
  tokens := by
    calc entryTokens (taken ++ taken') + p.tokens
        = entryTokens taken' + (entryTokens taken + p.tokens) := by
          rw [entryTokens_append]
          ac_rfl
      _ = completionTokens returned + (entryTokens taken' + p'.tokens) := by
          rw [h.tokens]
          ac_rfl
      _ = completionTokens (returned ++ returned') + p''.tokens := by
          rw [h'.tokens, completionTokens_append, add_assoc]
  order := by
    rw [completedIn_append, ← List.append_assoc, h.order, List.append_assoc, h'.order,
      List.append_assoc]

/-- A result that is queued. -/
theorem complete (p : Polling) (entry : Entry) (n : Int64) (t : Transfer) :
    Conserves p [entry] (p.complete entry.token n t).2 [] (p.complete entry.token n t).1 where
  tokens := by
    have hone : completionTokens [(result entry.token n t).1] = entryTokens [entry] := rfl
    simp only [Polling.complete, Polling.tokens, queue, parkedEntries, List.map_append,
      List.map_cons, List.map_nil, completionTokens_append, completionTokens_nil, zero_add, hone]
    ac_rfl
  order := by simp [Polling.complete, queue, result, completedIn]

/-- An operation that is parked. -/
theorem park (p : Polling) (entry : Entry) (connecting : Bool) :
    Conserves p [entry] (p.park entry connecting).2 [] (p.park entry connecting).1 where
  tokens := by
    simp only [Polling.park, Polling.tokens, queue, parkedEntries, List.map_append, List.map_cons,
      List.map_nil, entryTokens_append, completionTokens_nil, zero_add]
    ac_rfl
  order := by simp [Polling.park, queue, completedIn]

/-- The first result that leaves the queue. -/
theorem unqueue {c : Completion} {t : Transfer} {ready : List Result}
    (h : p.ready = (c, t) :: ready) : Conserves p [] [] [c] { p with ready } where
  tokens := by
    simp only [Polling.tokens, queue, parkedEntries, h, List.map_cons, entryTokens_nil, zero_add]
    rw [← add_assoc, ← completionTokens_append]
    rfl
  order := by simp [queue, h, completedIn]

end Conserves

variable {H : Type} [PollOs H]

/-! ### What a push does -/

/-- The ways a push ends: a result is queued at once, the operation is parked, or the entry is
refused, and then the port is as it was. -/
inductive Pushed (p : Polling) (entry : Entry) : Reply Polling H (Except Fault Unit) → Prop
  | completed (host : H) (n : Int64) (t : Transfer) :
    Pushed p entry (accepted host (p.complete entry.token n t))
  | parked (host : H) (connecting : Bool) :
    Pushed p entry (accepted host (p.park entry connecting))
  | refused (host : H) (e : Errno) : Pushed p entry (refused host p e)

theorem pushed_startConnect (p : Polling) (host : H) (entry : Entry) (r : Request) :
    Pushed p entry (p.startConnect host entry r) := by
  unfold startConnect
  split
  · exact .completed _ _ _
  · split
    · exact .parked _ _
    · split
      · exact .refused _ _
      · exact .completed _ _ _

theorem pushed_firstAttempt (p : Polling) (host : H) (entry : Entry) (r : Request) :
    Pushed p entry (p.firstAttempt host entry r) := by
  unfold firstAttempt
  split
  · exact .parked _ _
  · split
    · exact .refused _ _
    · exact .completed _ _ _

/-- Every push ends in one of the ways. -/
theorem pushed (p : Polling) (host : H) (m : Memory) (entry : Entry) :
    Pushed p entry (p.push host m entry) := by
  unfold push
  split
  · exact .refused _ _
  · split
    · exact .completed _ _ _
    · split
      · exact .refused _ _
      · split
        · exact p.pushed_startConnect host entry _
        · split
          · exact .refused _ _
          · exact .parked _ _
          · exact p.pushed_firstAttempt host entry _

/-- A push that is refused leaves the port as it was, and nothing is noticed. -/
theorem push_error {p : Polling} {host : H} {m : Memory} {entry : Entry} {f : Fault}
    (h : (p.push host m entry).answer = .error f) :
    (p.push host m entry).port = p ∧ (p.push host m entry).notices = [] := by
  cases hr : p.push host m entry with
  | mk port host' notices answer =>
    have hp := p.pushed host m entry
    rw [hr] at h hp
    cases hp with
    | completed => cases h
    | parked => cases h
    | refused => exact ⟨rfl, rfl⟩

/-- A push takes the entry once if it is accepted, and takes nothing if it is not. -/
theorem push_conserves (p : Polling) (host : H) (m : Memory) (entry : Entry) :
    Conserves p (PortCall.push entry (p.push host m entry).answer).taken?.toList
      (p.push host m entry).notices [] (p.push host m entry).port := by
  cases hr : p.push host m entry with
  | mk port host' notices answer =>
    have hp := p.pushed host m entry
    rw [hr] at hp
    cases hp with
    | completed => exact .complete p entry _ _
    | parked => exact .park p entry _
    | refused => exact .refl p

/-! ### What a wait does -/

/-- Of the operations that are tried again, each is parked still or has a result, in order. -/
theorem progress_conserves (m : Memory) (at_ : Nat → Readiness) (parked : List Parked) :
    ∀ (host : H) (i : Nat),
      completionTokens ((progress m at_ host i parked).2.2.map Prod.fst) +
          entryTokens ((progress m at_ host i parked).2.1.map Parked.entry) =
        entryTokens (parked.map Parked.entry) ∧
      completedIn ((progress m at_ host i parked).2.2.map
          fun (c, _) => .completed c.token c.result) =
        (progress m at_ host i parked).2.2.map Prod.fst := by
  induction parked with
  | nil => exact fun _ _ => ⟨rfl, rfl⟩
  | cons first rest ih =>
    intro host i
    obtain ⟨htokens, hnoticed⟩ := ih (retry host m first (at_ i)).1 (i + 1)
    have hcons : ∀ l : List Entry, entryTokens (first.entry :: l) =
        {first.entry.token} + entryTokens l := fun l => rfl
    simp only [progress, List.map_cons, hcons]
    cases (retry host m first (at_ i)).2 with
    | none =>
      simp only [List.map_cons, hcons]
      exact ⟨by rw [← htokens, add_left_comm], hnoticed⟩
    | some x =>
      have hresult : ∀ l : List Completion,
          completionTokens ((result first.entry.token x.1 x.2).1 :: l) =
            {first.entry.token} + completionTokens l := fun l => rfl
      simp only [List.map_cons, hresult]
      refine ⟨by rw [← htokens, add_assoc], ?_⟩
      rw [← hnoticed]
      rfl

/-- Polling moves results from the parked operations to the end of the queue. -/
theorem advance_conserves (p : Polling) (host : H) (m : Memory) (at_ : Nat → Readiness) :
    Conserves p [] (p.advance host m at_).2.2 [] (p.advance host m at_).1 := by
  obtain ⟨htokens, hnoticed⟩ := progress_conserves m at_ p.parked host 0
  constructor
  · simp only [advance, Polling.tokens, queue, parkedEntries, List.map_append,
      completionTokens_append, entryTokens_nil, completionTokens_nil, zero_add]
    rw [← htokens, add_assoc]
  · simp only [advance, queue, List.map_append, List.nil_append]
    rw [hnoticed]

/-- What a wait leaves behind is what was there, but for the completion it hands back. -/
def Delivers (p : Polling) (notices : List Notice) (r : Reply Polling H Waited) : Prop :=
  ∃ more, r.notices = notices ++ more ∧
    Conserves p [] more r.answer.completion?.toList r.port

omit [PollOs H] in
theorem Delivers.of_unchanged (p : Polling) (notices : List Notice) (host : H) {w : Waited}
    (hw : w.completion? = none) : Delivers p notices (p.ended host notices w) := by
  refine ⟨[], (List.append_nil _).symm, ?_⟩
  simp only [ended, hw]
  exact .refl p

theorem delivers_waitForNothing (p : Polling) (notices : List Notice) (host : H)
    (left : Option Duration) : Delivers p notices (p.waitForNothing host notices left) := by
  cases left with
  | none => exact .of_unchanged p notices _ rfl
  | some d => exact .of_unchanged p notices _ rfl

/-- A round of a wait either ends it or leaves behind a port that holds the same, and the induction
is on the rounds. -/
theorem delivers_waitUntil (m : Memory) (deadline : Option Nat) (rounds : Nat) :
    ∀ (p : Polling) (host : H) (notices : List Notice),
      Delivers p notices (waitUntil m deadline rounds p host notices) := by
  induction rounds with
  | zero => exact fun p host notices => .of_unchanged p notices host rfl
  | succ rounds ih =>
    intro p host notices
    unfold waitUntil
    split
    · next c t ready hready =>
      exact ⟨[], (List.append_nil _).symm, .unqueue hready⟩
    · dsimp only
      split
      · exact delivers_waitForNothing ..
      · split
        · exact .of_unchanged p notices _ rfl
        · split
          · exact .of_unchanged p notices _ rfl
          · split
            · exact .of_unchanged p notices _ rfl
            · exact ih p _ notices
        · next host at_ _ =>
          obtain ⟨more, hmore, hc⟩ := ih (p.advance host m at_).1 (p.advance host m at_).2.1
            (notices ++ (p.advance host m at_).2.2)
          refine ⟨(p.advance host m at_).2.2 ++ more, ?_, ?_⟩
          · rw [hmore, List.append_assoc]
          · exact (p.advance_conserves host m at_).trans hc
        · split
          · exact .of_unchanged p notices _ rfl
          · exact ih p _ notices

/-- A wait takes nothing but the completion that it hands back. -/
theorem wait_conserves (p : Polling) (host : H) (m : Memory) (rounds : Nat)
    (timeout : Option Duration) :
    Conserves p [] (p.wait rounds host m timeout).notices
      (p.wait rounds host m timeout).answer.completion?.toList
      (p.wait rounds host m timeout).port := by
  have hdelivers : Delivers p [] (p.wait rounds host m timeout) := by
    unfold wait
    split
    · next host _ _ => exact .of_unchanged p [] host rfl
    · next host deadline _ => exact delivers_waitUntil m deadline rounds p host []
  obtain ⟨more, hmore, hc⟩ := hdelivers
  rw [hmore]
  exact hc

/-! ### What a run does -/

/-- Whatever a polling port is asked, it takes the entry that it accepts and hands back one
completion at most. -/
theorem put_conserves (p : Polling) (host : H) (ask : PortAsk) :
    Conserves p (ask.put completionPort p host).answer.taken?.toList
      (ask.put completionPort p host).notices
      (ask.put completionPort p host).answer.returned?.toList
      (ask.put completionPort p host).port := by
  cases ask with
  | push m entry => exact p.push_conserves host m entry
  | flush m => exact .refl p
  | wait m rounds timeout => exact p.wait_conserves host m rounds timeout

/-- Nothing is lost in a run: it is one call after the other, and what the host does between them
does not touch the port. -/
theorem conserves_of_run {goesOn : H → H → Prop} {p p' : Polling} {h h' : H}
    {calls : List PortCall} {notices : List Notice}
    (run : PortRun completionPort goesOn p h calls notices p' h') :
    Conserves p (takenIn calls) notices (returnedIn calls) p' := by
  induction run with
  | start => exact .refl p
  | call run h₂ hon ask ih =>
    rw [takenIn_append, returnedIn_append, takenIn_singleton, returnedIn_singleton]
    exact ih.trans (put_conserves _ _ ask)

/-- The books of a polling port that began with nothing, as they stand after the calls. -/
structure Balanced (H : Type) [PollOs H] (calls : List PortCall) (notices : List Notice)
    (p : Polling) : Prop where
  /-- What was taken was handed back, is queued, or is parked. -/
  tokens : entryTokens (takenIn calls) =
    completionTokens (returnedIn calls) + completionTokens p.queue + entryTokens p.parkedEntries
  /-- Completions are handed back in the order in which they were queued. -/
  order : completedIn notices = returnedIn calls ++ p.queue
  /-- What is queued goes out first, whatever the port is asked from now on. -/
  first : ∀ (goesOn : H → H → Prop) (h h' : H) (more : List PortCall) (noticed : List Notice)
    (p' : Polling), PortRun completionPort goesOn p h more noticed p' h' →
    p.queue <+: returnedIn more ++ p'.queue
  inflight : (takenIn calls).length = (returnedIn calls).length + p.inflight
  /-- A push that is refused changes nothing. -/
  refused : ∀ (host : H) (m : Memory) (entry : Entry) (f : Fault),
    (p.push host m entry).answer = .error f → (p.push host m entry).port = p
  /-- A wait that hands nothing back takes nothing out, neither queued nor parked. -/
  kept : ∀ (host : H) (m : Memory) (rounds : Nat) (timeout : Option Duration),
    (p.wait rounds host m timeout).answer.completion? = none →
    completionTokens (p.wait rounds host m timeout).port.queue +
        entryTokens (p.wait rounds host m timeout).port.parkedEntries =
      completionTokens p.queue + entryTokens p.parkedEntries

/-- A polling port loses nothing and hands nothing back twice, whatever it is asked and whatever
its host does, in the calls and between them. -/
theorem polling_port_balances {goesOn : H → H → Prop} {p p' : Polling} {h h' : H}
    {calls : List PortCall} {notices : List Notice} (hnew : p.inflight = 0)
    (run : PortRun completionPort goesOn p h calls notices p' h') :
    Balanced H calls notices p' := by
  have hc := conserves_of_run run
  have hnone : p.tokens = 0 := by rw [← Multiset.card_eq_zero, card_tokens, hnew]
  have hqueue : p.queue = [] := by
    have hlength : p.ready.length + p.parked.length = 0 := hnew
    exact List.map_eq_nil_iff.mpr (List.eq_nil_of_length_eq_zero (by omega))
  have htokens : entryTokens (takenIn calls) = completionTokens (returnedIn calls) + p'.tokens := by
    have h := hc.tokens
    rwa [hnone, add_zero] at h
  refine ⟨?_, ?_, ?_, ?_, ?_, ?_⟩
  · rw [htokens, Polling.tokens, add_assoc]
  · have h := hc.order
    rwa [hqueue, List.nil_append] at h
  · exact fun _ _ _ _ noticed _ run' => ⟨completedIn noticed, (conserves_of_run run').order⟩
  · have hcard := congrArg Multiset.card htokens
    rwa [Multiset.card_add, card_entryTokens, card_completionTokens, card_tokens] at hcard
  · exact fun host m entry f hf => (push_error hf).1
  · intro host m rounds timeout hw
    have h := (p'.wait_conserves host m rounds timeout).tokens
    rw [hw] at h
    simpa [Polling.tokens] using h.symm

/-- A pipe under descriptor 0 with so many pages in it. -/
def hostOfPipe (pages : List Pipe.Page) : Host :=
  { files := [{ file := .pipeReader 0, holders := 1 }], descriptors := [(0, 0)],
    pipes := [{ pages }] }

/-- A read is parked, an operation that does nothing is over at once, and a read on no descriptor is
refused. Then the pipe is filled, and both results come in the order in which they were queued. -/
theorem polling_port_balances_of_late_data : ∃ calls notices p' h',
    (ofConfig 8).inflight = 0 ∧
    PortRun completionPort (fun _ _ => True) (ofConfig 8) (hostOfPipe []) calls notices p' h' ∧
    (returnedIn calls).map Completion.token = [.ofSlot 1 0, .ofSlot 0 0] ∧
    p'.inflight = 0 ∧ Balanced Host calls notices p' := by
  have run : PortRun completionPort (fun _ _ => True) (ofConfig 8) (hostOfPipe []) _ _ _ _ :=
    .call (.call (.call (.call (.call .start
      (hostOfPipe []) trivial (.push {}
        { token := .ofSlot 0 0, opcode := Opcode.read, payload := .data ⟨0, 0, 8⟩ }))
      (hostOfPipe []) trivial (.push {} { token := .ofSlot 1 0, opcode := Opcode.nop }))
      (hostOfPipe []) trivial (.push {}
        { token := .ofSlot 2 0, opcode := Opcode.read, fdWord := Entry.wordOfFd (-1)
          payload := .data ⟨0, 0, 8⟩ }))
      (hostOfPipe []) trivial (.wait {} 9 none))
      (hostOfPipe [{ bytes := [1, 2] }]) trivial (.wait {} 9 none)
  exact ⟨_, _, _, _, rfl, run, rfl, rfl, polling_port_balances rfl run⟩

/-- What holds of engines on ports that keep track of what is in flight holds on polling ports. -/
theorem keepsTokens : @KeepsTokens Polling H completionPort Polling.tokens := by
  apply @KeepsTokens.mk Polling H completionPort Polling.tokens
  case inflight => exact fun p => p.card_tokens.symm
  case openScratch =>
    intro p h
    change tokens (p.openScratch h).port = tokens p
    unfold openScratch
    split <;> rfl
  case supports => exact fun _ _ _ => rfl
  case closeScratch => exact fun _ _ => rfl
  case associate => exact fun _ _ _ => rfl
  case flush => exact fun _ _ _ => rfl
  case push_ok =>
    intro p h m entry _ hok
    have hc := (p.push_conserves h m entry).tokens
    have hok' : (p.push h m entry).answer = .ok () := hok
    rw [hok'] at hc
    exact (hc.trans (zero_add _)).symm
  case push_error =>
    intro p h m entry f herr
    exact congrArg Polling.tokens (push_error herr).1
  case wait_completion =>
    intro rounds p h m timeout c moved hw
    have hc := (p.wait_conserves h m rounds timeout).tokens
    have hw' : (p.wait rounds h m timeout).answer = .completion c moved := hw
    rw [hw', entryTokens_nil, zero_add] at hc
    rw [hc]
    exact (Multiset.erase_cons_head _ _).symm
  case wait_other =>
    intro rounds p h m timeout hw
    have hc := (p.wait_conserves h m rounds timeout).tokens
    have hnone : (p.wait rounds h m timeout).answer.completion? = none := by
      cases ha : (p.wait rounds h m timeout).answer with
      | completion c moved => exact absurd ha (hw c moved)
      | _ => rfl
    rw [hnone, entryTokens_nil, zero_add] at hc
    exact (hc.trans (zero_add _)).symm

end Proactor.Polling
