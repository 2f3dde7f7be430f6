import Proactor.Proofs.HandOff

/-!
# Recorded ports

Any port together with a record of the calls on it. A submission asks a port to register a
descriptor, to take an entry and to flush, in this order, and what it asks depends on the answers
before. The record tells which calls there were.
-/

namespace Proactor

/-- A call on a port, and its answer. -/
inductive PortCall where
  | openScratch (answer : Except Fault Unit)
  | supports (opcode : Opcode) (answer : Bool)
  | closeScratch
  | associate (fd : Fd) (answer : Except Fault Unit)
  | push (entry : Entry) (answer : Except Fault Unit)
  | flush (answer : Except Fault Nat)
  | wait (answer : Waited)
  | shutdown

/-- A port and the calls on it so far. -/
structure Recorder (P : Type) where
  port : P
  calls : List PortCall := []

/-- The entry that a port took, if the call is that it took one. -/
def PortCall.taken? : PortCall → Option Entry
  | .push entry (.ok ()) => some entry
  | _ => none

/-- The entries that a port has taken, one after the other. -/
def Recorder.taken {P : Type} (r : Recorder P) : List Entry := r.calls.filterMap PortCall.taken?

variable {P H α : Type}

/-- The reply of the port, with the call on record. -/
def Recorder.reply (r : Recorder P) (x : Reply P H α) (call : α → PortCall) :
    Reply (Recorder P) H α :=
  { x with port := ⟨x.port, r.calls ++ [call x.answer]⟩ }

/-- A recorded port answers as the port itself does. -/
instance [CompletionPort P H] : CompletionPort (Recorder P) H where
  name r := CompletionPort.name r.port
  capacity r := CompletionPort.capacity r.port
  inflight r := CompletionPort.inflight r.port
  openScratch r host := r.reply (CompletionPort.openScratch r.port host) .openScratch
  supports r host opcode :=
    let (port, answer) := CompletionPort.supports r.port host opcode
    (⟨port, r.calls ++ [.supports opcode answer]⟩, answer)
  closeScratch r host :=
    let (port, host) := CompletionPort.closeScratch r.port host
    (⟨port, r.calls ++ [.closeScratch]⟩, host)
  associate r host fd := r.reply (CompletionPort.associate r.port host fd) (.associate fd)
  push r host m entry := r.reply (CompletionPort.push r.port host m entry) (.push entry)
  flush r host m := r.reply (CompletionPort.flush r.port host m) .flush
  wait rounds r host m timeout :=
    r.reply (CompletionPort.wait rounds r.port host m timeout) .wait
  shutdown r host :=
    let (port, host) := CompletionPort.shutdown r.port host
    (⟨port, r.calls ++ [.shutdown]⟩, host)

variable [CompletionPort P H]

/-- The calls with which a descriptor comes to be registered, and what is registered then. -/
inductive Registers (fd : Fd) (before : List Fd) : List PortCall → List Fd → Prop where
  /-- There is no descriptor, or it is registered already. -/
  | not_asked (h : fd.toInt < 0 ∨ fd ∈ before) : Registers fd before [] before
  | added (h : 0 ≤ fd.toInt) (hnew : fd ∉ before) :
    Registers fd before [.associate fd (.ok ())] (fd :: before)

namespace Engine

/-- A port is not asked to register a descriptor that is none, or is registered already. -/
theorem register_of_not_asked (e : Engine P H) {fd : Fd}
    (h : fd.toInt < 0 ∨ fd ∈ e.associated) : e.register fd = (e, .ok ()) := by
  unfold register
  by_cases hneg : 0 ≤ fd.toInt
  · have hmem : fd ∈ e.associated := h.resolve_left (Int.not_lt.mpr hneg)
    rw [if_pos hneg, associate, if_pos (List.contains_iff_mem.mpr hmem)]
  · rw [if_neg hneg]

/-- A port is asked to register any other descriptor, and may refuse. -/
theorem register_of_asked (e : Engine P H) {fd : Fd} (h : 0 ≤ fd.toInt)
    (hnew : fd ∉ e.associated) :
    e.register fd = match (CompletionPort.associate e.port e.world.host fd).answer with
      | .ok () => ({ e.absorb (CompletionPort.associate e.port e.world.host fd) with
          associated := fd :: e.associated }, .ok ())
      | .error f => (e.absorb (CompletionPort.associate e.port e.world.host fd), .error f) := by
  have hnot : ¬ e.associated.contains fd = true := fun hc => hnew (List.contains_iff_mem.mp hc)
  have hreg : e.register fd = e.associate fd := if_pos h
  rw [hreg]
  exact if_neg hnot

/-- What registering a descriptor asks of a port. -/
theorem register_recorded (e : Engine (Recorder P) H) (fd : Fd) : ∃ p host j asked a,
    p.calls = e.port.calls ++ asked ∧
    ((e.register fd = (e.beside p host j a, .ok ()) ∧ Registers fd e.associated asked a) ∨
      ∃ f, e.register fd = (e.beside p host j e.associated, .error f) ∧
        0 ≤ fd.toInt ∧ fd ∉ e.associated ∧ asked = [.associate fd (.error f)]) := by
  by_cases hask : fd.toInt < 0 ∨ fd ∈ e.associated
  · refine ⟨e.port, e.world.host, e.world.journal, [], e.associated, by simp, .inl ⟨?_, ?_⟩⟩
    · exact e.register_of_not_asked hask
    · exact .not_asked hask
  · obtain ⟨hneg, hnew⟩ := not_or.mp hask
    have hpos : 0 ≤ fd.toInt := Int.not_lt.mp hneg
    have hreg := e.register_of_asked hpos hnew
    let r := CompletionPort.associate e.port e.world.host fd
    have hcalls : ∀ x, r.answer = x → r.port.calls = e.port.calls ++ [.associate fd x] := by
      intro x hx
      rw [← hx]
      rfl
    cases ha : r.answer with
    | ok u =>
      refine ⟨r.port, r.host, e.world.journal ++ r.notices, [.associate fd (.ok ())],
        fd :: e.associated, hcalls _ ha, .inl ⟨?_, .added hpos hnew⟩⟩
      rw [hreg, ha]
      rfl
    | error f =>
      refine ⟨r.port, r.host, e.world.journal ++ r.notices, [.associate fd (.error f)],
        e.associated, hcalls _ ha, .inr ⟨f, ?_, hpos, hnew, rfl⟩⟩
      rw [hreg, ha]
      rfl

/-- An eager engine flushes once, and any other engine does not. -/
theorem flushIfEager_recorded (e : Engine (Recorder P) H) (kind : Kind) :
    ∃ p host j flushes, e.flushIfEager kind = e.beside p host j e.associated ∧
      p.calls = e.port.calls ++ flushes ∧
      if e.config.eagerFlush then ∃ answer, flushes = [.flush answer] else flushes = [] := by
  unfold flushIfEager
  split
  · let r := CompletionPort.flush e.port e.world.host e.world.memory
    unfold flushBehind
    dsimp only
    split
    · exact ⟨r.port, r.host, e.world.journal ++ r.notices, [.flush r.answer], rfl, rfl, _, rfl⟩
    · exact ⟨r.port, r.host, _, [.flush r.answer], rfl, rfl, _, rfl⟩
  · exact ⟨e.port, e.world.host, e.world.journal, [], rfl, by simp, rfl⟩

/-- What a port is asked for a submission that it refuses with a fault. -/
inductive Refusal (e e' : Engine (Recorder P) H) (fd : Fd) (f : Fault) : Prop where
  | registering (h : 0 ≤ fd.toInt) (hnew : fd ∉ e.associated)
      (hcalls : e'.port.calls = e.port.calls ++ [.associate fd (.error f)])
      (hassoc : e'.associated = e.associated)
  | pushing (asked : List PortCall) (entry : Entry)
      (hcalls : e'.port.calls = e.port.calls ++ asked ++ [.push entry (.error f)])
      (hassoc : Registers fd e.associated asked e'.associated)

/-- What a port is asked for a submission that it takes under a token: one entry is pushed, and
flushed once if the engine is eager. -/
def Acceptance (e e' : Engine (Recorder P) H) (fd : Fd) (t : Token) : Prop :=
  ∃ asked entry flushes,
    e'.port.calls = e.port.calls ++ asked ++ [.push entry (.ok ())] ++ flushes ∧
    Registers fd e.associated asked e'.associated ∧ entry.token = t ∧
    if e.config.eagerFlush then ∃ answer, flushes = [.flush answer] else flushes = []

omit [CompletionPort P H] in
/-- Taking a context back is nothing to the port. -/
theorem withdraw_beside (e : Engine P H) (t : Token) :
    (e.withdraw t).port = e.port ∧ (e.withdraw t).associated = e.associated := by
  unfold withdraw
  split <;> exact ⟨rfl, rfl⟩

/-- What handing off a submission asks of a port. -/
theorem handOff_recorded (e : Engine (Recorder P) H) (s : Submission) (cb : Callback) :
    (∃ f, (e.handOff s cb).2 = .error (.systemCall s.kind f.errno) ∧
      Refusal e (e.handOff s cb).1 s.fd f) ∨
    (∃ t, (e.handOff s cb).2 = .ok t ∧ Acceptance e (e.handOff s cb).1 s.fd t) := by
  obtain ⟨p, host, j, asked, a, hcalls, ⟨hr, hreg⟩ | ⟨f, hr, hneg, hnew, hasked⟩⟩ :=
    register_recorded e s.fd
  · let e₁ := e.beside p host j a
    cases hp : (e₁.pushReply s cb).answer with
    | error f =>
      rw [handOff_of_push_error hr hp]
      obtain ⟨hport, hassoc⟩ := withdraw_beside (e₁.pushed s cb)
        (e₁.slab.insert (contextOf s cb)).2
      refine .inl ⟨f, rfl, .pushing asked (s.entry (e₁.slab.insert (contextOf s cb)).2) ?_ ?_⟩
      · refine (congrArg Recorder.calls hport).trans ?_
        rw [← hcalls, ← hp]
        rfl
      · exact hassoc ▸ hreg
    | ok u =>
      rw [handOff_of_push_ok hr hp]
      let pushed := (e₁.pushed s cb).note
        (.submitted s.kind s.fd (e₁.slab.insert (contextOf s cb)).2)
      obtain ⟨p', host', j', flushes, hf, hcalls', heager⟩ := flushIfEager_recorded pushed s.kind
      refine .inr ⟨_, rfl, asked, s.entry (e₁.slab.insert (contextOf s cb)).2, flushes, ?_, ?_,
        rfl, heager⟩
      · refine (congrArg (fun x => x.port.calls) hf).trans (hcalls'.trans ?_)
        rw [← hcalls, ← hp]
        rfl
      · exact (congrArg Engine.associated hf).symm ▸ hreg
  · rw [handOff_of_register_error cb hr]
    exact .inl ⟨f, rfl, .registering hneg hnew (hasked ▸ hcalls) rfl⟩

end Engine

end Proactor
