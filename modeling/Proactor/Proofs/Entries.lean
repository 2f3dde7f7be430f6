import Proactor.Proofs.AllOrNothing
import Proactor.Proofs.Lasting

/-!
# Entries

The entry that a port gets for an order. It has the opcode of the order's kind, descriptor and
flags go through machine words and come out as they went in, and its areas lie in the buffers of
the order: the front of the data buffer, as long as was asked for, and for the name of a sender
what follows the header, as far as 32 bits tell.
-/

namespace Proactor

/-- The front of a buffer, all of it unless a length is given. -/
def Memory.front (m : Memory) (buffer : StorageId) (length : Option Nat) : Area :=
  ⟨buffer, 0, length.getD (m.capacity buffer)⟩

/-- All of a buffer but the header of an address half, as far as 32 bits tell. -/
def Memory.behindHeader (m : Memory) (buffer : StorageId) : Area :=
  ⟨buffer, Half.headerSize, min (m.capacity buffer - Half.headerSize) 0xffffffff⟩

/-- The area is not empty, lies in its storage, and has a length of 32 bits. -/
structure Area.Fits (a : Area) (m : Memory) : Prop where
  nonempty : 0 < a.length
  inside : a.offset + a.length ≤ m.capacity a.storage
  narrow : a.length < 2 ^ 32

/-- The record holds an IPv4 destination in its 16-byte form. -/
structure Destination.IsIn (d : Destination) (a : SocketAddress) : Prop where
  family : d.family.toInt = Family.inet.toNat
  bytes : ∃ ip, Ipv4.ofText? d.host = some ip ∧ a.bytes = Address.inetBytes ip d.port
  length : a.bytes.length = 16

namespace Order

/-- The flags of an order, if it takes any. -/
def flags? {B : Type} : Order B → Option Int32
  | receiveFrom _ _ _ _ flags => some flags
  | sendTo _ _ _ _ flags => some flags
  | _ => none

/-- The memory that a port is given for an order. -/
inductive Gives (m : Memory) : Order StorageId → Payload → Prop where
  | write (fd : Fd) (buffer : StorageId) (length : Option Nat) :
    Gives m (.write fd buffer length) (.data (m.front buffer length))
  | read (fd : Fd) (buffer : StorageId) (length : Option Nat) :
    Gives m (.read fd buffer length) (.data (m.front buffer length))
  | receiveFrom (fd : Fd) (buffer sender : StorageId) (length : Option Nat) (flags : Int32)
      (hroom : Half.minSize ≤ m.capacity sender) :
    Gives m (.receiveFrom fd buffer sender length flags)
      (.receive (m.front buffer length) (some (m.behindHeader sender)))
  | sendTo (fd : Fd) (buffer : StorageId) (destination : Destination) (length : Option Nat)
      (flags : Int32) (address : SocketAddress) (h : destination.IsIn address) :
    Gives m (.sendTo fd buffer destination length flags)
      (.send (m.front buffer length) (some address))
  | accept (fd onto : Fd) (output : StorageId) : Gives m (.accept fd onto output) (.peer 128)
  | connect (fd : Fd) (destination : Destination) (address : SocketAddress)
      (h : destination.IsIn address) : Gives m (.connect fd destination) (.destination address)
  | event : Gives m .event .nothing

/-- The area that an order's data is in. -/
def data? (m : Memory) : Order StorageId → Option Area
  | write _ buffer length => some (m.front buffer length)
  | read _ buffer length => some (m.front buffer length)
  | receiveFrom _ buffer _ length _ => some (m.front buffer length)
  | sendTo _ buffer _ length _ => some (m.front buffer length)
  | _ => none

/-- Everything that an order comes to when its arguments are good. -/
inductive Becomes (m : Memory) (x : Extensions) : Order StorageId → Submission → Prop where
  | write (fd : Fd) (buffer : StorageId) (length : Option Nat) :
    Becomes m x (.write fd buffer length)
      { kind := .write, opcode := Opcode.write, fd
        payload := .data (m.front buffer length), pinned := .writing (m.front buffer length) }
  | read (fd : Fd) (buffer : StorageId) (length : Option Nat) :
    Becomes m x (.read fd buffer length)
      { kind := .read, opcode := Opcode.read, fd
        payload := .data (m.front buffer length), pinned := .reading (m.front buffer length) }
  | receiveFrom (fd : Fd) (buffer sender : StorageId) (length : Option Nat) (flags : Int32)
      (hroom : Half.minSize ≤ m.capacity sender) :
    Becomes m x (.receiveFrom fd buffer sender length flags)
      { kind := .receiveFrom, opcode := Opcode.receiveMessage, fd
        flagsWord := Entry.wordOfFlags flags
        payload := .receive (m.front buffer length) (some (m.behindHeader sender))
        pinned := .receiving (m.front buffer length) (m.behindHeader sender)
          (m.behindHeader sender).length }
  | sendTo (fd : Fd) (buffer : StorageId) (destination : Destination) (length : Option Nat)
      (flags : Int32) (address : SocketAddress) (h : destination.encode = .ok address) :
    Becomes m x (.sendTo fd buffer destination length flags)
      { kind := .sendTo, opcode := Opcode.sendMessage, fd
        flagsWord := Entry.wordOfFlags flags
        payload := .send (m.front buffer length) (some address)
        pinned := .sending (m.front buffer length) address }
  | accept (fd onto : Fd) (output : StorageId) :
    Becomes m x (.accept fd onto output)
      { kind := .accept, opcode := x.accept, fd, flagsWord := Submission.closeOnExec
        payload := .peer SocketAddress.size
        pinned := .accepting SocketAddress.empty output onto }
  | connect (fd : Fd) (destination : Destination) (address : SocketAddress)
      (h : destination.encode = .ok address) :
    Becomes m x (.connect fd destination)
      { kind := .connect, opcode := x.connect, fd, payload := .destination address
        pinned := .connecting address }
  | event : Becomes m x .event { kind := .inject, opcode := Opcode.nop, fd := -1, fdWord := 0 }

end Order

/-- The entry says what the order does. -/
structure Entry.Says (m : Memory) (o : Order StorageId) (entry : Entry) : Prop where
  opcode : entry.opcode = o.kind.opcode
  /-- An event is for no descriptor. -/
  fd : o ≠ .event → entry.fd = o.fd
  flags : ∀ flags, o.flags? = some flags → entry.flags.toInt32 = flags
  payload : o.Gives m entry.payload
  data : ∀ a, o.data? m = some a → a.Fits m

/-! ### What is prepared -/

/-- A destination is encoded in 16 bytes, and only an IPv4 one is. -/
theorem Destination.isIn_of_encode {d : Destination} {a : SocketAddress}
    (h : d.encode = .ok a) : d.IsIn a := by
  unfold Destination.encode SocketAddress.encode at h
  split at h
  · cases h
  · next hfamily =>
    split at h
    · next ip hip =>
      obtain rfl := Except.ok.inj h
      have hbytes := SocketAddress.bytes_inet ip d.port
      refine ⟨not_not.mp hfamily, ⟨ip, hip, hbytes⟩, ?_⟩
      rw [hbytes, Address.length_inetBytes]
    · cases h

/-- A length that passes its check is that of an area that fits. -/
theorem Submission.fits_of_transferLength {m : Memory} {buffer : StorageId} {length : Option Nat}
    {n : Nat} (h : transferLength m buffer length = .ok n) :
    n = (m.front buffer length).length ∧ (m.front buffer length).Fits m := by
  unfold transferLength at h
  dsimp only at h
  split at h
  · cases h
  split at h
  · cases h
  split at h
  · cases h
  · next hzero hwide hnarrow =>
    refine ⟨(Except.ok.inj h).symm, Nat.pos_of_ne_zero hzero, ?_, Nat.not_le.mp hnarrow⟩
    rw [Memory.front, Nat.zero_add]
    exact Nat.not_lt.mp hwide

namespace Order

/-- An order whose arguments are good comes to all that it says, and its data fits. -/
theorem becomes_of_prepare {m m' : Memory} {x : Extensions} {o : Order StorageId}
    {s : Submission} (h : o.prepare m x = .ok (m', s)) :
    o.Becomes m x s ∧ ∀ a, o.data? m = some a → a.Fits m := by
  have hfits : ∀ {a b : Area}, a.Fits m → some a = some b → b.Fits m := by
    intro a b ha hab
    exact Option.some.inj hab ▸ ha
  cases o with
  | write fd buffer length =>
    obtain ⟨n, hn, h⟩ := exists_of_bind_ok h
    obtain ⟨m₁, _, h⟩ := exists_of_bind_ok h
    obtain ⟨rfl, hdata⟩ := Submission.fits_of_transferLength hn
    cases h
    exact ⟨.write fd buffer length, fun _ => hfits hdata⟩
  | read fd buffer length =>
    obtain ⟨n, hn, h⟩ := exists_of_bind_ok h
    obtain ⟨m₁, _, h⟩ := exists_of_bind_ok h
    obtain ⟨rfl, hdata⟩ := Submission.fits_of_transferLength hn
    cases h
    exact ⟨.read fd buffer length, fun _ => hfits hdata⟩
  | receiveFrom fd buffer sender length flags =>
    obtain ⟨n, hn, h⟩ := exists_of_bind_ok h
    obtain ⟨rfl, hdata⟩ := Submission.fits_of_transferLength hn
    dsimp only at h
    split at h
    · obtain ⟨_, h, _⟩ := exists_of_bind_ok h
      cases h
    · next hroom =>
      obtain ⟨m₁, _, h⟩ := exists_of_bind_ok h
      obtain ⟨m₂, _, h⟩ := exists_of_bind_ok h
      cases h
      exact ⟨.receiveFrom fd buffer sender length flags (Nat.not_lt.mp hroom), fun _ => hfits hdata⟩
  | sendTo fd buffer destination length flags =>
    obtain ⟨n, hn, h⟩ := exists_of_bind_ok h
    obtain ⟨address, haddress, h⟩ := exists_of_bind_ok h
    obtain ⟨m₁, _, h⟩ := exists_of_bind_ok h
    obtain ⟨rfl, hdata⟩ := Submission.fits_of_transferLength hn
    cases h
    exact ⟨.sendTo fd buffer destination length flags address haddress, fun _ => hfits hdata⟩
  | accept fd onto output =>
    simp only [prepare, Submission.accept] at h
    split at h
    · cases h
    split at h
    · cases h
    obtain ⟨m₁, _, h⟩ := exists_of_bind_ok h
    cases h
    exact ⟨.accept fd onto output, fun _ ha => (by cases ha)⟩
  | connect fd destination =>
    obtain ⟨address, haddress, h⟩ := exists_of_bind_ok h
    cases h
    exact ⟨.connect fd destination address haddress, fun _ ha => (by cases ha)⟩
  | event =>
    cases h
    exact ⟨.event, fun _ ha => (by cases ha)⟩

/-- The entry of what an order comes to says what the order does. -/
theorem Becomes.says {m : Memory} {o : Order StorageId} {s : Submission}
    (h : o.Becomes m ⟨Opcode.accept, Opcode.connect⟩ s)
    (hdata : ∀ a, o.data? m = some a → a.Fits m) (t : Token) : (s.entry t).Says m o := by
  have hflags : ∀ (opcode : Opcode) (fd : UInt64) (payload : Payload) (f f' : Int32),
      some f = some f' →
      (Entry.mk t opcode fd (Entry.wordOfFlags f) payload).flags.toInt32 = f' := by
    intro opcode fd payload f f' hf
    simp [Entry.flags, Entry.wordOfFlags, Option.some.inj hf]
  cases h with
  | write fd buffer length =>
    exact ⟨rfl, fun _ => Entry.fd_wordOfFd _ _ _ _ fd, nofun, .write fd buffer length, hdata⟩
  | read fd buffer length =>
    exact ⟨rfl, fun _ => Entry.fd_wordOfFd _ _ _ _ fd, nofun, .read fd buffer length, hdata⟩
  | receiveFrom fd buffer sender length flags hroom =>
    exact ⟨rfl, fun _ => Entry.fd_wordOfFd _ _ _ _ fd, fun f => hflags _ _ _ flags f,
      .receiveFrom fd buffer sender length flags hroom, hdata⟩
  | sendTo fd buffer destination length flags address h =>
    exact ⟨rfl, fun _ => Entry.fd_wordOfFd _ _ _ _ fd, fun f => hflags _ _ _ flags f,
      .sendTo fd buffer destination length flags address (Destination.isIn_of_encode h), hdata⟩
  | accept fd onto output =>
    exact ⟨rfl, fun _ => Entry.fd_wordOfFd _ _ _ _ fd, nofun, .accept fd onto output, hdata⟩
  | connect fd destination address h =>
    exact ⟨rfl, fun _ => Entry.fd_wordOfFd _ _ _ _ fd, nofun,
      .connect fd destination address (Destination.isIn_of_encode h), hdata⟩
  | event => exact ⟨rfl, fun h => absurd rfl h, nofun, .event, hdata⟩

end Order

/-! ### What is pushed -/

namespace Engine

variable {P H : Type} [CompletionPort P H]

/-- A port that takes a submission takes its entry, once and nothing else. -/
theorem taken_handOff {e : Engine (Recorder P) H} {s : Submission} {cb : Callback} {t : Token}
    (h : (e.handOff s cb).2 = .ok t) :
    (e.handOff s cb).1.port.taken = e.port.taken ++ [s.entry t] := by
  obtain ⟨p, host, j, asked, a, hcalls, ⟨hr, hreg⟩ | ⟨f, hr, _⟩⟩ := register_recorded e s.fd
  · cases hp : ((e.beside p host j a).pushReply s cb).answer with
    | error f =>
      rw [handOff_of_push_error hr hp] at h
      cases h
    | ok u =>
      rw [handOff_of_push_ok hr hp] at h ⊢
      obtain rfl := Except.ok.inj h
      let t := ((e.beside p host j a).slab.insert (contextOf s cb)).2
      let pushed := ((e.beside p host j a).pushed s cb).note (.submitted s.kind s.fd t)
      obtain ⟨p', host', j', flushes, hf, hcalls', heager⟩ := flushIfEager_recorded pushed s.kind
      have hasked : asked.filterMap PortCall.taken? = [] := by
        cases hreg <;> rfl
      have hflushes : flushes.filterMap PortCall.taken? = [] := by
        split at heager
        · obtain ⟨answer, rfl⟩ := heager
          rfl
        · rw [heager]
          rfl
      have hpushed : pushed.port.calls = e.port.calls ++ asked ++ [.push (s.entry t) (.ok ())] := by
        rw [← hcalls, ← hp]
        rfl
      refine (congrArg (fun x => x.port.taken) hf).trans ?_
      simp [Recorder.taken, beside, hcalls', hpushed, hasked, hflushes, PortCall.taken?, t]
  · rw [handOff_of_register_error cb hr] at h
    cases h

/-- A port that takes an order takes one entry, which says what the order does. -/
theorem taken_place {e : Engine (Recorder P) H} {o : Order StorageId} {cb : Callback} {t : Token}
    (hx : e.extensions = ⟨Opcode.accept, Opcode.connect⟩) (h : (e.place o cb).2 = .ok t) :
    ∃ entry, (e.place o cb).1.port.taken = e.port.taken ++ [entry] ∧ entry.token = t ∧
      entry.Says e.world.memory o := by
  rw [place_eq_submit, hx] at h ⊢
  cases hprep : o.prepare e.world.memory ⟨Opcode.accept, Opcode.connect⟩ with
  | error f =>
    rw [hprep] at h
    cases h
  | ok r =>
    obtain ⟨m, s⟩ := r
    obtain ⟨hbecomes, hdata⟩ := Order.becomes_of_prepare hprep
    rw [hprep, submit_ok] at h
    have htaken := taken_handOff (e := e.withMemory m) h
    refine ⟨s.entry t, ?_, rfl, hbecomes.says hdata t⟩
    rw [submit_ok]
    unfold count
    split <;> exact htaken

end Engine

end Proactor
