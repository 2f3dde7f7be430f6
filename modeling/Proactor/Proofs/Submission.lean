import Proactor.Engine.Submit
import Proactor.Proofs.Memory

/-!
# Orders

An order is one of the seven operations with its arguments. Preparing an order either fails for
an argument, or lends exactly the buffers that the order names, one after the other.
-/

namespace Proactor

/-- An operation with its arguments, on buffers that go by names of type `B`. -/
inductive Order (B : Type) where
  | write (fd : Fd) (buffer : B) (length : Option Nat)
  | read (fd : Fd) (buffer : B) (length : Option Nat)
  | receiveFrom (fd : Fd) (buffer sender : B) (length : Option Nat) (flags : Int32)
  | sendTo (fd : Fd) (buffer : B) (destination : Destination) (length : Option Nat)
      (flags : Int32)
  | accept (fd onto : Fd) (output : B)
  | connect (fd : Fd) (destination : Destination)
  | event

/-- A fault of an argument, found before anything is asked of a port. -/
def Fault.isArgument : Fault → Bool
  | invalidArgument _ => true
  | unsupportedAddressFamily _ => true
  | _ => false

namespace Order

variable {B C : Type}

def kind : Order B → Kind
  | write .. => .write
  | read .. => .read
  | receiveFrom .. => .receiveFrom
  | sendTo .. => .sendTo
  | accept .. => .accept
  | connect .. => .connect
  | event => .inject

/-- The descriptor of an order; an event has none, which a negative number stands for. -/
def fd : Order B → Fd
  | write fd .. => fd
  | read fd .. => fd
  | receiveFrom fd .. => fd
  | sendTo fd .. => fd
  | accept fd .. => fd
  | connect fd .. => fd
  | event => -1

/-- The buffers that an order names, in the order in which they are lent. -/
def buffers : Order B → List B
  | write _ buffer _ => [buffer]
  | read _ buffer _ => [buffer]
  | receiveFrom _ buffer sender _ _ => [buffer, sender]
  | sendTo _ buffer _ _ _ => [buffer]
  | accept _ _ output => [output]
  | connect .. => []
  | event => []

/-- The order with every buffer replaced by what `f` finds for it, if it finds all. -/
def mapBuffers? (f : B → Option C) : Order B → Option (Order C)
  | write fd buffer length => (f buffer).map fun b => write fd b length
  | read fd buffer length => (f buffer).map fun b => read fd b length
  | receiveFrom fd buffer sender length flags => do
    return receiveFrom fd (← f buffer) (← f sender) length flags
  | sendTo fd buffer destination length flags =>
    (f buffer).map fun b => sendTo fd b destination length flags
  | accept fd onto output => (f output).map fun b => accept fd onto b
  | connect fd destination => some (connect fd destination)
  | event => some event

/-- What an order needs before it goes to a port: its arguments checked, its buffers lent. -/
def prepare (m : Memory) (x : Extensions) : Order StorageId → Except Fault (Memory × Submission)
  | write fd buffer length => Submission.write m fd buffer length
  | read fd buffer length => Submission.read m fd buffer length
  | receiveFrom fd buffer sender length flags =>
    Submission.receiveFrom m fd buffer sender length flags
  | sendTo fd buffer destination length flags =>
    Submission.sendTo m fd buffer destination length flags
  | accept fd onto output => Submission.accept m x.accept fd onto output
  | connect fd destination => Submission.connect m x.connect fd destination
  | event => Submission.event m

end Order

namespace Engine

variable {P H : Type} [CompletionPort P H]

/-- Calls the submitter of an order. -/
def place (e : Engine P H) (o : Order StorageId) (cb : Callback) :
    Engine P H × Except Fault Token :=
  match o with
  | .write fd buffer length => e.write fd buffer length cb
  | .read fd buffer length => e.read fd buffer length cb
  | .receiveFrom fd buffer sender length flags => e.receiveFrom fd buffer sender length flags cb
  | .sendTo fd buffer destination length flags => e.sendTo fd buffer destination length flags cb
  | .accept fd onto output => e.accept fd onto output cb
  | .connect fd destination => e.connect fd destination cb
  | .event => e.injectEvent cb

/-- Every submitter submits what its order needs. -/
theorem place_eq_submit (e : Engine P H) (o : Order StorageId) (cb : Callback) :
    e.place o cb = e.submit (o.prepare e.world.memory e.extensions) cb := by
  cases o <;> rfl

end Engine

/-! ### What preparing does -/

section bind

variable {α β : Type}

/-- What came of two steps came of the second one, and the first one succeeded. -/
theorem exists_of_bind_ok {x : Except Fault α} {k : α → Except Fault β} {b : β}
    (h : (x >>= k) = .ok b) : ∃ a, x = .ok a ∧ k a = .ok b := by
  cases x with
  | error f => cases h
  | ok a => exact ⟨a, rfl, h⟩

/-- What fails for an argument only. -/
private def Checked (x : Except Fault α) : Prop := ∀ f, x = .error f → f.isArgument = true

private theorem checked_bind {x : Except Fault α} {k : α → Except Fault β} (hx : Checked x)
    (hk : ∀ a, Checked (k a)) : Checked (x >>= k) := by
  intro f hf
  cases x with
  | error g =>
    cases hf
    exact hx f rfl
  | ok a => exact hk a f hf

private theorem checked_ok (a : α) : Checked (.ok a : Except Fault α) := by
  intro f hf
  cases hf

end bind

namespace Submission

private theorem checked_transferLength (m : Memory) (buffer : StorageId) (length : Option Nat) :
    Checked (transferLength m buffer length) := by
  intro f hf
  simp only [transferLength] at hf
  repeat' split at hf
  all_goals cases hf
  all_goals rfl

private theorem checked_lend (m : Memory) (buffer : StorageId) : Checked (lend m buffer) := by
  intro f hf
  simp only [lend] at hf
  split at hf
  all_goals cases hf
  rfl

private theorem checked_encode (d : Destination) : Checked d.encode := by
  intro f hf
  simp only [Destination.encode, SocketAddress.encode] at hf
  repeat' split at hf
  all_goals cases hf
  all_goals rfl

/-- Lending a buffer takes it out of the idle ones. -/
theorem lease?_of_lend {m m' : Memory} {buffer : StorageId} (h : lend m buffer = .ok m') :
    m.lease? buffer = some m' := by
  simp only [lend] at h
  split at h
  · next hm =>
    cases h
    exact hm
  · cases h

/-- The engine's own read lends its buffer. -/
theorem wake_eq_ok {m m' : Memory} {fd : Fd} {buffer : StorageId} {s : Submission}
    (h : wake m fd buffer = .ok (m', s)) :
    s.kind = .read ∧ s.fd = fd ∧ s.pinned.leases = [buffer] ∧
      m.leaseAll? s.pinned.leases = some m' := by
  obtain ⟨m₁, h₁, h₂⟩ := exists_of_bind_ok h
  cases h₂
  refine ⟨rfl, rfl, rfl, ?_⟩
  simp [Pinned.leases, Memory.leaseAll?, lease?_of_lend h₁]

/-- A read of `n` bytes from the event counter. -/
def ownRead (wake : Fd) (hidden : StorageId) (n : Nat) : Submission :=
  { kind := .read, opcode := Opcode.read, fd := wake
    payload := .data ⟨hidden, 0, n⟩, pinned := .reading ⟨hidden, 0, n⟩ }

/-- The engine's own read is into all of a buffer, which has to be idle. -/
theorem wake_eq_ok_iff {m m' : Memory} {wake : Fd} {buffer : StorageId} {s : Submission} :
    Submission.wake m wake buffer = .ok (m', s) ↔
      m.lease? buffer = some m' ∧ s = ownRead wake buffer (m.capacity buffer) := by
  unfold Submission.wake lend
  cases m.lease? buffer with
  | none => simp [bind, Except.bind]
  | some m₁ => simp [bind, Except.bind, pure, Except.pure, ownRead, eq_comm]

end Submission

namespace Order

open Submission

/-- A prepared order is of its kind, for its descriptor, and has its buffers lent to it. -/
theorem prepare_eq_ok {m m' : Memory} {x : Extensions} {o : Order StorageId} {s : Submission}
    (h : o.prepare m x = .ok (m', s)) :
    s.kind = o.kind ∧ s.fd = o.fd ∧ s.pinned.leases = o.buffers ∧
      m.leaseAll? s.pinned.leases = some m' := by
  cases o with
  | write fd buffer length =>
    obtain ⟨n, _, h⟩ := exists_of_bind_ok h
    obtain ⟨m₁, h₁, h⟩ := exists_of_bind_ok h
    cases h
    exact ⟨rfl, rfl, rfl, by simp [Pinned.leases, Memory.leaseAll?, lease?_of_lend h₁]⟩
  | read fd buffer length =>
    obtain ⟨n, _, h⟩ := exists_of_bind_ok h
    obtain ⟨m₁, h₁, h⟩ := exists_of_bind_ok h
    cases h
    exact ⟨rfl, rfl, rfl, by simp [Pinned.leases, Memory.leaseAll?, lease?_of_lend h₁]⟩
  | receiveFrom fd buffer sender length flags =>
    obtain ⟨n, _, h⟩ := exists_of_bind_ok h
    dsimp only at h
    split at h
    · obtain ⟨_, h, _⟩ := exists_of_bind_ok h
      cases h
    · obtain ⟨m₁, h₁, h⟩ := exists_of_bind_ok h
      obtain ⟨m₂, h₂, h⟩ := exists_of_bind_ok h
      cases h
      refine ⟨rfl, rfl, rfl, ?_⟩
      simp [Pinned.leases, Memory.leaseAll?, lease?_of_lend h₁, lease?_of_lend h₂]
  | sendTo fd buffer destination length flags =>
    obtain ⟨n, _, h⟩ := exists_of_bind_ok h
    obtain ⟨address, _, h⟩ := exists_of_bind_ok h
    obtain ⟨m₁, h₁, h⟩ := exists_of_bind_ok h
    cases h
    exact ⟨rfl, rfl, rfl, by simp [Pinned.leases, Memory.leaseAll?, lease?_of_lend h₁]⟩
  | accept fd onto output =>
    simp only [prepare, Submission.accept] at h
    split at h
    · cases h
    split at h
    · cases h
    obtain ⟨m₁, h₁, h⟩ := exists_of_bind_ok h
    cases h
    exact ⟨rfl, rfl, rfl, by simp [Pinned.leases, Memory.leaseAll?, lease?_of_lend h₁]⟩
  | connect fd destination =>
    obtain ⟨address, _, h⟩ := exists_of_bind_ok h
    cases h
    exact ⟨rfl, rfl, rfl, rfl⟩
  | event =>
    cases h
    exact ⟨rfl, rfl, rfl, rfl⟩

/-- Preparing fails for an argument only. -/
theorem isArgument_of_prepare {m : Memory} {x : Extensions} {o : Order StorageId} {f : Fault}
    (h : o.prepare m x = .error f) : f.isArgument = true := by
  suffices hc : Checked (o.prepare m x) from hc f h
  cases o with
  | write fd buffer length =>
    apply checked_bind (checked_transferLength m buffer length)
    intro n
    exact checked_bind (checked_lend m buffer) fun _ => checked_ok _
  | read fd buffer length =>
    apply checked_bind (checked_transferLength m buffer length)
    intro n
    exact checked_bind (checked_lend m buffer) fun _ => checked_ok _
  | receiveFrom fd buffer sender length flags =>
    apply checked_bind (checked_transferLength m buffer length)
    intro n
    dsimp only
    split
    · intro f hf
      cases hf
      rfl
    · apply checked_bind (checked_lend m buffer)
      intro m₁
      exact checked_bind (checked_lend m₁ sender) fun _ => checked_ok _
  | sendTo fd buffer destination length flags =>
    apply checked_bind (checked_transferLength m buffer length)
    intro n
    apply checked_bind (checked_encode destination)
    intro _
    exact checked_bind (checked_lend m buffer) fun _ => checked_ok _
  | accept fd onto output =>
    simp only [prepare, Submission.accept]
    split
    · intro f hf
      cases hf
      rfl
    split
    · intro f hf
      cases hf
      rfl
    exact checked_bind (checked_lend m output) fun _ => checked_ok _
  | connect fd destination =>
    exact checked_bind (checked_encode destination) fun _ => checked_ok _
  | event => exact checked_ok _

end Order

end Proactor
