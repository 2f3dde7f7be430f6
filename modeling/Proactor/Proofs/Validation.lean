import Proactor.Proofs.AllOrNothing
import Proactor.Proofs.RoundTrip

/-!
# Validation

Which orders fail for an argument, exactly, and what becomes of all others. The checks of an order
come one after the other, and what a later one finds counts only if no earlier one failed; so a
family that is not supported is reported only behind a good length, and never with a bad host.
-/

namespace Proactor

/-! ### What is wrong with an order -/

/-- No byte would be transferred, or more bytes than the buffer has. -/
def BadLength (m : Memory) (buffer : StorageId) (length : Option Nat) : Prop :=
  length.getD (m.capacity buffer) = 0 ∨ m.capacity buffer < length.getD (m.capacity buffer)

/-- The storage is neither lent nor borrowed. -/
def Memory.IsFree (m : Memory) (id : StorageId) : Prop := m.lend? id = some .idle

namespace Destination

def IsInet (d : Destination) : Prop := d.family.toInt = Family.inet.toNat

/-- The host is the text of an IPv4 address. -/
def IsLiteral (d : Destination) : Prop := ∃ ip : Ipv4, d.host = ip.text

end Destination

namespace Order

/-- An argument of the order is invalid. The name of a sender needs 20 bytes, and the two ends of
an accepted connection need 40. -/
def Misused (m : Memory) : Order StorageId → Prop
  | write _ buffer length => BadLength m buffer length ∨ ¬ m.IsFree buffer
  | read _ buffer length => BadLength m buffer length ∨ ¬ m.IsFree buffer
  | receiveFrom _ buffer sender length _ =>
    BadLength m buffer length ∨ ¬ m.IsFree buffer ∨
      m.capacity sender < Half.minSize ∨ ¬ m.IsFree sender ∨ sender = buffer
  | sendTo _ buffer destination length _ =>
    BadLength m buffer length ∨
      destination.IsInet ∧ (¬ destination.IsLiteral ∨ ¬ m.IsFree buffer)
  | accept _ onto output =>
    m.capacity output < Half.minAcceptSize ∨ onto.toInt < 0 ∨ ¬ m.IsFree output
  | connect _ destination => destination.IsInet ∧ ¬ destination.IsLiteral
  | event => False

/-- The order is for a family that is not supported, and nothing is wrong before that. -/
def Foreign (m : Memory) (family : Int32) : Order StorageId → Prop
  | sendTo _ buffer destination length _ =>
    ¬ BadLength m buffer length ∧ ¬ destination.IsInet ∧ destination.family = family
  | connect _ destination => ¬ destination.IsInet ∧ destination.family = family
  | _ => False

end Order

/-! ### Checks one after the other -/

/-- How checks end: well, with an invalid argument, or with a family that is not supported. -/
inductive Verdict {α : Type} (x : Except Fault α) (misused : Prop) (foreign : Int32 → Prop) :
    Prop where
  | passes (a : α) (hx : x = .ok a) (hm : ¬ misused) (hf : ∀ family, ¬ foreign family)
  | invalid (cause : Misuse) (hx : x = .error (.invalidArgument cause)) (hm : misused)
      (hf : ∀ family, ¬ foreign family)
  | unsupported (family : Int32) (hx : x = .error (.unsupportedAddressFamily family))
      (hm : ¬ misused) (hf : ∀ other, foreign other ↔ other = family)

namespace Verdict

variable {α β : Type} {x : Except Fault α} {misused misused' : Prop}
  {foreign foreign' : Int32 → Prop}

theorem ok (a : α) : Verdict (.ok a) False fun _ => False := .passes a rfl id fun _ => id

theorem congr (h : Verdict x misused foreign) (hm : misused ↔ misused')
    (hf : ∀ family, foreign family ↔ foreign' family) : Verdict x misused' foreign' := by
  obtain rfl := propext hm
  obtain rfl := funext fun family => propext (hf family)
  exact h

/-- A second check counts only if the first one passes. -/
theorem bind {k : α → Except Fault β} (hx : Verdict x misused foreign)
    (hk : ∀ a, x = .ok a → Verdict (k a) misused' foreign') :
    Verdict (x >>= k) (misused ∨ (∀ family, ¬ foreign family) ∧ misused')
      fun family => foreign family ∨ (¬ misused ∧ ∀ other, ¬ foreign other) ∧ foreign' family := by
  cases hx with
  | passes a ha hm hf =>
    subst ha
    exact (hk a rfl).congr (by simp [hm, hf]) (by simp [hm, hf])
  | invalid cause ha hm hf =>
    subst ha
    exact .invalid cause rfl (.inl hm) (by simp [hm, hf])
  | unsupported family ha hm hf =>
    subst ha
    exact .unsupported family rfl (by simp [hm, hf]) (by simp [hf])

theorem invalid_iff (h : Verdict x misused foreign) :
    (∃ cause, x = .error (.invalidArgument cause)) ↔ misused := by
  cases h <;> simp_all

theorem unsupported_iff (h : Verdict x misused foreign) (family : Int32) :
    x = .error (.unsupportedAddressFamily family) ↔ foreign family := by
  cases h <;> simp_all [eq_comm]

theorem passes_iff (h : Verdict x misused foreign) :
    (∃ a, x = .ok a) ↔ ¬ misused ∧ ∀ family, ¬ foreign family := by
  cases h <;> simp_all

end Verdict

namespace Submission

/-- A length is bad, or it is one that a port can be told. -/
theorem verdict_transferLength {m : Memory} {buffer : StorageId} {length : Option Nat}
    (h : m.capacity buffer < 2 ^ 32) :
    Verdict (transferLength m buffer length) (BadLength m buffer length) fun _ => False := by
  rw [transferLength]
  split
  · next hzero => exact .invalid _ rfl (.inl hzero) fun _ => id
  split
  · next hlong => exact .invalid _ rfl (.inr hlong) fun _ => id
  split
  · next hwide => omega
  · next hzero hfits _ => exact .passes _ rfl (not_or.mpr ⟨hzero, hfits⟩) fun _ => id

theorem lend_eq_ok_iff {m m' : Memory} {buffer : StorageId} :
    lend m buffer = .ok m' ↔ m.IsFree buffer ∧ m' = m.setLend buffer .lent := by
  rw [Memory.IsFree, ← Memory.lease?_eq_some_iff, lend]
  split <;> simp_all

/-- A free buffer is lent, and any other is refused. -/
theorem verdict_lend (m : Memory) (buffer : StorageId) :
    Verdict (lend m buffer) (¬ m.IsFree buffer) fun _ => False := by
  by_cases hfree : m.IsFree buffer
  · exact .passes _ (lend_eq_ok_iff.mpr ⟨hfree, rfl⟩) (not_not.mpr hfree) fun _ => id
  · refine .invalid .bufferInFlight ?_ hfree fun _ => id
    rw [lend, Memory.lease?, if_neg fun h => hfree ((m.isIdle_eq_true_iff buffer).mp h)]

/-- Two buffers are lent if both are free and they are not the same storage. -/
theorem verdict_lend_two {β : Type} (m : Memory) (buffer sender : StorageId)
    (f : Memory → Memory → β) :
    Verdict (lend m buffer >>= fun m₁ => lend m₁ sender >>= fun m₂ => .ok (f m₁ m₂))
      (¬ m.IsFree buffer ∨ ¬ m.IsFree sender ∨ sender = buffer) fun _ => False := by
  have hsecond : ∀ m₁, lend m buffer = .ok m₁ →
      Verdict (lend m₁ sender) (¬ m.IsFree sender ∨ sender = buffer) fun _ => False := by
    intro m₁ h₁
    obtain ⟨_, rfl⟩ := lend_eq_ok_iff.mp h₁
    refine (verdict_lend _ sender).congr ?_ fun _ => .rfl
    rw [Memory.IsFree, Memory.IsFree, Memory.lend?_setLend]
    split
    · next hsame => exact iff_of_true (by simp) (.inr hsame.symm)
    · next hother => exact (or_iff_left (Ne.symm hother)).symm
  refine ((verdict_lend m buffer).bind fun m₁ h₁ => (hsecond m₁ h₁).bind fun m₂ _ =>
    .ok (f m₁ m₂)).congr ?_ ?_ <;> simp

/-- A destination is one of IPv4 with a bad host or a good one, or of another family. -/
theorem verdict_encode (d : Destination) :
    Verdict d.encode (d.IsInet ∧ ¬ d.IsLiteral) fun family => ¬ d.IsInet ∧ d.family = family := by
  by_cases hinet : d.IsInet
  · by_cases hhost : d.IsLiteral
    · obtain ⟨ip, hip⟩ := hhost
      refine .passes _ (SocketAddress.encode_eq_ok_iff.mpr ⟨hinet, ip, hip, rfl⟩) ?_ ?_
      · exact fun h => h.2 ⟨ip, hip⟩
      · exact fun _ h => h.1 hinet
    · refine .invalid _ (SocketAddress.encode_eq_invalid hinet ?_) ⟨hinet, hhost⟩ ?_
      · exact not_exists.mp hhost
      · exact fun _ h => h.1 hinet
  · refine .unsupported d.family (SocketAddress.encode_eq_unsupported_iff.mpr hinet) ?_ ?_
    · exact fun h => hinet h.1
    · exact fun other => ⟨fun h => h.2.symm, fun h => ⟨hinet, h.symm⟩⟩

/-- A length and the buffer it is of are checked alike for all transfers. -/
theorem verdict_lend_transfer {β : Type} {m : Memory} {buffer : StorageId} {length : Option Nat}
    (h : m.capacity buffer < 2 ^ 32) (f : Nat → Memory → β) :
    Verdict (transferLength m buffer length >>= fun n => lend m buffer >>= fun m' => .ok (f n m'))
      (BadLength m buffer length ∨ ¬ m.IsFree buffer) fun _ => False := by
  refine ((verdict_transferLength h).bind fun n _ => (verdict_lend m buffer).bind fun m' _ =>
    .ok (f n m')).congr ?_ ?_ <;> simp

end Submission

namespace Order

open Submission

/-- The checks of an order find what is wrong with it, and nothing else. -/
theorem verdict_prepare {m : Memory} {o : Order StorageId} (x : Extensions)
    (h : ∀ id ∈ o.buffers, m.capacity id < 2 ^ 32) :
    Verdict (o.prepare m x) (o.Misused m) fun family => o.Foreign m family := by
  cases o with
  | write fd buffer length => exact verdict_lend_transfer (h buffer (.head _)) _
  | read fd buffer length => exact verdict_lend_transfer (h buffer (.head _)) _
  | receiveFrom fd buffer sender length flags =>
    refine ((verdict_transferLength (h buffer (.head _))).bind fun n _ =>
      (?_ : Verdict _ (¬ m.IsFree buffer ∨ m.capacity sender < Half.minSize ∨
        ¬ m.IsFree sender ∨ sender = buffer) fun _ => False)).congr ?_ ?_
    · -- The room for the name is looked at before either buffer is lent.
      dsimp only
      split
      · next hsmall => exact .invalid _ rfl (.inr (.inl hsmall)) fun _ => id
      · next hroom => exact (verdict_lend_two m buffer sender _).congr (by simp [hroom]) (by simp)
    · simp [Misused]
    · simp [Foreign]
  | sendTo fd buffer destination length flags =>
    refine ((verdict_transferLength (h buffer (.head _))).bind fun n _ =>
      (verdict_encode destination).bind fun address _ =>
        (verdict_lend m buffer).bind fun m' _ => .ok _).congr ?_ ?_
    · simp [Misused, and_or_left]
    · simp [Foreign]
  | accept fd onto output =>
    simp only [prepare, Submission.accept]
    split
    · next hsmall => exact .invalid _ rfl (.inl hsmall) fun _ => id
    split
    · next honto => exact .invalid _ rfl (.inr (.inl honto)) fun _ => id
    · next hroom honto =>
      exact ((verdict_lend m output).bind fun m' _ => .ok _).congr
        (by simp [Misused, hroom, honto]) (by simp [Foreign])
  | connect fd destination =>
    refine ((verdict_encode destination).bind fun address _ => .ok _).congr ?_ ?_ <;>
      simp [Misused, Foreign]
  | event => exact .ok _

end Order

/-! ### Submitters -/

variable {P H : Type}

/-- How a submitter answers to an order, and what it leaves behind. -/
structure Judged (e e' : Engine (Recorder P) H) (o : Order StorageId)
    (answer : Except Fault Token) : Prop where
  invalid : (∃ cause, answer = .error (.invalidArgument cause)) ↔ o.Misused e.world.memory
  unsupported : ∀ family, answer = .error (.unsupportedAddressFamily family) ↔
    o.Foreign e.world.memory family
  /-- An order that fails for an argument leaves everything as it was: what was free is free. -/
  untouched : (o.Misused e.world.memory ∨ ∃ family, o.Foreign e.world.memory family) → e' = e
  /-- Any other order fails only if the port refuses its descriptor or its entry. -/
  passed : ¬ o.Misused e.world.memory → (∀ family, ¬ o.Foreign e.world.memory family) →
    (∃ t, answer = .ok t ∧ e.Acceptance e' o.fd t) ∨
      ∃ f, answer = .error (.systemCall o.kind f.errno) ∧ e.Refusal e' o.fd f

variable [CompletionPort P H]

/-- In every state of an engine and its buffers, a submitter finds what is wrong with the
arguments that it is called with, and nothing else. -/
theorem arguments_are_judged_exactly (e : Engine (Recorder P) H) (o : Order StorageId)
    (cb : Callback) (hfit : ∀ id ∈ o.buffers, e.world.memory.capacity id < 2 ^ 32) :
    Judged e (e.place o cb).1 o (e.place o cb).2 := by
  have hverdict := o.verdict_prepare e.extensions hfit
  cases hprep : o.prepare e.world.memory e.extensions with
  | error g =>
    have hplace : e.place o cb = (e, .error g) := by
      rw [Engine.place_eq_submit, hprep]
      rfl
    rw [hprep] at hverdict
    rw [hplace]
    refine ⟨?_, ?_, fun _ => rfl, fun hm hf => ?_⟩
    · rw [← hverdict.invalid_iff]
      simp
    · intro family
      rw [← hverdict.unsupported_iff]
      simp
    · obtain ⟨a, ha⟩ := hverdict.passes_iff.mpr ⟨hm, hf⟩
      cases ha
  | ok prepared =>
    obtain ⟨hm, hf⟩ := hverdict.passes_iff.mp ⟨prepared, hprep⟩
    have hport := e.place_recorded cb hprep
    refine ⟨iff_of_false ?_ hm, fun family => iff_of_false ?_ (hf family),
      fun h => absurd h (by simp [hm, hf]), fun _ _ => hport.symm⟩
    · rintro ⟨cause, hcause⟩
      rcases hport with ⟨f, hanswer, _⟩ | ⟨t, hanswer, _⟩ <;> simp [hanswer] at hcause
    · intro hfamily
      rcases hport with ⟨f, hanswer, _⟩ | ⟨t, hanswer, _⟩ <;> simp [hanswer] at hfamily

/-- The name of a sender is not received into the buffer that its message goes to, also if that
goes by another handle. -/
theorem arguments_are_judged_exactly_of_clone : ∃ e : Engine (Recorder Scripted) Host,
    Engine.build {} { port := {} } Host.start = .ready e ∧
    let c := (Client.own e).after [.buffer "data" (Bytes.zeros 20), .clone "same" "data"]
    ∃ o, c.resolve (.receiveFrom 3 "data" "same" none 0) = some o ∧
      (∀ id ∈ o.buffers, c.engine.world.memory.capacity id < 2 ^ 32) ∧
      (c.engine.place o ⟨"received", []⟩).2 = .error (.invalidArgument .bufferInFlight) ∧
      Judged c.engine (c.engine.place o ⟨"received", []⟩).1 o
        (c.engine.place o ⟨"received", []⟩).2 := by
  refine ⟨_, rfl, .receiveFrom 3 1 1 none 0, rfl, by decide +kernel, rfl, ?_⟩
  exact arguments_are_judged_exactly _ _ _ (by decide +kernel)

end Proactor
