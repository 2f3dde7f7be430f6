import Proactor.Proofs.Drain
import Proactor.Proofs.Entries
import Proactor.Proofs.InOrder

/-!
# What a live engine asks of its port

A port is asked to register a descriptor only when it is not registered, and gets an entry only
when the descriptor of the entry, if it has one, is registered. Apart from that it is asked to
flush and to wait. Nothing else is asked of it as long as its engine lives.
-/

namespace Proactor

variable {P H : Type}

/-- The entry uses a descriptor. That of an event uses none, whatever its word says. -/
structure Entry.Uses (entry : Entry) (fd : Fd) : Prop where
  nonneg : 0 ≤ fd.toInt
  opcode : entry.opcode ≠ Opcode.nop
  fd_eq : entry.fd = fd

/-- What is asked of a port, one call after the other, and what is registered before and after. -/
inductive Asked : List Fd → List PortCall → List Fd → Prop where
  | nothing (a : List Fd) : Asked a [] a
  | registered {a a' : List Fd} {calls : List PortCall} (fd : Fd) (hnew : fd ∉ a)
      (h : Asked (fd :: a) calls a') : Asked a (.associate fd (.ok ()) :: calls) a'
  | unregistered {a a' : List Fd} {calls : List PortCall} (fd : Fd) (f : Fault) (hnew : fd ∉ a)
      (h : Asked a calls a') : Asked a (.associate fd (.error f) :: calls) a'
  | pushed {a a' : List Fd} {calls : List PortCall} (entry : Entry) (answer : Except Fault Unit)
      (huses : ∀ fd, entry.Uses fd → fd ∈ a) (h : Asked a calls a') :
    Asked a (.push entry answer :: calls) a'
  | flushed {a a' : List Fd} {calls : List PortCall} (answer : Except Fault Nat)
      (h : Asked a calls a') : Asked a (.flush answer :: calls) a'
  | waited {a a' : List Fd} {calls : List PortCall} (answer : Waited) (h : Asked a calls a') :
    Asked a (.wait answer :: calls) a'

namespace Asked

variable {a a' a'' : List Fd} {calls calls' : List PortCall}

theorem trans (h : Asked a calls a') (h' : Asked a' calls' a'') :
    Asked a (calls ++ calls') a'' := by
  induction h with
  | nothing => exact h'
  | registered fd hnew _ ih => exact .registered fd hnew (ih h')
  | unregistered fd f hnew _ ih => exact .unregistered fd f hnew (ih h')
  | pushed entry answer huses _ ih => exact .pushed entry answer huses (ih h')
  | flushed answer _ ih => exact .flushed answer (ih h')
  | waited answer _ ih => exact .waited answer (ih h')

/-- A port is not shut down. -/
theorem shutdown_not_mem (h : Asked a calls a') : .shutdown ∉ calls := by
  induction h <;> simp_all

end Asked

/-- What registering a descriptor asks of a port; then the descriptor is registered if it is
one. -/
theorem Registers.asked {fd : Fd} {before after : List Fd} {calls : List PortCall}
    (h : Registers fd before calls after) :
    Asked before calls after ∧ (0 ≤ fd.toInt → fd ∈ after) := by
  cases h with
  | not_asked h => exact ⟨.nothing before, fun hpos => h.resolve_left (Int.not_lt.mpr hpos)⟩
  | added hpos hnew => exact ⟨.registered fd hnew (.nothing _), fun _ => List.mem_cons_self⟩

namespace Submission

/-- The entry of a submission has the descriptor of the submission, or that of no operation. -/
def Shows (s : Submission) : Prop := s.opcode = Opcode.nop ∨ s.fdWord = Entry.wordOfFd s.fd

theorem Shows.uses {s : Submission} (h : s.Shows) {t : Token} {fd : Fd}
    (huses : (s.entry t).Uses fd) : s.fd = fd := by
  rcases h with hnop | hword
  · exact absurd hnop huses.opcode
  · rw [← huses.fd_eq, entry, hword, Entry.fd_wordOfFd]

theorem shows_ownRead (wake : Fd) (hidden : StorageId) (n : Nat) : (ownRead wake hidden n).Shows :=
  .inr rfl

end Submission

theorem Order.shows_of_prepare {m m' : Memory} {x : Extensions} {o : Order StorageId}
    {s : Submission} (h : o.prepare m x = .ok (m', s)) : s.Shows := by
  cases (becomes_of_prepare h).1 with
  | event => exact .inl rfl
  | _ => exact .inr rfl

namespace Engine

/-- The calls on the port from one engine to another are what a live engine asks. -/
def Deals (e e' : Engine (Recorder P) H) : Prop :=
  ∃ asked, e'.port.calls = e.port.calls ++ asked ∧ Asked e.associated asked e'.associated

section

variable {e e' e'' : Engine (Recorder P) H}

theorem deals_of_eq (hport : e'.port = e.port) (hassociated : e'.associated = e.associated) :
    Deals e e' :=
  ⟨[], by rw [hport, List.append_nil], hassociated ▸ .nothing _⟩

theorem Deals.trans (h : Deals e e') (h' : Deals e' e'') : Deals e e'' := by
  obtain ⟨asked, hcalls, hasked⟩ := h
  obtain ⟨asked', hcalls', hasked'⟩ := h'
  exact ⟨asked ++ asked', by rw [hcalls', hcalls, List.append_assoc], hasked.trans hasked'⟩

variable [CompletionPort P H]

/-- Registering a descriptor. -/
theorem deals_associate (e : Engine (Recorder P) H) (fd : Fd) : Deals e (e.associate fd).1 := by
  have hcalls : ∀ answer, (CompletionPort.associate e.port e.world.host fd).answer = answer →
      (CompletionPort.associate e.port e.world.host fd).port.calls =
        e.port.calls ++ [.associate fd answer] := by
    rintro _ rfl
    rfl
  unfold associate
  split
  · exact deals_of_eq rfl rfl
  · next hnot =>
    have hnew : fd ∉ e.associated := fun h => hnot (List.contains_iff_mem.mpr h)
    dsimp only
    split
    · next hanswer => exact ⟨_, hcalls _ hanswer, .registered fd hnew (.nothing _)⟩
    · next f hanswer => exact ⟨_, hcalls _ hanswer, .unregistered fd f hnew (.nothing _)⟩

/-- Flushing behind a submission. -/
theorem deals_flushIfEager (e : Engine (Recorder P) H) (kind : Kind) :
    Deals e (e.flushIfEager kind) := by
  obtain ⟨p, host, j, flushes, hf, hcalls, heager⟩ := flushIfEager_recorded e kind
  rw [hf]
  refine ⟨flushes, hcalls, ?_⟩
  split at heager
  · obtain ⟨answer, rfl⟩ := heager
    exact .flushed answer (.nothing _)
  · rw [heager]
    exact .nothing _

/-- Handing off a submission. -/
theorem deals_handOff (e : Engine (Recorder P) H) {s : Submission} (hs : s.Shows)
    (cb : Callback) : Deals e (e.handOff s cb).1 := by
  obtain ⟨p, host, j, asked, a, hcalls, ⟨hr, hregisters⟩ | ⟨f, hr, _, hnew, rfl⟩⟩ :=
    register_recorded e s.fd
  · obtain ⟨hasked, hmem⟩ := hregisters.asked
    let t := (e.slab.insert (contextOf s cb)).2
    -- Registering came first and went well, so the entry is covered whatever the answer is.
    have huses : ∀ fd, (s.entry t).Uses fd → fd ∈ a := by
      intro fd h
      obtain rfl := hs.uses h
      exact hmem h.nonneg
    let e₁ := e.beside p host j a
    have hpushed : ∀ answer, (e₁.pushReply s cb).answer = answer →
        (e₁.pushed s cb).port.calls = e.port.calls ++ (asked ++ [.push (s.entry t) answer]) := by
      rintro _ rfl
      rw [← List.append_assoc, ← hcalls]
      rfl
    have hone : ∀ answer, Asked e.associated (asked ++ [.push (s.entry t) answer]) a :=
      fun answer => hasked.trans (.pushed _ answer huses (.nothing a))
    cases hp : (e₁.pushReply s cb).answer with
    | error f =>
      rw [handOff_of_push_error hr hp]
      obtain ⟨hport, hassociated⟩ := withdraw_beside (e₁.pushed s cb) t
      exact (show Deals e (e₁.pushed s cb) from ⟨_, hpushed _ hp, hone _⟩).trans
        (deals_of_eq hport hassociated)
    | ok u =>
      rw [handOff_of_push_ok hr hp]
      exact (show Deals e ((e₁.pushed s cb).note _) from ⟨_, hpushed _ hp, hone _⟩).trans
        (deals_flushIfEager _ s.kind)
  · rw [handOff_of_register_error cb hr]
    exact ⟨_, hcalls, .unregistered s.fd f hnew (.nothing _)⟩

/-- Calling a submitter. -/
theorem deals_place (e : Engine (Recorder P) H) (o : Order StorageId) (cb : Callback) :
    Deals e (e.place o cb).1 := by
  rw [place_eq_submit]
  cases hprep : o.prepare e.world.memory e.extensions with
  | error f => exact deals_of_eq rfl rfl
  | ok r =>
    have h := deals_handOff (e.withMemory r.1) (Order.shows_of_prepare hprep) cb
    rw [submit_ok]
    unfold count
    split <;> exact h

/-- Putting the engine's own read in flight. -/
theorem deals_armWake (e : Engine (Recorder P) H) : Deals e e.armWake.1 := by
  cases hw : Submission.wake e.world.memory e.world.injector.wake e.wakeBuffer with
  | error f =>
    have he : e.armWake = (e, .error f) := by simp only [armWake, hw]
    rw [he]
    exact deals_of_eq rfl rfl
  | ok r =>
    obtain ⟨m, s⟩ := r
    have hshows : s.Shows := (Submission.wake_eq_ok_iff.mp hw).2 ▸ Submission.shows_ownRead ..
    have h := deals_handOff (e.withMemory m) hshows .silent
    cases hh : (e.withMemory m).handOff s .silent with
    | mk e' answer =>
      rw [hh] at h
      cases answer with
      | ok t =>
        rw [armWake_of_handOff hw hh]
        exact h
      | error f =>
        rw [armWake_of_handOff_error hw hh]
        exact h

/-- What follows a completion of the engine's own read. -/
theorem deals_rearmWake (e : Engine (Recorder P) H) (result : Int64) :
    Deals e (e.rearmWake result) := by
  unfold rearmWake
  split
  · exact deals_of_eq rfl rfl
  split
  · exact deals_of_eq rfl rfl
  have h := deals_armWake e
  split
  · next e₁ ha =>
    rw [ha] at h
    exact h
  · next e₁ f ha =>
    rw [ha] at h
    exact h

variable [Os H]

/-- Finishing a completion. -/
theorem deals_complete (e : Engine (Recorder P) H) (c : Completion) (moved : Transfer) :
    Deals e (e.complete c moved).1 := by
  unfold complete
  split
  · exact deals_of_eq rfl rfl
  · next context slab htake =>
    dsimp only
    split
    · exact deals_rearmWake _ _
    · exact deals_of_eq rfl rfl

omit [CompletionPort P H] in
/-- A posted callback asks a port for nothing, and registers nothing. -/
theorem deals_runPosted {d : Dispatch} (h : e.runPosted = some (e', d)) : Deals e e' := by
  rw [runPosted_eq_some h]
  exact deals_of_eq rfl rfl

/-- A wait. -/
theorem deals_waitPort {deadline : Option Nat} {rounds : Nat} {w : Waited}
    (h : e.waitPort deadline rounds = (e', w)) : Deals e e' := by
  refine ⟨[.wait w], calls_waitPort h, ?_⟩
  obtain rfl : (e.waitPort deadline rounds).1 = e' := congrArg Prod.fst h
  exact .waited w (.nothing _)

/-- Waiting for completions. -/
theorem deals_await (e : Engine (Recorder P) H) (deadline : Option Nat) (rounds : Nat) :
    Deals e (e.await deadline rounds).1 := by
  induction rounds generalizing e with
  | zero => exact deals_of_eq rfl rfl
  | succ rounds ih =>
    cases hw : e.waitPort deadline rounds with
    | mk e₁ w =>
      have hwait := deals_waitPort hw
      cases w with
      | completion c moved =>
        have hc := hwait.trans (deals_complete e₁ c moved)
        cases hr : e₁.complete c moved with
        | mk e₂ r =>
          rw [hr] at hc
          match r with
          | .error f => simpa [await, hw, hr] using hc
          | .ok (some d) => simpa [await, hw, hr] using hc
          | .ok none =>
            cases hp : e₂.runPosted with
            | none => simpa [await, hw, hr, hp] using hc.trans (ih e₂)
            | some x => simpa [await, hw, hr, hp] using hc.trans (deals_runPosted hp)
      | timeout =>
        have h : Deals e e₁.countTimeout := hwait
        simpa [await, hw] using h
      | _ => simpa [await, hw] using hwait

/-- A pump. -/
theorem deals_pump (e : Engine (Recorder P) H) (timeout : Option Duration) (rounds : Nat) :
    Deals e (e.pump timeout rounds).1 := by
  cases hd : Os.deadline e.world.host timeout with
  | mk host limit =>
    cases limit with
    | error _ =>
      have h : Deals e (e.withHost host) := deals_of_eq rfl rfl
      simpa [pump, hd] using h
    | ok deadline =>
      cases hp : (e.withHost host).runPosted with
      | none =>
        have h : Deals e ((e.withHost host).await deadline rounds).1 :=
          deals_await (e.withHost host) deadline rounds
        simpa [pump, hd, hp] using h
      | some x =>
        have h : Deals e x.1 := deals_runPosted (e := e.withHost host) hp
        simpa [pump, hd, hp] using h

end

end Engine

namespace Client

/-- The descriptor that a call has the engine forget, if it does. -/
def forgets? (c : Client P H) : Step H → Option Fd
  | .dissociate fd => if c.gone then none else some fd
  | _ => none

variable [CompletionPort P H] [Os H]

/-- Every call but those that close the engine or have it forget a descriptor. -/
theorem deals_step (c : Client (Recorder P) H) (s : Step H) (hcloses : c.closes s = false)
    (hforgets : c.forgets? s = none) : c.engine.Deals (c.step s).1.engine := by
  have hdoes := c.does_step s
  generalize (c.step s).1 = c', c.posts s = ps, c.moments s = τ at hdoes ⊢
  cases hdoes with
  | place _ _ => exact c.engine.deals_place _ _
  | pump _ => exact c.engine.deals_pump _ _
  | associate _ _ => exact c.engine.deals_associate _
  | dissociate hlive _ => simp [forgets?, hlive] at hforgets
  | close h => exact absurd (hcloses.symm.trans h) (by decide)
  | _ => exact Engine.deals_of_eq rfl rfl

/-- Only a dissociation has an engine forget, and it asks nothing of the port. -/
theorem step_of_forgets {c : Client P H} {s : Step H} {fd : Fd} (h : c.forgets? s = some fd) :
    c.gone = false ∧ s = .dissociate fd ∧
      (c.step s).1 = { c with engine := (c.engine.dissociate fd).1 } := by
  cases s with
  | dissociate fd' =>
    cases hlive : c.gone with
    | true => simp [forgets?, hlive] at h
    | false =>
      obtain rfl : fd' = fd := by simpa [forgets?, hlive] using h
      simp [step, hlive]
  | _ => cases h

end Client

end Proactor
