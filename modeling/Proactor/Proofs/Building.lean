import Proactor.Proofs.Built
import Proactor.Proofs.Drain
import Proactor.Proofs.Entries

/-!
# Building

Building an engine goes through stages, and each can fail. Whatever a port answers, its scratch
handle is closed before anything else is asked of it, a failure is told with the error number of
the call that failed, and after a failure nothing is in flight; if the port had been asked to
register the event counter or to take the engine's own read, it is shut down.
-/

namespace Proactor

variable {P H : Type}

/-- The port that building leaves behind, that of the engine if there is one. -/
def Built.port : Built P H → P
  | .failed _ port _ _ _ => port
  | .ready e => e.port

/-- What building failed for, if it failed. -/
def Built.fault? : Built P H → Option Fault
  | .failed fault _ _ _ _ => some fault
  | .ready _ => none

namespace PortCall

/-- The call is about a scratch handle. -/
def isProbe : PortCall → Bool
  | openScratch _ => true
  | supports .. => true
  | closeScratch => true
  | _ => false

/-- The call is one of those with which the engine's own read is put in flight. -/
def isArming : PortCall → Bool
  | associate .. => true
  | push .. => true
  | _ => false

/-- The error number of a call that building cannot do without and that failed; an opcode that is
missing counts as not implemented. -/
def failure? : PortCall → Option Errno
  | openScratch (.error f) => some f.errno
  | supports _ false => some Errno.notImplemented
  | associate _ (.error f) => some f.errno
  | push _ (.error f) => some f.errno
  | _ => none

end PortCall

/-! ### The scratch handle -/

/-- The calls about a scratch handle that opens, with the answers about the two opcodes. -/
def probing (accept connect : Bool) : List PortCall :=
  [.openScratch (.ok ()), .supports Opcode.accept accept, .supports Opcode.connect connect,
    .closeScratch]

/-- What a port is asked for its extensions, and what comes of it. -/
inductive Resolves : List PortCall → Except Fault Extensions → Prop where
  | closed (f : Fault) (what : String) :
    Resolves [.openScratch (.error f)] (.error (.systemResource what f.errno))
  | missing (accept connect : Bool) (what : String) (h : ¬ (accept = true ∧ connect = true)) :
    Resolves (probing accept connect) (.error (.systemResource what Errno.notImplemented))
  | found : Resolves (probing true true) (.ok ⟨Opcode.accept, Opcode.connect⟩)

/-- Nothing but a scratch handle is asked about. -/
theorem Resolves.isProbe {asked : List PortCall} {answer : Except Fault Extensions}
    (h : Resolves asked answer) : ∀ call ∈ asked, call.isProbe = true := by
  cases h <;> simp [probing, PortCall.isProbe]

variable [CompletionPort P H]

/-- A port is asked for its extensions through one scratch handle. -/
theorem Extensions.resolve_recorded (r : Recorder P) (host : H) : ∃ asked,
    (Extensions.resolve r host).port.calls = r.calls ++ asked ∧
      Resolves asked (Extensions.resolve r host).answer := by
  have hopen : (CompletionPort.openScratch r host).port.calls =
      r.calls ++ [.openScratch (CompletionPort.openScratch r host).answer] := rfl
  have hsupports : ∀ (r : Recorder P) (host : H) (opcode : Opcode),
      (CompletionPort.supports r host opcode).1.calls =
        r.calls ++ [.supports opcode (CompletionPort.supports r host opcode).2] :=
    fun _ _ _ => rfl
  have hclose : ∀ (r : Recorder P) (host : H),
      (CompletionPort.closeScratch r host).1.calls = r.calls ++ [.closeScratch] := fun _ _ => rfl
  unfold Extensions.resolve
  dsimp only
  generalize CompletionPort.openScratch r host = opened at hopen ⊢
  obtain ⟨p₀, host, notices, answer⟩ := opened
  cases answer with
  | error f =>
    refine ⟨_, hopen, ?_⟩
    cases f <;> exact .closed _ _
  | ok u =>
    have haccept := hsupports p₀ host Opcode.accept
    cases ha : CompletionPort.supports p₀ host Opcode.accept with
    | mk p₁ accept =>
      have hconnect := hsupports p₁ host Opcode.connect
      cases hc : CompletionPort.supports p₁ host Opcode.connect with
      | mk p₂ connect =>
        rw [ha] at haccept
        rw [hc] at hconnect
        have hcalls : (CompletionPort.closeScratch p₂ host).1.calls =
            r.calls ++ probing accept connect := by
          rw [hclose, hconnect, haccept, hopen]
          simp only [List.append_assoc]
          rfl
        refine ⟨probing accept connect, ?_, ?_⟩
        · cases accept <;> cases connect <;> exact hcalls
        · cases accept <;> cases connect
          case true.true => exact .found
          all_goals exact .missing _ _ _ (by decide)

/-! ### The engine's own read -/

namespace Engine

/-- What putting the engine's own read in flight asks of a port. -/
theorem armWake_recorded {e : Engine (Recorder P) H} {m : Memory} {s : Submission}
    (h : Submission.wake e.world.memory e.world.injector.wake e.wakeBuffer = .ok (m, s)) :
    (∃ f, e.armWake.2 = .error (.systemCall .read f.errno) ∧
      e.Refusal e.armWake.1 e.world.injector.wake f) ∨
    ∃ t, e.armWake.2 = .ok () ∧ e.Acceptance e.armWake.1 e.world.injector.wake t ∧
      e.armWake.1.port.taken = e.port.taken ++ [s.entry t] ∧ e.armWake.1.wakeToken = some t := by
  obtain ⟨hkind, hfd, _, _⟩ := Submission.wake_eq_ok h
  have hcases := handOff_recorded (e.withMemory m) s .silent
  have htaken := fun t => @taken_handOff P H _ (e.withMemory m) s .silent t
  rw [hkind, hfd] at hcases
  cases hhand : (e.withMemory m).handOff s .silent with
  | mk e' answer =>
    simp only [hhand] at hcases htaken
    rcases hcases with ⟨f, rfl, hrefusal⟩ | ⟨t, rfl, haccept⟩
    · rw [armWake_of_handOff_error h hhand]
      refine .inl ⟨f, rfl, ?_⟩
      cases hrefusal with
      | registering hpos hnew hcalls hassoc => exact .registering hpos hnew hcalls hassoc
      | pushing asked entry hcalls hassoc => exact .pushing asked entry hcalls hassoc
    · rw [armWake_of_handOff h hhand]
      exact .inr ⟨t, rfl, haccept, htaken t rfl, rfl⟩

/-- An entry reads the event counter into the buffer for that, under the token of that read. -/
structure IsOwnRead (e : Engine P H) (entry : Entry) : Prop where
  token : e.wakeToken = some entry.token
  opcode : entry.opcode = Opcode.read
  fd : entry.fd = e.world.injector.wake
  payload : entry.payload = .data ⟨e.wakeBuffer, 0, counterSize⟩

omit [CompletionPort P H] in
/-- The buffer of a fresh engine is idle, so its own read can be prepared. -/
theorem exists_wake_fresh (config : Config) (x : Extensions) (port : P) (host : H) (wake : Fd)
    (journal : List Notice) : ∃ m,
    let e := fresh config x port host wake journal
    Submission.wake e.world.memory e.world.injector.wake e.wakeBuffer =
      .ok (m, Submission.ownRead wake 0 counterSize) :=
  ⟨_, rfl⟩

variable [Os H]

omit [Os H] in
/-- Closing an open engine shuts its port down, and asks nothing else of it. -/
theorem calls_drop {e : Engine (Recorder P) H} (h : e.closed = false) :
    e.drop.port.calls = e.port.calls ++ [.shutdown] := by
  obtain ⟨journal, he⟩ := e.closeToPosts.abandon_eq
  rw [drop, if_neg (by simp [h]), he]
  rfl

end Engine

/-! ### The stages -/

/-- What building asks of a port, given what the host answers when it is asked for an event
counter, and what building fails for, if it fails. -/
inductive Builds (config : Config) (counter : Except Errno Fd) :
    List PortCall → Option Fault → Prop where
  | invalid (cause : ConfigFault) (h : config.fault? = some cause) :
    Builds config counter [] (some (.config cause))
  | unresolved (h : config.fault? = none) (asked : List PortCall) (f : Fault)
      (hasked : Resolves asked (.error f)) :
    Builds config counter asked (some f)
  | uncounted (h : config.fault? = none) (what : String) (n : Errno)
      (hcounter : counter = .error n) :
    Builds config counter (probing true true) (some (.systemResource what n))
  | unregistered (h : config.fault? = none) (wake : Fd) (hcounter : counter = .ok wake)
      (hpos : 0 ≤ wake.toInt) (what : String) (f : Fault) :
    Builds config counter (probing true true ++ [.associate wake (.error f), .shutdown])
      (some (.systemResource what f.errno))
  | refused (h : config.fault? = none) (wake : Fd) (hcounter : counter = .ok wake)
      (asked : List PortCall) (associated : List Fd) (hasked : Registers wake [] asked associated)
      (entry : Entry) (what : String) (f : Fault) :
    Builds config counter (probing true true ++ asked ++ [.push entry (.error f), .shutdown])
      (some (.systemResource what f.errno))
  | ready (h : config.fault? = none) (wake : Fd) (hcounter : counter = .ok wake)
      (asked : List PortCall) (associated : List Fd) (hasked : Registers wake [] asked associated)
      (entry : Entry) (flushes : List PortCall)
      (hflushes : ∀ call ∈ flushes, ∃ answer, call = .flush answer) :
    Builds config counter (probing true true ++ asked ++ .push entry (.ok ()) :: flushes) none

namespace Engine

variable [Os H]

/-- What starting a fresh engine asks of its port. -/
theorem builds_start {config : Config} {counter : Except Errno Fd} {x : Extensions}
    {r : Recorder P} {host : H} {wake : Fd} {journal : List Notice}
    (h : config.fault? = none) (hcounter : counter = .ok wake) (hr : r.calls = probing true true) :
    Builds config counter (fresh config x r host wake journal).start.port.calls
      (fresh config x r host wake journal).start.fault? := by
  obtain ⟨m, hm⟩ := exists_wake_fresh config x r host wake journal
  have hopen : (fresh config x r host wake journal).armWake.1.closed = false :=
    (undisturbed_armWake (fresh config x r host wake journal)).closed
  have hrecorded := armWake_recorded hm
  unfold start
  cases harm : (fresh config x r host wake journal).armWake with
  | mk e' answer =>
    rw [harm] at hrecorded hopen
    have hcalls₀ : (fresh config x r host wake journal).port.calls = probing true true := hr
    rcases hrecorded with ⟨f, rfl, hrefusal⟩ | ⟨t, rfl, haccept, -, -⟩
    · have hdrop := calls_drop hopen
      change Builds config counter e'.drop.port.calls
        (some (.systemResource "injector wake read" f.errno))
      cases hrefusal with
      | registering hpos hnew hcalls =>
        rw [hdrop, hcalls, hcalls₀, List.append_assoc]
        exact .unregistered h wake hcounter hpos _ f
      | pushing asked entry hcalls hassoc =>
        rw [hdrop, hcalls, hcalls₀, List.append_assoc]
        exact .refused h wake hcounter asked _ hassoc entry _ f
    · obtain ⟨asked, entry, flushes, hcalls, hassoc, -, hflushes⟩ := haccept
      change Builds config counter e'.port.calls none
      rw [hcalls, hcalls₀, List.append_assoc, List.singleton_append]
      refine .ready h wake hcounter asked _ hassoc entry flushes fun call hcall => ?_
      split at hflushes
      · obtain ⟨answer, rfl⟩ := hflushes
        exact ⟨answer, List.mem_singleton.mp hcall⟩
      · rw [hflushes] at hcall
        cases hcall

/-- What the host answers when an engine that is built on a port asks for an event counter. -/
def counterOf (port : P) (host : H) : Except Errno Fd :=
  (Os.eventCreate (Extensions.resolve port host).host).2

/-- What building on a port asks of it, and what comes of that. -/
theorem builds_build (config : Config) (port : P) (host : H) :
    Builds config (counterOf (Recorder.mk port []) host)
      (build config (Recorder.mk port []) host).port.calls
      (build config (Recorder.mk port []) host).fault? := by
  obtain ⟨asked, hcalls, hresolves⟩ := Extensions.resolve_recorded (Recorder.mk port []) host
  rw [List.nil_append] at hcalls
  unfold build counterOf
  dsimp only
  -- All that is known of the reply is what the record says.
  generalize Extensions.resolve (Recorder.mk port []) host = r at hcalls hresolves ⊢
  cases hvalid : config.fault? with
  | some cause => exact .invalid cause hvalid
  | none =>
    cases hanswer : r.answer with
    | error f =>
      rw [hanswer, ← hcalls] at hresolves
      exact .unresolved hvalid _ f hresolves
    | ok x =>
      rw [hanswer] at hresolves
      obtain rfl : asked = probing true true := by cases hresolves; rfl
      cases hcounter : Os.eventCreate r.host with
      | mk host counter =>
        cases counter with
        | error n =>
          dsimp only [Built.port, Built.fault?]
          rw [hcalls]
          exact .uncounted hvalid _ n rfl
        | ok wake => exact builds_start hvalid rfl hcalls

omit [CompletionPort P H] [Os H] in
/-- No operation of a user is in flight in a new engine. -/
theorem IsNew.outstanding {e : Engine P H} (h : e.IsNew) : e.outstanding = 0 := by
  obtain ⟨context, _, hslab, hwake⟩ := h.slab
  rw [Engine.outstanding, hslab, hwake, Slab.live_insert]
  rfl

/-- Of the entries that the port of a built engine took there is one, the engine's own read. -/
theorem taken_of_build {config : Config} {port : P} {host : H} {e : Engine (Recorder P) H}
    (h : build config (Recorder.mk port []) host = .ready e) :
    ∃ entry, e.port.taken = [entry] ∧ e.IsOwnRead entry := by
  obtain ⟨x, host', wake, journal, e', n, harm, rfl⟩ := armWake_of_build h
  obtain ⟨asked, hcalls, hresolves⟩ := Extensions.resolve_recorded (Recorder.mk port []) host
  obtain ⟨m, hm⟩ := exists_wake_fresh config x
    (Extensions.resolve (Recorder.mk port []) host).port host' wake journal
  have hbefore : (Extensions.resolve (Recorder.mk port []) host).port.taken = [] := by
    rw [Recorder.taken, hcalls]
    generalize (Extensions.resolve (Recorder.mk port []) host).answer = answer at hresolves
    cases hresolves <;> rfl
  have hundisturbed := undisturbed_armWake (fresh config x
    (Extensions.resolve (Recorder.mk port []) host).port host' wake journal)
  obtain ⟨_, _, _, _, _, _, _, _, _, _, hbuffer⟩ := armWake_eq_ok harm
  rcases armWake_recorded hm with ⟨f, hf, _⟩ | ⟨t, -, -, htaken, htoken⟩
  · rw [harm] at hf
    cases hf
  · rw [harm] at hundisturbed htaken htoken
    refine ⟨(Submission.ownRead wake 0 counterSize).entry t, ?_, htoken, rfl, ?_, ?_⟩
    · exact htaken.trans (congrArg (· ++ _) hbefore)
    · rw [show (e'.note n).world.injector.wake = wake from congrArg _ hundisturbed.injector]
      exact Entry.fd_wordOfFd _ _ _ _ wake
    · rw [show (e'.note n).wakeBuffer = 0 from congrArg wakeBuffer hbuffer]
      rfl

end Engine

/-! ### What building leaves behind -/

/-- A port opened a scratch handle, and offers both extensions. -/
structure OffersBoth (calls : List PortCall) : Prop where
  opened : .openScratch (.ok ()) ∈ calls
  accept : .supports Opcode.accept true ∈ calls
  connect : .supports Opcode.connect true ∈ calls

/-- All that building needs is there: a good configuration, both extensions, an event counter, and
a port that registered it and took the engine's own read. -/
structure Succeeds (config : Config) (counter : Except Errno Fd) (calls : List PortCall) :
    Prop where
  valid : config.fault? = none
  offers : OffersBoth calls
  armed : ∃ wake, counter = .ok wake ∧ (0 ≤ wake.toInt → .associate wake (.ok ()) ∈ calls) ∧
    ∃ entry, .push entry (.ok ()) ∈ calls

/-- The error number is that of the first call that failed, or that of the event counter if none
did. -/
def Blamed (counter : Except Errno Fd) (calls : List PortCall) (n : Errno) : Prop :=
  calls.findSome? PortCall.failure? = some n ∨
  calls.findSome? PortCall.failure? = none ∧ counter = .error n

theorem offersBoth_probing (rest : List PortCall) : OffersBoth (probing true true ++ rest) := by
  constructor <;> simp [probing]

/-- A port without extensions to be found does not offer both. -/
theorem Resolves.not_offersBoth {asked : List PortCall} {f : Fault}
    (h : Resolves asked (.error f)) : ¬ OffersBoth asked := by
  rintro ⟨hopened, haccept, hconnect⟩
  cases h with
  | closed => simp at hopened
  | missing accept connect what hmissing =>
    simp [probing, Opcode.accept, Opcode.connect] at haccept hconnect
    exact hmissing ⟨haccept, hconnect⟩

namespace Builds

variable {config : Config} {counter : Except Errno Fd} {calls : List PortCall}
  {fault? : Option Fault}

omit [CompletionPort P H]

/-- Nothing is asked of a port for a bad configuration. -/
theorem of_invalid (hb : Builds config counter calls fault?) {cause : ConfigFault}
    (h : config.fault? = some cause) : calls = [] ∧ fault? = some (.config cause) := by
  cases hb with
  | invalid cause' h' =>
    obtain rfl := Option.some.inj (h'.symm.trans h)
    exact ⟨rfl, rfl⟩
  | unresolved hvalid => simp [h] at hvalid
  | uncounted hvalid => simp [h] at hvalid
  | unregistered hvalid => simp [h] at hvalid
  | refused hvalid => simp [h] at hvalid
  | ready hvalid => simp [h] at hvalid

/-- A scratch handle is closed before anything else is asked, and there is no other. -/
theorem probes (hb : Builds config counter calls fault?) (h : config.fault? = none) :
    (∃ f, calls = [.openScratch (.error f)]) ∨
    ∃ accept connect rest, calls = probing accept connect ++ rest ∧
      ∀ call ∈ rest, call.isProbe = false := by
  cases hb with
  | invalid cause hc => simp [h] at hc
  | unresolved _ asked f hasked =>
    cases hasked with
    | closed f => exact .inl ⟨f, rfl⟩
    | missing accept connect => exact .inr ⟨accept, connect, [], by simp, nofun⟩
  | uncounted => exact .inr ⟨true, true, [], by simp, nofun⟩
  | unregistered _ wake _ _ what f =>
    exact .inr ⟨true, true, _, rfl, by simp [PortCall.isProbe]⟩
  | refused _ wake _ asked associated hasked entry what f =>
    refine .inr ⟨true, true, _, List.append_assoc .., ?_⟩
    cases hasked <;> simp [PortCall.isProbe]
  | ready _ wake _ asked associated hasked entry flushes hflushes =>
    refine .inr ⟨true, true, _, List.append_assoc .., ?_⟩
    have hrest : ∀ call ∈ flushes, call.isProbe = false := fun call hcall => by
      obtain ⟨answer, rfl⟩ := hflushes call hcall
      rfl
    cases hasked <;> simpa [PortCall.isProbe] using hrest

/-- Building succeeds if and only if all that it needs is there. -/
theorem eq_none_iff (hb : Builds config counter calls fault?) :
    fault? = none ↔ Succeeds config counter calls := by
  constructor
  · rintro rfl
    cases hb with
    | ready h wake hcounter asked associated hasked entry flushes =>
      refine ⟨h, List.append_assoc .. ▸ offersBoth_probing _, wake, hcounter, fun hpos => ?_,
        entry, by simp⟩
      cases hasked with
      | not_asked hnot =>
        exact absurd hpos (Int.not_le.mpr (hnot.resolve_right List.not_mem_nil))
      | added => simp
  · rintro ⟨hvalid, hoffers, wake, hcounter, hregistered, entry, hpushed⟩
    cases hb with
    | invalid cause hc => simp [hvalid] at hc
    | unresolved _ asked f hasked => exact absurd hoffers hasked.not_offersBoth
    | uncounted _ what n hnone => simp [hnone] at hcounter
    | unregistered _ wake' hwake hpos what f =>
      obtain rfl := Except.ok.inj (hwake.symm.trans hcounter)
      simp [probing] at hregistered
      exact absurd hpos (Int.not_le.mpr hregistered)
    | refused _ wake' hwake asked associated hasked =>
      cases hasked <;> simp [probing] at hpushed
    | ready => rfl

/-- A failure after the configuration was found good tells the error number of what failed. -/
theorem blames (hb : Builds config counter calls fault?) (h : config.fault? = none) {f : Fault}
    (hf : fault? = some f) : ∃ what n, f = .systemResource what n ∧ Blamed counter calls n := by
  cases hb with
  | invalid cause hc => simp [h] at hc
  | unresolved _ asked f hasked =>
    obtain rfl := Option.some.inj hf
    cases hasked with
    | closed => exact ⟨_, _, rfl, .inl rfl⟩
    | missing accept connect _ hmissing =>
      refine ⟨_, _, rfl, .inl ?_⟩
      cases accept
      · rfl
      · cases connect
        · rfl
        · exact absurd ⟨rfl, rfl⟩ hmissing
  | uncounted _ what n hnone => exact ⟨_, _, (Option.some.inj hf).symm, .inr ⟨rfl, hnone⟩⟩
  | unregistered => exact ⟨_, _, (Option.some.inj hf).symm, .inl rfl⟩
  | refused _ wake _ asked associated hasked =>
    refine ⟨_, _, (Option.some.inj hf).symm, .inl ?_⟩
    cases hasked <;> rfl
  | ready => cases hf

/-- Only a bad configuration is found to be one. -/
theorem exists_config_iff (hb : Builds config counter calls fault?) :
    (∃ cause, fault? = some (.config cause)) ↔ config.fault? ≠ none := by
  constructor
  · rintro ⟨cause, hcause⟩ hvalid
    obtain ⟨what, n, hf, -⟩ := hb.blames hvalid hcause
    cases hf
  · intro h
    obtain ⟨cause, hcause⟩ := Option.ne_none_iff_exists'.mp h
    exact ⟨cause, (hb.of_invalid hcause).2⟩

/-- Something is asked of a port if and only if the configuration is good. -/
theorem ne_nil_iff (hb : Builds config counter calls fault?) :
    calls ≠ [] ↔ config.fault? = none := by
  constructor
  · intro h
    by_contra hinvalid
    obtain ⟨cause, hcause⟩ := Option.ne_none_iff_exists'.mp hinvalid
    exact h (hb.of_invalid hcause).1
  · intro h
    rcases hb.probes h with ⟨f, rfl⟩ | ⟨accept, connect, rest, rfl, -⟩
    · exact List.cons_ne_nil _ _
    · exact List.cons_ne_nil _ _

/-- A port that registered the event counter or took the engine's own read is shut down once, at
the end, when building fails, and then it has taken nothing. -/
theorem shutsDown (hb : Builds config counter calls fault?) {f : Fault} {wake : Fd}
    (hf : fault? = some f) (hoffers : OffersBoth calls) (hcounter : counter = .ok wake) :
    ∃ before, calls = before ++ [.shutdown] ∧ .shutdown ∉ before ∧
      calls.filterMap PortCall.taken? = [] := by
  cases hb with
  | invalid => cases hoffers.opened
  | unresolved _ asked f hasked => exact absurd hoffers hasked.not_offersBoth
  | uncounted _ what n hnone => simp [hnone] at hcounter
  | unregistered _ wake _ _ what f =>
    exact ⟨probing true true ++ [.associate wake (.error f)], rfl, by simp [probing], rfl⟩
  | refused _ wake _ asked associated hasked entry what f =>
    refine ⟨probing true true ++ asked ++ [.push entry (.error f)], by simp, ?_, ?_⟩
    · cases hasked <;> simp [probing]
    · cases hasked <;> rfl
  | ready => cases hf

/-- The port of an engine that was built was not shut down. -/
theorem shutdown_not_mem (hb : Builds config counter calls fault?) (hready : fault? = none) :
    .shutdown ∉ calls := by
  cases hb with
  | ready _ wake _ asked associated hasked entry flushes hflushes =>
    have hnot : PortCall.shutdown ∉ flushes := fun h => nomatch hflushes _ h
    cases hasked <;> simpa [probing] using hnot
  | _ => cases hready

/-- What fails before that leaves nothing to undo. -/
theorem early (hb : Builds config counter calls fault?)
    (h : ¬ (OffersBoth calls ∧ ∃ wake, counter = .ok wake)) :
    ∀ call ∈ calls, call.isArming = false ∧ call ≠ .shutdown := by
  cases hb with
  | invalid => nofun
  | unresolved _ asked f hasked => cases hasked <;> simp [probing, PortCall.isArming]
  | uncounted => simp [probing, PortCall.isArming]
  | unregistered _ wake hcounter =>
    exact absurd ⟨offersBoth_probing _, wake, hcounter⟩ h
  | refused _ wake hcounter | ready _ wake hcounter =>
    exact absurd ⟨List.append_assoc .. ▸ offersBoth_probing _, wake, hcounter⟩ h

end Builds

/-- Building on a port that has not been asked anything is atomic, and closes its scratch
handle. -/
structure BuildsAtomically (config : Config) (counter : Except Errno Fd)
    (b : Built (Recorder P) H) : Prop where
  /-- A port is asked nothing for a bad configuration. -/
  invalid : ∀ cause, config.fault? = some cause →
    b.port.calls = [] ∧ b.fault? = some (.config cause)
  /-- For any other configuration, a scratch handle that opens is asked about both extensions and
  closed before anything else is asked, and there is no other. -/
  probes : config.fault? = none →
    (∃ f, b.port.calls = [.openScratch (.error f)]) ∨
    ∃ accept connect rest, b.port.calls = probing accept connect ++ rest ∧
      ∀ call ∈ rest, call.isProbe = false
  /-- There is an engine if and only if all that it needs is there. -/
  ready_iff : (∃ e, b = .ready e) ↔ Succeeds config counter b.port.calls
  /-- Then nothing is outstanding or counted, and the port took nothing but the engine's own
  read. -/
  ready : ∀ e, b = .ready e →
    e.outstanding = 0 ∧ e.stats = {} ∧ ∃ entry, e.port.taken = [entry] ∧ e.IsOwnRead entry
  /-- A failure tells the error number of what failed. -/
  blames : config.fault? = none → ∀ f, b.fault? = some f →
    ∃ what n, f = .systemResource what n ∧ Blamed counter b.port.calls n
  /-- If the engine's own read cannot be put in flight, the port is shut down once. -/
  shutsDown : ∀ f wake, b.fault? = some f → OffersBoth b.port.calls → counter = .ok wake →
    ∃ before, b.port.calls = before ++ [.shutdown] ∧ .shutdown ∉ before ∧ b.port.taken = []
  /-- Whatever fails before that leaves nothing to undo. -/
  early : ¬ (OffersBoth b.port.calls ∧ ∃ wake, counter = .ok wake) →
    ∀ call ∈ b.port.calls, call.isArming = false ∧ call ≠ .shutdown

/-- Building is atomic and closes its scratch handle, with every configuration and whatever the
port and the host answer. -/
theorem building_is_atomic [Os H] (config : Config) (port : P) (host : H) :
    BuildsAtomically config (Engine.counterOf (Recorder.mk port []) host)
      (Engine.build config (Recorder.mk port []) host) where
  invalid cause h := (Engine.builds_build config port host).of_invalid h
  probes := (Engine.builds_build config port host).probes
  ready_iff := by
    rw [← (Engine.builds_build config port host).eq_none_iff]
    cases Engine.build config (Recorder.mk port []) host <;> simp [Built.fault?]
  ready e he :=
    have hnew := Engine.isNew_of_build he
    ⟨hnew.outstanding, hnew.stats, Engine.taken_of_build he⟩
  blames h f := (Engine.builds_build config port host).blames h
  shutsDown f wake := (Engine.builds_build config port host).shutsDown
  early := (Engine.builds_build config port host).early

end Proactor
