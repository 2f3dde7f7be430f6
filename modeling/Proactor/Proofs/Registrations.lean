import Proactor.Proofs.Closing

/-!
# Registrations

An engine remembers which descriptors it has registered with its port. What it remembers is what
happened: a descriptor is registered if the port registered it and the engine was not told to
forget it since, however operations were refused in between. So a port is never asked to register
a descriptor twice, it is asked again for one that it refused, and it gets no entry for a
descriptor that is not registered.
-/

namespace Proactor

variable {P H : Type}

/-- What bears on registrations: a call on the port, or a descriptor that the engine forgot. -/
inductive Mark where
  | called (call : PortCall)
  | forgotten (fd : Fd)

/-- The call on the port, if the mark is one. -/
def Mark.call? : Mark → Option PortCall
  | called call => some call
  | forgotten _ => none

/-- The port registered the descriptor, and it was not forgotten since. -/
def IsRegistered (log : List Mark) (fd : Fd) : Prop :=
  ∃ before after, log = before ++ .called (.associate fd (.ok ())) :: after ∧
    .forgotten fd ∉ after

/-- What may come after a log: a port is asked to register what is not registered, and gets an
entry for what is. -/
def Mark.MayFollow : Mark → List Mark → Prop
  | called (.associate fd _), log => ¬ IsRegistered log fd
  | called (.push entry _), log => ∀ fd, entry.Uses fd → IsRegistered log fd
  | _, _ => True

/-- Whether a descriptor is registered depends on the last mark if that is about it. -/
theorem isRegistered_snoc {log : List Mark} {mark : Mark} {fd : Fd} :
    IsRegistered (log ++ [mark]) fd ↔
      mark = .called (.associate fd (.ok ())) ∨ mark ≠ .forgotten fd ∧ IsRegistered log fd := by
  constructor
  · rintro ⟨before, after, hlog, hafter⟩
    rcases append_singleton_eq_append_cons hlog with ⟨-, hmark, -⟩ | ⟨rest, hbefore, rfl⟩
    · exact .inl hmark
    · obtain ⟨hrest, hmark⟩ := not_or.mp (mt List.mem_append.mpr hafter)
      exact .inr ⟨fun he => hmark (he ▸ List.mem_singleton_self _), before, rest, hbefore, hrest⟩
  · rintro (rfl | ⟨hmark, before, after, rfl, hafter⟩)
    · exact ⟨log, [], rfl, List.not_mem_nil⟩
    · refine ⟨before, after ++ [mark], by simp, ?_⟩
      simpa [hafter] using hmark.symm

/-! ### Books -/

/-- The descriptors are those that are registered, and every mark came when it could. -/
structure Books (log : List Mark) (registered : List Fd) : Prop where
  mem_iff : ∀ fd, fd ∈ registered ↔ IsRegistered log fd
  mayFollow : ∀ before mark after, log = before ++ mark :: after → mark.MayFollow before

namespace Books

variable {log : List Mark} {a a' : List Fd}

theorem nil : Books [] [] where
  mem_iff fd := by simp [IsRegistered]
  mayFollow before mark after h := by simp at h

/-- One more mark that comes when it can. -/
theorem snoc (hb : Books log a) {mark : Mark} (hmark : mark.MayFollow log)
    (hmem : ∀ fd, fd ∈ a' ↔
      mark = .called (.associate fd (.ok ())) ∨ mark ≠ .forgotten fd ∧ fd ∈ a) :
    Books (log ++ [mark]) a' where
  mem_iff fd := by rw [hmem, isRegistered_snoc, hb.mem_iff]
  mayFollow before last after h := by
    rcases append_singleton_eq_append_cons h with ⟨rfl, rfl, -⟩ | ⟨rest, hlog, -⟩
    · exact hmark
    · exact hb.mayFollow before last rest hlog

/-- A call that registers nothing. -/
theorem plain (hb : Books log a) {c : PortCall} (hc : (Mark.called c).MayFollow log)
    (hplain : ∀ fd, c ≠ .associate fd (.ok ())) : Books (log ++ [.called c]) a :=
  hb.snoc hc fun fd => by simp [hplain fd]

/-- The engine forgets a descriptor. -/
theorem forget (hb : Books log a) (fd : Fd) :
    Books (log ++ [.forgotten fd]) (a.filter (· != fd)) := by
  refine hb.snoc trivial fun fd' => ?_
  rw [List.mem_filter, bne_iff_ne, and_comm, ne_comm]
  simp

/-- What a live engine asks of its port keeps the books. -/
theorem asked {calls : List PortCall} (hb : Books log a) (h : Asked a calls a') :
    Books (log ++ calls.map .called) a' := by
  induction h generalizing log with
  | nothing a => simpa using hb
  | @registered a _ _ fd hnew h ih =>
    have hnext : Books (log ++ [.called (.associate fd (.ok ()))]) (fd :: a) :=
      hb.snoc (mt (hb.mem_iff fd).mpr hnew) fun fd' => by simp [eq_comm]
    simpa using ih hnext
  | unregistered fd f hnew h ih =>
    have hnext := hb.plain (c := .associate fd (.error f)) (mt (hb.mem_iff fd).mpr hnew) nofun
    simpa using ih hnext
  | pushed entry answer huses h ih =>
    have hnext := hb.plain (c := .push entry answer)
      (fun fd hfd => (hb.mem_iff fd).mp (huses fd hfd)) nofun
    simpa using ih hnext
  | flushed answer h ih => simpa using ih (hb.plain (c := .flush answer) trivial nofun)
  | waited answer h ih => simpa using ih (hb.plain (c := .wait answer) trivial nofun)

/-- What a port is asked about its scratch handle registers nothing. -/
theorem probed {calls : List PortCall} (hb : Books log a) (h : ∀ c ∈ calls, c.isProbe = true) :
    Books (log ++ calls.map .called) a := by
  induction calls generalizing log with
  | nil => simpa using hb
  | cons c calls ih =>
    obtain ⟨hc, hcalls⟩ := List.forall_mem_cons.mp h
    have hnext : Books (log ++ [.called c]) a := by
      cases c with
      | openScratch | supports | closeScratch => exact hb.plain trivial nofun
      | _ => cases hc
    simpa using ih hnext hcalls

/-- A descriptor that the port refused is not registered until the port registers it. -/
theorem not_isRegistered_of_refused (hb : Books log a) {before after : List Mark} {fd : Fd}
    {f : Fault} (hlog : log = before ++ .called (.associate fd (.error f)) :: after)
    (hafter : .called (.associate fd (.ok ())) ∉ after) : ¬ IsRegistered log fd := by
  rintro ⟨before', after', hlog', hnot⟩
  have hrefused := hb.mayFollow before _ after hlog
  -- The registration came after the refusal, or before it.
  rcases List.append_eq_append_iff.mp (hlog.symm.trans hlog') with
    ⟨rest, rfl, hrest⟩ | ⟨rest, rfl, hrest⟩
  · cases rest with
    | nil => simp at hrest
    | cons mark rest =>
      obtain ⟨-, rfl⟩ := List.cons.inj hrest
      exact hafter (by simp)
  · cases rest with
    | nil => simp at hrest
    | cons mark rest =>
      obtain ⟨rfl, rfl⟩ := List.cons.inj hrest
      exact hrefused ⟨before', rest, rfl, fun h => hnot (List.mem_append_left _ h)⟩

end Books

/-! ### Uses of a descriptor -/

namespace Engine

variable [CompletionPort P H]

/-- The first thing that a port is asked is to register a descriptor. -/
def AsksFirst (e e' : Engine (Recorder P) H) (fd : Fd) : Prop :=
  ∃ answer rest, e'.port.calls = e.port.calls ++ .associate fd answer :: rest

theorem asksFirst_associate (e : Engine (Recorder P) H) {fd : Fd} (hnew : fd ∉ e.associated) :
    AsksFirst e (e.associate fd).1 fd := by
  have hnot : ¬ e.associated.contains fd = true := fun h => hnew (List.contains_iff_mem.mp h)
  refine ⟨(CompletionPort.associate e.port e.world.host fd).answer, [], ?_⟩
  rw [associate, if_neg hnot]
  dsimp only
  split <;> rfl

theorem asksFirst_handOff (e : Engine (Recorder P) H) (s : Submission) (cb : Callback)
    (hpos : 0 ≤ s.fd.toInt) (hnew : s.fd ∉ e.associated) :
    AsksFirst e (e.handOff s cb).1 s.fd := by
  have hasked : ∀ {asked a}, Registers s.fd e.associated asked a →
      asked = [.associate s.fd (.ok ())] := by
    intro asked a h
    cases h with
    | not_asked h => exact absurd h (not_or.mpr ⟨Int.not_lt.mpr hpos, hnew⟩)
    | added => rfl
  rcases handOff_recorded e s cb with ⟨f, -, hrefusal⟩ | ⟨t, -, asked, entry, flushes, hcalls, h, -⟩
  · cases hrefusal with
    | registering _ _ hcalls => exact ⟨_, _, hcalls⟩
    | pushing asked entry hcalls h =>
      rw [hasked h] at hcalls
      exact ⟨.ok (), [.push entry (.error f)], by simp [hcalls]⟩
  · rw [hasked h] at hcalls
    exact ⟨.ok (), .push entry (.ok ()) :: flushes, by simp [hcalls]⟩

/-- A port is asked to register the descriptor of an operation whose arguments are good. -/
theorem asksFirst_place (e : Engine (Recorder P) H) (o : Order StorageId) (cb : Callback)
    (hpasses : ∀ f, (e.place o cb).2 = .error f → f.isArgument = false)
    (hpos : 0 ≤ o.fd.toInt) (hnew : o.fd ∉ e.associated) :
    AsksFirst e (e.place o cb).1 o.fd := by
  rw [place_eq_submit] at hpasses ⊢
  cases hprep : o.prepare e.world.memory e.extensions with
  | error f =>
    rw [hprep] at hpasses
    have hbad := Order.isArgument_of_prepare hprep
    exact Bool.noConfusion (hbad.symm.trans (hpasses f rfl))
  | ok r =>
    obtain ⟨m, s⟩ := r
    obtain ⟨-, hfd, -, -⟩ := Order.prepare_eq_ok hprep
    rw [← hfd] at hpos hnew ⊢
    have h := asksFirst_handOff (e.withMemory m) s cb hpos hnew
    rw [submit_ok]
    unfold count
    split <;> exact h

end Engine

/-! ### Clients -/

namespace Client

variable [CompletionPort P H] [Os H]

/-- What bears on registrations during a call: what the port is asked, and what the engine
forgets. -/
def marks (c : Client (Recorder P) H) (s : Step H) : List Mark :=
  ((c.step s).1.engine.port.calls.drop c.engine.port.calls.length).map .called ++
    (c.forgets? s).toList.map .forgotten

/-- What bears on registrations during calls, one after the other. -/
def log (c : Client (Recorder P) H) : List (Step H) → List Mark
  | [] => []
  | s :: steps => c.marks s ++ (c.step s).1.log steps

/-- A call uses a descriptor: it registers it, or it submits an operation on it with arguments
that pass their checks. -/
inductive Uses (c : Client P H) : Step H → Fd → Prop where
  | associate (fd : Fd) : c.Uses (.associate fd) fd
  | place (o : Order String) (cb : Callback) (o' : Order StorageId) (ho : c.resolve o = some o')
      (hpasses : ∀ f, (c.engine.place o' cb).2 = .error f → f.isArgument = false)
      (hpos : 0 ≤ o'.fd.toInt) : c.Uses (.place o cb) o'.fd

variable {c : Client (Recorder P) H} {s : Step H}

theorem marks_eq {asked : List PortCall}
    (h : (c.step s).1.engine.port.calls = c.engine.port.calls ++ asked) :
    c.marks s = asked.map .called ++ (c.forgets? s).toList.map .forgotten := by
  rw [marks, h, List.drop_left]

/-- Every call keeps the books as long as the engine lives, and leaves out nothing that the port
is asked. -/
theorem books_marks {log : List Mark} (hb : Books log c.engine.associated)
    (hcloses : c.closes s = false) :
    Books (log ++ c.marks s) (c.step s).1.engine.associated ∧
      (c.step s).1.engine.port.calls = c.engine.port.calls ++ (c.marks s).filterMap Mark.call? := by
  cases hforgets : c.forgets? s with
  | none =>
    obtain ⟨asked, hcalls, hasked⟩ := c.deals_step s hcloses hforgets
    have hmarks : c.marks s = asked.map .called := by
      rw [marks_eq hcalls, hforgets]
      exact List.append_nil _
    rw [hmarks, List.filterMap_map]
    refine ⟨hb.asked hasked, hcalls.trans ?_⟩
    exact congrArg (c.engine.port.calls ++ ·) List.filterMap_some.symm
  | some fd =>
    obtain ⟨-, rfl, hstep⟩ := step_of_forgets hforgets
    have hcalls : (c.step (.dissociate fd)).1.engine.port.calls = c.engine.port.calls ++ [] := by
      rw [hstep, List.append_nil]
      rfl
    rw [marks_eq hcalls, hforgets, hstep]
    exact ⟨hb.forget fd, (List.append_nil _).symm⟩

/-- So does every run. -/
theorem books_log {log : List Mark} (hb : Books log c.engine.associated) (steps : List (Step H))
    (hlive : (c.after steps).gone = false) :
    Books (log ++ c.log steps) (c.after steps).engine.associated ∧
      (c.after steps).engine.port.calls =
        c.engine.port.calls ++ (c.log steps).filterMap Mark.call? := by
  induction steps generalizing c log with
  | nil => simpa [Client.log] using ⟨hb, rfl⟩
  | cons s steps ih =>
    obtain ⟨hbooks, hcalls⟩ := books_marks hb (closes_of_live hlive)
    obtain ⟨hbooks', hcalls'⟩ := ih hbooks hlive
    rw [Client.log, List.filterMap_append, ← List.append_assoc, ← List.append_assoc, ← hcalls]
    exact ⟨hbooks', hcalls'⟩

/-- The first thing that a use of a descriptor asks is to register it, if it is not. -/
theorem marks_of_uses {fd : Fd} (hlive : c.gone = false) (h : c.Uses s fd)
    (hnew : fd ∉ c.engine.associated) :
    ∃ answer rest, c.marks s = .called (.associate fd answer) :: rest := by
  have hfirst : c.engine.AsksFirst (c.step s).1.engine fd := by
    cases h with
    | associate =>
      simp only [step, hlive, Bool.false_eq_true, if_false]
      exact c.engine.asksFirst_associate hnew
    | place o cb o' ho hpasses hpos =>
      simp only [step, hlive, ho]
      exact c.engine.asksFirst_place o' cb hpasses hpos hnew
  obtain ⟨answer, rest, hcalls⟩ := hfirst
  rw [marks_eq hcalls]
  exact ⟨answer, _, rfl⟩

end Client

/-- The books begin when an engine is built. -/
theorem Engine.books_of_build [CompletionPort P H] [Os H] {config : Config} {port : P} {host : H}
    {e : Engine (Recorder P) H}
    (h : Engine.build config (Recorder.mk port []) host = .ready e) :
    Books (e.port.calls.map .called) e.associated := by
  obtain ⟨x, host', wake, journal, e', n, harm, rfl⟩ := armWake_of_build h
  obtain ⟨asked, hcalls, hresolves⟩ := Extensions.resolve_recorded (Recorder.mk port []) host
  obtain ⟨asked', hcalls', hasked'⟩ := deals_armWake (fresh config x
    (Extensions.resolve (Recorder.mk port []) host).port host' wake journal)
  rw [harm] at hcalls' hasked'
  have hall : (e'.note n).port.calls = asked ++ asked' :=
    hcalls'.trans (congrArg (· ++ asked') hcalls)
  rw [hall, List.map_append]
  exact (Books.nil.probed hresolves.isProbe).asked hasked'

/-! ### What an engine remembers -/

variable [CompletionPort P H] [Os H]

/-- What a live engine remembers is what happened, by a log of all that bears on registrations
since it was built. -/
structure Remembers (c : Client (Recorder P) H) (log : List Mark) : Prop where
  /-- The log leaves out nothing that the port was asked. -/
  whole : log.filterMap Mark.call? = c.engine.port.calls
  registered : ∀ fd, fd ∈ c.engine.associated ↔ IsRegistered log fd
  /-- The port was never asked to register a descriptor that was registered. -/
  once : ∀ before fd answer after, log = before ++ .called (.associate fd answer) :: after →
    ¬ IsRegistered before fd
  /-- The port never got an entry for a descriptor that was not registered. -/
  covered : ∀ before entry answer after, log = before ++ .called (.push entry answer) :: after →
    ∀ fd, entry.Uses fd → IsRegistered before fd
  /-- A descriptor that the port refused is not registered until the port registers it. -/
  refused : ∀ before fd f after, log = before ++ .called (.associate fd (.error f)) :: after →
    .called (.associate fd (.ok ())) ∉ after → ¬ IsRegistered log fd
  /-- The next use of a descriptor that is not registered asks the port to register it. -/
  retried : ∀ s fd, c.Uses s fd → ¬ IsRegistered log fd →
    ∃ answer rest, c.marks s = .called (.associate fd answer) :: rest
  /-- A dissociation tells whether the descriptor was registered. -/
  told : ∀ fd, ∃ b, (c.step (.dissociate fd)).2 = .flag b ∧ (b = true ↔ IsRegistered log fd)

/-- In every state of a live engine, what it remembers as registered is what happened, whatever
its port refused. -/
theorem registrations_are_remembered {config : Config} {port : P} {host : H}
    {e : Engine (Recorder P) H} (h : Engine.build config (Recorder.mk port []) host = .ready e)
    (steps : List (Step H)) (hlive : ((Client.own e).after steps).gone = false) :
    Remembers ((Client.own e).after steps)
      (e.port.calls.map .called ++ (Client.own e).log steps) := by
  have hbuilt : Books (e.port.calls.map .called) (Client.own e).engine.associated :=
    Engine.books_of_build h
  obtain ⟨hbooks, hcalls⟩ := Client.books_log hbuilt steps hlive
  exact {
    whole := by
      rw [List.filterMap_append, List.filterMap_map, hcalls]
      exact congrArg (· ++ _) List.filterMap_some
    registered := hbooks.mem_iff
    once := fun before fd answer after => hbooks.mayFollow before _ after
    covered := fun before entry answer after => hbooks.mayFollow before _ after
    refused := fun before fd f after => hbooks.not_isRegistered_of_refused
    retried := fun s fd huses hnot =>
      Client.marks_of_uses hlive huses (mt (hbooks.mem_iff fd).mp hnot)
    told := fun fd => by
      refine ⟨((Client.own e).after steps).engine.associated.contains fd, ?_, ?_⟩
      · simp only [Client.step, hlive, Bool.false_eq_true, if_false, Engine.dissociate]
      · rw [List.contains_iff_mem, hbooks.mem_iff] }

/-- A port that refuses to register a second descriptor once. -/
def Scripted.reluctant : Scripted :=
  { associations := [none, some (.system Errno.invalid)] }

theorem registrations_are_remembered_of_reluctant : ∃ e : Engine (Recorder Scripted) Host,
    Engine.build {} (Recorder.mk Scripted.reluctant []) Host.start = .ready e ∧
    let steps : List (Step Host) := [.associate 5, .buffer "b" [1, 2, 3],
      .place (.write 5 "b" none) ⟨"wrote", []⟩, .dissociate 5, .associate 5]
    ((Client.own e).after steps).gone = false ∧
    Remembers ((Client.own e).after steps)
      (e.port.calls.map .called ++ (Client.own e).log steps) ∧
    5 ∉ ((Client.own e).after (steps.take 2)).engine.associated ∧
    5 ∈ ((Client.own e).after steps).engine.associated := by
  refine ⟨_, rfl, rfl, ?_, by decide +kernel, by decide +kernel⟩
  exact @registrations_are_remembered Scripted Host _ _ {} Scripted.reluctant Host.start _ rfl
    [.associate 5, .buffer "b" [1, 2, 3], .place (.write 5 "b" none) ⟨"wrote", []⟩,
      .dissociate 5, .associate 5] rfl

end Proactor
