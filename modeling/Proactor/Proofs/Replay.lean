import Proactor.Proofs.Interrupts

/-!
# Replayed waits

A port that takes whatever it is asked to, and whose waits return what is written down for them.
If completions of the engine's own read are put into what is written, it answers as before but for
interrupted waits.
-/

namespace Proactor

/-- A host that does nothing but keep the time, and each reading takes some. It stops after half of
what a clock can tell. -/
structure Timekeeper where
  time : Nat := 0
  deriving DecidableEq

instance : Os Timekeeper where
  now h := (⟨h.time + 1⟩, min (h.time + 1) (endOfTime / 2))
  now_lt _ := Nat.lt_of_le_of_lt (Nat.min_le_right _ _) (by decide)
  eventCreate h := (h, .ok 7)
  eventAdd h _ := (h, .ok ())
  duplicate h _ _ := (h, .ok ())
  close h _ := h
  socketName _ _ := none
  socketOption _ _ _ := .ok 0

theorem Timekeeper.tells (host : Timekeeper) {d : Duration} (h : d.nanoseconds < endOfTime / 2) :
    Os.Tells host (some d) := by
  intro d' hd
  obtain rfl := Option.some.inj hd
  exact Nat.lt_of_lt_of_le (Nat.add_lt_add_of_le_of_lt (Nat.min_le_right _ _) h) (by decide)

/-- What a wait of a replaying port returns. -/
inductive Replay.Line where
  /-- The completion of the engine's own read. -/
  | own (moved : Transfer)
  | other (w : Waited)

/-- A port whose waits are written down, and the slot of the engine's own read. -/
structure Replay where
  index : UInt32 := 0
  /-- The token of that read while it is in flight. -/
  armed : Option Token := none
  script : List Replay.Line := []

namespace Replay

instance (t : Token) (index : UInt32) : Decidable (t.Names index) :=
  inferInstanceAs (Decidable (_ ∧ _))

/-- Takes an entry, and remembers the engine's own read. -/
def push (p : Replay) (token : Token) : Replay :=
  if token.Names p.index then { p with armed := some token } else p

/-- Returns what is written next. -/
def wait (p : Replay) : Replay × Waited :=
  match p.script, p.armed with
  | .own moved :: script, some t =>
    ({ p with armed := none, script }, .completion ⟨t, 8, 0⟩ moved)
  | .own _ :: _, none => (p, .blocked)
  | .other w :: script, _ => ({ p with script }, w)
  | [], _ => (p, .timeout)

instance : CompletionPort Replay Timekeeper where
  name _ := "replay"
  capacity _ := 64
  inflight _ := 0
  openScratch p host := { port := p, host, answer := .ok () }
  supports p _ _ := (p, true)
  closeScratch p host := (p, host)
  associate p host _ := { port := p, host, answer := .ok () }
  push p host _ e := { port := p.push e.token, host, answer := .ok () }
  flush p host _ := { port := p, host, answer := .ok 0 }
  wait _ p host _ _ := { port := p.wait.1, host, answer := p.wait.2 }
  shutdown p host := (p, host)

/-- The second script is the first one with completions of the engine's own read put in. Nothing
else in them names the slot of that read. -/
inductive Inserts (index : UInt32) : List Line → List Line → Prop where
  | nil : Inserts index [] []
  | additional (moved : Transfer) {l l' : List Line} (h : Inserts index l l') :
    Inserts index l (.own moved :: l')
  | own (moved moved' : Transfer) {l l' : List Line} (h : Inserts index l l') :
    Inserts index (.own moved :: l) (.own moved' :: l')
  | other (w : Waited) (hw : ∀ c moved, w = .completion c moved → ¬ c.token.Names index)
    {l l' : List Line} (h : Inserts index l l') : Inserts index (.other w :: l) (.other w :: l')

/-- The port knows which slot the engine's own read is in, and under which token it is in
flight. -/
def Knows (index : UInt32) (x : Station Replay Timekeeper) : Prop :=
  x.port.index = index ∧ x.port.armed = x.armed

/-- The waits of the second port return more completions of the engine's own read. -/
structure Interrupted (index : UInt32) (x y : Station Replay Timekeeper) : Prop where
  knows : Knows index x
  knows' : Knows index y
  inserts : Inserts index x.port.script y.port.script

/-- How much is written down for a port. -/
def length (x : Station Replay Timekeeper) : Nat := x.port.script.length

theorem push_of_names {p : Replay} {t : Token} (h : t.Names p.index) :
    p.push t = { p with armed := some t } :=
  if_pos h

/-- The engine's own read can be put in flight again, and the script stays. -/
theorem Knows.rearm {wake : Fd} {hidden : StorageId} {index : UInt32}
    {x : Station Replay Timekeeper} (h : Knows index x) :
    x.Accepts wake hidden index ∧ ∀ x', x.Rearms wake hidden index x' →
      Knows index x' ∧ x'.port.script = x.port.script := by
  have hpush : ∀ m n t, t.Names index →
      Knows index (x.pushOwnRead wake hidden m n t) ∧
        (x.pushOwnRead wake hidden m n t).port.script = x.port.script := by
    intro m n t ht
    have hport : (x.pushOwnRead wake hidden m n t).port = { x.port with armed := some t } :=
      push_of_names (h.1.symm ▸ ht)
    rw [Knows, hport]
    exact ⟨⟨h.1, rfl⟩, rfl⟩
  refine ⟨fun _ _ _ _ => rfl, fun x' hx' => ?_⟩
  cases hx' with
  | pushed m n t ht => exact hpush m n t ht
  | flushed m m' n t ht => exact hpush m n t ht

/-- A wait of a port that replays its waits can be interrupted. -/
theorem Interrupted.wait {index : UInt32} {x y : Station Replay Timekeeper}
    (h : Interrupted index x y) (hx : x.armed ≠ none) (hy : y.armed ≠ none) (m m' : Memory)
    (limit limit' : Option Duration) (rounds rounds' : Nat) :
    WaitsAlike index (Interrupted index) length x y rounds rounds'
      (CompletionPort.wait rounds x.port x.host m limit)
      (CompletionPort.wait rounds' y.port y.host m' limit') := by
  obtain ⟨⟨i, a, script⟩, host, armed⟩ := x
  obtain ⟨⟨i', a', script'⟩, host', armed'⟩ := y
  obtain rfl : i = index := h.knows.1
  obtain rfl : i' = i := h.knows'.1
  obtain rfl : a = armed := h.knows.2
  obtain rfl : a' = armed' := h.knows'.2
  obtain ⟨t, rfl⟩ := Option.ne_none_iff_exists'.mp hx
  obtain ⟨t', rfl⟩ := Option.ne_none_iff_exists'.mp hy
  have hinserts : Inserts i' script script' := h.inserts
  have hok : 0 ≤ (8 : Int64).toInt := by decide
  cases hinserts with
  | nil => exact .same rfl nofun ⟨⟨rfl, rfl⟩, ⟨rfl, rfl⟩, .nil⟩
  | additional moved hrest =>
    exact .interrupted ⟨t', 8, 0⟩ moved rfl rfl hok ⟨⟨rfl, rfl⟩, ⟨rfl, rfl⟩, hrest⟩
      (Nat.lt_succ_self _)
  | own moved moved' hrest =>
    exact .woken ⟨t, 8, 0⟩ ⟨t', 8, 0⟩ moved moved' rfl rfl rfl rfl hok hok
      ⟨⟨rfl, rfl⟩, ⟨rfl, rfl⟩, hrest⟩ (Nat.le_succ _)
  | other w hw hrest => exact .same rfl hw ⟨⟨rfl, rfl⟩, ⟨rfl, rfl⟩, hrest⟩

/-- Ports that replay their waits answer alike. -/
theorem interrupts (wake : Fd) (hidden : StorageId) (index : UInt32) :
    Interrupts wake hidden index (Interrupted index) length where
  clock := ⟨fun ⟨hx, hy, h⟩ => ⟨hx, hy, h⟩, fun ⟨hx, hy, h⟩ => ⟨hx, hy, h⟩⟩
  clock' := ⟨fun ⟨hx, hy, h⟩ => ⟨hx, hy, h⟩, fun ⟨hx, hy, h⟩ => ⟨hx, hy, h⟩⟩
  left_clock _ := Nat.le_refl _
  host x y := ⟨fun h _ => ⟨rfl, h⟩, fun h _ _ => ⟨rfl, h⟩, fun h _ => h, fun _ _ => rfl⟩
  associate h _ := ⟨rfl, h⟩
  push {x y} h _ _ _ entry ht := by
    have hpush : x.port.push entry.token = x.port := if_neg (h.knows.1.symm ▸ ht)
    have hpush' : y.port.push entry.token = y.port := if_neg (h.knows'.1.symm ▸ ht)
    refine ⟨rfl, ?_, ?_, ?_⟩
    · exact ⟨(congrArg Replay.index hpush).trans h.knows.1,
        (congrArg Replay.armed hpush).trans h.knows.2⟩
    · exact ⟨(congrArg Replay.index hpush').trans h.knows'.1,
        (congrArg Replay.armed hpush').trans h.knows'.2⟩
    · have hinserts := h.inserts
      rw [← hpush, ← hpush'] at hinserts
      exact hinserts
  flush h _ _ _ := h
  rearm h _ := by
    obtain ⟨haccepts, hrearms⟩ := h.knows.rearm
    refine ⟨haccepts, fun x' hx' => ?_⟩
    obtain ⟨hknows, hscript⟩ := hrearms x' hx'
    exact ⟨hknows, h.knows', hscript ▸ h.inserts⟩
  rearm' h _ := by
    obtain ⟨haccepts, hrearms⟩ := h.knows'.rearm
    refine ⟨haccepts, fun y' hy' => ?_⟩
    obtain ⟨hknows, hscript⟩ := hrearms y' hy'
    exact ⟨⟨h.knows, hknows, hscript ▸ h.inserts⟩, Nat.le_of_eq (congrArg List.length hscript)⟩
  wait h hx hy m m' _ limit limit' _ rounds rounds' :=
    h.wait hx hy m m' limit limit' rounds rounds'

end Replay

end Proactor
