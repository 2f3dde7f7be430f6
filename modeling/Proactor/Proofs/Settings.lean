import Mathlib.Data.List.Induction
import Proactor.Proofs.Building
import Proactor.Proofs.Readings

/-!
# Settings

Where the value of a setting comes from. Each field of a configuration is what it was last set to
since the builder was last started again, and what it was started with if it was not set since.
What the environment says about a field stands in one variable of its own, and a value that
cannot be read is as good as none. How a configuration came about has no part in whether an
engine can be built with it.
-/

namespace Proactor.Config

/-- The fields of a configuration. -/
inductive Field where
  | submissions
  | completions
  | eagerFlush
  | drainTimeout
  deriving DecidableEq, Repr

namespace Field

/-- What a field holds. -/
def Value : Field → Type
  | submissions => UInt32
  | completions => Option UInt32
  | eagerFlush => Bool
  | drainTimeout => Duration

/-- What a field holds in a configuration. -/
def of : (f : Field) → Config → f.Value
  | submissions, c => c.submissions
  | completions, c => c.completions
  | eagerFlush, c => c.eagerFlush
  | drainTimeout, c => c.drainTimeout

/-- What a setting gives a field, if it is about that field. -/
def given? : (f : Field) → Setting → Option f.Value
  | submissions, .submissions n => some n
  | completions, .completions n => some (some n)
  | eagerFlush, .eagerFlush enabled => some enabled
  | drainTimeout, .drainTimeout d => some d
  | _, _ => none

/-- The variable that is about a field. -/
def key : Field → String
  | submissions => "CPORT_SQ_ENTRIES"
  | completions => "CPORT_CQ_ENTRIES"
  | eagerFlush => "CPORT_EAGER_FLUSH"
  | drainTimeout => "CPORT_DRAIN_TIMEOUT_MS"

/-- What a field holds if nothing is said about it. -/
def default (f : Field) : f.Value := f.of {}

/-- A text without blanks around it says what a field is to hold. -/
def Says : (f : Field) → List Char → f.Value → Prop
  | submissions, core, n => Readable.IsNumber core (UInt32.toNat n)
  | completions, core, n? => ∃ n : UInt32, n? = some n ∧ Readable.IsNumber core n.toNat
  | eagerFlush, core, enabled => Environment.IsFlag core enabled
  | drainTimeout, core, d =>
    ∃ n : UInt64, d = Duration.ofMilliseconds n.toNat ∧ Readable.IsNumber core n.toNat

/-- The variable of a field is set, to the bytes of a text that says what the field is to hold. -/
def IsSaid (f : Field) (env : Environment) (v : f.Value) : Prop :=
  ∃ (s : String) (core : List Char), env.entries.lookup f.key = some s.toUTF8.data.toList ∧
    Text.IsCore s.toList core ∧ f.Says core v

/-- What a text, maybe with blanks around it, says that a field is to hold. -/
def read? : (f : Field) → String → Option f.Value
  | submissions, s => (Readable.read? (Text.trim s) : Option UInt32)
  | completions, s => (Readable.read? (Text.trim s)).map some
  | eagerFlush, s => Environment.flagWord? s
  | drainTimeout, s =>
    (Readable.read? (Text.trim s)).map fun n : UInt64 => Duration.ofMilliseconds n.toNat

/-- No two fields have the same variable. -/
theorem key_injective : Function.Injective key := by
  intro f g h
  cases f <;> cases g <;> first | rfl | exact absurd h (by decide)

end Field

/-! ### Settings one after the other -/

/-- A setting changes the field that it is about. -/
theorem of_set (f : Field) (c : Config) (s : Setting) :
    f.of (c.set s) = (f.given? s).getD (f.of c) := by
  cases f <;> cases s <;> rfl

/-- A field is what it was last set to. -/
theorem of_setAll (f : Field) (settings : List Setting) (c : Config) :
    f.of (c.setAll settings) = (settings.filterMap f.given?).getLast?.getD (f.of c) := by
  induction settings generalizing c with
  | nil => rfl
  | cons s settings ih =>
    have hfirst : f.of (c.setAll (s :: settings)) = f.of ((c.set s).setAll settings) := rfl
    rw [hfirst, ih, of_set, List.filterMap_cons]
    cases f.given? s with
    | none => rfl
    | some v =>
      rw [List.getLast?_cons]
      cases (settings.filterMap f.given?).getLast? <;> rfl

/-- Settings lead from the defaults to every configuration. -/
theorem exists_settings (c : Config) : ∃ settings, ({} : Config).setAll settings = c := by
  obtain ⟨submissions, completions, eagerFlush, drainTimeout⟩ := c
  cases completions with
  | none => exact ⟨[.submissions submissions, .eagerFlush eagerFlush, .drainTimeout drainTimeout],
      rfl⟩
  | some n => exact ⟨[.submissions submissions, .completions n, .eagerFlush eagerFlush,
      .drainTimeout drainTimeout], rfl⟩

/-! ### Starting again -/

/-- What a builder was last started with, and the settings since. It starts with the defaults. -/
inductive Restarts (env : Environment) : List Call → Config → List Setting → Prop where
  | never (since : List Setting) : Restarts env (since.map .set) {} since
  | settings (before : List Call) (settings since : List Setting) :
    Restarts env (before ++ .restart settings :: since.map .set) (({} : Config).setAll settings)
      since
  | environment (before : List Call) (since : List Setting) :
    Restarts env (before ++ .restartFromEnvironment :: since.map .set) (ofEnvironment env) since

/-- A builder was started with something, whatever was called. -/
theorem exists_restarts (env : Environment) (calls : List Call) :
    ∃ base since, Restarts env calls base since := by
  -- From the end: a restart leaves nothing of what was called before it.
  induction calls using List.reverseRecOn with
  | nil => exact ⟨_, _, .never []⟩
  | append_singleton calls call ih =>
    cases call with
    | restart settings => exact ⟨_, _, .settings calls settings []⟩
    | restartFromEnvironment => exact ⟨_, _, .environment calls []⟩
    | set s =>
      obtain ⟨base, since, h⟩ := ih
      refine ⟨base, since ++ [s], ?_⟩
      have hmap : since.map Call.set ++ [.set s] = (since ++ [s]).map .set := by
        rw [List.map_append]
        rfl
      cases h with
      | never =>
        rw [hmap]
        exact .never (since ++ [s])
      | settings before settings =>
        rw [List.append_assoc, List.cons_append, hmap]
        exact .settings before settings (since ++ [s])
      | environment before =>
        rw [List.append_assoc, List.cons_append, hmap]
        exact .environment before (since ++ [s])

theorem foldl_call_set (env : Environment) (c : Config) (settings : List Setting) :
    (settings.map Call.set).foldl (call env) c = c.setAll settings := by
  rw [List.foldl_map]
  rfl

/-- The calls of a builder come to the settings since it was last started. -/
theorem Restarts.ofCalls_eq {env : Environment} {calls : List Call} {base : Config}
    {since : List Setting} (h : Restarts env calls base since) :
    ofCalls env calls = base.setAll since := by
  cases h with
  | never => exact foldl_call_set env {} since
  | settings before settings =>
    rw [ofCalls, List.foldl_append, List.foldl_cons, foldl_call_set]
    rfl
  | environment before =>
    rw [ofCalls, List.foldl_append, List.foldl_cons, foldl_call_set]
    rfl

/-! ### The environment -/

namespace Field

/-- What is read from a text is what the text says between its blanks. -/
theorem read?_eq_some_iff {f : Field} {s : String} {v : f.Value} :
    f.read? s = some v ↔ f.Says (Text.trimChars s.toList) v := by
  cases f with
  | submissions => exact Text.toList_trim s ▸ @Readable.read?_uint32_eq_some_iff (Text.trim s) v
  | completions =>
    refine Option.map_eq_some_iff.trans (exists_congr fun n => ?_)
    rw [Readable.read?_uint32_eq_some_iff, Text.toList_trim, and_comm]
    exact and_congr_left fun _ => eq_comm
  | eagerFlush => exact @Environment.flagWord?_eq_some_iff s v
  | drainTimeout =>
    refine Option.map_eq_some_iff.trans (exists_congr fun n => ?_)
    rw [Readable.read?_uint64_eq_some_iff, Text.toList_trim, and_comm]
    exact and_congr_left fun _ => eq_comm

/-- What is read for a field is what its variable says. -/
theorem text?_bind_read?_eq_some_iff {f : Field} {env : Environment} {v : f.Value} :
    (env.text? f.key).bind f.read? = some v ↔ f.IsSaid env v := by
  simp only [IsSaid, Option.bind_eq_some_iff, Environment.text?_eq_some_iff, read?_eq_some_iff,
    ← Text.trimChars_eq_iff, exists_and_left, exists_eq_left']

/-- Each field is what is read from its variable, and the default if that cannot be read. -/
theorem of_ofEnvironment (f : Field) (env : Environment) :
    f.of (ofEnvironment env) = ((env.text? f.key).bind f.read?).getD f.default := by
  cases f with
  | submissions => rfl
  | completions =>
    have hmap : ∀ n? : Option UInt32, n? = (n?.map some).getD none := by
      intro n?
      cases n? <;> rfl
    exact (hmap _).trans (congrArg (Option.getD · _) Option.map_bind)
  | eagerFlush => rfl
  | drainTimeout =>
    have hmap : ∀ n? : Option UInt64, Duration.ofMilliseconds (n?.getD 1000).toNat =
        (n?.map fun n => Duration.ofMilliseconds n.toNat).getD (Duration.ofMilliseconds 1000) := by
      intro n?
      cases n? <;> rfl
    exact (hmap _).trans (congrArg (Option.getD · _) Option.map_bind)

example : ofEnvironment (.ofTexts [("CPORT_SQ_ENTRIES", " +512\t"), ("CPORT_CQ_ENTRIES", "-1")]) =
    { submissions := 512 } := by
  decide +kernel

end Field

/-! ### Good configurations -/

/-- The submissions are a power of two and not too many, and the completions, if they are given,
are not fewer. -/
structure IsValid (c : Config) : Prop where
  power : ∃ k, c.submissions.toNat = 2 ^ k
  small : c.submissions.toNat ≤ 32768
  room : ∀ n, c.completions = some n → c.submissions.toNat ≤ n.toNat

theorem isPowerOfTwo_eq_true_iff {n : Nat} : isPowerOfTwo n = true ↔ ∃ k, n = 2 ^ k := by
  unfold isPowerOfTwo
  rw [Bool.and_eq_true, bne_iff_ne, beq_iff_eq]
  constructor
  · rintro ⟨hpos, hand⟩
    exact (Nat.and_sub_one_eq_zero_iff_isPowerOfTwo hpos).mp hand
  · rintro ⟨k, rfl⟩
    have hpos : 2 ^ k ≠ 0 := (Nat.two_pow_pos k).ne'
    exact ⟨hpos, (Nat.and_sub_one_eq_zero_iff_isPowerOfTwo hpos).mpr ⟨k, rfl⟩⟩

/-- A configuration is found good if and only if it is. -/
theorem fault?_eq_none_iff {c : Config} : c.fault? = none ↔ c.IsValid := by
  have hsmall : ¬ maxSubmissions < c.submissions ↔ c.submissions.toNat ≤ 32768 := Nat.not_lt
  have hroom : ∀ n : UInt32, ¬ n < c.submissions ↔ c.submissions.toNat ≤ n.toNat :=
    fun _ => Nat.not_lt
  unfold fault?
  constructor
  · intro h
    split at h
    · cases h
    next hpower =>
    split at h
    · cases h
    next hmax =>
    refine ⟨isPowerOfTwo_eq_true_iff.mp (by simpa using hpower), hsmall.mp hmax, fun n hn => ?_⟩
    rw [hn] at h
    dsimp only at h
    split at h
    · cases h
    next hcompletions => exact (hroom n).mp hcompletions
  · rintro ⟨hpower, hmax, hcompletions⟩
    rw [if_neg (by simp [isPowerOfTwo_eq_true_iff.mpr hpower]), if_neg (hsmall.mpr hmax)]
    cases hc : c.completions with
    | none => rfl
    | some n => exact if_neg ((hroom n).mpr (hcompletions n hc))

/-! ### What a builder comes to -/

/-- What a builder comes to in an environment after some calls, and whether an engine can be built
with that. -/
structure IsSettled (env : Environment) (calls : List Call) : Prop where
  /-- A builder was started with something. -/
  started : ∃ base since, Restarts env calls base since
  /-- Each field is what it was last set to since, and what the builder was started with if it was
  not set since; that is, the settings since are made one after the other. -/
  since : ∀ base since, Restarts env calls base since →
    (∀ f : Field, f.of (ofCalls env calls) =
      (since.filterMap f.given?).getLast?.getD (f.of base)) ∧
    ofCalls env calls = base.setAll since
  /-- A builder can be started again with every configuration. -/
  restarts : ∀ c, ∃ settings, call env (ofCalls env calls) (.restart settings) = c
  /-- From the environment, each field is what its variable says, and the default if that says
  nothing. -/
  said : ∀ (f : Field) (v : f.Value), f.of (ofEnvironment env) = v ↔
    f.IsSaid env v ∨ (∀ w, ¬ f.IsSaid env w) ∧ v = f.default
  /-- No field depends on another variable than its own, and each has its own. -/
  apart : ∀ (f : Field) (env' : Environment),
    env'.entries.lookup f.key = env.entries.lookup f.key →
    f.of (ofEnvironment env') = f.of (ofEnvironment env)
  keys : ∀ f g : Field, f.key = g.key → f = g
  /-- A port is asked for something if and only if the configuration is good; otherwise it is the
  configuration that building fails for. -/
  validated : ∀ {P H : Type} [CompletionPort P H] [Os H] (port : P) (host : H),
    let b := Engine.build (ofCalls env calls) (Recorder.mk port []) host
    (b.port.calls ≠ [] ↔ (ofCalls env calls).IsValid) ∧
    ((∃ cause, b.fault? = some (.config cause)) ↔ ¬ (ofCalls env calls).IsValid)

/-- In every environment and after all calls, a builder comes to what was said last about each
field. -/
theorem last_setting_wins (env : Environment) (calls : List Call) : IsSettled env calls where
  started := exists_restarts env calls
  since base since h := by
    rw [h.ofCalls_eq]
    exact ⟨fun f => of_setAll f since base, rfl⟩
  restarts := exists_settings
  said f v := by
    rw [f.of_ofEnvironment, ← Field.text?_bind_read?_eq_some_iff]
    simp only [← Field.text?_bind_read?_eq_some_iff]
    cases (env.text? f.key).bind f.read? with
    | none => simp [eq_comm]
    | some w => simp
  apart f env' h := by
    rw [f.of_ofEnvironment, f.of_ofEnvironment, Environment.text?, Environment.text?, h]
  keys _ _ h := Field.key_injective h
  validated port host := by
    have hb := Engine.builds_build (ofCalls env calls) port host
    rw [← fault?_eq_none_iff]
    exact ⟨hb.ne_nil_iff, hb.exists_config_iff⟩

end Proactor.Config
