import Proactor.Duration
import Proactor.Environment
import Proactor.Fault

/-!
# Configuration

The four settings of an engine, where their values come from, and when an engine can be built
with them. Later settings win over earlier ones, settings over the environment, and the
environment over the defaults.
-/

namespace Proactor

/-- The settings of an engine. -/
structure Config where
  /-- How many submissions the queue holds. -/
  submissions : UInt32 := 256
  /-- How many completions it holds; twice the submissions if absent. -/
  completions : Option UInt32 := none
  /-- Flush after every submission. -/
  eagerFlush : Bool := true
  /-- How long a shutdown waits for what is outstanding. -/
  drainTimeout : Duration := Duration.ofMilliseconds 1000
  deriving DecidableEq, Repr, Inhabited

/-- One setting and its value. -/
inductive Setting where
  | submissions (n : UInt32)
  | completions (n : UInt32)
  | eagerFlush (enabled : Bool)
  | drainTimeout (d : Duration)
  deriving DecidableEq, Repr

namespace Config

/-- The largest submission queue. -/
def maxSubmissions : UInt32 := 32768

/-- The defaults, each overridden by its own variable if that is set and readable. -/
def ofEnvironment (env : Environment) : Config :=
  let d : Config := {}
  { submissions := env.get "CPORT_SQ_ENTRIES" d.submissions
    completions := env.get? "CPORT_CQ_ENTRIES"
    eagerFlush := env.flag "CPORT_EAGER_FLUSH" d.eagerFlush
    drainTimeout := Duration.ofMilliseconds
      (env.get "CPORT_DRAIN_TIMEOUT_MS" (1000 : UInt64)).toNat }

/-- The configuration with one setting changed. -/
def set (c : Config) : Setting → Config
  | .submissions n => { c with submissions := n }
  | .completions n => { c with completions := some n }
  | .eagerFlush enabled => { c with eagerFlush := enabled }
  | .drainTimeout d => { c with drainTimeout := d }

/-- The configuration with settings changed one after the other. -/
def setAll (c : Config) (settings : List Setting) : Config := settings.foldl set c

/-- One call of a builder: a setting, or a fresh start from other settings. -/
inductive Call where
  | set (s : Setting)
  /-- Starts again from the defaults with these settings. -/
  | restart (settings : List Setting)
  /-- Starts again from the environment. -/
  | restartFromEnvironment
  deriving DecidableEq, Repr

/-- The configuration after one more call of a builder. -/
def call (env : Environment) (c : Config) : Call → Config
  | .set s => c.set s
  | .restart settings => ({} : Config).setAll settings
  | .restartFromEnvironment => ofEnvironment env

/-- The configuration that a builder ends with, which starts from the defaults. -/
def ofCalls (env : Environment) (calls : List Call) : Config := calls.foldl (call env) {}

/-- The number is a power of two. -/
def isPowerOfTwo (n : Nat) : Bool := n != 0 && n &&& (n - 1) == 0

/-- What is wrong with a configuration, if anything is. -/
def fault? (c : Config) : Option ConfigFault :=
  if !isPowerOfTwo c.submissions.toNat then some .submissionsNotPowerOfTwo
  else if maxSubmissions < c.submissions then some .submissionsTooMany
  else match c.completions with
    | some n => if n < c.submissions then some .completionsBelowSubmissions else none
    | none => none

/-- The text of an optional number. -/
def optionText : Option UInt32 → String
  | some n => "Some(" ++ n.toNat.repr ++ ")"
  | none => "None"

/-- The lines that show a configuration. -/
def lines (c : Config) : List String :=
  [ "cport configuration:",
    "  sq_entries:     " ++ c.submissions.toNat.repr,
    "  cq_entries:     " ++ optionText c.completions,
    "  eager_flush:    " ++ Readable.write c.eagerFlush,
    "  drain_timeout:  " ++ c.drainTimeout.text ]

end Config

end Proactor
