import Proactor.Selftest.Program

/-!
# The command line

Runs the self test on the arguments and on the variables of the environment that it reads.
-/

namespace Proactor.CommandLine

/-- The names of the variables that the program reads. -/
def names : List String :=
  ["CPORT_SQ_ENTRIES", "CPORT_CQ_ENTRIES", "CPORT_EAGER_FLUSH", "CPORT_DRAIN_TIMEOUT_MS",
    "CPORT_LOG_LEVEL", "CPORT_BACKEND"]

/-- The environment of the program; a variable that is not text counts as unset. -/
def environment : IO Environment := do
  let found ← names.filterMapM fun key => do
    return (← IO.getEnv key).map fun value => (key, value)
  return Environment.ofTexts found

/-- Runs the self test and writes its report. -/
def run (arguments : List String) : IO UInt32 := do
  let t := Selftest.run arguments (← environment)
  IO.eprint t.errors
  IO.print t.output
  return UInt32.ofNat t.code

end Proactor.CommandLine

def main (arguments : List String) : IO UInt32 := Proactor.CommandLine.run arguments
