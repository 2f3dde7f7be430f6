import Proactor.Level
import Proactor.Selftest.Parts

/-!
# The self test as a program

The self test builds an engine from the environment and runs all parts on it. Its exit code
tells whether all checks passed.
-/

namespace Proactor

/-- What a program leaves behind. -/
structure Transcript where
  code : Nat
  output : String
  errors : String
  deriving DecidableEq, Repr

namespace Selftest

/-- The argument that asks for a polling port. -/
def pollingArgument : String := "--inline"

/-- The port under test: a ring, unless an argument or the environment asks for polling. -/
def choice (arguments : List String) (env : Environment) : EngineSession.PortChoice :=
  if arguments.contains pollingArgument || env.text "CPORT_BACKEND" "io_uring" == "inline" then
    .polling
  else .ring

/-- The report on a session that was opened, and what was noted from start to end. -/
def trial (o : EngineSession.Opened) : Checklist × List Notice :=
  let c := Checklist.print {} "cport smoke test"
  match o.outcome with
  | .error f => (c.fail "engine build" f.message, o.notices)
  | .ok session =>
    let (_, t) := Trial.allParts.run { session, checklist := c }
    (t.checklist, o.notices ++ t.session.engine.world.journal)

/-- Runs the self test. -/
def run (arguments : List String) (env : Environment) : Transcript :=
  let (c, notices) := trial (EngineSession.start (Config.ofEnvironment env) (choice arguments env))
  { code := if c.failed = 0 then 0 else 1
    output := c.summary.text
    errors := LogLine.render (Level.ofEnvironment env) (notices.map (·.line none)) }

end Selftest

end Proactor
