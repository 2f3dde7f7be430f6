import Proactor.Environment
import Proactor.Text.Lines

/-!
# Log levels

How much a log says. A line is written if its level is on and not above the level set, under a
tag of one letter; plain lines are always written.
-/

namespace Proactor

/-- How much a log says, least first. -/
inductive Level where
  | off
  | error
  | warn
  | info
  | debug
  | trace
  deriving DecidableEq, Repr, Inhabited

namespace Level

/-- The levels in order. -/
def all : List Level := [off, error, warn, info, debug, trace]

def number : Level → Nat
  | off => 0
  | error => 1
  | warn => 2
  | info => 3
  | debug => 4
  | trace => 5

/-- The level with that number; larger numbers say everything. -/
def ofNumber (n : Nat) : Level := (all[n]?).getD trace

/-- The word for a level. -/
def word : Level → String
  | off => "off"
  | error => "error"
  | warn => "warn"
  | info => "info"
  | debug => "debug"
  | trace => "trace"

/-- The name of a level in reports. -/
def name : Level → String
  | off => "Off"
  | error => "Error"
  | warn => "Warn"
  | info => "Info"
  | debug => "Debug"
  | trace => "Trace"

/-- The letter that tags a line. -/
def tag : Level → String
  | off => ""
  | error => "E"
  | warn => "W"
  | info => "I"
  | debug => "D"
  | trace => "T"

/-- Reads the word or the digit of a level, in any case and with blanks around it. -/
def ofText? (s : String) : Option Level :=
  let w := Text.lower (Text.trim s)
  all.find? fun level => level.word == w || level.number.repr == w

/-- The level that an environment asks for; `info` if it asks for none. -/
def ofEnvironment (env : Environment) : Level :=
  (ofText? (env.text "CPORT_LOG_LEVEL" "")).getD info

/-- Lines of this level are written when `threshold` is set. -/
def enabledAt (level threshold : Level) : Bool :=
  level != off && decide (level.number ≤ threshold.number)

end Level

/-- A line of a log: of some level, or plain. -/
structure LogLine where
  level : Option Level
  body : String
  deriving DecidableEq, Repr

namespace LogLine

/-- The line is written when `threshold` is set. -/
def shownAt (threshold : Level) (l : LogLine) : Bool := l.level.all (·.enabledAt threshold)

/-- The line as it is written, without its end. -/
def text (l : LogLine) : String :=
  match l.level with
  | some level => "cport[" ++ level.tag ++ "] " ++ l.body
  | none => l.body

/-- The lines that are read back once the line is written: its text may have line ends inside. -/
def lines (l : LogLine) : List String := Text.lines (l.text ++ "\n")

/-- What a log holds after some lines, each with its end. -/
def render (threshold : Level) (ls : List LogLine) : String :=
  String.join ((ls.filter (shownAt threshold)).map (·.text ++ "\n"))

end LogLine

end Proactor
