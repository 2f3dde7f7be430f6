/-!
# Checklists

The report of a self test: numbered checks under headings, each passed or failed with a reason,
and their count at the end.
-/

namespace Proactor

/-- A report so far: its lines, and how many checks passed and failed. -/
structure Checklist where
  lines : List String := []
  passed : Nat := 0
  failed : Nat := 0
  deriving DecidableEq, Repr

namespace Checklist

/-- A line across the report. -/
def rule : String := String.ofList (List.replicate 60 '─')

/-- The checks made. -/
def total (c : Checklist) : Nat := c.passed + c.failed

/-- The report with one more line. -/
def print (c : Checklist) (line : String) : Checklist := { c with lines := c.lines ++ [line] }

/-- The report with a heading. -/
def heading (c : Checklist) (text : String) : Checklist :=
  { c with lines := c.lines ++ ["", rule, "  " ++ text, rule] }

/-- A number, as wide as two digits. -/
def number (n : Nat) : String := String.ofList (n.repr.toList.leftpad 2 ' ')

/-- The name of a check, as wide as the column of names. -/
def nameColumn (name : String) : String := String.ofList (name.toList.rightpad 52 ' ')

/-- The line of a check. -/
def line (n : Nat) (name verdict : String) : String :=
  "  [" ++ number n ++ "] " ++ nameColumn name ++ " " ++ verdict

/-- The report with a check that passed. -/
def pass (c : Checklist) (name : String) : Checklist :=
  { c.print (line (c.total + 1) name "PASS") with passed := c.passed + 1 }

/-- The report with a check that failed. -/
def fail (c : Checklist) (name reason : String) : Checklist :=
  { c.print (line (c.total + 1) name ("FAIL: " ++ reason)) with failed := c.failed + 1 }

/-- The report with a check; the reason counts only if it failed. -/
def check (c : Checklist) (name : String) (ok : Bool) (reason : String) : Checklist :=
  if ok then c.pass name else c.fail name reason

/-- The report with its count. -/
def summary (c : Checklist) : Checklist :=
  { c with lines := c.lines ++
      ["", rule,
        "  Total: " ++ c.total.repr ++ "  Passed: " ++ c.passed.repr ++ "  Failed: " ++
          c.failed.repr,
        rule] }

/-- The text of a report. -/
def text (c : Checklist) : String := String.join (c.lines.map (· ++ "\n"))

end Checklist

end Proactor
