import Proactor.Bytes
import Proactor.Completion
import Proactor.Fault

/-!
# Callbacks

What is run when an operation is over: a tag to know it by, and a list of actions. An action
may post a further callback, look at a buffer, ask how many callbacks wait to be run, copy bytes
to a buffer, or act further while it has a buffer borrowed. What callbacks did is kept as a list
of calls.
-/

namespace Proactor

/-- One thing a callback does. -/
inductive Action where
  /-- Posts the callback with this tag and these actions. -/
  | post (tag : String) (actions : List Action)
  /-- Looks at the buffer that a handle names. -/
  | peek (handle : String)
  /-- Asks how many posted callbacks wait. -/
  | pending
  /-- Copies to the front of the buffer that a handle names, unless somebody holds it. -/
  | fill (handle : String) (content : Bytes)
  /-- Borrows the buffer that a handle names, unless somebody holds it, overwrites its front and
  acts further before it gives the buffer back. -/
  | borrow (handle : String) (content : Bytes) (actions : List Action)
  deriving Repr, Inhabited

/-- What is run when an operation is over. -/
structure Callback where
  tag : String
  actions : List Action := []
  deriving Repr, Inhabited

/-- The callback that does nothing. -/
def Callback.silent : Callback := { tag := "" }

/-- What a callback did. -/
inductive Call where
  | ran (tag : String) (outcome : Outcome)
  | posted (result : Except Fault Unit)
  | peeked (lent : Bool) (content : Option Bytes)
  | pending (n : Nat)

end Proactor
