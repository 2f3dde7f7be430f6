import Proactor.Callback
import Proactor.Memory
import Proactor.Notice
import Proactor.Os

/-!
# Worlds

What callbacks can reach: the host, the buffers and the injector, together with the record of
what they did. The injector is a queue of posted callbacks, first come first served, and an
event counter that every post adds to, so that one read of the counter notices all posts since
the last. A closed injector takes nothing.
-/

namespace Proactor

/-- Posted callbacks in order, and the counter through which an engine notices them. -/
structure Injector where
  queue : List Callback := []
  closed : Bool := false
  /-- The descriptor of the event counter. -/
  wake : Fd

/-- The text that shows an injector in messages. -/
def Injector.describe (i : Injector) : String :=
  "Injector \x7b pending: " ++ i.queue.length.repr ++ ", closed: " ++
    (if i.closed then "true" else "false") ++ " \x7d"

/-- What callbacks can reach, and what they did. -/
structure World (H : Type) where
  host : H
  memory : Memory := {}
  injector : Injector
  journal : List Notice := []
  calls : List Call := []

namespace World

variable {H : Type} [Os H]

/-- The world with one more notice in its journal. -/
def note (w : World H) (n : Notice) : World H := { w with journal := w.journal ++ [n] }

/-- The world with one more call on record. -/
def record (w : World H) (c : Call) : World H := { w with calls := w.calls ++ [c] }

/-- Adds to the event counter. A counter that can take no more is as good as one just added
to. -/
def wake (w : World H) : World H × Except Fault Unit :=
  match Os.eventAdd w.host w.injector.wake with
  | (host, .ok ()) => ({ w with host }, .ok ())
  | (host, .error e) =>
    ({ w with host }, if e = Errno.again then .ok () else .error (.system e))

/-- The world with a callback at the end of the queue. -/
def enqueue (w : World H) (cb : Callback) : World H :=
  { w with injector := { w.injector with queue := w.injector.queue ++ [cb] } }

/-- Posts a callback: queues it and adds to the event counter. -/
def post (w : World H) (cb : Callback) : World H × Except Fault Unit :=
  if w.injector.closed then (w, .error (.invalidArgument .engineShutDown))
  else (w.enqueue cb).wake

/-- Takes the first of the posted callbacks. -/
def pop (w : World H) : Option (Callback × World H) :=
  match w.injector.queue with
  | cb :: queue => some (cb, { w with injector := { w.injector with queue } })
  | [] => none

/-- Callbacks posted and not yet run. -/
def pending (w : World H) : Nat := w.injector.queue.length

/-- Copies to the front of the buffer that a handle names; nothing happens if somebody holds
it, or if there is none. -/
def fill (w : World H) (handle : String) (content : Bytes) : World H :=
  match (w.memory.find? handle).bind (w.memory.fill? · content) with
  | some (memory, _) => { w with memory }
  | none => w

/-- The storage that a handle names, and memory with it borrowed and its front overwritten. -/
def borrow? (w : World H) (handle : String) (content : Bytes) : Option (StorageId × World H) := do
  let id ← w.memory.find? handle
  let memory ← w.memory.borrow? id
  return (id, { w with memory := memory.modifyBytes id (Bytes.overwrite · content) })

/-- The world with a storage given back. -/
def release (w : World H) (id : StorageId) : World H := { w with memory := w.memory.release id }

mutual

/-- The world after one action of a callback. A handle that names no buffer to look at counts as
asking how many callbacks wait. -/
def act (w : World H) : Action → World H
  | .post tag actions =>
    let (w, result) := w.post ⟨tag, actions⟩
    w.record (.posted result)
  | .peek handle =>
    match w.memory.find? handle with
    | some id => w.record (.peeked (w.memory.isLent id) (w.memory.read? id))
    | none => w.record (.pending w.pending)
  | .pending => w.record (.pending w.pending)
  | .fill handle content => w.fill handle content
  | .borrow handle content actions =>
    match w.borrow? handle content with
    | some (id, w) => (acts w actions).release id
    | none => w

/-- The world after actions of a callback, one after the other. -/
def acts (w : World H) : List Action → World H
  | [] => w
  | a :: as => acts (act w a) as

end

/-- The world after a callback was run with an outcome. -/
def run (w : World H) (cb : Callback) (o : Outcome) : World H :=
  (w.record (.ran cb.tag o)).acts cb.actions

end World

end Proactor
