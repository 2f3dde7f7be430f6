import Proactor.Host.Calls

/-!
# Operations that wait

What rings carry out for entries that they took. Whenever something changes on the host,
operations that wait and could now be over are tried again; one that finds that another was
faster goes on waiting, behind all others. That an operation waits in vain is found out only
while somebody waits for it.
-/

namespace Proactor.Host

/-- The queue of a ring. -/
def ring? (h : Host) (id : FileId) : Option RingQueue :=
  match h.file? id with
  | some (.ring q) => some q
  | _ => none

/-- The host with a ring's queue changed. -/
def modifyRing (h : Host) (id : FileId) (g : RingQueue → RingQueue) : Host :=
  h.modifyFile id fun f =>
    match f.file with
    | .ring q => { f with file := .ring (g q) }
    | _ => f

/-- Posts a completion, which has to stand behind those that there was no room for. -/
def postCompletion (h : Host) (ring : FileId) (token : Token) (n : Int64) (t : Transfer) : Host :=
  h.modifyRing ring fun q =>
    let c : Completion × Transfer := ({ token, result := n }, t)
    if q.overflow.isEmpty && decide (q.completions.length < q.room) then
      { q with completions := q.completions ++ [c] }
    else { q with overflow := q.overflow ++ [c] }

/-- Completions that there was no room for are posted as far as there is room now. -/
def postOverflow (h : Host) (ring : FileId) : Host :=
  h.modifyRing ring fun q =>
    let n := q.room - q.completions.length
    { q with completions := q.completions ++ q.overflow.take n, overflow := q.overflow.drop n }

/-- The request refuses to wait. -/
def refusesToWait : Request → Bool
  | .receive _ _ flags => hasFlag flags flagDontWait
  | .send _ _ flags => hasFlag flags flagDontWait
  | _ => false

/-- What an attempt at an operation comes to. -/
inductive Tried where
  | over (n : Int64) (t : Transfer)
  /-- It has to wait, with what it received up to now. -/
  | waiting (r : Running)

/-- The operation receives from a stream until there is no room for more. -/
def gathers (h : Host) (r : Running) : Bool :=
  match r.request, h.socket? r.file with
  | .receive _ _ flags, some s => hasFlag flags flagWaitAll && s.type == .stream
  | _, _ => false

/-- What remains of a request after `n` bytes were received for it. -/
def requestBehind (n : Nat) : Request → Request
  | .receive room nameRoom flags => .receive (room - n) nameRoom flags
  | r => r

/-- An operation that receives until there is no room for more has received more, or has come to
the end of the stream. -/
def gather (r : Running) (n : Int64) (t : Transfer) : Tried :=
  match r.request with
  | .receive room _ _ =>
    let received := r.received ++ t.data
    let isOver := decide (n.toInt ≤ 0 ∨ room ≤ received.length) || refusesToWait r.request
    if n.toInt ≤ 0 ∧ r.received = [] then .over n t
    else if isOver then .over (Int64.ofNat received.length) { t with data := received }
    else .waiting { r with received }
  | _ => .over n t

/-- One attempt at an operation that a ring carries out. -/
def tryRunning (h : Host) (r : Running) : Host × Tried :=
  match h.perform r.file (requestBehind r.received.length r.request) with
  | (after, some (n, t)) => (after, if h.gathers r then gather r n t else .over n t)
  | (after, none) =>
    (after,
      if refusesToWait r.request then .over (Int64.ofInt (-Errno.again.toInt)) {} else .waiting r)

/-- What a ring is to do next on its own. -/
inductive Due where
  /-- An operation that waited is tried again. -/
  | retry (r : Running)
  | post (token : Token) (n : Int64) (t : Transfer)

/-- A host, and what a ring on it is to do next, the first first. -/
abbrev Pending := Host × List Due

/-- The operation waits for a connection. -/
def isAccepting (r : Running) : Bool :=
  match r.request with
  | .accept .. | .unmapped (.accept ..) => true
  | _ => false

/-- Operations in the order in which they notice that something happened: the one that began to
wait last is first, but connections go to the one that has waited longest. -/
def wakingOrder (l : List Running) : List Running :=
  (l.filter (!isAccepting ·)).reverse ++ l.filter isAccepting

/-- The request moves data out. -/
def isOutput : Request → Bool
  | .write _ | .send .. | .unmapped (.write _) | .unmapped (.send ..) => true
  | _ => false

/-- The file of an operation polls ready for what it moves out. -/
def mayMoveOut (h : Host) (r : Running) : Bool :=
  match h.file? r.file with
  | some file => !isOutput r.request || h.isReady r.file .output file
  | none => true

/-- What is queued for a socket. -/
def queueOf (h : Host) (id : FileId) : List Message := ((h.socket? id).map Socket.queue).getD []

/-- The operation is to be tried again: it can be over, or takes something from its file. -/
def isWoken (h : Host) (r : Running) : Bool :=
  h.mayMoveOut r && match h.tryRunning r with
    | (_, .over ..) => true
    | (after, .waiting still) =>
      still.received.length != r.received.length || after.queueOf r.file != h.queueOf r.file

/-- Operations for which something happened are to be tried again. -/
def wake (ring : FileId) (s : Pending) : Pending :=
  let (h, due) := s
  let waiting := ((h.ring? ring).map RingQueue.running).getD []
  (h.modifyRing ring fun q => { q with running := waiting.filter (!h.isWoken ·) },
    due ++ ((wakingOrder waiting).filter h.isWoken).map .retry)

/-- The end of an operation is told only after all else that is to be done, if it is that of a
write that fails on its file. -/
def isLate (r : Running) (n : Int64) : Bool :=
  match r.request with
  | .write _ | .unmapped (.write _) =>
    decide (n.toInt < 0 ∧ n.toInt ≠ -Errno.badDescriptor.toInt)
  | _ => false

/-- Makes an operation wait. -/
def await (h : Host) (ring : FileId) (r : Running) : Host :=
  h.modifyRing ring fun q => { q with running := q.running ++ [r] }

/-- Tells the end of an operation, now or after all else. -/
def tell (ring : FileId) (late : Bool) (s : Pending) (token : Token) (n : Int64) (t : Transfer) :
    Pending :=
  let (h, due) := s
  if late then (h, due ++ [.post token n t]) else (h.postCompletion ring token n t, due)

/-- Does what is due, and what becomes due by that, `n` things at most. -/
def runDue (ring : FileId) : Nat → Pending → Host
  | 0, (h, _) => h
  | _, (h, []) => h
  | steps + 1, (h, .post token n t :: due) =>
    runDue ring steps (h.postCompletion ring token n t, due)
  | steps + 1, (h, .retry r :: due) =>
    match h.tryRunning r with
    | (h, .over n t) =>
      let (h, due) := tell ring (isLate r n) (h, due) r.token n t
      runDue ring steps (wake ring (h.unhold r.file, due))
    | (h, .waiting r) => runDue ring steps (wake ring (h.await ring r, due))

/-- How much an operation may still receive. -/
def roomOf (r : Running) : Nat :=
  match r.request with
  | .receive room _ _ => room - r.received.length
  | _ => 0

/-- Does all that is due on a ring. Every operation is tried once for every other that is over,
and as often as it receives something. -/
def finishRing (ring : FileId) (s : Pending) : Host :=
  let waiting := ((s.1.ring? ring).map RingQueue.running).getD []
  let (h, due) := wake ring s
  let n := due.length + waiting.length + 1
  runDue ring (2 * n * n + n * (waiting.map roomOf).foldl (· + ·) 0) (h, due)

/-- The rings of a host. -/
def rings (h : Host) : List FileId :=
  (List.range h.files.length).filter fun id => (h.ring? id).isSome

/-- Ends all operations of rings that can be over. -/
def settle (h : Host) : Host := h.rings.foldl (fun h ring => finishRing ring (h, [])) h

/-- How an operation ends that waits for what cannot happen any more. -/
def endInVain (h : Host) (r : Running) : Attempt :=
  match (h.tryRunning r).2, h.endOfWaiting r.file r.request with
  | .waiting _, some end_ => if h.isNonblocking r.file then fail Errno.again else some end_
  | _, _ => none

/-- The host after an operation that waited in vain is over. -/
def dropInVain (ring : FileId) (h : Host) (r : Running) : Host :=
  match h.endInVain r with
  | some (n, t) => (h.postCompletion ring r.token n t).unhold r.file
  | none => h.await ring r

/-- Ends the operations of a ring that wait in vain. -/
def endAllInVain (h : Host) (ring : FileId) : Host :=
  let waiting := ((h.ring? ring).map RingQueue.running).getD []
  let h := h.modifyRing ring fun q => { q with running := [] }
  finishRing ring (waiting.foldl (dropInVain ring) h, [])

end Proactor.Host
